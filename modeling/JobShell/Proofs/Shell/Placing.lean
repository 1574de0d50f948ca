import JobShell.Proofs.Kernel.Arrival
import JobShell.Proofs.Kernel.Holding
import JobShell.Proofs.Kernel.Pipes
import JobShell.Proofs.Shell.Custody
import JobShell.Proofs.Shell.Restoration

namespace JobShell.Shell

open Kernel (Arrives Ends Finishes Holds Valid ends_bind ends_pure ends_ask finishes_ask finishes_pure)

variable {refuses : Refusals} {k₀ k k₁ k' : Kernel} {s s' : Shell} {α β : Type}

/-- The end to read from, or to write to, of one of the pipes made since the first state. -/
def reader (k₀ k : Kernel) (i : Nat) : Option Nat := (k.pipeEnds k₀.files.length)[2 * i]?

def writer (k₀ k : Kernel) (i : Nat) : Option Nat := (k.pipeEnds k₀.files.length)[2 * i + 1]?

/-- One of `n` stages stands between the pipes, the first and the last at the descriptors that the shell
had at first; none of its other numbers stands for an end of a pipe. -/
structure Wired (k₀ k : Kernel) (n i : Nat) : Prop where
  input : k.file? Sys.stdin = match i with
    | 0 => k₀.file? Sys.stdin
    | j + 1 => reader k₀ k j
  output : k.file? Sys.stdout = if i + 1 < n then writer k₀ k i else k₀.file? Sys.stdout
  attached : (k.file? Sys.stdin).isSome ∧ (k.file? Sys.stdout).isSome
  alone : ∀ fd f, k.file? fd = some f → f ∈ k.pipeEnds k₀.files.length →
    fd = Sys.stdin ∨ fd = Sys.stdout

theorem ends_dropEach {fd : Option Int} (h : Ends refuses k (fd.forM Sys.drop) () k') (n : Int) :
    k'.file? n = if fd = some n then none else k.file? n := by
  cases fd with
  | none =>
    obtain ⟨-, rfl⟩ := ends_pure.1 h
    rfl
  | some fd =>
    rw [Kernel.file?_update (Kernel.ends_drop h).1]
    by_cases hn : n = fd
    · subst hn
      simp
    · have hne : some fd ≠ some n := fun h ↦ hn (Option.some.inj h).symm
      rw [Function.update_of_ne hn, if_neg hne]

theorem ends_releaseAll {fds : List (Option Int)} (h : Ends refuses k (releaseAll fds) () k')
    (n : Int) : k'.file? n = if some n ∈ fds then none else k.file? n := by
  induction fds generalizing k with
  | nil =>
    obtain ⟨-, rfl⟩ := ends_pure.1 h
    rfl
  | cons fd fds ih =>
    obtain ⟨_, k₁, hdrop, hrest⟩ := ends_bind.1 h
    rw [ih hrest, ends_dropEach hdrop]
    by_cases hn : fd = some n
    · simp [hn]
    · have hne : some n ≠ fd := fun h ↦ hn h.symm
      rw [if_neg hn]
      simp only [List.mem_cons, hne, false_or]

theorem ends_attach {e : Option (Int × Nat)} {stream : Int} (hvalid : Valid stream)
    (hopen : ∀ x, e = some x → k.file? x.1 = some x.2 ∧ x.1 ≠ stream)
    (h : Ends refuses k (attach (e.map (·.1)) stream) () k') (m : Int) :
    k'.file? m = if e.map (·.1) = some m then none
      else if m = stream then e.elim (k.file? m) (some ·.2) else k.file? m := by
  cases e with
  | none =>
    obtain ⟨-, rfl⟩ := ends_pure.1 h
    simp
  | some x =>
    obtain ⟨hfile, hne⟩ := hopen x rfl
    obtain ⟨r, k₁, hmove, hnext⟩ := ends_bind.1 h
    obtain ⟨rfl, -, hmoved⟩ := Kernel.file?_duplicate (ends_ask.1 hmove) hfile hvalid
    rw [Kernel.file?_update (Kernel.ends_drop hnext).1, hmoved]
    by_cases hm : m = x.1
    · subst hm
      simp
    · have hother : Option.map (·.1) (some x) ≠ some m := fun h ↦ hm (Option.some.inj h).symm
      rw [Function.update_of_ne hm, if_neg hother]
      by_cases hstream : m = stream
      · rw [hstream, Function.update_self, if_pos rfl, Option.elim_some]
      · rw [Function.update_of_ne hstream, if_neg hstream]

theorem every_attach (fd : Option Int) (stream : Int) : (attach fd stream).Every Call.isPlain := by
  cases fd with
  | none => trivial
  | some fd =>
    refine (Sys.every_ask trivial).bind fun answer ↦ ?_
    cases answer with
    | ok _ => exact Redirect.every_drop fd
    | error e => exact ⟨trivial, fun r ↦ r.elim⟩

theorem plain_pipeEnds {x : Sys α} {a : α} (first : Nat) (hx : x.Every Call.isPlain)
    (h : Ends refuses k x a k') :
    k'.pipeEnds first = k.pipeEnds first ∧ k.files.length ≤ k'.files.length :=
  h.pipeEnds (hx.mono Call.ne_pipe_of_isPlain).only

theorem calls_joinGroup (st : Stage) : Calls Call.isStill (system (joinGroup st)) := by
  refine calls_system ?_
  rw [joinGroup]
  split
  · refine (Sys.every_ask trivial).bind fun pid ↦ (Sys.every_ask trivial).bind fun _ ↦ ?_
    split
    · exact (Sys.every_ask trivial).bind fun _ ↦ Sys.every_pure _
    · exact Sys.every_pure _
  · exact Sys.every_pure _

/-- What the shell has opened for a stage, each with its open file: the end that the stage reads from, the
two of the pipe to the next stage, and its here-documents. -/
structure Held where
  incoming : Option (Int × Nat) := none
  next : Option (Int × Nat) := none
  output : Option (Int × Nat) := none
  documents : List (Int × Nat) := []

def Held.all (h : Held) : List (Int × Nat) :=
  h.incoming.toList ++ h.next.toList ++ h.output.toList ++ h.documents

theorem Held.mem_all {h : Held} {e : Int × Nat} : e ∈ h.all ↔
    h.incoming = some e ∨ h.next = some e ∨ h.output = some e ∨ e ∈ h.documents := by
  simp [Held.all]

def source (k₀ k : Kernel) : Nat → Option Nat
  | 0 => none
  | j + 1 => reader k₀ k j

theorem reader_congr (h : k'.pipeEnds k₀.files.length = k.pipeEnds k₀.files.length) (j : Nat) :
    reader k₀ k' j = reader k₀ k j := by
  rw [reader, h, reader]

theorem writer_congr (h : k'.pipeEnds k₀.files.length = k.pipeEnds k₀.files.length) (j : Nat) :
    writer k₀ k' j = writer k₀ k j := by
  rw [writer, h, writer]

theorem source_congr {i : Nat} (h : ∀ j < i, reader k₀ k' j = reader k₀ k j) :
    source k₀ k' i = source k₀ k i := by
  cases i with
  | zero => rfl
  | succ j => exact h j (Nat.lt_succ_self j)

/-- The shell is at a stage, has made so many pipes and holds this beside its own descriptors. -/
structure Ready (k₀ k : Kernel) (i made : Nat) (h : Held) : Prop where
  sound : k.Sound
  later : k₀.files.length ≤ k.files.length
  holds : Holds k₀ k h.all
  count : (k.pipeEnds k₀.files.length).length = 2 * made
  incoming : h.incoming.map (·.2) = source k₀ k i
  next : h.next.map (·.2) = reader k₀ k i
  output : h.output.map (·.2) = writer k₀ k i
  documents : ∀ e ∈ h.documents, e.2 ∉ k.pipeEnds k₀.files.length

variable {i made : Nat} {held : Held}

theorem ready_self (h : k.Sound) : Ready k k 0 0 {} where
  sound := h
  later := Nat.le_refl _
  holds := Kernel.holds_nil rfl
  count := by rw [k.pipeEnds_self]; rfl
  incoming := rfl
  next := by rw [reader, k.pipeEnds_self]; rfl
  output := by rw [writer, k.pipeEnds_self]; rfl
  documents := fun _ he ↦ nomatch he

theorem Ready.of_eq (h : Ready k₀ k i made held) (hsound : k'.Sound) (hfile : k'.file? = k.file?)
    (hends : k'.pipeEnds k₀.files.length = k.pipeEnds k₀.files.length)
    (hlater : k.files.length ≤ k'.files.length) : Ready k₀ k' i made held := by
  constructor
  · exact hsound
  · exact Nat.le_trans h.later hlater
  · exact h.holds.of_file? hfile
  · rw [hends, h.count]
  · rw [h.incoming, source_congr fun j _ ↦ reader_congr hends j]
  · rw [h.next, reader_congr hends]
  · rw [h.output, writer_congr hends]
  · rw [hends]
    exact h.documents

theorem Still.keeps {x : Act α} {r : Except Defect α} (hx : Still x)
    (h : Ends refuses k (x.run.run s) (r, s') k') (first : Nat) :
    k'.file? = k.file? ∧ k'.pipeEnds first = k.pipeEnds first ∧ k.files.length ≤ k'.files.length := by
  have hplain : Sys.Only (· ≠ .pipe) (x.run.run s) := (hx s).mono fun c hc ↦
    Call.ne_pipe_of_isPlain c (Call.isPlain_of_isStill c hc)
  refine ⟨?_, h.pipeEnds hplain⟩
  funext fd
  exact Kernel.file?_congr (congrFun (hx.ends h) fd)

theorem Ready.still {x : Act α} {r : Except Defect α} (h : Ready k₀ k i made held) (hx : Still x)
    (hends : Ends refuses k (x.run.run s) (r, s') k') : Ready k₀ k' i made held :=
  let ⟨hfile, hpipes, hlater⟩ := hx.keeps hends _
  h.of_eq (hends.sound h.sound) hfile hpipes hlater

theorem calls_resetSignals : Calls Call.isStill resetSignals := by
  rw [resetSignals]
  generalize Signal.chld :: terminalSignals = signals
  induction signals with
  | nil => exact calls_pure _
  | cons signal signals ih =>
    have hset : Calls Call.isStill (ask (.setDisposition signal .default)) := calls_ask trivial
    exact (hset.bind fun _ ↦ calls_pure _).bind fun _ ↦ ih

theorem steady_resetSignals : Steady resetSignals := by
  rw [resetSignals]
  generalize Signal.chld :: terminalSignals = signals
  induction signals with
  | nil => exact steady_pure _
  | cons signal signals ih =>
    exact ((steady_system _).bind fun _ ↦ steady_pure _).bind fun _ ↦ ih

theorem ends_takePlace {st : Stage} {r : Except Defect Unit}
    (h : Ends refuses k ((takePlace st).run.run s) (r, s') k') (first : Nat) :
    ∃ k₁ k₂, k₁.descriptor? = k.descriptor? ∧ k₁.pipeEnds first = k.pipeEnds first ∧
      Ends refuses k₁ (attach st.input Sys.stdin) () k₂ ∧
      Ends refuses k₂ (attach st.output Sys.stdout) () k' := by
  obtain ⟨_, s₁, k₁, hjoin, h⟩ := ends_bind_of_steady (steady_system _) h
  obtain ⟨_, s₂, k₂, hreset, h⟩ := ends_bind_of_steady steady_resetSignals h
  obtain ⟨_, s₃, k₃, hsub, h⟩ := ends_bind_of_steady (steady_modify _) h
  obtain ⟨_, s₄, k₄, hinput, houtput⟩ := ends_bind_of_steady (steady_system _) h
  obtain ⟨_, -, -, hinput⟩ := ends_system hinput
  obtain ⟨_, -, -, houtput⟩ := ends_system houtput
  obtain ⟨-, hends₁, -⟩ := (calls_joinGroup st).still.keeps hjoin first
  obtain ⟨-, hends₂, -⟩ := calls_resetSignals.still.keeps hreset first
  obtain ⟨-, hends₃, -⟩ := (still_modify _).keeps hsub first
  have hnumbers : k₃.descriptor? = k.descriptor? :=
    ((still_modify _).ends hsub).trans ((calls_resetSignals.still.ends hreset).trans ((calls_joinGroup st).still.ends hjoin))
  exact ⟨k₃, k₄, hnumbers, hends₃.trans (hends₂.trans hends₁), hinput, houtput⟩

theorem Ready.ne_own {fd : Int} {e : Int × Nat} (hready : Ready k₀ k i made held)
    (hfd : (k₀.file? fd).isSome) (he : e ∈ held.all) : e.1 ≠ fd := by
  rintro rfl
  rw [hready.holds.free e he] at hfd
  cases hfd

theorem Ready.own {fd : Int} (hready : Ready k₀ k i made held) (hfd : (k₀.file? fd).isSome) :
    k.file? fd = k₀.file? fd := by
  refine hready.holds.own fd fun hmem ↦ ?_
  obtain ⟨e, he, heq⟩ := List.mem_map.1 hmem
  exact hready.ne_own hfd he heq

theorem Ready.apart (hready : Ready k₀ k i made held) {a b : Int × Nat} :
    (held.incoming = some a → held.next = some b → a.1 ≠ b.1) ∧
      (held.incoming = some a → held.output = some b → a.1 ≠ b.1) ∧
        (held.next = some a → held.output = some b → a.1 ≠ b.1) := by
  have hnodup := hready.holds.nodup
  simp only [Held.all, List.map_append] at hnodup
  obtain ⟨hends, -, -⟩ := List.nodup_append.1 hnodup
  obtain ⟨hinner, -, houtput⟩ := List.nodup_append.1 hends
  obtain ⟨-, -, hnext⟩ := List.nodup_append.1 hinner
  have hmem {o : Option (Int × Nat)} {e : Int × Nat} (h : o = some e) : e.1 ∈ o.toList.map (·.1) := by
    simp [h]
  exact ⟨fun ha hb ↦ hnext _ (hmem ha) _ (hmem hb),
    fun ha hb ↦ houtput _ (List.mem_append_left _ (hmem ha)) _ (hmem hb),
    fun ha hb ↦ houtput _ (List.mem_append_right _ (hmem ha)) _ (hmem hb)⟩

def Held.place (h : Held) (group : Option Int) (jobControl foreground : Bool) : Stage :=
  ⟨group, h.incoming.map (·.1), h.output.map (·.1), jobControl, foreground⟩

theorem map_fst_ne {o : Option (Int × Nat)} {fd : Int} (h : ∀ e, o = some e → e.1 ≠ fd) :
    o.map (·.1) ≠ some fd := by
  simpa using fun f hf ↦ h _ hf rfl

section Placing

variable {u v : Kernel} (hready : Ready k₀ k i made held)
  (hdropped : ∀ fd, u.file? fd = if held.next.map (·.1) = some fd then none else k.file? fd)

include hready hdropped

theorem Ready.reads (hin : (k₀.file? Sys.stdin).isSome) (a : Int × Nat) (ha : held.incoming = some a) :
    u.file? a.1 = some a.2 ∧ a.1 ≠ Sys.stdin := by
  have hmem : a ∈ held.all := Held.mem_all.2 (.inl ha)
  refine ⟨?_, hready.ne_own hin hmem⟩
  rw [hdropped, if_neg (map_fst_ne fun b hb ↦ (hready.apart.1 ha hb).symm), hready.holds.has a hmem]

theorem Ready.writes (hin : (k₀.file? Sys.stdin).isSome) (hout : (k₀.file? Sys.stdout).isSome)
    (hmoved : ∀ fd, v.file? fd = if held.incoming.map (·.1) = some fd then none
      else if fd = Sys.stdin then held.incoming.elim (u.file? fd) (some ·.2) else u.file? fd)
    (b : Int × Nat) (hb : held.output = some b) : v.file? b.1 = some b.2 ∧ b.1 ≠ Sys.stdout := by
  have hmem : b ∈ held.all := Held.mem_all.2 (.inr (.inr (.inl hb)))
  refine ⟨?_, hready.ne_own hout hmem⟩
  rw [hmoved, if_neg (map_fst_ne fun a ha ↦ hready.apart.2.1 ha hb), if_neg (hready.ne_own hin hmem),
    hdropped, if_neg (map_fst_ne fun c hc ↦ hready.apart.2.2 hc hb), hready.holds.has b hmem]

end Placing

theorem valid_stdin : Valid Sys.stdin := by decide

theorem valid_stdout : Valid Sys.stdout := by decide

/-- A child closes the end that the next stage reads from, and moves its own two to its streams. -/
theorem Ready.placed {group : Option Int} {jobControl foreground : Bool} {r : Except Defect Unit}
    (hready : Ready k₀ k i made held) (hin : (k₀.file? Sys.stdin).isSome)
    (hout : (k₀.file? Sys.stdout).isSome)
    (h : Ends refuses k ((do
      system ((held.next.map (·.1)).forM Sys.drop)
      takePlace (held.place group jobControl foreground) : Act Unit).run.run s) (r, s') k') :
    k'.pipeEnds k₀.files.length = k.pipeEnds k₀.files.length ∧
      k'.file? Sys.stdin = held.incoming.elim (k₀.file? Sys.stdin) (some ·.2) ∧
      k'.file? Sys.stdout = held.output.elim (k₀.file? Sys.stdout) (some ·.2) ∧
      ∀ fd, fd ≠ Sys.stdin → fd ≠ Sys.stdout → k'.file? fd =
        if held.output.map (·.1) = some fd then none
        else if held.incoming.map (·.1) = some fd then none
        else if held.next.map (·.1) = some fd then none else k.file? fd := by
  have hown {o : Option (Int × Nat)} {fd : Int} (hfd : (k₀.file? fd).isSome)
      (h : ∀ e, o = some e → e ∈ held.all) : o.map (·.1) ≠ some fd :=
    map_fst_ne fun e he ↦ hready.ne_own hfd (h e he)
  have hincoming (e) (he : held.incoming = some e) : e ∈ held.all := Held.mem_all.2 (.inl he)
  have hnext (e) (he : held.next = some e) : e ∈ held.all := Held.mem_all.2 (.inr (.inl he))
  have houtgoing (e) (he : held.output = some e) : e ∈ held.all :=
    Held.mem_all.2 (.inr (.inr (.inl he)))
  obtain ⟨_, s₁, k₁, hdropped, hplace⟩ := ends_bind_of_steady (steady_system _) h
  obtain ⟨_, -, -, hdrop⟩ := ends_system hdropped
  obtain ⟨k₂, k₃, hjoined, hends, hinput, houtput⟩ := ends_takePlace hplace k₀.files.length
  have hbefore (fd : Int) : k₂.file? fd = if held.next.map (·.1) = some fd then none else k.file? fd := by
    rw [Kernel.file?_congr (congrFun hjoined fd), ends_dropEach hdrop]
  have hfirst := ends_attach valid_stdin (hready.reads hbefore hin) hinput
  have hlast := ends_attach valid_stdout (hready.writes hbefore hin hout hfirst) houtput
  refine ⟨?_, ?_, ?_, fun fd h0 h1 ↦ ?_⟩
  · have hmoved := (plain_pipeEnds k₀.files.length (every_attach _ _) hinput).1
    have hmoved' := (plain_pipeEnds k₀.files.length (every_attach _ _) houtput).1
    have hdropped := (plain_pipeEnds k₀.files.length (Redirect.every_dropEach _) hdrop).1
    rw [hmoved', hmoved, hends, hdropped]
  · rw [hlast, if_neg (hown hin houtgoing), if_neg (by decide), hfirst, if_neg (hown hin hincoming),
      if_pos rfl, hbefore, if_neg (hown hin hnext), hready.own hin]
  · rw [hlast, if_neg (hown hout houtgoing), if_pos rfl, hfirst, if_neg (hown hout hincoming),
      if_neg (by decide), hbefore, if_neg (hown hout hnext), hready.own hout]
  · rw [hlast, if_neg h1, hfirst, if_neg h0, hbefore]

theorem ends_then {x : Act α} {f : α → Act β} {a : α} {s₁ : Shell} {r : Except Defect β}
    (hx : Ends refuses k (x.run.run s) (.ok a, s₁) k₁)
    (hf : Ends refuses k₁ ((f a).run.run s₁) (r, s') k') : Ends refuses k ((x >>= f).run.run s) (r, s') k' :=
  ends_bind.2 ⟨_, _, hx, hf⟩

theorem ends_of_system {x : Sys α} {a : α} (h : Ends refuses k x a k') :
    Ends refuses k ((system x).run.run s) (.ok a, s) k' :=
  ends_bind.2 ⟨_, _, ends_bind.2 ⟨_, _, h, ends_pure.2 ⟨rfl, rfl⟩⟩, ends_pure.2 ⟨rfl, rfl⟩⟩

theorem ends_joinGroup (refuses : Refusals) (k : Kernel) (st : Stage) :
    Ends refuses k (joinGroup st) () k := by
  rw [joinGroup]
  split
  · refine ends_bind.2 ⟨0, k, ends_ask.2 rfl, ends_bind.2 ⟨.ok (), k, ends_ask.2 rfl, ?_⟩⟩
    split
    · exact ends_bind.2 ⟨.ok (), k, ends_ask.2 rfl, ends_pure.2 ⟨rfl, rfl⟩⟩
    · exact ends_pure.2 ⟨rfl, rfl⟩
  · exact ends_pure.2 ⟨rfl, rfl⟩

theorem ends_resetSignals (refuses : Refusals) (k : Kernel) (s : Shell) :
    Ends refuses k (resetSignals.run.run s) (.ok (), s) k := by
  rw [resetSignals]
  generalize Signal.chld :: terminalSignals = signals
  induction signals with
  | nil => exact ends_pure.2 ⟨rfl, rfl⟩
  | cons signal signals ih =>
    have hset : Ends refuses k (Sys.ask (.setDisposition signal .default)) (.ok ()) k := ends_ask.2 rfl
    exact ends_then (ends_then (ends_of_system hset) (ends_pure.2 ⟨rfl, rfl⟩)) ih

theorem Ready.not_mem_pipeEnds {fd : Int} {f : Nat} (hready : Ready k₀ k i made held) (hsound : k₀.Sound)
    (hf : k.file? fd = some f) (hincoming : held.incoming.map (·.1) ≠ some fd)
    (hnext : held.next.map (·.1) ≠ some fd) (houtput : held.output.map (·.1) ≠ some fd) :
    f ∉ k.pipeEnds k₀.files.length := by
  intro hmem
  by_cases hheld : fd ∈ held.all.map (·.1)
  · -- what is left of what the shell held are the documents
    obtain ⟨e, he, rfl⟩ := List.mem_map.1 hheld
    obtain rfl : e.2 = f := Option.some.inj ((hready.holds.has e he).symm.trans hf)
    obtain he | he | he | he := Held.mem_all.1 he
    · exact hincoming (by rw [he]; rfl)
    · exact hnext (by rw [he]; rfl)
    · exact houtput (by rw [he]; rfl)
    · exact hready.documents e he hmem
  · rw [hready.holds.own fd hheld] at hf
    exact hsound.not_mem_pipeEnds hf hmem

theorem Ready.wired {group : Option Int} {jobControl foreground : Bool} {n : Nat}
    {r : Except Defect Unit} (hready : Ready k₀ k i made held) (hsound : k₀.Sound)
    (hin : (k₀.file? Sys.stdin).isSome) (hout : (k₀.file? Sys.stdout).isSome) (hmade : i ≤ made)
    (hn : held.output.isSome ↔ i + 1 < n)
    (h : Ends refuses k ((do
      system ((held.next.map (·.1)).forM Sys.drop)
      takePlace (held.place group jobControl foreground) : Act Unit).run.run s) (r, s') k') :
    Wired k₀ k' n i := by
  obtain ⟨hends, hinput, houtput, hothers⟩ := hready.placed hin hout h
  constructor
  · rw [hinput]
    cases i with
    | zero =>
      have hnone := Option.map_eq_none_iff.1 hready.incoming
      rw [hnone, Option.elim_none]
    | succ j =>
      have hj : 2 * j < (k.pipeEnds k₀.files.length).length := by
        rw [hready.count]
        omega
      have hread := hready.incoming
      rw [source, reader, List.getElem?_eq_getElem hj] at hread
      obtain ⟨a, ha, hfile⟩ := Option.map_eq_some_iff.1 hread
      simp only
      rw [reader, hends, List.getElem?_eq_getElem hj, ha, Option.elim_some, hfile]
  · rw [houtput, writer, hends, ← writer, ← hready.output]
    cases hoption : held.output with
    | none =>
      have hlast : ¬ i + 1 < n := fun hlt ↦ by simpa [hoption] using hn.2 hlt
      rw [if_neg hlast, Option.elim_none]
    | some b =>
      have hmore : i + 1 < n := hn.1 (by rw [hoption]; rfl)
      rw [if_pos hmore, Option.elim_some, Option.map_some]
  · rw [hinput, houtput]
    constructor
    · cases held.incoming with
      | none => exact hin
      | some a => rfl
    · cases held.output with
      | none => exact hout
      | some b => rfl
  · intro fd f hf hmem
    by_contra hstreams
    obtain ⟨h0, h1⟩ := not_or.1 hstreams
    rw [hothers fd h0 h1] at hf
    split_ifs at hf with hnoOutput hnoIncoming hnoNext
    rw [hends] at hmem
    exact hready.not_mem_pipeEnds hsound hf hnoIncoming hnoNext hnoOutput hmem

/-- What brings a child to its place: it joins its group, gives up its handlers, and closes and moves ends of pipes. -/
def isPlacing : Call → Prop
  | .ownPid | .setGroup _ _ | .setTerminalGroup _ _ | .setDisposition _ _ | .close _ => True
  | .duplicate _ target => target = Sys.stdin ∨ target = Sys.stdout
  | _ => False

theorem finishes_system {P : Call → Prop} {x : Sys α} (h : Finishes refuses P k x) :
    Finishes refuses P k ((system x).run.run s) :=
  (h.bind fun _ _ _ ↦ finishes_pure _).bind fun _ _ _ ↦ finishes_pure _

theorem finishes_then {P : Call → Prop} {x : Act α} {f : α → Act β}
    {Q : Sys (Except Defect β × Shell) → Kernel → Prop} (hsteady : Steady x)
    (hx : Finishes refuses P k (x.run.run s))
    (hf : ∀ a s₁ k₁, Ends refuses k (x.run.run s) (.ok a, s₁) k₁ → Arrives refuses P Q k₁ ((f a).run.run s₁)) :
    Arrives refuses P Q k ((x >>= f).run.run s) := by
  refine hx.arrives ?_
  rintro ⟨r, s₁⟩ k₁ hends
  cases r with
  | ok a => exact hf a s₁ k₁ hends
  | error d =>
    obtain ⟨t, hruns, -⟩ := hends
    exact absurd hruns (hsteady s t d s₁)

theorem finishes_drop (refuses : Refusals) (k : Kernel) (fd : Int) : Finishes refuses isPlacing k (Sys.drop fd) :=
  Finishes.bind (finishes_ask (c := .close fd) trivial ⟨_, _, rfl⟩) fun _ _ _ ↦ finishes_pure _

theorem finishes_dropEach (refuses : Refusals) (k : Kernel) (fd : Option Int) :
    Finishes refuses isPlacing k (fd.forM Sys.drop) := by
  cases fd with
  | none => exact finishes_pure _
  | some fd => exact finishes_drop refuses k fd

theorem finishes_attach {e : Option (Int × Nat)} {stream : Int} (refuses : Refusals)
    (hstream : stream = Sys.stdin ∨ stream = Sys.stdout)
    (hopen : ∀ x, e = some x → k.file? x.1 = some x.2 ∧ x.1 ≠ stream) :
    Finishes refuses isPlacing k (attach (e.map (·.1)) stream) := by
  have hvalid : Valid stream := by
    rcases hstream with rfl | rfl
    · exact valid_stdin
    · exact valid_stdout
  cases e with
  | none => exact finishes_pure _
  | some x =>
    refine Finishes.bind (finishes_ask hstream ⟨_, _, rfl⟩) fun r k₁ hmove ↦ ?_
    obtain ⟨rfl, -⟩ := Kernel.file?_duplicate (ends_ask.1 hmove) (hopen x rfl).1 hvalid
    exact finishes_drop refuses k₁ x.1

theorem finishes_joinGroup (refuses : Refusals) (k : Kernel) (st : Stage) :
    Finishes refuses isPlacing k (joinGroup st) := by
  rw [joinGroup]
  split
  · refine Finishes.bind (finishes_ask trivial ⟨0, k, rfl⟩) fun _ k₁ _ ↦ ?_
    refine Finishes.bind (finishes_ask trivial ⟨.ok (), k₁, rfl⟩) fun _ k₂ _ ↦ ?_
    split
    · exact Finishes.bind (finishes_ask trivial ⟨.ok (), k₂, rfl⟩) fun _ _ _ ↦ finishes_pure _
    · exact finishes_pure _
  · exact finishes_pure _

theorem finishes_resetSignals (refuses : Refusals) (k : Kernel) (s : Shell) :
    Finishes refuses isPlacing k (resetSignals.run.run s) := by
  rw [resetSignals]
  generalize Signal.chld :: terminalSignals = signals
  induction signals generalizing k s with
  | nil => exact finishes_pure _
  | cons signal signals ih =>
    have hset : Finishes refuses isPlacing k (Sys.ask (.setDisposition signal .default)) :=
      finishes_ask trivial ⟨.ok (), k, rfl⟩
    refine finishes_then ((steady_system _).bind fun _ ↦ steady_pure _) ?_ fun _ s₁ k₁ _ ↦ ih k₁ s₁
    exact finishes_then (steady_system _) (finishes_system hset) fun _ _ _ _ ↦ finishes_pure _

theorem steady_takePlace (st : Stage) : Steady (takePlace st) :=
  (steady_system _).bind fun _ ↦ steady_resetSignals.bind fun _ ↦ (steady_modify _).bind fun _ ↦
    (steady_system _).bind fun _ ↦ steady_system _

theorem Ready.finishes {u : Kernel} (hready : Ready k₀ k i made held) (hin : (k₀.file? Sys.stdin).isSome)
    (hout : (k₀.file? Sys.stdout).isSome)
    (hdropped : ∀ fd, u.file? fd = if held.next.map (·.1) = some fd then none else k.file? fd)
    (group : Option Int) (jobControl foreground : Bool) (s : Shell) :
    Finishes refuses isPlacing u ((takePlace (held.place group jobControl foreground)).run.run s) := by
  refine finishes_then (steady_system _) (finishes_system (finishes_joinGroup _ _ _)) fun _ s₁ k₁ h₁ ↦ ?_
  refine finishes_then steady_resetSignals (finishes_resetSignals _ _ _) fun _ s₂ k₂ h₂ ↦ ?_
  refine finishes_then (steady_modify _) (finishes_pure _) fun _ s₃ k₃ h₃ ↦ ?_
  have hjoined : k₃.descriptor? = u.descriptor? :=
    ((still_modify _).ends h₃).trans ((calls_resetSignals.still.ends h₂).trans ((calls_joinGroup _).still.ends h₁))
  have hbefore (fd : Int) : k₃.file? fd = if held.next.map (·.1) = some fd then none else k.file? fd := by
    rw [Kernel.file?_congr (congrFun hjoined fd), hdropped]
  have hreads := hready.reads hbefore hin
  refine finishes_then (steady_system _) (finishes_system (finishes_attach _ (.inl rfl) hreads)) fun _ s₄ k₄ h₄ ↦ ?_
  obtain ⟨_, -, -, hinput⟩ := ends_system h₄
  exact finishes_system (finishes_attach _ (.inr rfl) (hready.writes hbefore hin hout (ends_attach valid_stdin hreads hinput)))

/-- Carries out a command, and ends also when a defect arises in that. -/
def carryThrough (c : Command) (d : Redirect.Prepared) : Act (Except Failure Int) :=
  tryCatch (carryOut c d) fun _ ↦ do
    let _ ← flush
    leave brokenCode

/-- What a forked child has still to do when it stands where its stage stands: first it applies its redirections, as
part of carrying out its command. -/
structure Applies (c : Command) (d : Redirect.Prepared) (y : Sys β) : Prop where
  applies : ∃ rest, y = Redirect.apply d >>= rest
  carries : ∃ s after, y = (carryThrough c d).run.run s >>= after

theorem exists_caught (x : Act α) (handler : Defect → Act α) (s : Shell) :
    ∃ caught, (tryCatch x handler).run.run s = x.run.run s >>= caught := ⟨_, rfl⟩

theorem applies_carryThrough (c : Command) (d : Redirect.Prepared) (s : Shell)
    (after : Except Defect (Except Failure Int) × Shell → Sys β) :
    Applies c d ((carryThrough c d).run.run s >>= after) := by
  obtain ⟨rest, hrest⟩ : ∃ rest, (carryOut c d : Act (Except Failure Int)).run.run s = Redirect.apply d >>= rest :=
    ⟨_, run_system_bind _ _ s⟩
  obtain ⟨caught, hcaught⟩ : ∃ caught, (carryThrough c d).run.run s = (carryOut c d).run.run s >>= caught :=
    exists_caught _ _ s
  refine ⟨⟨fun applied ↦ rest applied >>= fun r ↦ caught r >>= after, ?_⟩, s, after, rfl⟩
  rw [hcaught, hrest, bind_assoc, bind_assoc]

section Child

variable {n : Nat} (hready : Ready k₀ k i made held) (hsound : k₀.Sound) (hin : (k₀.file? Sys.stdin).isSome)
  (hout : (k₀.file? Sys.stdout).isSome) (hmade : i ≤ made) (hn : held.output.isSome ↔ i + 1 < n) (c : Command)
  (d : Redirect.Prepared) (group : Option Int) (jobControl foreground : Bool) (s : Shell)

include hready hsound hin hout hmade hn

/-- A forked child closes the end that the next stage reads from, takes its place and then carries out its command. -/
theorem Ready.carries : Arrives refuses isPlacing
    (fun y k' ↦ (∃ s', y = (carryThrough c d).run.run s') ∧ Wired k₀ k' n i) k ((do
      system ((held.next.map (·.1)).forM Sys.drop)
      runChild c (held.place group jobControl foreground) d : Act (Except Failure Int)).run.run s) := by
  refine finishes_then (steady_system _) (finishes_system (finishes_dropEach _ _ _)) fun _ s₁ k₁ hdrop ↦ ?_
  obtain ⟨_, -, -, hdropped⟩ := ends_system hdrop
  have hplaced : Finishes refuses isPlacing k₁ ((takePlace (held.place group jobControl foreground)).run.run s₁) :=
    hready.finishes hin hout (ends_dropEach hdropped) group jobControl foreground s₁
  -- a defect is caught around both parts, so that the second is met before the handler is
  have hwork : Arrives refuses isPlacing
      (fun y k' ↦ (∃ s', y = (carryOut c d : Act (Except Failure Int)).run.run s') ∧ Wired k₀ k' n i) k₁
      ((do takePlace (held.place group jobControl foreground); carryOut c d : Act (Except Failure Int)).run.run s₁) :=
    finishes_then (steady_takePlace _) hplaced fun _ s₂ k₂ htaken ↦
      .here ⟨⟨s₂, rfl⟩, hready.wired hsound hin hout hmade hn (ends_then hdrop htaken)⟩
  refine hwork.bind ?_
  rintro _ k' ⟨⟨s', rfl⟩, hwired⟩
  exact .here ⟨⟨s', rfl⟩, hwired⟩

theorem Ready.applies (after : Except Defect (Except Failure Int) × Shell → Sys β) :
    Arrives refuses isPlacing (fun y k' ↦ Applies c d y ∧ Wired k₀ k' n i) k ((do
      system ((held.next.map (·.1)).forM Sys.drop)
      runChild c (held.place group jobControl foreground) d : Act (Except Failure Int)).run.run s >>= after) := by
  refine (hready.carries hsound hin hout hmade hn c d group jobControl foreground s).bind ?_
  rintro _ k' ⟨⟨s', rfl⟩, hwired⟩
  exact .here ⟨applies_carryThrough c d s' after, hwired⟩

end Child

end JobShell.Shell

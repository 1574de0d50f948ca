import JobShell.Proofs.Shell.Placing
import JobShell.Proofs.Sys.Progress

namespace JobShell.Shell

open Kernel (Arrives Ends Serves Holds ends_bind ends_pure ends_ask streams sound_streams)
open Redirect (Prepares)
open Sys (Leads)

variable {refuses : Refusals} {k₀ k k₁ k' : Kernel} {s s' : Shell} {α β : Type} {i made : Nat}
  {held : Held}

theorem ends_pipeTo {rest : Pipeline} {r : Except Defect (Except Failure (Option (Int × Int)))}
    (h : Ends refuses k ((pipeTo rest).run.run s) (r, s') k') :
    s' = s ∧ ((∃ f, r = .ok (.error f) ∧ k' = k) ∨ (rest = [] ∧ r = .ok (.ok none) ∧ k' = k) ∨
      ∃ input output k₁, rest ≠ [] ∧ r = .ok (.ok (some (input, output))) ∧
        k.Installed ⟨.pipe, none⟩ false input k₁ ∧ k₁.Installed ⟨.pipe, none⟩ false output k') := by
  rw [pipeTo] at h
  split at h
  · next hlast =>
    obtain ⟨⟨⟩, rfl⟩ := ends_pure.1 h
    exact ⟨rfl, .inr (.inl ⟨List.isEmpty_iff.1 hlast, rfl, rfl⟩)⟩
  · next hmore =>
    obtain ⟨answer, s₁, k₁, hasked, hend⟩ := ends_bind_of_steady (steady_system _) h
    obtain ⟨_, ⟨⟩, rfl, hpipe⟩ := ends_system hasked
    obtain ⟨e, rfl, rfl⟩ | ⟨input, output, k₂, rfl, hinput, houtput⟩ :=
      Kernel.answers_pipe (ends_ask.1 hpipe)
    · obtain ⟨⟨⟩, rfl⟩ := ends_pure.1 hend
      exact ⟨rfl, .inl ⟨_, rfl, rfl⟩⟩
    · obtain ⟨⟨⟩, rfl⟩ := ends_pure.1 hend
      refine ⟨rfl, .inr (.inr ⟨input, output, k₂, ?_, rfl, hinput, houtput⟩)⟩
      simpa using hmore

def pipesTo (i : Nat) (rest : Pipeline) : Nat := if rest.isEmpty then i else i + 1

theorem Ready.piped {incoming : Option (Int × Nat)} {rest : Pipeline}
    {r : Except Defect (Except Failure (Option (Int × Int)))} (hready : Ready k₀ k i i { incoming })
    (h : Ends refuses k ((pipeTo rest).run.run s) (r, s') k') :
    (∃ f, r = .ok (.error f) ∧ k' = k) ∨
      ∃ ends next output, r = .ok (.ok ends) ∧ ends.map (·.1) = next.map (·.1) ∧
        ends.map (·.2) = output.map (·.1) ∧ (output.isSome ↔ rest ≠ []) ∧
        Ready k₀ k' i (pipesTo i rest) { incoming, next, output } := by
  obtain ⟨rfl, ⟨f, rfl, rfl⟩ | ⟨rfl, rfl, rfl⟩ | ⟨input, output, k₁, hrest, rfl, hinput, houtput⟩⟩ :=
    ends_pipeTo h
  · exact .inl ⟨f, rfl, rfl⟩
  · exact .inr ⟨none, none, none, rfl, rfl, rfl, by simp, hready⟩
  · have hlength : k₁.files.length = k.files.length + 1 := by
      rw [hinput.files, List.length_append]
      rfl
    have hlength' : k'.files.length = k₁.files.length + 1 := by
      rw [houtput.files, List.length_append]
      rfl
    have hends := Kernel.pipeEnds_of_piped hready.later hinput houtput
    have hmade : pipesTo i rest = i + 1 := if_neg (by simpa using hrest)
    rw [hmade]
    refine .inr ⟨_, some (input, k.files.length), some (output, k₁.files.length), rfl, rfl, rfl,
      by simpa using hrest, ?_⟩
    constructor
    · exact houtput.sound (hinput.sound hready.sound)
    · have hlater := hready.later
      omega
    · simpa [Held.all] using (hready.holds.install hinput).install houtput
    · rw [hends, List.length_append, hready.count]
      rfl
    · -- the ends made before stay where they were
      have hkept (j : Nat) (hj : j < i) : reader k₀ k' j = reader k₀ k j := by
        have hlt : 2 * j < (k.pipeEnds k₀.files.length).length := by
          rw [hready.count]
          omega
        rw [reader, hends, List.getElem?_append_left hlt, reader]
      rw [hready.incoming, source_congr hkept]
    · rw [reader, hends, ← hready.count, List.getElem?_append_right (Nat.le_refl _), Nat.sub_self]
      rfl
    · rw [writer, hends, ← hready.count, List.getElem?_append_right (Nat.le_add_right _ 1),
        Nat.add_sub_cancel_left, hlength]
      rfl
    · intro e he
      cases he

theorem Ready.prepared {rs : List Redirection} {p : Redirect.Prepared} (hready : Ready k₀ k i made held)
    (h : Prepares k rs p k') : ∃ more, more.map (·.1) = Redirect.documents p ∧
      Ready k₀ k' i made { held with documents := held.documents ++ more } := by
  induction h generalizing held with
  | nil => exact ⟨[], rfl, by simpa using hready⟩
  | other _ _ ih => exact ih hready
  | @document k k₁ k' r rs p body template fd _ hinstalled _ ih =>
    have hends (first : Nat) : k₁.pipeEnds first = k.pipeEnds first :=
      hinstalled.pipeEnds (fun h ↦ by cases h)
    have hlength : k₁.files.length = k.files.length + 1 := by
      rw [hinstalled.files, List.length_append]
      rfl
    have hopened : Ready k₀ k₁ i made
        { held with documents := held.documents ++ [(fd, k.files.length)] } := by
      constructor
      · exact hinstalled.sound hready.sound
      · have hlater := hready.later
        omega
      · simpa [Held.all] using hready.holds.install hinstalled
      · rw [hends, hready.count]
      · rw [hready.incoming, source_congr fun j _ ↦ reader_congr (hends _) j]
      · rw [hready.next, reader_congr (hends _)]
      · rw [hready.output, writer_congr (hends _)]
      · rw [hends]
        intro e he
        rcases List.mem_append.1 he with he | he
        · exact hready.documents e he
        · obtain rfl := List.mem_singleton.1 he
          exact fun hmem ↦ Nat.lt_irrefl _ (Kernel.mem_pipeEnds hmem).2
    obtain ⟨more, hmore, hready'⟩ := ih hopened
    refine ⟨(fd, k.files.length) :: more, congrArg (fd :: ·) hmore, ?_⟩
    simpa using hready'

theorem mem_fst {o : Option (Int × Nat)} {fd : Int} :
    fd ∈ o.toList.map (·.1) ↔ some fd = o.map (·.1) := by
  cases o <;> simp

theorem file?_given_up {fds : List (Option Int)} {all : List (Int × Nat)} (h : Holds k₀ k all)
    (hfds : ∀ fd, some fd ∈ fds ↔ fd ∈ all.map (·.1))
    (hrelease : Ends refuses k (releaseAll fds) () k') : k'.file? = k₀.file? := by
  have hall : all.Perm ([] ++ all) := List.Perm.refl all
  refine (h.release hall fun fd ↦ ?_).file?
  rw [ends_releaseAll hrelease]
  simp only [hfds]

theorem file?_of_given_up {fds : List (Option Int)} {all : List (Int × Nat)} {a : α}
    {r : Except Defect α} (h : Holds k₀ k all) (hfds : ∀ fd, some fd ∈ fds ↔ fd ∈ all.map (·.1))
    (hgiven : Ends refuses k ((do system (releaseAll fds); pure a : Act α).run.run s) (r, s') k') :
    k'.file? = k₀.file? := by
  obtain ⟨_, s₁, k₁, hrelease, hend⟩ := ends_bind_of_steady (steady_system _) hgiven
  obtain ⟨-, rfl⟩ := ends_pure.1 hend
  obtain ⟨_, -, -, hrelease⟩ := ends_system hrelease
  exact file?_given_up h hfds hrelease

theorem Ready.undocumented {p : Redirect.Prepared} (hready : Ready k₀ k i made held)
    (hp : held.documents.map (·.1) = Redirect.documents p)
    (h : Ends refuses k (Redirect.release p) () k') : Holds k₀ k' { held with documents := [] }.all := by
  have hsplit : held.all.Perm ({ held with documents := [] }.all ++ held.documents) := by
    simp only [Held.all, List.append_nil]
    exact List.Perm.refl _
  refine hready.holds.release hsplit fun fd ↦ ?_
  rw [Kernel.file?, Redirect.ends_release h, hp]
  split <;> rfl

theorem Ready.released {p : Redirect.Prepared} {u v : Kernel} (hready : Ready k₀ k i made held)
    (hp : held.documents.map (·.1) = Redirect.documents p)
    (hinput : Ends refuses k (releaseAll [held.incoming.map (·.1)]) () u)
    (hdocuments : Ends refuses u (Redirect.release p) () v)
    (houtput : Ends refuses v (releaseAll [held.output.map (·.1)]) () k') :
    Holds k₀ k' held.next.toList ∧
      (made = i + 1 → Ready k₀ k' (i + 1) (i + 1) { incoming := held.next }) := by
  have hholds : Holds k₀ k' held.next.toList := by
    have hsplit : held.all.Perm
        (held.next.toList ++ (held.incoming.toList ++ held.output.toList ++ held.documents)) := by
      simp only [Held.all, List.append_assoc]
      exact List.perm_append_comm_assoc _ _ _
    refine hready.holds.release hsplit fun fd ↦ ?_
    have hclosed : v.file? fd = if fd ∈ Redirect.documents p then none else u.file? fd := by
      rw [Kernel.file?, Redirect.ends_release hdocuments]
      split <;> rfl
    rw [ends_releaseAll houtput, hclosed, ends_releaseAll hinput, ← hp]
    simp only [List.map_append, List.mem_append, mem_fst, List.mem_singleton]
    split_ifs <;> tauto
  refine ⟨hholds, fun hmade ↦ ?_⟩
  obtain ⟨hends₁, hlater₁⟩ := plain_pipeEnds k₀.files.length (every_releaseAll _) hinput
  obtain ⟨hends₂, hlater₂⟩ := plain_pipeEnds k₀.files.length (Redirect.every_release p) hdocuments
  obtain ⟨hends₃, hlater₃⟩ := plain_pipeEnds k₀.files.length (every_releaseAll _) houtput
  have hends := hends₃.trans (hends₂.trans hends₁)
  have hlength : (k'.pipeEnds k₀.files.length).length = 2 * (i + 1) := by
    rw [hends, hready.count, hmade]
  constructor
  · exact houtput.sound (hdocuments.sound (hinput.sound hready.sound))
  · have hlater := hready.later
    omega
  · simpa [Held.all] using hholds
  · exact hlength
  · rw [hready.next, source, reader_congr hends]
  · rw [reader, List.getElem?_eq_none (Nat.le_of_eq hlength)]
    rfl
  · rw [writer, List.getElem?_eq_none (by omega)]
    rfl
  · intro e he
    cases he

theorem steady_pipeTo (rest : Pipeline) : Steady (pipeTo rest) := by
  rw [pipeTo]
  split
  · exact steady_pure _
  · refine (steady_system _).bind fun answer ↦ ?_
    cases answer <;> exact steady_pure _

theorem steady_flushBeforeFork : Steady flushBeforeFork :=
  steady_flush.bind fun _ ↦ steady_logFailure _ _ _

theorem steady_enroll (spawned : Spawned) (c : Command) (jobControl : Bool) (pid : Int) :
    Steady (enroll spawned c jobControl pid) := by
  rw [enroll]
  split
  · exact (steady_system _).bind fun _ ↦ (steady_logFailure _ _ _).bind fun _ ↦ steady_pure _
  · exact steady_pure _

theorem steady_forkStage (c : Command) (st : Stage) (p : Redirect.Prepared) (next : Option Int) :
    Steady (forkStage c st p next) := by
  refine (steady_system _).bind fun answer ↦ ?_
  match answer with
  | .error e => exact steady_pure _
  | .ok (.parent pid) => exact steady_pure _
  | .ok .child =>
    refine (steady_system _).bind fun _ ↦ ?_
    exact fun s t d s' h ↦ final_runChild s t _ h

theorem ends_forkStage {c : Command} {st : Stage} {p : Redirect.Prepared} {next : Option Int}
    {r : Except Failure Int} (h : Ends refuses k ((forkStage c st p next).run.run s) (.ok r, s') k') :
    k' = k := by
  obtain ⟨answer, s₁, k₁, hasked, hnext⟩ := ends_bind_of_steady (steady_system _) h
  obtain ⟨_, ⟨⟩, -, hfork⟩ := ends_system hasked
  obtain rfl : k₁ = k := ends_ask.1 hfork
  match answer with
  | .error e => exact (ends_pure.1 hnext).2
  | .ok (.parent pid) => exact (ends_pure.1 hnext).2
  | .ok .child =>
    obtain ⟨_, s₂, k₂, -, t, hruns, -⟩ := ends_bind_of_steady (steady_system _) hnext
    exact (final_runChild _ _ _ hruns).elim

variable {foreground jobControl : Bool} {spawned : Spawned} {incoming : Option (Int × Nat)}
  {p : Pipeline} {n : Nat}

theorem file?_spawnStages {r : Except Defect (Except Failure Unit × Spawned)}
    (hholds : Holds k₀ k incoming.toList) (hready : p ≠ [] → Ready k₀ k i i { incoming })
    (h : Ends refuses k ((spawnStages foreground jobControl spawned (incoming.map (·.1)) p).run.run s)
      (r, s') k') : k'.file? = k₀.file? := by
  induction p generalizing spawned incoming k s i with
  | nil => exact file?_of_given_up hholds (fun fd ↦ by rw [mem_fst, List.mem_singleton]) h
  | cons c rest ih =>
    have hready := hready (List.cons_ne_nil c rest)
    obtain ⟨piped, s₁, k₁, hpipe, h₁⟩ := ends_bind_of_steady (steady_pipeTo rest) h
    obtain ⟨f, ⟨⟩, rfl⟩ | ⟨ends, next, output, ⟨⟩, hnext, houtput, hmore, hpiped⟩ := hready.piped hpipe
    · exact file?_of_given_up hholds (fun fd ↦ by rw [mem_fst, List.mem_singleton]) h₁
    · simp only [hnext, houtput] at h₁
      obtain ⟨prepared, s₂, k₂, hsystem, h₂⟩ := ends_bind_of_steady (steady_system _) h₁
      obtain ⟨_, ⟨⟩, -, hprepare⟩ := ends_system hsystem
      have hall (documents : List (Int × Nat)) (fd : Int) :
          some fd ∈ [output.map (·.1), next.map (·.1), incoming.map (·.1)] ∨
            fd ∈ documents.map (·.1) ↔
            fd ∈ (Held.all { incoming, next, output, documents }).map (·.1) := by
        simp only [Held.all, List.map_append, List.mem_append, mem_fst, List.mem_cons, List.not_mem_nil,
          or_false]
        tauto
      obtain ⟨d, rfl, hd⟩ | ⟨⟨f, rfl⟩, hsame⟩ := Redirect.ends_prepare hprepare
      · obtain ⟨documents, hdocuments, hprepared⟩ := hpiped.prepared hd
        obtain ⟨_, s₃, k₃, hflush, h₃⟩ := ends_bind_of_steady steady_flushBeforeFork h₂
        have hflushed := hprepared.still calls_flushBeforeFork.still hflush
        obtain ⟨answer, s₄, k₄, hfork, h₄⟩ := ends_bind_of_steady (steady_forkStage _ _ _ _) h₃
        obtain rfl := ends_forkStage hfork
        -- whatever gives the launch up on the way, all that is held is closed
        cases answer with
        | error f =>
          obtain ⟨_, s₅, k₅, hsystem, h₅⟩ := ends_bind_of_steady (steady_system _) h₄
          obtain ⟨_, -, -, hrelease⟩ := ends_system hsystem
          refine file?_of_given_up (hflushed.undocumented hdocuments hrelease) (fun fd ↦ ?_) h₅
          rw [← hall]
          simp
        | ok pid =>
          obtain ⟨_, s₅, k₅, henroll, h₅⟩ := ends_bind_of_steady (steady_enroll _ _ _ _) h₄
          have henrolled := hflushed.still (calls_enroll _ _ _ _).still henroll
          obtain ⟨_, s₆, k₆, hsystem, h₆⟩ := ends_bind_of_steady (steady_system _) h₅
          obtain ⟨_, -, -, hinput⟩ := ends_system hsystem
          obtain ⟨_, s₇, k₇, hsystem, h₇⟩ := ends_bind_of_steady (steady_system _) h₆
          obtain ⟨_, -, -, hrelease⟩ := ends_system hsystem
          obtain ⟨_, s₈, k₈, hsystem, h₈⟩ := ends_bind_of_steady (steady_system _) h₇
          obtain ⟨_, -, -, hclose⟩ := ends_system hsystem
          obtain ⟨hkept, hagain⟩ := henrolled.released hdocuments hinput hrelease hclose
          exact ih hkept (fun hrest ↦ hagain (if_neg (by simpa using hrest))) h₈
      · have hfile : k₂.file? = k₁.file? := funext fun fd ↦ Kernel.file?_congr (congrFun hsame fd)
        refine file?_of_given_up (hpiped.holds.of_file? hfile) (fun fd ↦ ?_) h₂
        rw [← hall]
        simp

variable {t : List Event} {next : Reply .fork → Sys (Except Defect β × Shell)}

/-- The shell itself comes to a fork, and this is how it goes on after that. -/
structure Forks (refuses : Refusals) (k : Kernel) (x : Sys α) (t : List Event)
    (next : Reply .fork → Sys α) (k' : Kernel) : Prop where
  leads : Leads x t (.call .fork next)
  serves : Serves refuses k t k'
  parent : ⟨.fork, .ok .child⟩ ∉ t

theorem not_forks {x : Act β} (hx : Calls (· ≠ .fork) x) : ¬ Forks refuses k (x.run.run s) t next k' :=
  fun h ↦ Sys.not_leads (hx s) (by simp) h.leads

theorem Forks.bind {x : Act α} {f : α → Act β} (hx : Calls (· ≠ .fork) x)
    (h : Forks refuses k ((x >>= f).run.run s) t next k') :
    ∃ u a s₁ k₁, forked t = forked u ∧ Ends refuses k (x.run.run s) (.ok a, s₁) k₁ ∧
      Forks refuses k₁ ((f a).run.run s₁) u next k' := by
  obtain ⟨u, v, ⟨r, s₁⟩, rfl, hruns, hleads⟩ := Sys.leads_bind (hx s) (by simp) h.leads
  obtain ⟨k₁, hu, hv⟩ := Kernel.serves_append.1 h.serves
  cases r with
  | error d =>
    obtain ⟨-, ⟨⟩⟩ := Sys.leads_done hleads
  | ok a =>
    have hquiet : forked u = [] := forked_eq_nil ((hx s).only u _ hruns)
    refine ⟨v, a, s₁, k₁, by rw [forked_append, hquiet, List.nil_append], ⟨u, hruns, hu⟩, hleads, hv, ?_⟩
    exact fun hchild ↦ h.parent (List.mem_append_right u hchild)

theorem forks_forkStage {c : Command} {st : Stage} {d : Redirect.Prepared} {fds : Option Int}
    {f : Except Failure Int → Act β}
    (h : Forks refuses k ((forkStage c st d fds >>= f).run.run s) t next k') :
    (t = [] ∧ k' = k ∧ ∃ after, next (.ok .child) =
      (do system (fds.forM Sys.drop); runChild c st d : Act (Except Failure Int)).run.run s >>= after) ∨
    (∃ e u, forked t = forked u ∧
      Forks refuses k ((f (.error (.forkFailed e))).run.run s) u next k') ∨
    ∃ pid u, forked t = pid :: forked u ∧ Forks refuses k ((f (.ok pid)).run.run s) u next k' := by
  obtain ⟨rfl, heq⟩ | ⟨answer, u, rfl, hleads⟩ := Sys.leads_call h.leads
  · obtain ⟨-, heq⟩ := Sys.call.inj heq
    obtain rfl := eq_of_heq heq
    cases h.serves
    exact .inl ⟨rfl, rfl, _, rfl⟩
  · have hparent : ⟨.fork, .ok .child⟩ ∉ u := fun hchild ↦ h.parent (List.mem_cons_of_mem _ hchild)
    cases h.serves with
    | cons hanswer hserves =>
      obtain rfl := hanswer
      match answer with
      | .error e => exact .inr (.inl ⟨e, u, rfl, hleads, hserves, hparent⟩)
      | .ok (.parent pid) => exact .inr (.inr ⟨pid, u, rfl, hleads, hserves, hparent⟩)
      | .ok .child => exact absurd List.mem_cons_self h.parent

/-- The child that is forked next carries out the command of its stage, for which the shell is ready. -/
theorem forks_spawnStages
    {next : Reply .fork → Sys (Except Defect (Except Failure Unit × Spawned) × Shell)}
    (hready : p ≠ [] → Ready k₀ k i i { incoming })
    (h : Forks refuses k
      ((spawnStages foreground jobControl spawned (incoming.map (·.1)) p).run.run s) t next k') :
    ∃ c held made group d s₁ after, p[(forked t).length]? = some c ∧ d.map (·.1) = c.redirections ∧
      next (.ok .child) = (do
        system ((held.next.map (·.1)).forM Sys.drop)
        runChild c (held.place group jobControl foreground) d : Act (Except Failure Int)).run.run s₁ >>= after ∧
      Ready k₀ k' (i + (forked t).length) made held ∧ i + (forked t).length ≤ made ∧
      (held.output.isSome ↔ (forked t).length + 1 < p.length) := by
  induction p generalizing spawned incoming k s i t with
  | nil =>
    refine absurd h (not_forks ?_)
    exact (calls_system ((every_releaseAll _).mono Call.ne_fork_of_isPlain)).bind fun _ ↦ calls_pure _
  | cons c rest ih =>
    have hready := hready (List.cons_ne_nil c rest)
    have hrelease (fds : List (Option Int)) : Calls (· ≠ .fork) (system (releaseAll fds)) :=
      calls_system ((every_releaseAll fds).mono Call.ne_fork_of_isPlain)
    have hdocuments (d : Redirect.Prepared) : Calls (· ≠ .fork) (system (Redirect.release d)) :=
      calls_system ((Redirect.every_release d).mono Call.ne_fork_of_isPlain)
    have hstill {γ : Type} {x : Act γ} (hx : Calls Call.isStill x) : Calls (· ≠ .fork) x :=
      hx.mono fun c hc ↦ Call.ne_fork_of_isPlain c (Call.isPlain_of_isStill c hc)
    obtain ⟨t₁, piped, s₁, k₁, ht₁, hpipe, h₁⟩ := Forks.bind (calls_pipeTo rest) h
    obtain ⟨f, ⟨⟩, rfl⟩ | ⟨ends, next, output, ⟨⟩, hnext, houtput, hmore, hpiped⟩ := hready.piped hpipe
    · exact absurd h₁ (not_forks ((hrelease _).bind fun _ ↦ calls_pure _))
    · simp only [hnext, houtput] at h₁
      obtain ⟨t₂, prepared, s₂, k₂, ht₂, hsystem, h₂⟩ := Forks.bind
        (calls_system ((Redirect.every_prepare _).mono Call.ne_fork_of_isPlain)) h₁
      obtain ⟨_, ⟨⟩, -, hprepare⟩ := ends_system hsystem
      obtain ⟨d, rfl, hd⟩ | ⟨⟨f, rfl⟩, -⟩ := Redirect.ends_prepare hprepare
      · obtain ⟨documents, hnumbers, hprepared⟩ := hpiped.prepared hd
        obtain ⟨t₃, _, s₃, k₃, ht₃, hflush, h₃⟩ := Forks.bind (hstill calls_flushBeforeFork) h₂
        have hflushed := hprepared.still calls_flushBeforeFork.still hflush
        have ht := ht₁.trans (ht₂.trans ht₃)
        -- the fork in question is this one, or it fails and no other comes, or a later stage has it
        obtain ⟨rfl, rfl, after, hchild⟩ | ⟨e, t₄, ht₄, h₄⟩ | ⟨pid, t₄, ht₄, h₄⟩ := forks_forkStage h₃
        · rw [ht]
          refine ⟨c, _, _, spawned.group, d, s₃, after, rfl, hd.redirections, hchild, hflushed, ?_, ?_⟩
          · show i ≤ pipesTo i rest
            rw [pipesTo]
            split <;> omega
          · show output.isSome ↔ 1 < rest.length + 1
            rw [hmore, ← List.length_pos_iff_ne_nil]
            omega
        · exact absurd h₄ (not_forks ((hdocuments d).bind fun _ ↦ (hrelease _).bind fun _ ↦ calls_pure _))
        · obtain ⟨t₅, between, s₅, k₅, ht₅, henroll, h₅⟩ := Forks.bind (hstill (calls_enroll _ _ _ _)) h₄
          have henrolled := hflushed.still (calls_enroll _ _ _ _).still henroll
          obtain ⟨t₆, _, s₆, k₆, ht₆, hsystem, h₆⟩ := Forks.bind (hrelease _) h₅
          obtain ⟨_, -, -, hinput⟩ := ends_system hsystem
          obtain ⟨t₇, _, s₇, k₇, ht₇, hsystem, h₇⟩ := Forks.bind (hdocuments d) h₆
          obtain ⟨_, -, -, hclosed⟩ := ends_system hsystem
          obtain ⟨t₈, _, s₈, k₈, ht₈, hsystem, h₈⟩ := Forks.bind (hrelease _) h₇
          obtain ⟨_, -, -, hclose⟩ := ends_system hsystem
          obtain ⟨-, hagain⟩ := henrolled.released hnumbers hinput hclosed hclose
          have hlength : (forked t).length = (forked t₈).length + 1 := by
            rw [ht, ht₄, ht₅, ht₆, ht₇, ht₈, List.length_cons]
          obtain ⟨c', held, made, group, d', s', after, hc, hd', hchild, hready', hmade, hlast⟩ :=
            ih (fun hrest ↦ hagain (if_neg (by simpa using hrest))) h₈
          refine ⟨c', held, made, group, d', s', after, ?_, hd', hchild, ?_, ?_, ?_⟩
          · rw [hlength, List.getElem?_cons_succ, hc]
          · rwa [hlength, Nat.add_comm _ 1, ← Nat.add_assoc]
          · omega
          · rw [hlast, hlength, List.length_cons]
            omega
      · exact absurd h₂ (not_forks ((hrelease _).bind fun _ ↦ calls_pure _))

/-- Whenever the shell forks a stage of a pipeline, the child comes to apply the redirections of its stage, whatever
the kernel replies, and has done nothing until then but to take its place: its streams are on the pipes beside it, and
it has no other end of a pipe. When no more stages are started, the shell has none, and if no stage has failed to be
started, all of them have been forked. -/
theorem stages_wired (hsound : k.Sound) (hin : (k.file? Sys.stdin).isSome)
    (hout : (k.file? Sys.stdout).isSome) :
    (∀ t next k₁,
      Forks refuses k ((spawnStages foreground jobControl {} none p).run.run s) t next k₁ →
        ∃ c d, p[(forked t).length]? = some c ∧ d.map (·.1) = c.redirections ∧
          Arrives refuses isPlacing (fun y k₂ ↦ Applies c d y ∧ Wired k k₂ p.length (forked t).length) k₁
            (next (.ok .child))) ∧
      (∀ r s' k', Ends refuses k ((spawnStages foreground jobControl {} none p).run.run s) (r, s') k' →
        k'.file? = k.file? ∧ ∀ fd f, k'.file? fd = some f → f ∉ k'.pipeEnds k.files.length) ∧
      ∀ t spawned s', Yields (spawnStages foreground jobControl {} none p) s t (.ok (), spawned) s' →
        (forked t).length = p.length := by
  have hready : p ≠ [] → Ready k k 0 0 { incoming := none } := fun _ ↦ ready_self hsound
  refine ⟨?_, ?_, fun t spawned s' h ↦ (yields_spawnStages h).2 rfl⟩
  · intro t next k₁ h
    obtain ⟨c, held, made, group, d, s₁, after, hc, hd, hchild, hready, hmade, hlast⟩ :=
      forks_spawnStages hready h
    rw [Nat.zero_add] at hready hmade
    rw [hchild]
    exact ⟨c, d, hc, hd, hready.applies hsound hin hout hmade hlast c d group jobControl foreground s₁ after⟩
  · intro r s' k' h
    have hfile := file?_spawnStages (Kernel.holds_nil rfl) hready h
    exact ⟨hfile, fun fd f hf ↦ hsound.not_mem_pipeEnds (hfile ▸ hf)⟩

theorem stages_wired_second :
    let s : Shell := { history := ⟨0, [], 0⟩, config := .script, isInteractive := false }
    let p : Pipeline := [⟨.piped, ["a"], []⟩, ⟨.single, ["b"], [.path .read 0 "f"]⟩]
    let x := (spawnStages true false {} none p).run.run s
    let t : List Event := [⟨.pipe, .ok (3, 4)⟩, ⟨.fork, .ok (.parent 11)⟩, ⟨.close 4, .ok ()⟩]
    ∃ next k₁, Forks (fun _ _ ↦ none) streams x t next k₁ ∧
      (∃ c d u y k₂, p[1]? = some c ∧ d.map (·.1) = c.redirections ∧ Leads (next (.ok .child)) u y ∧
        Serves (fun _ _ ↦ none) k₁ u k₂ ∧ Applies c d y ∧ Wired streams k₂ 2 1) ∧
      ∃ r s' k', Ends (fun _ _ ↦ none) streams x (r, s') k' ∧ k'.file? = streams.file? ∧
        ∀ fd f, k'.file? fd = some f → f ∉ k'.pipeEnds streams.files.length := by
  intro s p x t
  have hforks : Forks (fun _ _ ↦ none) streams x t _ _ :=
    ⟨.call (.call (.call (.refl _))), .cons rfl (.cons rfl (.cons rfl (.nil _))), by simp [t]⟩
  have hends : Ends (fun _ _ ↦ none) streams x (_, _) _ :=
    ⟨[⟨.pipe, .ok (3, 4)⟩, ⟨.fork, .ok (.parent 11)⟩, ⟨.close 4, .ok ()⟩, ⟨.fork, .error .tryAgain⟩,
      ⟨.close 3, .ok ()⟩], .call (.call (.call (.call (.call (.done _))))),
      .cons rfl (.cons rfl (.cons rfl (.cons rfl (.cons rfl (.nil _)))))⟩
  obtain ⟨c, d, hc, hd, harrives⟩ := (stages_wired sound_streams rfl rfl).1 t _ _ hforks
  obtain ⟨u, y, k₂, hleads, hserves, happlies, hwired⟩ := harrives.exists_leads
  exact ⟨_, _, hforks, ⟨c, d, u, y, k₂, hc, hd, hleads, hserves, happlies, hwired⟩,
    _, _, _, hends, (stages_wired sound_streams rfl rfl).2.1 _ _ _ hends⟩

end JobShell.Shell

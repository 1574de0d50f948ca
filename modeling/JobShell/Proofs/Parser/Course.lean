import JobShell.Parser.Run

namespace JobShell.Parser

def Waiting.growth (w : Waiting) : Answer → List Char
  | .line text => w.extension text
  | _ => []

/-- The parse of `line` comes to this turn, with this buffer. -/
inductive Reaches (homes : HomeDirs) (line : String) : List Char → Turn → Prop
  | start : Reaches homes line line.toList (.reading { rest := line.toList })
  | step {buffer cs : List Char} {c : Char} {s t : State} :
      Reaches homes line buffer (.reading s) → s.rest = c :: cs →
      { s with rest := cs }.step homes c = .ok t → Reaches homes line buffer (.reading t)
  | fault {buffer cs : List Char} {c : Char} {s : State} {f : Fault} :
      Reaches homes line buffer (.reading s) → s.rest = c :: cs →
      { s with rest := cs }.step homes c = .error f →
      Reaches homes line buffer (.stopped (.finished (.error f)))
  | bufferEnd {buffer : List Char} {s : State} :
      Reaches homes line buffer (.reading s) → s.rest = [] →
      Reaches homes line buffer (.stopped s.meetEnd)
  | answer {buffer : List Char} {w : Waiting} (a : Answer) :
      Reaches homes line buffer (.stopped (.waiting w)) →
      Reaches homes line (buffer ++ w.growth a) (w.take a)

variable {homes : HomeDirs} {line : String} {buffer : List Char}

theorem Reaches.advance {s : State} (h : Reaches homes line buffer (.reading s)) :
    Reaches homes line buffer (.stopped (s.advance homes)) := by
  induction hn : s.rest.length using Nat.strongRecOn generalizing s with
  | _ n ih =>
    cases hs : s.rest with
    | nil =>
      simp only [State.advance, State.scan_nil hs]
      exact h.bufferEnd hs
    | cons c cs =>
      rw [State.advance, State.scan_cons hs]
      cases ht : { s with rest := cs }.step homes c with
      | error f => exact h.fault hs ht
      | ok t =>
        have hlt : t.rest.length < n := by
          have hle : t.rest.length ≤ cs.length := (State.suffix_step ht).length_le
          rw [← hn, hs, List.length_cons]
          omega
        exact ih _ hlt (h.step hs ht) rfl

theorem Reaches.settle {t : Turn} (h : Reaches homes line buffer t) :
    Reaches homes line buffer (.stopped (t.settle homes)) := by
  cases t with
  | reading s => exact h.advance
  | stopped p => exact h

theorem Reaches.finish {p : Progress} (h : Reaches homes line buffer (.stopped p))
    (answers : List Answer) (whole : String) (reads : Nat) :
    ∃ buffer' r, Reaches homes line buffer' (.stopped (.finished r)) ∧
      (finish homes p answers whole reads).1.result = r >>= Outcome.ofCommands := by
  fun_induction JobShell.Parser.finish homes p answers whole reads generalizing buffer with
  | case1 => exact ⟨buffer, _, h, rfl⟩
  | case2 => exact ⟨buffer, _, h, rfl⟩
  | case3 whole reads w ih => exact ih (h.answer .endOfInput).settle
  | case4 whole reads w a later ih => exact ih (h.answer a).settle

/-- A parse ends in a result of its course. -/
theorem reaches_parse (homes : HomeDirs) (line : String) (answers : List Answer) :
    ∃ buffer r, Reaches homes line buffer (.stopped (.finished r)) ∧
      (parse homes line answers).1.result = r >>= Outcome.ofCommands :=
  Reaches.start.advance.finish answers line 0

theorem State.endLine_cases (s : State) :
    s.endLine = .waiting ⟨s, .required "a command"⟩ ∨
      s.endLine = .finished (unexpected "newline") ∨ s.endLine = .finished s.commandsAtEnd := by
  unfold endLine
  repeat' split
  all_goals simp

theorem State.endBuffer_cases (s : State) :
    (∃ expected, s.endBuffer = .waiting ⟨s, .required expected⟩) ∨
      (∃ f, s.endBuffer = .finished (.error f)) ∨
      ∃ t, s.nesting = [] ∧ s.quoting = .none ∧ s.finishWord = .ok t ∧ t.pending = none ∧
        s.endBuffer = { t with requests := [] }.readDocuments t.requests := by
  unfold endBuffer
  split
  · exact .inl ⟨_, rfl⟩
  · rename_i hn
    split
    · exact .inl ⟨_, rfl⟩
    · exact .inl ⟨_, rfl⟩
    · rename_i hq
      split
      · exact .inr (.inl ⟨_, rfl⟩)
      · rename_i t ht
        split
        · exact .inr (.inl ⟨_, rfl⟩)
        · rename_i hp
          exact .inr (.inr ⟨t, hn, hq, ht, by simpa using hp, rfl⟩)

theorem finish_endOfInput {ends : List Answer} (h : ∀ a ∈ ends, a = .endOfInput) (w : Waiting)
    (whole : String) (reads : Nat) :
    finish homes (.waiting w) ends whole reads =
      finish homes (w.resume homes .endOfInput) (ends.drop 1) whole (reads + 1) := by
  cases ends with
  | nil => rw [finish, List.drop_nil]
  | cons a ends =>
    obtain rfl := h a List.mem_cons_self
    have haddition : whole ++ Answer.endOfInput.addition = whole := String.append_empty
    rw [finish, haddition, List.drop_one, List.tail_cons]

def State.visits (homes : HomeDirs) (s : State) : List State :=
  match hs : s.rest with
  | [] => [s]
  | c :: cs =>
    match h : { s with rest := cs }.step homes c with
    | .error _ => [s]
    | .ok t =>
      have : t.rest.length < s.rest.length := by
        have := (State.suffix_step h).length_le
        simp only [hs, List.length_cons] at *
        omega
      s :: t.visits homes
termination_by s.rest.length

theorem State.visits_nil {s : State} (h : s.rest = []) : s.visits homes = [s] := by
  rw [visits]
  split
  · rfl
  · rename_i hs
    rw [h] at hs
    cases hs

theorem State.visits_cons {s t : State} {c : Char} {cs : List Char} (h : s.rest = c :: cs)
    (ht : { s with rest := cs }.step homes c = .ok t) : s.visits homes = s :: t.visits homes := by
  rw [visits]
  split
  · rename_i hs
    rw [h] at hs
    cases hs
  · rename_i hs
    rw [h] at hs
    cases hs
    split <;> rename_i hu <;> rw [ht] at hu <;> cases hu
    rfl

theorem State.forall_mem_visits_cons {P : State → Prop} {s t : State} {c : Char} {cs : List Char} (h : s.rest = c :: cs)
    (ht : { s with rest := cs }.step homes c = .ok t) (hs : P s) (hvisits : ∀ v ∈ t.visits homes, P v) :
    ∀ v ∈ s.visits homes, P v := by
  rw [visits_cons h ht]
  exact List.forall_mem_cons.2 ⟨hs, hvisits⟩

theorem State.mem_visits_of_scan {s t : State} (h : s.scan homes = .ok t) : t ∈ s.visits homes := by
  fun_induction State.scan homes s with
  | case1 s hs =>
    cases h
    rw [visits_nil hs]
    exact List.mem_singleton_self t
  | case2 => cases h
  | case3 s c cs hs u hu _ ih =>
    rw [visits_cons hs hu]
    exact List.mem_cons_of_mem s (ih h)

/-- The states that a parser reads in, from this turn on, if its source of lines gives these
answers. Ends of input, all that follows them, give it nothing to read. -/
def Turn.visits (homes : HomeDirs) (t : Turn) (answers : List Answer) : List State :=
  (match t with
    | .reading s => s.visits homes
    | .stopped _ => []) ++
  match answers with
  | [] => []
  | a :: later =>
    match t.settle homes with
    | .waiting w => (w.take a).visits homes later
    | .finished _ => []

/-- The states that a parse of `line` reads in. -/
def visits (homes : HomeDirs) (line : String) (answers : List Answer) : List State :=
  Turn.visits homes (.reading { rest := line.toList }) answers

end JobShell.Parser

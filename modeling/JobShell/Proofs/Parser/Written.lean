import JobShell.Proofs.Parser.Grammar
import JobShell.Proofs.Parser.Step

namespace JobShell.Parser

/-- A redirection as a line spells it: its operator, the descriptor it changes, and the word behind
it. -/
structure Written where
  operator : Operator
  source : Int
  word : String
  deriving DecidableEq, Repr

namespace State

/-- The redirection that is complete once the current word is. -/
def current? (s : State) : Option Written :=
  match s.pending, s.word with
  | some p, some w => some ⟨p.operator, p.source, w.text⟩
  | _, _ => none

/-- The redirection that the next character completes, or the end of the buffer: outside quotes and
substitutions a blank or an operator ends the current word. -/
def completed? (s : State) : Option Written :=
  match s.rest with
  | [] => s.current?
  | c :: _ =>
    if s.nesting = [] ∧ s.quoting = .none ∧ (isBlank c ∨ isOperator c) then s.current? else none

theorem completed?_of_ends {s : State} {c : Char} {cs : List Char} (hr : s.rest = c :: cs) (hc : s.EndsWord c) :
    s.completed? = s.current? := by
  rw [completed?, hr]
  exact if_pos hc

theorem completed?_of_not_ends {s : State} {c : Char} {cs : List Char} (hr : s.rest = c :: cs)
    (hc : ¬ s.EndsWord c) : s.completed? = none := by
  rw [completed?, hr]
  exact if_neg hc

theorem filterMap_visits {α : Type} (f : State → Option α) {homes : HomeDirs} {s t : State} {c : Char}
    {cs : List Char} (hr : s.rest = c :: cs) (ht : State.step homes c { s with rest := cs } = .ok t) :
    (s.visits homes).filterMap f = (f s).toList ++ (t.visits homes).filterMap f := by
  rw [visits_cons hr ht, List.filterMap_cons]
  cases f s <;> rfl

end State

/-- The redirections that stand in a line, in order. -/
def written (homes : HomeDirs) (line : String) : List Written :=
  (State.visits homes { rest := line.toList }).filterMap State.completed?

namespace Operator

/-- The operators as they are spelled, longer ones before those that they begin with. -/
def spellings : List (String × Operator) :=
  [("<<<", .hereString), ("<<-", .hereDocument true), ("<<", .hereDocument false), ("<&", .duplicate true),
    ("<>", .path .readWrite), ("<", .path .read), (">>", .path .append), (">&", .duplicate false),
    (">|", .path .truncate), (">", .path .truncate)]

def spelledAt? (text : List Char) : Option Operator :=
  (spellings.find? fun (spelling, _) ↦ spelling.toList.isPrefixOf text).map Prod.snd

theorem isPrefixOf_eq_false {c : Char} {cs : List Char} (h : ∀ r, cs = c :: r → False) (p : List Char) :
    (c :: p).isPrefixOf cs = false := by
  cases cs with
  | nil => rfl
  | cons d ds =>
    have hne : c ≠ d := fun heq ↦ h ds (heq ▸ rfl)
    rw [List.isPrefixOf, beq_eq_false_iff_ne.2 hne, Bool.false_and]

theorem spelledAt?_cons {c : Char} (hc : c = '<' ∨ c = '>') (cs : List Char) :
    spelledAt? (c :: cs) = some (State.operatorAt c cs).1 := by
  rcases hc with rfl | rfl
  · simp only [State.operatorAt, Char.reduceEq, if_false]
    split <;> simp [spelledAt?, spellings, isPrefixOf_eq_false, *]
  · simp only [State.operatorAt, if_true]
    split <;> simp [spelledAt?, spellings, isPrefixOf_eq_false, *]

theorem spelledAt?_of_ne {c : Char} (hc : ¬ (c = '<' ∨ c = '>')) (cs : List Char) :
    spelledAt? (c :: cs) = none := by
  rw [not_or] at hc
  simp [spelledAt?, spellings, Ne.symm hc.1, Ne.symm hc.2]

end Operator

namespace State

/-- The operator that the parser stands in front of, as the text spells it. -/
def meetsOperator? (s : State) : Option Operator :=
  if s.nesting = [] ∧ s.quoting = .none then Operator.spelledAt? s.rest else none

def awaited (s : State) : List Operator := (s.pending.map Pending.operator).toList

end State

/-- The redirection operators that stand in a line, in order, as the line spells them. -/
def operators (homes : HomeDirs) (line : String) : List Operator :=
  (State.visits homes { rest := line.toList }).filterMap State.meetsOperator?

namespace State

variable {homes : HomeDirs} {s t : State} {c : Char} {cs : List Char}

theorem awaited_finishWord (h : s.finishWord = .ok t) :
    s.awaited = s.current?.toList.map Written.operator ++ t.awaited := by
  simp only [finishWord] at h
  split at h
  · rename_i hw
    cases h
    simp [current?, hw]
  rename_i w hw
  split at h
  · rename_i hp
    cases h
    simp [current?, awaited, hp]
  rename_i p hp
  have hnone : t.pending = none := by
    split at h
    · simp only [bind, Except.bind] at h
      split at h <;> cases h
      rfl
    · split at h <;> cases h <;> rfl
  simp [current?, awaited, hw, hp, hnone]

theorem awaited_link {k : Connector} (h : s.link k = .ok t) :
    s.awaited = s.current?.toList.map Written.operator ++ t.awaited := by
  simp only [link, bind, Except.bind] at h
  split at h
  · cases h
  rename_i u hu
  have hkept : t.pending = u.pending := by
    simp only [closeCommand] at h
    repeat' split at h
    all_goals cases h
    all_goals rfl
  rw [awaited_finishWord hu, awaited, awaited, hkept]

theorem awaited_beginRedirection (h : s.beginRedirection c = .ok t) :
    s.awaited = s.current?.toList.map Written.operator ∧ t.awaited = [(operatorAt c s.rest).1] := by
  simp only [beginRedirection, bind, Except.bind] at h
  split at h
  · rename_i source hsource
    have hpending := pending_of_spelledSource? hsource
    cases h
    exact ⟨by simp [awaited, current?, hpending], rfl⟩
  · split at h
    · cases h
    rename_i u hu
    have hended := awaited_finishWord hu
    split at h
    · cases h
    rename_i hp
    cases h
    have hnone : u.awaited = [] := by
      simpa [awaited] using hp
    rw [hnone, List.append_nil] at hended
    exact ⟨hended, rfl⟩

/-- What a step completes is what was awaited, and what it meets is awaited after it. -/
theorem awaited_step (hr : s.rest = c :: cs) (h : State.step homes c { s with rest := cs } = .ok t) :
    s.awaited ++ s.meetsOperator?.toList = s.completed?.toList.map Written.operator ++ t.awaited := by
  have hmeets (hc : ¬ (s.EndsWord c ∧ (c = '<' ∨ c = '>'))) : s.meetsOperator? = none := by
    unfold meetsOperator?
    split
    · rename_i hplain
      rw [hr]
      exact Operator.spelledAt?_of_ne (fun harrow ↦ hc ⟨⟨hplain.1, hplain.2, .inr (by
        rcases harrow with rfl | rfl <;> rfl)⟩, harrow⟩) cs
    · rfl
  rcases step_cases homes { s with rest := cs } c with
    ⟨hnot, u, hu, hkeeps⟩ | ⟨hends, ⟨hb, heq⟩ | ⟨k, r, hk, heq⟩ | ⟨harrow, heq⟩⟩
  · obtain rfl := Except.ok.inj (hu.symm.trans h)
    rw [completed?_of_not_ends hr hnot, hmeets fun hc ↦ hnot hc.1, awaited, awaited, hkeeps.pending]
    simp
  · rw [completed?_of_ends hr hends, hmeets, Option.toList_none, List.append_nil]
    · exact awaited_finishWord (s := { s with rest := cs }) (heq.symm.trans h)
    · rintro ⟨-, rfl | rfl⟩ <;> cases hb
  · rw [completed?_of_ends hr hends, hmeets, Option.toList_none, List.append_nil]
    · exact awaited_link (s := { s with rest := r }) (heq.symm.trans h)
    · rintro ⟨-, rfl | rfl⟩ <;> cases hk
  · obtain ⟨hended, hbegun⟩ := awaited_beginRedirection (heq.symm.trans h)
    have hoperator : s.meetsOperator? = some (operatorAt c cs).1 := by
      rw [meetsOperator?, if_pos ⟨hends.1, hends.2.1⟩, hr, Operator.spelledAt?_cons harrow]
    rw [completed?_of_ends hr hends, hoperator, hbegun]
    exact congrArg (· ++ _) hended

theorem awaited_scan (h : s.scan homes = .ok t) :
    s.awaited ++ (s.visits homes).filterMap meetsOperator? =
      ((s.visits homes).filterMap completed?).map Written.operator ++ if t.word.isSome then [] else t.awaited := by
  fun_induction State.scan homes s with
  | case1 s hr =>
    cases h
    have hmeets : t.meetsOperator? = none := by
      rw [meetsOperator?, hr]
      exact ite_self none
    have hcompleted : t.completed? = t.current? := by
      rw [completed?, hr]
    rw [visits_nil hr, List.filterMap_cons_none hmeets]
    cases hw : t.word <;> cases hp : t.pending <;> simp [hcompleted, current?, awaited, hw, hp]
  | case2 => cases h
  | case3 s c cs hr u hu _ ih =>
    have hrest := ih h
    have hstep := awaited_step hr hu
    rw [filterMap_visits _ hr hu, filterMap_visits _ hr hu, ← List.append_assoc, hstep, List.append_assoc, hrest,
      List.map_append, List.append_assoc]

/-- Where no operator awaits its word at the end, a buffer spells the operators of the redirections in it. -/
theorem operator_of_scan (hs : s.awaited = []) (h : s.scan homes = .ok t) {u : State} (hu : t.finishWord = .ok u)
    (hnone : u.pending = none) :
    ((s.visits homes).filterMap completed?).map Written.operator = (s.visits homes).filterMap meetsOperator? := by
  have hscan := awaited_scan h
  have hrest : (if t.word.isSome then [] else t.awaited) = [] := by
    split
    · rfl
    · rename_i hw
      simp only [finishWord, Option.not_isSome_iff_eq_none.1 hw] at hu
      cases hu
      simp [awaited, hnone]
  rw [hs, hrest, List.append_nil, List.nil_append] at hscan
  exact hscan.symm

end State

end JobShell.Parser

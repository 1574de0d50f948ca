import JobShell.Proofs.Parser.Safety
import JobShell.Proofs.Parser.Token

namespace JobShell.Parser.State

variable {homes : HomeDirs} {s t : State} {c : Char} {cs : List Char}

theorem exists_ordinary (homes : HomeDirs) (s : State) (c : Char) :
    ∃ t, s.ordinary homes c = .ok t ∧ Keeps s t := by
  unfold ordinary
  split
  · exact ⟨_, rfl, keeps_push s c⟩
  split
  · exact ⟨_, rfl, rfl, rfl, rfl, rfl, rfl⟩
  split
  · split
    · rename_i home n he
      rw [skip, if_pos (expand?_le he)]
      exact ⟨_, rfl, rfl, rfl, rfl, rfl, rfl⟩
    · exact ⟨_, rfl, keeps_push s c⟩
  · exact ⟨_, rfl, keeps_push s c⟩

/-- The character ends a word: outside quotes and substitutions a blank or an operator does. -/
def EndsWord (s : State) (c : Char) : Prop := s.nesting = [] ∧ s.quoting = .none ∧ (isBlank c ∨ isOperator c)

theorem unquoted_of_not_ends (hc : ¬ (isBlank c ∨ isOperator c)) (homes : HomeDirs) (s : State) :
    s.unquoted homes c =
      if c = '\x27' then .ok { s.beginQuoted with quoting := .single }
      else if c = '\x22' then .ok { s.beginQuoted with quoting := .double }
      else if c = '\\' then .ok s.escape
      else if c = '$' ∨ c = '\x60' then .ok (s.openSubstitution c)
      else s.ordinary homes c := by
  have hb : ¬ isBlank c := fun h ↦ hc (.inl h)
  have harrow : ¬ (c = '<' ∨ c = '>') := by
    rintro (rfl | rfl) <;> exact hc (.inr rfl)
  have hconnector : connectorAt? c s.rest = none := by
    simp only [isOperator, Bool.or_eq_true, beq_iff_eq, not_or] at hc
    simp [connectorAt?, hc]
  unfold unquoted
  rw [if_neg hb, if_neg harrow, hconnector]

theorem exists_unquoted (hc : ¬ (isBlank c ∨ isOperator c)) (homes : HomeDirs) (s : State) :
    ∃ t, s.unquoted homes c = .ok t ∧ Keeps s t := by
  rw [unquoted_of_not_ends hc]
  split
  · exact ⟨_, rfl, rfl, rfl, rfl, rfl, rfl⟩
  split
  · exact ⟨_, rfl, rfl, rfl, rfl, rfl, rfl⟩
  split
  · exact ⟨_, rfl, keeps_escape s⟩
  split
  · exact ⟨_, rfl, keeps_openSubstitution s c⟩
  · exact exists_ordinary homes s c

/-- A step that does not end a word only touches the current one, and always succeeds. -/
theorem step_cases (homes : HomeDirs) (s : State) (c : Char) :
    (¬ s.EndsWord c ∧ ∃ t, s.step homes c = .ok t ∧ Keeps s t) ∨
      s.EndsWord c ∧
        ((isBlank c ∧ s.step homes c = s.finishWord) ∨
          (∃ k r, connectorAt? c s.rest = some (k, r) ∧ s.step homes c = { s with rest := r }.link k) ∨
          ((c = '<' ∨ c = '>') ∧ s.step homes c = s.beginRedirection c)) := by
  unfold step
  split
  · rename_i expected outer hn
    exact .inl ⟨fun h ↦ by simp [h.1] at hn, _, rfl, keeps_nested ..⟩
  rename_i hn
  split
  · rename_i hq
    refine .inl ⟨fun h ↦ by simp [h.2.1] at hq, _, rfl, ?_⟩
    split <;> exact ⟨rfl, rfl, rfl, rfl, rfl⟩
  · rename_i hq
    exact .inl ⟨fun h ↦ by simp [h.2.1] at hq, _, rfl, keeps_doubleQuoted s c⟩
  · rename_i hq
    by_cases hc : isBlank c ∨ isOperator c
    · refine .inr ⟨⟨hn, hq, hc⟩, ?_⟩
      by_cases hb : isBlank c
      · exact .inl ⟨hb, by rw [unquoted, if_pos hb]⟩
      · have hoperator := hc.resolve_left hb
        simp only [isOperator, Bool.or_eq_true, beq_iff_eq] at hoperator
        by_cases harrow : c = '<' ∨ c = '>'
        · refine .inr (.inr ⟨harrow, ?_⟩)
          rcases harrow with rfl | rfl <;> rfl
        · obtain ⟨k, r, hk⟩ := exists_connectorAt? (c := c) (by grind) s.rest
          exact .inr (.inl ⟨k, r, hk, unquoted_connector hk⟩)
    · exact .inl ⟨fun h ↦ hc h.2.2, exists_unquoted hc homes s⟩

theorem pending_of_spelledSource? {source : Int} (h : s.spelledSource? = some source) : s.pending = none := by
  unfold spelledSource? at h
  split at h
  · split at h
    · rename_i hd
      simp only [Bool.and_eq_true, Option.isNone_iff_eq_none] at hd
      exact hd.1.2
    · cases h
  · cases h

end JobShell.Parser.State

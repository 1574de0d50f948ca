import Mathlib.Data.List.TakeWhile
import JobShell.Proofs.Parser.Grammar

namespace JobShell.Parser

def compounds : List (List Char) :=
  [['&', '&'], ['|', '|'], ['>', '>'], ['>', '&'], ['>', '|'], ['<', '<'], ['<', '&'], ['<', '>'],
    ['<', '<', '<'], ['<', '<', '-']]

def openings : List (List Char) := [['$', '('], ['$', '{']]

/-- One of the tokens ends with the first character of `more` and begins with all of `text`. -/
def splits (tokens : List (List Char)) (text more : List Char) : Bool :=
  more.head?.any fun x ↦ tokens.contains (text ++ [x])

/-- The home that a user name behind a tilde stands for; no name is the user of the shell. -/
def namedHome? (homes : HomeDirs) (name : List Char) : Option String :=
  if name.isEmpty then homes.own else homes.ofUser (String.ofList name)

section Prefixes

variable {homes : HomeDirs} {name after cs : List Char}

theorem expand?_name (homes : HomeDirs) (hname : ∀ c ∈ name, Tilde.isNameChar c)
    (hafter : ∀ c ∈ after.head?, ¬ Tilde.isNameChar c) :
    Tilde.expand? homes (name ++ after) =
      if after.head?.all Tilde.endsPrefix then (namedHome? homes name).map (·, name.length) else none := by
  have htake : after.takeWhile Tilde.isNameChar = [] := by
    cases after with
    | nil => rfl
    | cons c cs => simpa using hafter
  have hdrop : after.dropWhile Tilde.isNameChar = after := by
    cases after with
    | nil => rfl
    | cons c cs => simpa using hafter
  simp only [Tilde.expand?, namedHome?, List.takeWhile_append_of_pos hname, List.dropWhile_append_of_pos hname,
    htake, hdrop, List.append_nil]
  cases after <;> simp

theorem exists_name (cs : List Char) : ∃ name after, cs = name ++ after ∧
    (∀ c ∈ name, Tilde.isNameChar c) ∧ ∀ c ∈ after.head?, ¬ Tilde.isNameChar c := by
  refine ⟨cs.takeWhile Tilde.isNameChar, cs.dropWhile Tilde.isNameChar, List.takeWhile_append_dropWhile.symm,
    fun c hc ↦ List.mem_takeWhile_imp hc, fun c hc ↦ ?_⟩
  have hnot := List.head?_dropWhile_not Tilde.isNameChar cs
  rw [hc] at hnot
  simpa using hnot

theorem expand?_ended (hname : ¬ ∀ c ∈ cs, Tilde.isNameChar c) (more : List Char) :
    Tilde.expand? homes (cs ++ more) = Tilde.expand? homes cs := by
  obtain ⟨name, after, rfl, hprefix, hafter⟩ := exists_name cs
  cases after with
  | nil => exact absurd (by simpa using hprefix) hname
  | cons c cs =>
    rw [List.append_assoc, expand?_name homes hprefix hafter]
    exact expand?_name homes hprefix hafter

end Prefixes

namespace State

variable {homes : HomeDirs} {s t : State} {c : Char} {more : List Char}

theorem splits_cons {tokens : List (List Char)} {text : List Char} {x : Char} :
    splits tokens text (x :: more) = tokens.contains (text ++ [x]) := rfl

theorem splits_eq_false {tokens : List (List Char)}
    (h : ∀ x ∈ more.head?, tokens.all fun token ↦ token.getLast? != some x) (text : List Char) :
    splits tokens text more = false := by
  cases more with
  | nil => rfl
  | cons x xs =>
    rw [splits_cons, List.contains_eq_mem, decide_eq_false_iff_not]
    intro hmem
    have hlast := List.all_eq_true.1 (h x rfl) _ hmem
    simp at hlast

theorem operatorAt_append {rest : List Char} (hc : c = '<' ∨ c = '>')
    (h : splits compounds (c :: rest) more = false) :
    operatorAt c (rest ++ more) =
      ((operatorAt c rest).1, (operatorAt c rest).2.1, (operatorAt c rest).2.2 ++ more) := by
  cases more with
  | nil => simp
  | cons x xs =>
    simp only [splits_cons, compounds] at h
    rcases hc with rfl | rfl
    · simp only [operatorAt, Char.reduceEq, if_false]
      rcases rest with _ | ⟨y, _ | ⟨z, zs⟩⟩
      · simp at h
        simp [h]
      · by_cases hy : y = '<'
        · subst hy
          simp at h
          simp [h]
        · simp only [List.cons_append, List.nil_append]
          split <;> simp_all
      · by_cases hy : y = '<'
        · subst hy
          by_cases hz : z = '<' ∨ z = '-'
          · rcases hz with rfl | rfl <;> rfl
          · rw [not_or] at hz
            simp [hz]
        · simp only [List.cons_append]
          split <;> simp_all
    · simp only [operatorAt, if_true]
      cases rest with
      | nil =>
        simp at h
        simp [h]
      | cons y ys =>
        simp only [List.cons_append]
        split <;> simp_all

theorem connectorAt?_append {rest : List Char} (h : splits compounds (c :: rest) more = false) :
    connectorAt? c (rest ++ more) = (connectorAt? c rest).map fun (k, r) ↦ (k, r ++ more) := by
  cases more with
  | nil => simp
  | cons x xs =>
    unfold connectorAt?
    split
    · rename_i hc
      subst hc
      cases rest with
      | nil =>
        simp [splits_cons, compounds] at h
        simp [h]
      | cons y ys =>
        simp only [List.cons_append]
        split <;> simp_all
    split
    · rename_i hc
      subst hc
      cases rest with
      | nil =>
        simp [splits_cons, compounds] at h
        simp [h]
      | cons y ys =>
        simp only [List.cons_append]
        split <;> simp_all
    split <;> rfl

theorem opens_or_not {rest : List Char} (h : splits openings ('$' :: rest) more = false) :
    (∃ r, rest = '(' :: r) ∨ (∃ r, rest = '{' :: r) ∨
      (∀ r, rest ≠ '(' :: r ∧ rest ≠ '{' :: r) ∧
        ∀ r, rest ++ more ≠ '(' :: r ∧ rest ++ more ≠ '{' :: r := by
  cases rest with
  | nil =>
    refine .inr (.inr ⟨by simp, ?_⟩)
    cases more with
    | nil => simp
    | cons x xs =>
      simp [splits_cons, openings] at h
      simp [h]
  | cons y ys => grind

def extend (s : State) (more : List Char) : State :=
  { s with rest := s.rest ++ more, joinsNext := false }

@[simp] theorem rest_extend (s : State) (more : List Char) :
    (s.extend more).rest = s.rest ++ more := rfl

@[simp] theorem nestedQuote_extend (s : State) (more : List Char) :
    (s.extend more).nestedQuote = s.nestedQuote := rfl

theorem extend_nil (h : s.joinsNext = false) : s.extend [] = s := by
  simp [extend, ← h]

theorem finishWord_extend (s : State) (more : List Char) :
    (s.extend more).finishWord = s.finishWord.map (·.extend more) := by
  simp only [finishWord, extend]
  cases hw : s.word with
  | none => simp [Except.map, hw]
  | some w =>
    cases hp : s.pending with
    | none => rfl
    | some p =>
      obtain ⟨operator, source, target⟩ := p
      cases target with
      | descriptor =>
        simp only [bind, Except.bind]
        split <;> rfl
      | name => cases operator <;> rfl

theorem closeCommand_extend (s : State) (k : Connector) (more : List Char) :
    (s.extend more).closeCommand k = (s.closeCommand k).map (·.extend more) := by
  simp only [closeCommand, extend]
  split <;> rfl

theorem link_extend (s : State) (k : Connector) (more : List Char) :
    (s.extend more).link k = (s.link k).map (·.extend more) := by
  simp only [link, finishWord_extend]
  cases s.finishWord with
  | error f => rfl
  | ok t =>
    simp only [Except.map, bind, Except.bind]
    have hpending : (t.extend more).pending = t.pending := rfl
    have hwords : (t.extend more).words = t.words := rfl
    have hlast : (t.extend more).lastConnector? = t.lastConnector? := rfl
    have hredirections : (t.extend more).redirections = t.redirections := rfl
    rw [hpending, hwords, hlast, hredirections, closeCommand_extend]
    split
    · rfl
    · split
      · split <;> rfl
      · rfl

theorem beginRedirection_extend (s : State) (hc : c = '<' ∨ c = '>')
    (h : splits compounds (c :: s.rest) more = false) :
    (s.extend more).beginRedirection c = (s.beginRedirection c).map (·.extend more) := by
  have hspelled : (s.extend more).spelledSource? = s.spelledSource? := rfl
  have hrest : (s.extend more).rest = s.rest ++ more := rfl
  simp only [beginRedirection, hspelled, hrest, operatorAt_append hc h]
  cases s.spelledSource? with
  | some source => rfl
  | none =>
    have hread : { s.extend more with rest := (operatorAt c s.rest).2.2 ++ more } =
        State.extend { s with rest := (operatorAt c s.rest).2.2 } more := rfl
    simp only [hread, finishWord_extend]
    cases State.finishWord { s with rest := (operatorAt c s.rest).2.2 } with
    | error f => rfl
    | ok t =>
      have hpending : (t.extend more).pending = t.pending := rfl
      simp only [Except.map, bind, Except.bind, hpending]
      split <;> rfl

theorem openSubstitution_extend (s : State) (h : c ≠ '\x60' → splits openings ('$' :: s.rest) more = false) :
    (s.extend more).openSubstitution c = (s.openSubstitution c).extend more := by
  have hpush : (s.extend more).push c = (s.push c).extend more := rfl
  have hrest : (s.push c).rest = s.rest := rfl
  simp only [openSubstitution, hpush]
  rw [← hrest] at h
  generalize s.push c = u at h ⊢
  split
  · rfl
  · rename_i hc
    rw [rest_extend]
    obtain ⟨r, hr⟩ | ⟨r, hr⟩ | ⟨hu, hu'⟩ := opens_or_not (h hc)
    · rw [hr]
      rfl
    · rw [hr]
      rfl
    · grind

theorem nested_extend (s : State) (hr : c = '\\' → s.rest ≠ [])
    (h : c = '$' → splits openings ('$' :: s.rest) more = false) (expected : Closer) (outer : List Closer) :
    (s.extend more).nested expected outer c = (s.nested expected outer c).extend more := by
  have hpush : (s.extend more).push c = (s.push c).extend more := rfl
  have hrest : (s.push c).rest = s.rest := rfl
  simp only [nested, hpush]
  rw [← hrest] at hr h
  generalize s.push c = u at hr h ⊢
  by_cases hb : c = '\\' ∧ u.nestedQuote ≠ some '\x27'
  · have hb' : c = '\\' ∧ (u.extend more).nestedQuote ≠ some '\x27' := hb
    rw [if_pos hb', if_pos hb, rest_extend]
    cases hu : u.rest with
    | nil => exact absurd hu (hr hb.1)
    | cons x xs => rfl
  · have hb' : ¬ (c = '\\' ∧ (u.extend more).nestedQuote ≠ some '\x27') := hb
    rw [if_neg hb', if_neg hb, nestedQuote_extend, rest_extend]
    cases u.nestedQuote with
    | some q =>
      simp only
      split <;> rfl
    | none =>
      simp only
      repeat (split; · rfl)
      split
      · rename_i hdollar
        obtain ⟨r, hr⟩ | ⟨r, hr⟩ | ⟨hu, hu'⟩ := opens_or_not (h hdollar)
        · rw [hr]
          rfl
        · rw [hr]
          rfl
        · grind
      · rfl

theorem doubleQuoted_extend (s : State) (hr : c = '\\' → s.rest ≠ [])
    (h : c = '$' → splits openings ('$' :: s.rest) more = false) :
    (s.extend more).doubleQuoted c = (s.doubleQuoted c).extend more := by
  unfold doubleQuoted
  split
  · rfl
  · obtain ⟨x, xs, hx⟩ := List.exists_cons_of_ne_nil (hr rfl)
    simp only [rest_extend, hx, List.cons_append]
    by_cases hnewline : x = '\n'
    · subst hnewline
      rfl
    · simp only
      split <;> rfl
  · exact openSubstitution_extend s fun _ ↦ h rfl
  · exact openSubstitution_extend s fun hc ↦ absurd rfl hc
  · rfl

theorem escape_extend (s : State) (hr : s.rest ≠ []) (more : List Char) :
    (s.extend more).escape = s.escape.extend more := by
  obtain ⟨x, xs, hx⟩ := List.exists_cons_of_ne_nil hr
  simp only [escape, rest_extend, hx, List.cons_append]
  by_cases hnewline : x = '\n'
  · subst hnewline
    rfl
  · simp only
    rfl

theorem skip_extend {n : Nat} (hn : n ≤ s.rest.length) (more : List Char) :
    (s.extend more).skip n = (s.skip n).map (·.extend more) := by
  have hn' : n ≤ (s.extend more).rest.length := by
    rw [rest_extend, List.length_append]
    omega
  rw [skip, skip, if_pos hn, if_pos hn', rest_extend, List.drop_append_of_le_length hn]
  rfl

theorem ordinary_extend (s : State) (hc : s.word = none → c ≠ '#')
    (he : s.word = none → c = '~' → Tilde.expand? homes (s.rest ++ more) = Tilde.expand? homes s.rest) :
    (s.extend more).ordinary homes c = (s.ordinary homes c).map (·.extend more) := by
  have hword : (s.extend more).word = s.word := rfl
  unfold ordinary
  rw [hword, rest_extend]
  split
  · rfl
  · rename_i hw
    have hnone : s.word = none := by
      simpa using hw
    rw [if_neg (hc hnone), if_neg (hc hnone)]
    split
    · rename_i htilde
      rw [he hnone htilde]
      split
      · rename_i home n hexpand
        exact skip_extend (s := { s with word := some { text := home } }) (expand?_le hexpand) more
      · rfl
    · rfl

/-- The parser takes `c` in the same way with `more` behind its buffer: nothing that it takes in one look goes
on there, and `c` does not take the whole buffer. -/
structure Ignores (homes : HomeDirs) (s : State) (c : Char) (more : List Char) : Prop where
  backslash : c = '\\' → s.rest ≠ []
  opening : c = '$' → splits openings ('$' :: s.rest) more = false
  operator : s.nesting = [] → s.quoting = .none → splits compounds (c :: s.rest) more = false
  comment : s.nesting = [] → s.quoting = .none → s.word = none → c ≠ '#'
  tilde : s.nesting = [] → s.quoting = .none → s.word = none → c = '~' →
    Tilde.expand? homes (s.rest ++ more) = Tilde.expand? homes s.rest

theorem unquoted_extend (hn : s.nesting = []) (hq : s.quoting = .none) (h : s.Ignores homes c more) :
    (s.extend more).unquoted homes c = (s.unquoted homes c).map (·.extend more) := by
  have hoperator := h.operator hn hq
  unfold unquoted
  split
  · exact finishWord_extend s more
  split
  · rfl
  split
  · rfl
  split
  · rename_i hc
    exact congrArg Except.ok (escape_extend s (h.backslash hc) more)
  split
  · rename_i hc
    exact beginRedirection_extend s hc hoperator
  split
  · rename_i hc
    exact congrArg Except.ok (openSubstitution_extend s fun hb ↦ h.opening (hc.resolve_right hb))
  rw [rest_extend, connectorAt?_append hoperator]
  cases connectorAt? c s.rest with
  | none => exact ordinary_extend s (h.comment hn hq) (h.tilde hn hq)
  | some x => exact link_extend { s with rest := x.2 } x.1 more

theorem step_extend (h : s.Ignores homes c more) :
    (s.extend more).step homes c = (s.step homes c).map (·.extend more) := by
  have hnesting : (s.extend more).nesting = s.nesting := rfl
  have hquoting : (s.extend more).quoting = s.quoting := rfl
  unfold step
  rw [hnesting, hquoting]
  split
  · exact congrArg Except.ok (nested_extend s h.backslash h.opening _ _)
  · rename_i hn
    split
    · split <;> rfl
    · exact congrArg Except.ok (doubleQuoted_extend s h.backslash h.opening)
    · rename_i hq
      exact unquoted_extend hn hq h

theorem joinsNext_step (hj : s.joinsNext = false) (h : s.Ignores homes c []) (ht : s.step homes c = .ok t) :
    t.joinsNext = false := by
  have hsame := step_extend h
  rw [extend_nil hj, ht] at hsame
  exact congrArg joinsNext (Except.ok.inj hsame)

end State

end JobShell.Parser

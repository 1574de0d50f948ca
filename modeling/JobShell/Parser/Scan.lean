import JobShell.Parser.State

namespace JobShell.Parser.State

/-- Begins the substitution that `c` opens. A dollar sign before anything else stays as it is. -/
def openSubstitution (s : State) (c : Char) : State :=
  let s := s.push c
  if c = '\x60' then { s with nesting := [.backquote] }
  else
    match s.rest with
    | '(' :: r => { s.push '(' with rest := r, nesting := [.paren] }
    | '{' :: r => { s.push '{' with rest := r, nesting := [.brace] }
    | _ => s

/-- A backslash outside quotes quotes the next character. Before a newline both vanish; at the end of
the buffer the next line is joined to this one. -/
def escape (s : State) : State :=
  match s.rest with
  | [] => { s with joinsNext := true }
  | '\n' :: r => { s with rest := r }
  | next :: r => { s with rest := r }.beginQuoted.push next

/-- The connector that begins with `c`, and what follows it. -/
def connectorAt? (c : Char) (rest : List Char) : Option (Connector × List Char) :=
  if c = '&' then
    match rest with
    | '&' :: r => some (.and, r)
    | r => some (.background, r)
  else if c = '|' then
    match rest with
    | '|' :: r => some (.or, r)
    | r => some (.piped, r)
  else if c = ';' then some (.sequential, rest)
  else none

def skip (s : State) (n : Nat) : Except Fault State :=
  if n ≤ s.rest.length then .ok { s with rest := s.rest.drop n }
  else .error (.defect .beyondBuffer)

/-- A character without a meaning of its own, except at the beginning of a word: there a number sign
begins a comment, which takes the rest of the buffer, and a tilde may stand for a home. -/
def ordinary (homes : HomeDirs) (c : Char) (s : State) : Except Fault State :=
  if s.word.isSome then .ok (s.push c)
  else if c = '#' then .ok { s with rest := [] }
  else if c = '~' then
    match Tilde.expand? homes s.rest with
    | some (home, n) => { s with word := some { text := home } }.skip n
    | none => .ok (s.push c)
  else .ok (s.push c)

/-- A character outside quotes and substitutions. -/
def unquoted (homes : HomeDirs) (c : Char) (s : State) : Except Fault State :=
  if isBlank c then s.finishWord
  else if c = '\x27' then .ok { s.beginQuoted with quoting := .single }
  else if c = '\x22' then .ok { s.beginQuoted with quoting := .double }
  else if c = '\\' then .ok s.escape
  else if c = '<' ∨ c = '>' then s.beginRedirection c
  else if c = '$' ∨ c = '\x60' then .ok (s.openSubstitution c)
  else
    match connectorAt? c s.rest with
    | some (connector, r) => { s with rest := r }.link connector
    | none => s.ordinary homes c

/-- A character between double quotes. -/
def doubleQuoted (c : Char) (s : State) : State :=
  match c with
  | '\x22' => { s with quoting := .none }
  | '\\' =>
    match s.rest with
    | [] => { s with joinsNext := true }
    | '\n' :: r => { s with rest := r }
    | next :: r =>
      if next = '$' || next = '\x60' || next = '\x22' || next = '\\' then
        { s with rest := r }.push next
      else s.push '\\'
  | '$' => s.openSubstitution '$'
  | '\x60' => s.openSubstitution '\x60'
  | c => s.push c

/-- A character inside a substitution that `expected` closes, with `outer` around it. It is kept as
it is; quotes, backslashes and inner substitutions only decide where the substitution ends. -/
def nested (expected : Closer) (outer : List Closer) (c : Char) (s : State) : State :=
  let s := s.push c
  if c = '\\' ∧ s.nestedQuote ≠ some '\x27' then
    match s.rest with
    | [] => s
    | escaped :: r => { s.push escaped with rest := r }
  else
    match s.nestedQuote with
    | some q => if c = q then { s with nestedQuote := none } else s
    | none =>
      if c = '\x27' ∨ c = '\x22' then { s with nestedQuote := some c }
      else if c = expected.char then { s with nesting := outer }
      else if c = '\x60' then { s with nesting := .backquote :: s.nesting }
      else if c = '(' ∧ expected = .paren then { s with nesting := .paren :: s.nesting }
      else if c = '$' then
        match s.rest with
        | '(' :: r => { s.push '(' with rest := r, nesting := .paren :: s.nesting }
        | '{' :: r => { s.push '{' with rest := r, nesting := .brace :: s.nesting }
        | _ => s
      else s

/-- Takes the character `c`, which has left the buffer already. -/
def step (homes : HomeDirs) (c : Char) (s : State) : Except Fault State :=
  match s.nesting with
  | expected :: outer => .ok (s.nested expected outer c)
  | [] =>
    match s.quoting with
    | .single => .ok (if c = '\x27' then { s with quoting := .none } else s.push c)
    | .double => .ok (s.doubleQuoted c)
    | .none => s.unquoted homes c

@[simp] theorem rest_push (s : State) (c : Char) : (s.push c).rest = s.rest := rfl

@[simp] theorem rest_beginQuoted (s : State) : s.beginQuoted.rest = s.rest := rfl

theorem rest_finishWord {s t : State} (h : s.finishWord = .ok t) : t.rest = s.rest := by
  simp only [finishWord] at h
  split at h
  · cases h; rfl
  · split at h
    · cases h; rfl
    · split at h
      · simp only [bind, Except.bind] at h
        split at h
        · cases h
        · cases h; rfl
      · split at h <;> cases h <;> rfl

theorem rest_closeCommand {s t : State} {c : Connector} (h : s.closeCommand c = .ok t) :
    t.rest = s.rest := by
  simp only [closeCommand] at h
  split at h <;> cases h
  rfl

theorem rest_link {s t : State} {c : Connector} (h : s.link c = .ok t) : t.rest = s.rest := by
  simp only [link, bind, Except.bind] at h
  split at h
  · cases h
  · rename_i u hu
    rw [← rest_finishWord hu]
    split at h
    · cases h
    · split at h
      · split at h <;> cases h
        rfl
      · exact rest_closeCommand h

theorem suffix_operatorAt (c : Char) (rest : List Char) : (operatorAt c rest).2.2 <:+ rest := by
  unfold operatorAt
  split <;> split <;> grind [List.suffix_cons_iff, List.suffix_refl]

theorem suffix_beginRedirection {s t : State} {c : Char} (h : s.beginRedirection c = .ok t) :
    t.rest <:+ s.rest := by
  have ho := suffix_operatorAt c s.rest
  simp only [beginRedirection] at h
  split at h
  · cases h; exact ho
  · simp only [bind, Except.bind] at h
    split at h
    · cases h
    · rename_i u hu
      have hr := rest_finishWord hu
      split at h <;> cases h
      simpa only [hr] using ho

theorem suffix_openSubstitution (s : State) (c : Char) :
    (s.openSubstitution c).rest <:+ s.rest := by
  unfold openSubstitution
  grind [rest_push, List.suffix_cons_iff, List.suffix_refl]

theorem suffix_nested (s : State) (expected : Closer) (outer : List Closer) (c : Char) :
    (s.nested expected outer c).rest <:+ s.rest := by
  unfold nested
  grind [rest_push, List.suffix_cons_iff, List.suffix_refl]

theorem suffix_doubleQuoted (s : State) (c : Char) : (s.doubleQuoted c).rest <:+ s.rest := by
  unfold doubleQuoted
  grind [rest_push, suffix_openSubstitution, List.suffix_cons_iff, List.suffix_refl]

theorem suffix_escape (s : State) : s.escape.rest <:+ s.rest := by
  unfold escape
  grind [rest_push, rest_beginQuoted, List.suffix_cons_iff, List.suffix_refl]

theorem suffix_connectorAt? {c : Char} {rest r : List Char} {k : Connector}
    (h : connectorAt? c rest = some (k, r)) : r <:+ rest := by
  unfold connectorAt? at h
  grind [List.suffix_cons_iff, List.suffix_refl]

theorem suffix_skip {s t : State} {n : Nat} (h : s.skip n = .ok t) : t.rest <:+ s.rest := by
  unfold skip at h
  split at h <;> cases h
  exact List.drop_suffix n s.rest

theorem suffix_ordinary {homes : HomeDirs} {s t : State} {c : Char}
    (h : s.ordinary homes c = .ok t) : t.rest <:+ s.rest := by
  unfold ordinary at h
  split at h
  · cases h; exact List.suffix_refl _
  · split at h
    · cases h; exact List.nil_suffix
    · split at h
      · split at h
        · have hs := suffix_skip h
          exact hs
        · cases h; exact List.suffix_refl _
      · cases h; exact List.suffix_refl _

theorem suffix_unquoted {homes : HomeDirs} {s t : State} {c : Char}
    (h : s.unquoted homes c = .ok t) : t.rest <:+ s.rest := by
  unfold unquoted at h
  split at h
  · exact rest_finishWord h ▸ List.suffix_refl _
  repeat' split at h
  · cases h; exact List.suffix_refl _
  · cases h; exact List.suffix_refl _
  · cases h; exact suffix_escape s
  · exact suffix_beginRedirection h
  · cases h; exact suffix_openSubstitution s c
  · rename_i hk
    rw [rest_link h]
    exact suffix_connectorAt? hk
  · exact suffix_ordinary h

theorem suffix_step {homes : HomeDirs} {s t : State} {c : Char} (h : s.step homes c = .ok t) :
    t.rest <:+ s.rest := by
  unfold step at h
  split at h
  · cases h; exact suffix_nested ..
  · split at h
    · cases h; split <;> exact List.suffix_refl _
    · cases h; exact suffix_doubleQuoted s c
    · exact suffix_unquoted h

/-- Reads the buffer to its end. -/
def scan (homes : HomeDirs) (s : State) : Except Fault State :=
  match hs : s.rest with
  | [] => .ok s
  | c :: cs =>
    match h : { s with rest := cs }.step homes c with
    | .error f => .error f
    | .ok t =>
      have : t.rest.length < s.rest.length := by
        have := (suffix_step h).length_le
        simp only [hs, List.length_cons] at *
        omega
      t.scan homes
termination_by s.rest.length

theorem scan_nil {homes : HomeDirs} {s : State} (h : s.rest = []) : s.scan homes = .ok s := by
  rw [scan]
  split
  · rfl
  · rename_i hs
    rw [h] at hs
    cases hs

theorem scan_cons {homes : HomeDirs} {s : State} {c : Char} {cs : List Char}
    (h : s.rest = c :: cs) :
    s.scan homes = { s with rest := cs }.step homes c >>= scan homes := by
  rw [scan]
  split
  · rename_i hs
    rw [h] at hs
    cases hs
  · rename_i hs
    rw [h] at hs
    cases hs
    split <;> rename_i ht <;> simp only [ht] <;> rfl

theorem rest_scan {homes : HomeDirs} {s t : State} (h : s.scan homes = .ok t) : t.rest = [] := by
  fun_induction scan homes s with
  | case1 s hs => cases h; exact hs
  | case2 => cases h
  | case3 _ _ _ _ _ _ _ ih => exact ih h

end JobShell.Parser.State

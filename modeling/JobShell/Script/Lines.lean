import JobShell.Failure
import JobShell.Parser.Run
import JobShell.Text.Bytes

namespace JobShell.Script

def newline : UInt8 := 10

/-- The bytes up to the first newline, which they include, and the bytes after it. -/
def cutLine : List UInt8 → List UInt8 × List UInt8
  | [] => ([], [])
  | b :: bs =>
    if b = newline then ([b], bs)
    else
      let (line, rest) := cutLine bs
      (b :: line, rest)

theorem append_cutLine (bytes : List UInt8) : (cutLine bytes).1 ++ (cutLine bytes).2 = bytes := by
  induction bytes with
  | nil => rfl
  | cons b bs ih =>
    unfold cutLine
    split
    · rfl
    · simpa using ih

theorem cutLine_ne_nil {bytes : List UInt8} (h : bytes ≠ []) : (cutLine bytes).1 ≠ [] := by
  cases bytes with
  | nil => exact absurd rfl h
  | cons b bs =>
    unfold cutLine
    split <;> simp

theorem length_cutLine {bytes : List UInt8} (h : bytes ≠ []) :
    (cutLine bytes).2.length < bytes.length := by
  have h1 := congrArg List.length (append_cutLine bytes)
  have h2 := List.length_pos_iff.2 (cutLine_ne_nil h)
  rw [List.length_append] at h1
  omega

def pieces (bytes : List UInt8) : List (List UInt8) :=
  if h : bytes = [] then [] else
    have := length_cutLine h
    (cutLine bytes).1 :: pieces (cutLine bytes).2
termination_by bytes.length

def chomp (line : List Char) : List Char :=
  match line.reverse with
  | '\n' :: '\r' :: r => r.reverse
  | '\n' :: r => r.reverse
  | _ => line

def lineOf (piece : List UInt8) : Except StreamFault String :=
  match Text.decode? ⟨piece.toArray⟩ with
  | some s => .ok (String.ofList (chomp s.toList))
  | none => .error .invalidText

/-- A script being read: the bytes ahead and the number of lines behind. -/
structure Lines where
  rest : List UInt8
  number : Nat := 0
  deriving Repr

namespace Lines

/-- The next line, `none` at the end. -/
def next (l : Lines) : Option (Except StreamFault String) × Lines :=
  if l.rest.isEmpty then (none, l)
  else
    let (piece, rest) := cutLine l.rest
    match lineOf piece with
    | .ok line => (some (.ok line), ⟨rest, l.number + 1⟩)
    | .error f => (some (.error f), ⟨rest, l.number⟩)

theorem length_next {l m : Lines} {r : Except StreamFault String} (h : l.next = (some r, m)) :
    m.rest.length < l.rest.length := by
  have hne : l.rest ≠ [] := by
    intro he
    simp [next, he] at h
  have := length_cutLine hne
  unfold next at h
  grind

def all (l : Lines) : List (Except StreamFault String) × Lines :=
  match h : l.next with
  | (none, m) => ([], m)
  | (some r, m) =>
    have := length_next h
    let (rs, last) := m.all
    (r :: rs, last)
termination_by l.rest.length

def description (l : Lines) : String :=
  "ScriptLines \x7b line_number: " ++ Decimal.text l.number ++ " \x7d"

def answers (l : Lines) : List Parser.Answer :=
  l.all.1.map fun
    | .ok line => .line line
    | .error f => .failed (.stream f)

end Lines

def countLines (answers : List Parser.Answer) : Nat :=
  answers.countP fun
    | .line _ => true
    | _ => false

/-- One result of parsing a script: that of a command, with the number of lines read so far, or a
failure to read the command's first line. -/
inductive Result
  | parsed (outcome : Parser.Outcome) (number : Nat)
  | unreadable (f : Failure)

theorem length_finish (homes : HomeDirs) (p : Parser.Progress) (answers : List Parser.Answer)
    (line : String) (reads : Nat) :
    (Parser.finish homes p answers line reads).2.length ≤ answers.length := by
  fun_induction Parser.finish homes p answers line reads with
  | case1 => exact Nat.le_refl _
  | case2 => exact Nat.le_refl _
  | case3 _ _ _ ih => exact ih
  | case4 _ _ _ _ _ ih => exact Nat.le_succ_of_le ih

/-- Parses a script command by command. Each takes its further lines from the script too. The first
failure ends it. -/
def parseAnswers (homes : HomeDirs) (number : Nat) (answers : List Parser.Answer) : List Result :=
  match answers with
  | [] => []
  | .failed f :: _ => [.unreadable f]
  | .endOfInput :: _ => []
  | .line line :: later =>
    let p := Parser.parse homes line later
    let number := number + 1 + (countLines later - countLines p.2)
    match p.1.result with
    | .ok _ => .parsed p.1 number :: parseAnswers homes number p.2
    | .error _ => [.parsed p.1 number]
termination_by answers.length
decreasing_by exact Nat.lt_succ_of_le (length_finish ..)

def parse (homes : HomeDirs) (l : Lines) : List Result :=
  parseAnswers homes l.number l.answers

end JobShell.Script

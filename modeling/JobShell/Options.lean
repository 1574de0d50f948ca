import JobShell.Text.Ranges

namespace JobShell.Text

/-- The next row of the table of distances. `corner` is the distance above and to the left of the next
entry, `left` the one to its left, and the list holds those above, each with its character. -/
def distanceRow (a : Char) (corner left : Nat) : List (Char × Nat) → List (Char × Nat)
  | [] => []
  | (b, above) :: row =>
    let here := min (min above left + 1) (if a = b then corner else corner + 1)
    (b, here) :: distanceRow a above here row

def distanceFrom (done : Nat) (row : List (Char × Nat)) : List Char → Nat
  | [] => (row.getLast?.map (·.2)).getD done
  | a :: as => distanceFrom (done + 1) (distanceRow a done (done + 1) row) as

def distance (s t : String) : Nat :=
  distanceFrom 0 (t.toList.zip (List.range' 1 t.length)) s.toList

example : distance "kitten" "sitting" = 3 ∧ distance "" "abc" = 3 ∧ distance "abc" "" = 3 := by decide

end JobShell.Text

namespace JobShell

/-- A flag: its spellings, the last of which names it, and whether it takes a value. -/
structure Flag where
  spellings : List String
  takesValue : Bool := false
  deriving DecidableEq, Repr

def Flag.name (f : Flag) : String := f.spellings.getLastD ""

namespace Options

/-- What is wrong with the words. A flag that is not known may come with one that may have been
meant. -/
inductive Problem
  | unknown (flag : String) (meant : Option String)
  | unexpectedValue (flag value : String)
  | missingValue (flag : String)
  | noMatch
  deriving DecidableEq, Repr

def Problem.message : Problem → String
  | unknown flag none => "Unknown flag: '" ++ flag ++ "'"
  | unknown flag (some meant) => "Unknown flag: '" ++ flag ++ "'. Did you mean '" ++ meant ++ "'?"
  | unexpectedValue flag value =>
    "Flag '" ++ flag ++ "' cannot have an argument, but found '" ++ value ++ "'."
  | missingValue flag => "Expected argument for flag '" ++ flag ++ "' but reached end of arguments."
  | noMatch => "Invalid arguments."

/-- What the words of a command line hold: flags, by name, with the values of those that take one, and
the words that are no flags. -/
structure Read where
  flags : List (String × Option String) := []
  words : List String := []
  deriving DecidableEq, Repr

namespace Read

def has (r : Read) (name : String) : Bool := r.flags.any fun f ↦ f.1 == name

def value? (r : Read) (name : String) : Option String :=
  (r.flags.find? fun f ↦ f.1 == name).bind (·.2)

def repeats (r : Read) : Bool :=
  (r.flags.map (·.1)).eraseDups.length < r.flags.length

def addFlag (r : Read) (f : Flag) (value : Option String) : Read :=
  { r with flags := r.flags ++ [(f.name, value)] }

end Read

def find? (flags : List Flag) (spelling : String) : Option Flag :=
  flags.find? fun f ↦ f.spellings.contains spelling

def reach : Nat := 2

/-- The flag that a spelling that is not known may have been meant for: the nearest of the long ones
that is near enough, the first of them if several are. -/
def meant? (flags : List Flag) (spelling : String) : Option String :=
  let near := ((flags.flatMap Flag.spellings).filter (·.startsWith "--")).filter fun s ↦
    Text.distance spelling s ≤ reach
  near.find? fun s ↦ near.all fun t ↦ Text.distance spelling s ≤ Text.distance spelling t

def unknown (flags : List Flag) (spelling : String) : Problem :=
  .unknown spelling (meant? flags spelling)

def isGroup : List Char → Bool
  | '-' :: c :: cs => c != '-' && cs.all (!Text.isSpace ·)
  | _ => false

def isLong : List Char → Bool
  | '-' :: '-' :: c :: cs =>
    let rest := (c :: cs).dropWhile (!Text.isSpace ·)
    rest.isEmpty || (((c :: cs).takeWhile (!Text.isSpace ·)).tail.contains '='
      && !(c :: cs).contains '\n')
  | _ => false

/-- Reads the flags of a group. The first that takes a value takes the rest of the group; `none` if
that is empty, so that the next word is the value. -/
def readGroup (flags : List Flag) (r : Read) : List Char → Except Problem (Read × Option Flag)
  | [] => .ok (r, none)
  | c :: cs =>
    let spelling := String.ofList ['-', c]
    match find? flags spelling with
    | none => .error (unknown flags spelling)
    | some f =>
      if f.takesValue then
        if cs.isEmpty then .ok (r, some f) else .ok (r.addFlag f (some (String.ofList cs)), none)
      else readGroup flags (r.addFlag f none) cs

/-- Reads a long flag, with its value if it stands in the same word. -/
def readLong (flags : List Flag) (r : Read) (word : List Char) :
    Except Problem (Read × Option Flag) :=
  let name := String.ofList (word.takeWhile (· ≠ '='))
  let value := match word.dropWhile (· ≠ '=') with
    | _ :: cs => some (String.ofList cs)
    | [] => none
  match find? flags name with
  | none => .error (unknown flags name)
  | some f =>
    match f.takesValue, value with
    | true, none => .ok (r, some f)
    | true, some v => .ok (r.addFlag f (some v), none)
    | false, none => .ok (r.addFlag f none, none)
    | false, some v => .error (.unexpectedValue name v)

/-- Reads words; `due` is a flag whose value is the next of them. -/
def readWords (flags : List Flag) (r : Read) (due : Option Flag) :
    List String → Except Problem Read
  | [] =>
    match due with
    | some f => .error (.missingValue f.name)
    | none => .ok r
  | word :: rest =>
    match due with
    | some f => readWords flags (r.addFlag f (some word)) none rest
    | none =>
      if word = "--" then .ok { r with words := r.words ++ rest }
      else if isGroup word.toList then
        match readGroup flags r word.toList.tail with
        | .ok (r, due) => readWords flags r due rest
        | .error p => .error p
      else if isLong word.toList then
        match readLong flags r word.toList with
        | .ok (r, due) => readWords flags r due rest
        | .error p => .error p
      else readWords flags { r with words := r.words ++ [word] } none rest

def read (flags : List Flag) (words : List String) : Except Problem Read :=
  readWords flags {} none words

def complaint (p : Problem) (usage : String) : String := p.message ++ "\n\n" ++ usage

end Options

end JobShell

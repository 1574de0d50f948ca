import JobShell.Script.Lines
import JobShell.Text.Ranges

namespace JobShell

/-- The last lines typed, oldest first, at most `capacity` of them. `fresh` counts those added since
the file was last read or written. -/
structure History where
  capacity : Nat
  entries : List String := []
  fresh : Nat := 0
  deriving DecidableEq, Repr

namespace History

def ignores (h : History) (line : String) : Bool :=
  h.capacity == 0
    || (match line.toList with
      | [] => true
      | c :: _ => Text.isSpace c)
    || h.entries.getLast? == some line

def add (h : History) (line : String) : History :=
  if h.ignores line then h
  else
    let kept := if h.entries.length = h.capacity then h.entries.tail else h.entries
    let entries := kept ++ [line]
    { h with entries, fresh := min (h.fresh + 1) entries.length }

def version : String := "#V2"

def escape : List Char → List Char
  | [] => []
  | '\n' :: cs => '\\' :: 'n' :: escape cs
  | '\\' :: cs => '\\' :: '\\' :: escape cs
  | c :: cs => c :: escape cs

def unescape? : List Char → Option (List Char)
  | [] => some []
  | '\\' :: 'n' :: cs => (unescape? cs).map ('\n' :: ·)
  | '\\' :: '\\' :: cs => (unescape? cs).map ('\\' :: ·)
  | c :: cs => if c = '\\' then none else (unescape? cs).map (c :: ·)

theorem unescape?_escape (cs : List Char) : unescape? (escape cs) = some cs := by
  fun_induction escape cs with
  | case1 => rfl
  | case2 cs ih => simp [unescape?, ih]
  | case3 cs ih => simp [unescape?, ih]
  | case4 c cs hn hb ih =>
    have hb' : c ≠ '\\' := fun h ↦ hb h
    rw [unescape?]
    · simp [hb', ih]
    · exact fun _ h ↦ absurd h hb'
    · exact fun _ h ↦ absurd h hb'

def fileText (h : History) : String :=
  version ++ String.join (h.entries.map fun e ↦ "\n" ++ String.ofList (escape e.toList)) ++ "\n"

def save? (h : History) : Option String :=
  if h.entries.isEmpty || h.fresh = 0 then none else some h.fileText

def saved (h : History) : History := { h with fresh := 0 }

/-- The entry that a line of the file holds, and whether it was escaped badly, in which case the line
stands for itself. -/
def entryOf (line : String) : String × Bool :=
  match unescape? line.toList with
  | some cs => (String.ofList cs, false)
  | none => (line, true)

/-- Reading a file: the history so far, the lines that were escaped badly, and the fault that ended
it early. -/
structure Loaded where
  history : History
  suspicious : List String := []
  fault : Option StreamFault := none

/-- Adds the entries of the lines after the first. -/
def loadRest (escaped : Bool) (h : History) (suspicious : List String) :
    List (Except StreamFault String) → Loaded
  | [] => ⟨{ h with fresh := 0 }, suspicious, none⟩
  | .error f :: _ => ⟨h, suspicious, some f⟩
  | .ok line :: lines =>
    if line.isEmpty then loadRest escaped h suspicious lines
    else if escaped then
      let (entry, bad) := entryOf line
      loadRest escaped (h.add entry) (if bad then suspicious ++ [line] else suspicious) lines
    else loadRest escaped (h.add line) suspicious lines

def load (h : History) (bytes : List UInt8) : Loaded :=
  match (Script.pieces bytes).map Script.lineOf with
  | [] => ⟨{ h with fresh := 0 }, [], none⟩
  | .error f :: _ => ⟨h, [], some f⟩
  | .ok line :: lines =>
    if line = version then loadRest true h [] lines else loadRest false (h.add line) [] lines

def description (h : History) : String :=
  "history: " ++ Decimal.text h.entries.length ++ "\ncapacity: " ++ Decimal.text h.capacity

end History

end JobShell

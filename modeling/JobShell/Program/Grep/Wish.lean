import JobShell.Program.Flags
import JobShell.Program.Numeral
import JobShell.Program.Sh.Pattern

namespace JobShell.Program.Grep

structure Asked where
  text : List UInt8
  source : Option (String × Nat) := none

inductive Directories
  | read
  | recurse
  | skip
  deriving DecidableEq

inductive Binary
  | tell
  | text
  | passOver
  deriving DecidableEq

inductive Listing
  | none
  | matching
  | others
  deriving DecidableEq

inductive Coloring
  | never
  | always
  | terminal
  deriving DecidableEq

structure Wish where
  matcher : Option String := none
  asked : Option (List Asked) := none
  ignoreCase : Bool := false
  inverted : Bool := false
  wholeWords : Bool := false
  wholeLines : Bool := false
  most : Option Nat := none
  before : Option Nat := none
  after : Option Nat := none
  around : Option Nat := none
  separator : Option String := some "--"
  onlyMatching : Bool := false
  counts : Bool := false
  quiet : Bool := false
  silent : Bool := false
  listing : Listing := .none
  named : Option Bool := none
  zeroNames : Bool := false
  numbers : Bool := false
  offsets : Bool := false
  tabs : Bool := false
  lineBuffered : Bool := false
  label : Option String := none
  ending : UInt8 := newline
  binary : Binary := .tell
  directories : Directories := .read
  skipsDevices : Option Bool := none
  coloring : Coloring := .never
  choice : List (Bool × String) := []
  unwantedDirectories : List String := []
  help : Bool := false

def switches : List Switch :=
  [{ key := "digits", letters := "0123456789", valued := .row },
    { key := "grep", letters := "G", long := "basic-regexp" },
    { key := "egrep", letters := "E", long := "extended-regexp" },
    { key := "fgrep", letters := "F", long := "fixed-regexp" },
    { key := "fgrep", letters := "F", long := "fixed-strings" },
    { key := "perl", letters := "P", long := "perl-regexp" },
    { key := "after", letters := "A", long := "after-context", valued := .always },
    { key := "before", letters := "B", long := "before-context", valued := .always },
    { key := "binary-files", long := "binary-files", valued := .always },
    { key := "offsets", letters := "b", long := "byte-offset" },
    { key := "context", letters := "C", long := "context", valued := .always },
    { key := "color", long := "color", valued := .sometimes },
    { key := "color", long := "colour", valued := .sometimes },
    { key := "count", letters := "c", long := "count" },
    { key := "devices", letters := "D", long := "devices", valued := .always },
    { key := "directories", letters := "d", long := "directories", valued := .always },
    { key := "exclude", long := "exclude", valued := .always },
    { key := "exclude-from", long := "exclude-from", valued := .always },
    { key := "exclude-dir", long := "exclude-dir", valued := .always },
    { key := "file", letters := "f", long := "file", valued := .always },
    { key := "matching", letters := "l", long := "files-with-matches" },
    { key := "others", letters := "L", long := "files-without-match" },
    { key := "separator", long := "group-separator", valued := .always },
    { key := "help", long := "help" },
    { key := "include", long := "include", valued := .always },
    { key := "ignore-case", letters := "iy", long := "ignore-case" },
    { key := "no-ignore-case", long := "no-ignore-case" },
    { key := "tabs", letters := "T", long := "initial-tab" },
    { key := "label", long := "label", valued := .always },
    { key := "line-buffered", long := "line-buffered" },
    { key := "numbers", letters := "n", long := "line-number" },
    { key := "lines", letters := "x", long := "line-regexp" },
    { key := "most", letters := "m", long := "max-count", valued := .always },
    { key := "no-names", letters := "h", long := "no-filename" },
    { key := "no-separator", long := "no-group-separator" },
    { key := "silent", letters := "s", long := "no-messages" },
    { key := "zero-names", letters := "Z", long := "null" },
    { key := "zero", letters := "z", long := "null-data" },
    { key := "only", letters := "o", long := "only-matching" },
    { key := "quiet", letters := "q", long := "quiet" },
    { key := "recursive", letters := "r", long := "recursive" },
    { key := "recursive", letters := "R", long := "dereference-recursive" },
    { key := "regexp", letters := "e", long := "regexp", valued := .always },
    { key := "invert", letters := "v", long := "invert-match" },
    { key := "quiet", letters := "q", long := "silent" },
    { key := "text", letters := "a", long := "text" },
    { key := "binary", letters := "U", long := "binary" },
    { key := "unix", letters := "u", long := "unix-byte-offsets" },
    { key := "version", letters := "V", long := "version" },
    { key := "names", letters := "H", long := "with-filename" },
    { key := "words", letters := "w", long := "word-regexp" },
    { key := "pass-over", letters := "I" },
    { key := "matcher", letters := "X", valued := .always }]

def failure : Int := 2

def refuse {α : Type} (name problem : String) : Held α := do
  Held.blame (name ++ ": " ++ problem)
  Held.leave failure

def usage {α : Type} (name : String) (code : Int) : Held α := do
  Held.blame ("Usage: " ++ name ++ " [OPTION]... PATTERNS [FILE]...\nTry '" ++ name
    ++ " --help' for more information.")
  Held.leave code

def integer? (text : String) : Option Int :=
  match readInteger (some 10) text.toList with
  | some (n, []) => some (clamp n)
  | _ => none

def contextLength (name text : String) : Held Nat :=
  match integer? text with
  | some n => if 0 ≤ n then pure n.toNat else refuse name (text ++ problem)
  | none => refuse name (text ++ problem)
where
  problem : String := ": invalid context length argument"

def digitRow (row : String) : String :=
  let ds := row.toList.dropWhile (· = '0')
  if ds.isEmpty then "0"
  else if ds.length ≤ 21 then String.ofList ds
  else String.ofList (ds.take 21) ++ "..."

def matchers : List String := ["grep", "egrep", "fgrep", "awk", "gawk", "posixawk", "perl"]

def setMatcher (name : String) (w : Wish) (matcher : String) : Held Wish := do
  if !matchers.contains matcher then refuse name ("invalid matcher " ++ matcher)
  else
    match w.matcher with
    | some other =>
      if other = matcher then pure w else refuse name "conflicting matchers specified"
    | none => pure { w with matcher := some matcher }

def splitPatterns (text : List UInt8) : List (List UInt8) :=
  text.splitOnP (· = newline)

def Wish.ask (w : Wish) (asked : List Asked) : Wish :=
  { w with asked := some (w.asked.getD [] ++ asked) }

def askFile (name : String) (w : Wish) (path : String) : Held Wish := do
  match ← liftM (readInput path) with
  | .error e => refuse name (path ++ ": " ++ e.libraryText)
  | .ok data =>
    let texts := (lines data).map fun l ↦ (bare l).toList
    pure (w.ask ((texts.zipIdx 1).map fun t ↦ { text := t.1, source := some (path, t.2) }))

def excludeFrom (name : String) (w : Wish) (path : String) : Held Wish := do
  match ← liftM (readInput path) with
  | .error e => refuse name (path ++ ": " ++ e.libraryText)
  | .ok data =>
    let trimmed (l : ByteArray) : String :=
      String.ofList ((Text.ofBytes l).toList.reverse.dropWhile isSpace).reverse
    let texts := ((lines data).map trimmed).filter (!·.isEmpty)
    pure { w with choice := w.choice ++ texts.map fun t ↦ (false, t) }

def setDirectories (name : String) (w : Wish) (value : String) : Held Wish :=
  let choices := ["read", "recurse", "skip"]
  match chosen? choices value with
  | some "recurse" => pure { w with directories := .recurse }
  | some "skip" => pure { w with directories := .skip }
  | some _ => pure { w with directories := .read }
  | none => do
    Held.blame (name ++ ": " ++ notChosen choices "--directories" value)
    usage name 1

def setColoring (w : Wish) (value : Option String) : Wish :=
  match value.map fun v ↦ String.ofList (v.toList.map Char.toLower) with
  | some "always" | some "yes" | some "force" => { w with coloring := .always }
  | some "never" | some "no" | some "none" => { w with coloring := .never }
  | none | some "auto" | some "tty" | some "if-tty" => { w with coloring := .terminal }
  | some _ => { w with help := true }

def valuedFlag (name : String) (w : Wish) (key value : String) : Held Wish :=
  match key with
  | "digits" => do
    let n ← contextLength name (digitRow value)
    pure { w with around := some n }
  | "context" => do
    let n ← contextLength name value
    pure { w with around := some n }
  | "after" => do
    let n ← contextLength name value
    pure { w with after := some n }
  | "before" => do
    let n ← contextLength name value
    pure { w with before := some n }
  | "most" =>
    match integer? value with
    | some n => pure { w with most := if n < 0 then none else some n.toNat }
    | none => refuse name "invalid max count"
  | "binary-files" =>
    match value with
    | "binary" => pure { w with binary := .tell }
    | "text" => pure { w with binary := .text }
    | "without-match" => pure { w with binary := .passOver }
    | _ => refuse name "unknown binary-files type"
  | "devices" =>
    match value with
    | "read" => pure { w with skipsDevices := some false }
    | "skip" => pure { w with skipsDevices := some true }
    | _ => refuse name "unknown devices method"
  | "directories" => setDirectories name w value
  | "matcher" => setMatcher name w value
  | "regexp" => pure (w.ask ((splitPatterns (Text.toBytes value).toList).map fun text ↦ { text }))
  | "file" => askFile name w value
  | "include" => pure { w with choice := w.choice ++ [(true, value)] }
  | "exclude" => pure { w with choice := w.choice ++ [(false, value)] }
  | "exclude-from" => excludeFrom name w value
  | "exclude-dir" =>
    let value := match (value.toList.reverse.dropWhile (· = '/')).reverse with
      | [] => value
      | cs => String.ofList cs
    pure { w with unwantedDirectories := w.unwantedDirectories ++ [value] }
  | "separator" => pure { w with separator := some value }
  | "label" => pure { w with label := some value }
  | _ => pure w

def plainFlag (name : String) (w : Wish) (key : String) : Held Wish :=
  match key with
  | "grep" | "egrep" | "fgrep" | "perl" => setMatcher name w key
  | "ignore-case" => pure { w with ignoreCase := true }
  | "no-ignore-case" => pure { w with ignoreCase := false }
  | "invert" => pure { w with inverted := true }
  | "words" => pure { w with wholeWords := true }
  | "lines" => pure { w with wholeLines := true }
  | "only" => pure { w with onlyMatching := true }
  | "count" => pure { w with counts := true }
  | "quiet" => pure { w with quiet := true }
  | "silent" => pure { w with silent := true }
  | "matching" => pure { w with listing := .matching }
  | "others" => pure { w with listing := .others }
  | "names" => pure { w with named := some true }
  | "no-names" => pure { w with named := some false }
  | "zero-names" => pure { w with zeroNames := true }
  | "zero" => pure { w with ending := 0 }
  | "numbers" => pure { w with numbers := true }
  | "offsets" => pure { w with offsets := true }
  | "tabs" => pure { w with tabs := true }
  | "line-buffered" => pure { w with lineBuffered := true }
  | "text" => pure { w with binary := .text }
  | "pass-over" => pure { w with binary := .passOver }
  | "recursive" => pure { w with directories := .recurse }
  | "no-separator" => pure { w with separator := none }
  | "unix" => do
    Held.blame (name ++ ": warning: --unix-byte-offsets (-u) is obsolete")
    pure w
  | "help" | "version" => pure { w with help := true }
  | _ => pure w

def flag (name : String) (w : Wish) (f : String × Option String) : Held Wish :=
  match f with
  | ("color", value) => pure (setColoring w value)
  | (key, some value) => valuedFlag name w key value
  | (key, none) => plainFlag name w key

def anyBehindSlash (test : List Char → Bool) : List Char → Bool
  | [] => false
  | c :: cs =>
    let behind : Bool := match cs with
      | d :: _ => c = '/' && d ≠ '/' && test cs
      | [] => false
    behind || anyBehindSlash test cs

def fitsName (pattern : String) (onCommandLine : Bool) (path : String) : Bool :=
  let fits := Sh.Pattern.fits pattern.toList
  fits path.toList || onCommandLine && anyBehindSlash fits path.toList

def Wish.skipsFile (w : Wish) (onCommandLine : Bool) (path : String) : Bool :=
  match w.choice.reverse.find? fun c ↦ fitsName c.2 onCommandLine path with
  | some (wanted, _) => !wanted
  | none => (w.choice.head?.map (·.1)).getD false

def Wish.skipsDirectory (w : Wish) (onCommandLine : Bool) (path : String) : Bool :=
  w.directories = .skip || w.unwantedDirectories.any fun p ↦ fitsName p onCommandLine path

end JobShell.Program.Grep

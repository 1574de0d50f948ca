import JobShell.Program.Flags

namespace JobShell.Program

structure Counts where
  lines : Nat := 0
  words : Nat := 0
  bytes : Nat := 0
  longest : Nat := 0

namespace Counts

def add (a b : Counts) : Counts :=
  ⟨a.lines + b.lines, a.words + b.words, a.bytes + b.bytes, max a.longest b.longest⟩

def countWords : Bool → Nat → List UInt8 → Nat
  | _, n, [] => n
  | inside, n, b :: bs =>
    if b = 32 || (9 ≤ b && b ≤ 13) then countWords false n bs
    else if 33 ≤ b && b ≤ 126 then countWords true (if inside then n else n + 1) bs
    else countWords inside n bs

def widest : Nat → Nat → List UInt8 → Nat
  | best, here, [] => max best here
  | best, here, b :: bs =>
    if b = 10 || b = 13 || b = 12 then widest (max best here) 0 bs
    else if b = 9 then widest best ((here / 8 + 1) * 8) bs
    else if 32 ≤ b && b ≤ 126 then widest best (here + 1) bs
    else widest best here bs

def ofBytes (data : ByteArray) : Counts :=
  let bs := data.toList
  ⟨bs.count newline, countWords false 0 bs, data.size, widest 0 0 bs⟩

end Counts

namespace Count

def switches : List Switch :=
  [{ key := "bytes", letters := "c", long := "bytes" },
    { key := "chars", letters := "m", long := "chars" },
    { key := "lines", letters := "l", long := "lines" },
    { key := "words", letters := "w", long := "words" },
    { key := "debug", long := "debug" },
    { key := "files0", long := "files0-from", valued := .always },
    { key := "longest", letters := "L", long := "max-line-length" },
    { key := "total", long := "total", valued := .always }]

inductive Total
  | auto
  | always
  | only
  | never
  deriving DecidableEq

def totals : List String := ["auto", "always", "only", "never"]

def total (f : Found) : Except String Total :=
  (f.values "total").foldlM (fun _ value ↦
    match chosen? totals value with
    | some "always" => .ok .always
    | some "only" => .ok .only
    | some "never" => .ok .never
    | some _ => .ok .auto
    | none => .error (notChosen totals "--total" value)) .auto

def shown (f : Found) (c : Counts) : List Nat :=
  let all := !(["lines", "words", "chars", "bytes", "longest"].any f.has)
  (if all || f.has "lines" then [c.lines] else []) ++ (if all || f.has "words" then [c.words] else [])
    ++ (if f.has "chars" then [c.bytes] else []) ++ (if all || f.has "bytes" then [c.bytes] else [])
    ++ (if f.has "longest" then [c.longest] else [])

def line (f : Found) (width : Nat) (c : Counts) (label : String) : String :=
  let number (n : Nat) : String :=
    let ds := Decimal.text n
    String.ofList (List.replicate (width - ds.length) ' ') ++ ds
  let label := if label.toList.contains '\n' then fileName label else label
  " ".intercalate ((shown f c).map number) ++ (if label.isEmpty then "" else " " ++ label) ++ "\n"

def width (f : Found) (t : Total) (count : Nat) (paths : List String) : Held Nat := do
  if t = .only then pure 1
  else if count = 1 && (shown f {}).length = 1 then pure 1
  else
    let infos ← paths.mapM fun path ↦
      if path = "-" then Held.ask (.inspectOpen Sys.stdin) else Held.ask (.inspect path)
    let known := infos.filterMap fun i ↦ match i with
      | .ok i => some i
      | .error _ => none
    let total := (known.filter (·.kind = .regular)).foldl (fun (n : Nat) i ↦ n + i.size) 0
    let least := if known.any (·.kind ≠ .regular) then 7 else 1
    pure (max least (Decimal.text total).length)

def ofFile (name : String) (path : Option String) : Held (Option Counts × Bool) := do
  match ← liftM (openInput (path.getD "-")) with
  | .error e => do
    Held.blame (name ++ ": " ++ fileName (path.getD "-") ++ ": " ++ e.libraryText)
    pure (none, false)
  | .ok fd => do
    let (data, fault) : ByteArray × Option Errno ← liftM (Sys.readAvailable fd)
    match fault with
    | some e =>
      Held.blame (name ++ ": " ++ fileName (path.getD "standard input") ++ ": " ++ e.libraryText)
    | none => pure ()
    liftM (closeInput fd)
    pure (some (Counts.ofBytes data), fault.isNone)

inductive Input
  | file (path : String)
  | nameless
  | refused (reason : String)

def Input.label : Input → String
  | file path => path
  | _ => ""

def Input.path? : Input → Option String
  | file path => some path
  | nameless => some "-"
  | refused _ => none

/-- Counts files one after another and shows the counts of each, unless only the sum is wanted. -/
def files (name : String) (f : Found) (width : Nat) (quiet : Bool) :
    Counts → Bool → List Input → Held (Counts × Bool)
  | sum, ok, [] => pure (sum, ok)
  | sum, ok, i :: rest => do
    let (counts, fine) ← match i with
      | .file path => ofFile name (some path)
      | .nameless => ofFile name none
      | .refused reason => do
        Held.blame (name ++ ": " ++ reason)
        pure (none, false)
    match counts with
    | some c => do
      if !quiet then Held.say (line f width c i.label)
      files name f width quiet (sum.add c) (ok && fine) rest
    | none => files name f width quiet sum false rest

def zeroEnded (data : ByteArray) : List String :=
  let names := (Text.ofBytes data).splitOn "\x00"
  if names.getLast? = some "" then names.dropLast else names

def listed (list : String) (path : String) (n : Nat) : Input :=
  if path.isEmpty then
    .refused (fileName list ++ ":" ++ Decimal.text n ++ ": invalid zero-length file name")
  else if list = "-" && path = "-" then
    .refused "when reading file names from stdin, no file name of '-' allowed"
  else .file path

def inputs (name : String) (f : Found) : Held (List Input) := do
  match f.value? "files0" with
  | none =>
    pure (if f.words.isEmpty then [.nameless]
      else f.words.map fun w ↦
        if w.isEmpty then .refused "invalid zero-length file name" else .file w)
  | some list =>
    match ← liftM (readInput list) with
    | .error e => do
      Held.blame (name ++ ": cannot open " ++ quotedName list ++ " for reading: " ++ e.libraryText)
      Held.leave 1
    | .ok data => pure (((zeroEnded data).zipIdx 1).map fun p ↦ listed list p.1 p.2)

end Count

def wc (words : List String) : Sys Int := do
  let name := words.headD "wc"
  let f := Switch.read Count.switches words.tail
  match Count.total f with
  | .error problem => do
    tryHelp name problem
    pure 1
  | .ok total =>
    f.run name 1 do
      if f.has "files0" && !f.words.isEmpty then
        liftM (tryHelp name ("extra operand " ++ quotedName (f.words.headD "")
          ++ "\nfile operands cannot be combined with --files0-from"))
        Held.leave 1
      let paths ← Count.inputs name f
      let read := paths.filterMap Count.Input.path?
      let width ← Count.width f total paths.length read
      let (sum, ok) ← Count.files name f width (total = .only) {} true paths
      let summed : Bool := match total with
        | .auto => 1 < paths.length
        | .always | .only => true
        | .never => false
      if summed then Held.say (Count.line f width sum (if total = .only then "" else "total"))
      Held.closeStandard name read (if ok then 0 else 1)

end JobShell.Program

import JobShell.Program.Flags
import JobShell.Program.Sorting.Key

namespace JobShell.Program

namespace Sorting

/-- What flags ask for. `checks` is the letter of the flag that only asks whether lines are in order. -/
structure Wish where
  general : Collation := {}
  keys : List SortKey := []
  separator : Option UInt8 := none
  checks : Option Char := none
  merges : Bool := false
  output : Option String := none
  list : Option String := none
  stable : Bool := false
  unique : Bool := false
  ending : UInt8 := newline

abbrev Misuse := String × Bool

def plainly {α : Type} (r : Except String α) : Except Misuse α := r.mapError (·, false)

def manners : List String :=
  ["general-numeric", "human-numeric", "month", "numeric", "random", "version"]

def mannerLetter : String → Char
  | "general-numeric" => 'g'
  | "human-numeric" => 'h'
  | "month" => 'M'
  | "numeric" => 'n'
  | "random" => 'R'
  | _ => 'V'

def switches : List Switch :=
  [{ key := "b", letters := "b", long := "ignore-leading-blanks" },
    { key := "c", letters := "c" },
    { key := "C", letters := "C" },
    { key := "check", long := "check", valued := .sometimes },
    { key := "compress", long := "compress-program", valued := .always },
    { key := "debug", long := "debug" },
    { key := "d", letters := "d", long := "dictionary-order" },
    { key := "f", letters := "f", long := "ignore-case" },
    { key := "files0", long := "files0-from", valued := .always },
    { key := "g", letters := "g", long := "general-numeric-sort" },
    { key := "i", letters := "i", long := "ignore-nonprinting" },
    { key := "key", letters := "k", long := "key", valued := .always },
    { key := "merge", letters := "m", long := "merge" },
    { key := "M", letters := "M", long := "month-sort" },
    { key := "n", letters := "n", long := "numeric-sort" },
    { key := "h", letters := "h", long := "human-numeric-sort" },
    { key := "V", letters := "V", long := "version-sort" },
    { key := "R", letters := "R", long := "random-sort" },
    { key := "source", long := "random-source", valued := .always },
    { key := "sort", long := "sort", valued := .always },
    { key := "output", letters := "o", long := "output", valued := .always },
    { key := "r", letters := "r", long := "reverse" },
    { key := "stable", letters := "s", long := "stable" },
    { key := "batch", long := "batch-size", valued := .always },
    { key := "-S", letters := "S" , valued := .always },
    { key := "--buffer-size", long := "buffer-size", valued := .always },
    { key := "tab", letters := "t", long := "field-separator", valued := .always },
    { key := "directory", letters := "T", long := "temporary-directory", valued := .always },
    { key := "unique", letters := "u", long := "unique" },
    { key := "y", letters := "y", valued := .sometimes },
    { key := "zero", letters := "z", long := "zero-terminated" },
    { key := "parallel", long := "parallel", valued := .always }]

def checkSize (flag text : String) : Except Misuse Unit :=
  let cs := text.toList
  let behind := (cs.dropWhile isSpace).dropWhile Decimal.isDigit
  match Amount.read "EgGkKmMPQRtTYZ" text with
  | .ok _ => .ok ()
  | .error .tooLarge => .error (flag ++ " argument '" ++ text ++ "' too large", false)
  | .error .unreadable =>
    if behind.length = cs.length then .error ("invalid " ++ flag ++ " argument '" ++ text ++ "'", false)
    else if behind = ['b'] || behind = ['%'] then .ok ()
    else .error ("invalid suffix in " ++ flag ++ " argument '" ++ text ++ "'", false)

def readSeparator (w : Wish) (text : String) : Except Misuse Wish := do
  let b ← match (Text.toBytes text).toList with
    | [] => throw ("empty tab", false)
    | [b] => pure b
    | _ =>
      if text = "\\0" then pure 0 else throw ("multi-character tab " ++ quote text, false)
  match w.separator with
  | some c => if b = c then pure w else throw ("incompatible tabs", false)
  | none => pure { w with separator := some b }

def contradict (letters : String) : Misuse := ("options '-" ++ letters ++ "' are incompatible", false)

def check (w : Wish) (kind : Char) : Except Misuse Wish :=
  match w.checks with
  | some other => if other = kind then .ok w else .error (contradict "cC")
  | none => .ok { w with checks := some kind }

def flag (w : Wish) : String × Option String → Except Misuse Wish
  | ("b", _) => .ok { w with general := { w.general with skipsAtStart := true, skipsAtEnd := true } }
  | ("c", _) => check w 'c'
  | ("C", _) => check w 'C'
  | ("check", none) => check w 'c'
  | ("check", some value) =>
    match chosen? ["quiet", "silent", "diagnose-first"] value with
    | some "diagnose-first" => check w 'c'
    | some _ => check w 'C'
    | none =>
      .error ("invalid argument " ++ quote value ++ " for '--check'\nValid arguments are:"
        ++ "\n  - 'quiet', 'silent'\n  - 'diagnose-first'", true)
  | ("key", some value) => do
    let k ← plainly (SortKey.read value)
    pure { w with keys := w.keys ++ [k] }
  | ("merge", _) => .ok { w with merges := true }
  | ("sort", some value) =>
    match chosen? manners value with
    | some m => .ok { w with general := { w.general with options := mannerLetter m :: w.general.options } }
    | none => .error (notChosen manners "--sort" value, true)
  | ("output", some value) =>
    if w.output.isSome && w.output ≠ some value then .error ("multiple output files specified", false)
    else .ok { w with output := some value }
  | ("stable", _) => .ok { w with stable := true }
  | ("unique", _) => .ok { w with unique := true }
  | ("zero", _) => .ok { w with ending := 0 }
  | ("files0", value) => .ok { w with list := value }
  | ("tab", some value) => readSeparator w value
  | ("-S", some value) => (checkSize "-S" value).map fun _ ↦ w
  | ("--buffer-size", some value) => (checkSize "--buffer-size" value).map fun _ ↦ w
  | ("batch", some value) =>
    match Amount.read "" value with
    | .ok n =>
      if n < 2 then
        .error ("invalid --batch-size argument " ++ quote value
          ++ "\nsort: minimum --batch-size argument is '2'", false)
      else .ok w
    | .error _ => .error ("invalid --batch-size argument " ++ quote value, false)
  | ("parallel", some value) =>
    match Amount.read "" value with
    | .ok 0 => .error ("number in parallel must be nonzero", false)
    | .ok _ | .error .tooLarge => .ok w
    | .error .unreadable => .error ("invalid --parallel argument " ++ quote value, false)
  | (letter, none) =>
    if letter.length = 1 && letter ≠ "y" then
      .ok { w with general := { w.general with options := letter.toList ++ w.general.options } }
    else .ok w
  | _ => .ok w

def order (w : Wish) : Except Misuse SortOrder := do
  let keys := w.keys.map fun k ↦
    if k.order.isPlain && !k.order.isReversed then { k with order := w.general } else k
  let keys := if keys.isEmpty && !w.general.isPlain then [{ order := w.general }] else keys
  match keys.findSome? fun k ↦ k.order.contradiction? with
  | some letters => throw (contradict letters)
  | none =>
    pure ⟨keys, w.separator, w.general.isReversed, w.stable || w.unique⟩

def splitLines (ending : UInt8) (data : ByteArray) : List (List UInt8) :=
  let (line, all) := data.toList.foldl (fun (acc : List UInt8 × List (List UInt8)) x ↦
    if x = ending then ([], acc.1.reverse :: acc.2) else (x :: acc.1, acc.2)) ([], [])
  (if line.isEmpty then all else line.reverse :: all).reverse

def refuse {α : Type} (name problem : String) : Held α := do
  Held.blame (name ++ ": " ++ problem)
  Held.leave 2

def readLines (name : String) (ending : UInt8) (path : String) : Held (List (List UInt8)) := do
  match ← liftM (openInput path) with
  | .error e => refuse name ("open failed: " ++ fileName path ++ ": " ++ e.libraryText)
  | .ok fd =>
    match ← liftM (Sys.readAll fd) with
    | .error e => refuse name ("read failed: " ++ fileName path ++ ": " ++ e.libraryText)
    | .ok data => do
      liftM (closeInput fd)
      pure (splitLines ending data)

def checkInputs (name : String) (paths : List String) : Held Unit :=
  paths.forM fun path ↦ do
    if path ≠ "-" then
      match ← liftM (openInput path) with
      | .error e => refuse name ("cannot read: " ++ fileName path ++ ": " ++ e.libraryText)
      | .ok fd => liftM (closeInput fd)

def checkOutput (name path : String) : Held Unit := do
  match ← Held.ask (.«open» path { writable := true, create := true } 0o666) with
  | .error e => refuse name ("open failed: " ++ fileName path ++ ": " ++ e.libraryText)
  | .ok fd => liftM (Sys.drop fd)

/-- Writes everything, to a file or to standard output. -/
def write (name : String) (path : Option String) (bytes : ByteArray) : Held Unit := do
  let shown := quotedName "standard output"
  match path with
  | none =>
    if !bytes.isEmpty then
      let r : Except Errno Unit × ByteArray ← liftM (Sys.writeAll Sys.stdout bytes)
      match r.1 with
      | .ok _ => pure ()
      | .error e => do
        Held.blame (name ++ ": fflush failed: " ++ shown ++ ": " ++ e.libraryText)
        refuse name "write error"
  | some path =>
    match ← Held.ask (.«open» path { writable := true, create := true, truncate := true } 0o666) with
    | .error e => refuse name ("open failed: " ++ fileName path ++ ": " ++ e.libraryText)
    | .ok fd => do
      let r : Except Errno Unit × ByteArray ← liftM (Sys.writeAll fd bytes)
      liftM (Sys.drop fd)
      match r.1 with
      | .ok _ => pure ()
      | .error e => refuse name ("write failed: " ++ fileName path ++ ": " ++ e.libraryText)

def checkFile (name : String) (w : Wish) (o : SortOrder) (path : String) : Held Int := do
  let lines ← readLines name w.ending path
  match o.disorder? w.unique 1 lines with
  | none => pure 0
  | some (n, line) => do
    if w.checks = some 'c' then
      let front := "sort: " ++ fileName path ++ ":" ++ Decimal.text n ++ ": disorder: "
      let _ : Except Errno Unit × ByteArray ←
        liftM (Sys.writeAll Sys.stderr (Text.toBytes front ++ ⟨(line ++ [w.ending]).toArray⟩))
    pure 1

/-- The names in a list of names that end with zero bytes. -/
def listed (name list : String) : Held (List String) := do
  match ← liftM (openInput list) with
  | .error e => refuse name ("open failed: " ++ fileName list ++ ": " ++ e.libraryText)
  | .ok fd =>
    match ← liftM (Sys.readAll fd) with
    | .error e => refuse name ("read failed: " ++ fileName list ++ ": " ++ e.libraryText)
    | .ok data => do
      liftM (closeInput fd)
      let names := (splitLines 0 data).map fun n ↦ Text.ofBytes ⟨n.toArray⟩
      let place (i : Nat) : String := fileName list ++ ":" ++ Decimal.text (i + 1 : Nat) ++ ": "
      match names.findIdx? (·.isEmpty), names.isEmpty with
      | _, true => refuse name ("no input from " ++ quotedName list)
      | some i, _ => refuse name (place i ++ "invalid zero-length file name")
      | none, _ =>
        if list = "-" && names.contains "-" then
          refuse name "when reading file names from standard input, no file name of '-' allowed"
        else pure names

def sortFiles (name : String) (w : Wish) (o : SortOrder) (paths : List String) : Held Int := do
  checkInputs name paths
  match w.output with
  | some path => checkOutput name path
  | none => pure ()
  if paths.contains "-" && !w.merges then
    match ← Held.ask (.inspectOpen Sys.stdin) with
    | .ok _ => pure ()
    | .error e => refuse name ("stat failed: -: " ++ e.libraryText)
  let files ← paths.mapM (readLines name w.ending)
  let lines :=
    if w.merges then o.merge ((files.map List.length).foldr (· + ·) 0 + 1) files
    else files.flatten.mergeSort fun a b ↦ o.compare a b != .gt
  let lines := if w.unique then o.unique lines else lines
  write name w.output (concat (lines.map fun l ↦ ⟨(l ++ [w.ending]).toArray⟩))
  pure 0

end Sorting

open Sorting

def sort (words : List String) : Sys Int := do
  let name := words.headD "sort"
  let f := Switch.read switches words.tail
  match f.flags.foldlM flag {} with
  | .error (problem, true) => do
    tryHelp name problem
    pure 1
  | .error (problem, false) => do
    complain (name ++ ": " ++ problem)
    pure 2
  | .ok w =>
    f.run name 2 do
      let words ← match w.list with
        | none => pure f.words
        | some list => do
          if !f.words.isEmpty then
            liftM (tryHelp name ("extra operand " ++ quotedName (f.words.headD "")
              ++ "\nfile operands cannot be combined with --files0-from"))
            Held.leave 2
          listed name list
      match order w with
      | .error (problem, _) => refuse name problem
      | .ok o =>
        let paths := if words.isEmpty then ["-"] else words
        match w.checks, paths with
        | none, _ => sortFiles name w o paths
        | some kind, [path] =>
          if w.output.isSome then
            refuse name (contradict (String.ofList [kind, 'o'])).1
          else checkFile name w o path
        | some kind, _ =>
          refuse name ("extra operand " ++ quotedName ((paths.drop 1).headD "")
            ++ " not allowed with -" ++ String.singleton kind)

end JobShell.Program

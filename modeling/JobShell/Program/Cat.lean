import JobShell.Program.Flags
import JobShell.Program.Basic

namespace JobShell.Program

/-- How lines are shown. -/
structure CatStyle where
  numbers : Bool := false
  numbersFilled : Bool := false
  squeezes : Bool := false
  showsEnds : Bool := false
  showsTabs : Bool := false
  showsHidden : Bool := false

structure CatPlace where
  line : Nat := 0
  atStart : Bool := true
  blanks : Nat := 0
  waits : Bool := false

namespace CatStyle

def isPlain (s : CatStyle) : Bool :=
  !(s.numbers || s.numbersFilled || s.squeezes || s.showsEnds || s.showsTabs || s.showsHidden)

def shown (s : CatStyle) (b : UInt8) : List UInt8 :=
  if b = 9 then (if s.showsTabs then [94, 73] else [9])
  else if !s.showsHidden then [b]
  else
    let low (b : UInt8) : List UInt8 :=
      if b < 32 then [94, b + 64] else if b = 127 then [94, 63] else [b]
    if b < 128 then low b else [77, 45] ++ low (b - 128)

def label (n : Nat) : List UInt8 :=
  let ds := Decimal.text n
  (String.ofList (List.replicate (6 - ds.length) ' ') ++ ds ++ "\t").toUTF8.toList

def holdsReturn (s : CatStyle) (b : UInt8) : Bool := b = 13 && s.showsEnds && !s.showsHidden

def show_ (s : CatStyle) : CatPlace → List UInt8 → List UInt8 → List UInt8 × CatPlace
  | p, acc, [] => (acc, p)
  | p, acc, b :: bs =>
    if b = newline then
      if p.atStart && s.squeezes && p.blanks > 0 then show_ s p acc bs
      else
        let numbered := p.atStart && s.numbers && !s.numbersFilled
        let front := if numbered then label (p.line + 1) else []
        let line := if numbered then p.line + 1 else p.line
        let acc := front.reverse ++ acc
        let acc := if p.waits then 77 :: 94 :: acc else acc
        let acc := if s.showsEnds then 36 :: acc else acc
        let p := { line, atStart := true, blanks := if p.atStart then p.blanks + 1 else 0 }
        show_ s p (newline :: acc) bs
    else
      let numbered := p.atStart && (s.numbers || s.numbersFilled)
      let front := if numbered then label (p.line + 1) else []
      let acc := front.reverse ++ (if p.waits then 13 :: acc else acc)
      let waits := s.holdsReturn b
      let p := { line := if numbered then p.line + 1 else p.line, atStart := false, waits }
      show_ s p (if waits then acc else (s.shown b).reverse ++ acc) bs

end CatStyle

/-- Copies what is left of an open file. Gives the failure to read or to write it. -/
def copyOpen (s : CatStyle) (fd : Int) : Nat → CatPlace → Sys (Except (Bool × Errno) CatPlace)
  | 0, _ => Sys.hang
  | n + 1, p => do
    match ← Sys.read fd 65536 with
    | .error e => pure (.error (true, e))
    | .ok piece =>
      if piece.isEmpty then pure (.ok p)
      else
        let (out, p) :=
          if s.isPlain then (piece, p)
          else
            let (acc, p) := s.show_ p [] piece.toList
            (⟨acc.reverse.toArray⟩, p)
        match (← Sys.writeAll Sys.stdout out).1 with
        | .ok _ => copyOpen s fd n p
        | .error e => pure (.error (false, e))

def isOwnOutput (fd : Int) : Sys Bool := do
  match ← Sys.ask (.inspectOpen fd), ← Sys.ask (.inspectOpen Sys.stdout) with
  | .ok i, .ok o => pure (i.kind = .regular && i.index = o.index && i.size > 0)
  | _, _ => pure false

/-- Copies one file. Gives where it ends, whether that went well, and whether to go on. -/
def catFile (name : String) (s : CatStyle) (p : CatPlace) (path : String) :
    Sys (CatPlace × Bool × Bool) := do
  match ← openInput path with
  | .error e => do
    complain (name ++ ": " ++ fileName path ++ ": " ++ e.libraryText)
    pure (p, false, true)
  | .ok fd => do
    if ← isOwnOutput fd then
      complain (name ++ ": " ++ fileName path ++ ": input file is output file")
      closeInput fd
      pure (p, false, true)
    else
      let r ← copyOpen s fd Sys.patience p
      closeInput fd
      match r with
      | .ok p => pure (p, true, true)
      | .error (true, e) => do
        complain (name ++ ": " ++ fileName path ++ ": " ++ e.libraryText)
        pure (p, false, true)
      | .error (false, e) => do
        complain (name ++ ": write error: " ++ e.libraryText)
        pure (p, false, false)

def catFiles (name : String) (s : CatStyle) : CatPlace → Bool → List String → Sys Bool
  | p, ok, [] => do
    if p.waits then
      let _ ← Sys.writeAll Sys.stdout ⟨#[13]⟩
    pure ok
  | p, ok, path :: rest => do
    let (p, fine, goesOn) ← catFile name s p path
    if goesOn then catFiles name s p (ok && fine) rest else pure false

def catSwitches : List Switch :=
  [{ key := "b", letters := "b", long := "number-nonblank" },
    { key := "n", letters := "n", long := "number" },
    { key := "s", letters := "s", long := "squeeze-blank" },
    { key := "v", letters := "v", long := "show-nonprinting" },
    { key := "E", letters := "E", long := "show-ends" },
    { key := "T", letters := "T", long := "show-tabs" },
    { key := "A", letters := "A", long := "show-all" },
    { key := "e", letters := "e" },
    { key := "t", letters := "t" },
    { key := "u", letters := "u" }]

def catStyle (f : Found) : CatStyle where
  numbers := f.has "n"
  numbersFilled := f.has "b"
  squeezes := f.has "s"
  showsEnds := f.has "E" || f.has "A" || f.has "e"
  showsTabs := f.has "T" || f.has "A" || f.has "t"
  showsHidden := f.has "v" || f.has "A" || f.has "e" || f.has "t"

/-- The program `cat`. It writes without delay, so nothing is held back. -/
def cat (words : List String) : Sys Int := do
  let name := words.headD "cat"
  let f := Switch.read catSwitches words.tail
  f.run name 1 do
    match ← Held.ask (.inspectOpen Sys.stdout) with
    | .error e => do
      Held.blame (name ++ ": standard output: " ++ e.libraryText)
      pure 1
    | .ok _ => do
      let paths := if f.words.isEmpty then ["-"] else f.words
      let ok : Bool ← liftM (catFiles name (catStyle f) {} true paths)
      if paths.contains "-" then
        match ← Held.ask (.close Sys.stdin) with
        | .ok _ => pure (if ok then 0 else 1)
        | .error e => do
          Held.blame (name ++ ": closing standard input: " ++ e.libraryText)
          pure 1
      else pure (if ok then 0 else 1)

end JobShell.Program

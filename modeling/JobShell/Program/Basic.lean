import JobShell.Decimal
import JobShell.Sys.Stream
import JobShell.Text.Bytes

namespace JobShell.Program

def complain (text : String) : Sys Unit := do
  let _ ← Sys.writeAll Sys.stderr (Text.toBytes (text ++ "\n"))

def finish (name : String) (output : ByteArray) (code : Int) : Sys Int := do
  if output.isEmpty then pure code
  else
    match (← Sys.writeAll Sys.stdout output).1 with
    | .ok _ => pure code
    | .error e => do
      complain (name ++ ": write error: " ++ e.libraryText)
      pure 1

structure Outlet where
  held : ByteArray := ByteArray.empty
  broken : Bool := false

abbrev Held := ExceptT Int (StateT Outlet Sys)

namespace Held

def ask (c : Call) : Held (Reply c) := liftM (Sys.ask c)

def put (bytes : ByteArray) : Held Unit := modify fun o ↦ { o with held := o.held ++ bytes }

def say (text : String) : Held Unit := put (Text.toBytes text)

def release : Held Unit := do
  let o ← get
  if !o.held.isEmpty then
    let r : Except Errno Unit × ByteArray ← liftM (Sys.writeAll Sys.stdout o.held)
    match r.1 with
    | .ok _ => set { o with held := ByteArray.empty }
    | .error e => if e ≠ .badDescriptor then set { o with held := ByteArray.empty, broken := true }

def blame (text : String) : Held Unit := do
  release
  liftM (complain text)

def leave {α : Type} (code : Int) : Held α := throw code

def run (name : String) (failure : Int) (work : Held Int) : Sys Int := do
  let (r, o) ← (ExceptT.run work).run {}
  let code := match r with
    | .ok code | .error code => code
  let trouble (reason : String) : Sys Int := do
    complain (name ++ ": write error" ++ reason)
    pure failure
  if o.held.isEmpty then (if o.broken then trouble "" else pure code)
  else
    match (← Sys.writeAll Sys.stdout o.held).1 with
    | .ok _ => if o.broken then trouble "" else pure code
    | .error e => trouble (": " ++ e.libraryText)

def closeStandard (name : String) (paths : List String) (code : Int) : Held Int := do
  if paths.contains "-" then
    match ← Held.ask (.close Sys.stdin) with
    | .ok _ => pure code
    | .error e => do
      Held.blame (name ++ ": -: " ++ e.libraryText)
      pure 1
  else pure code

end Held

def isPrintable (c : Char) : Bool := ' ' ≤ c && c ≤ '~'

def octalDigits (b : UInt8) : List Char :=
  let n := b.toNat
  [Nat.digitChar (n / 64), Nat.digitChar (n / 8 % 8), Nat.digitChar (n % 8)]

def controlEscape? (c : Char) : Option Char :=
  match c with
  | '\x07' => some 'a'
  | '\x08' => some 'b'
  | '\x0c' => some 'f'
  | '\n' => some 'n'
  | '\r' => some 'r'
  | '\t' => some 't'
  | '\x0b' => some 'v'
  | _ => none

def escapeCharacter (c : Char) : List Char :=
  match controlEscape? c with
  | some e => ['\\', e]
  | none => '\\' :: octalDigits c.toUInt8

def quote (s : String) : String :=
  let inner := s.toList.flatMap fun c ↦
    if c = '\x27' || c = '\\' then ['\\', c]
    else if isPrintable c then [c]
    else escapeCharacter c
  "'" ++ String.ofList inner ++ "'"

def isShellSpecial (c : Char) : Bool :=
  " !\x22$&()*;<=>?[\\^\x60|:".toList.contains c

def shellQuoted : Bool → List Char → List Char
  | _, [] => ['\x27']
  | escaping, c :: cs =>
    if isPrintable c then
      let shown := if c = '\x27' then ['\x27', '\\', '\x27', '\x27'] else [c]
      (if escaping then ['\x27', '\x27'] else []) ++ shown ++ shellQuoted false cs
    else
      (if escaping then [] else ['\x27', '$', '\x27']) ++ escapeCharacter c ++ shellQuoted true cs

def quotedName (s : String) : String :=
  let cs := s.toList
  if cs.all isPrintable && cs.contains '\x27' && !cs.any (fun c ↦ "\x22$\\\x60!".toList.contains c) then
    "\x22" ++ s ++ "\x22"
  else String.ofList ('\x27' :: shellQuoted false cs)

def fileName (s : String) : String :=
  let cs := s.toList
  let leads := match cs with
    | c :: _ => c = '#' || c = '~'
    | [] => true
  if cs.all isPrintable && !cs.any isShellSpecial && !leads && !cs.contains '\x27' then s
  else quotedName s

def openInput (path : String) : Sys (Except Errno Int) := do
  if path = "-" then pure (.ok Sys.stdin)
  else Sys.ask (.«open» path { readable := true } 0)

def closeInput (fd : Int) : Sys Unit := do
  if fd ≠ Sys.stdin then Sys.drop fd

def readInput (path : String) : Sys (Except Errno ByteArray) := do
  match ← openInput path with
  | .error e => pure (.error e)
  | .ok fd => do
    let r ← Sys.readAll fd
    closeInput fd
    pure r

def newline : UInt8 := 10

def lines (b : ByteArray) : List ByteArray :=
  let (line, all) := b.toList.foldl (fun (acc : List UInt8 × List ByteArray) x ↦
    if x = newline then ([], ⟨(x :: acc.1).reverse.toArray⟩ :: acc.2) else (x :: acc.1, acc.2)) ([], [])
  (if line.isEmpty then all else ⟨line.reverse.toArray⟩ :: all).reverse

def bare (line : ByteArray) : ByteArray :=
  if line.toList.getLast? = some newline then line.extract 0 (line.size - 1) else line

def concat (bs : List ByteArray) : ByteArray := bs.foldl (· ++ ·) ByteArray.empty

def tryHelp (name problem : String) : Sys Unit := do
  complain (name ++ ": " ++ problem)
  complain ("Try '" ++ name ++ " --help' for more information.")

end JobShell.Program

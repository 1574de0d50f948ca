import JobShell.Program.Pattern.Ranked.Property
import JobShell.Program.Pattern.Ranked.Reader

namespace JobShell.Program.Pattern.Ranked

def readProperty (negated : Bool) : Reader (UInt8 → Bool) := do
  let (name, after) ← match ← rest with
    | 123 :: cs =>
      let name := cs.takeWhile (· ≠ 125)
      match cs.drop name.length with
      | _ :: after => pure (name, after)
      | [] => fail .badProperty
    | c :: after => if ByteClass.isAlpha c then pure ([c], after) else fail .badProperty
    | [] => fail .badProperty
  let name := name.filter fun b ↦ b ≠ 32 && b ≠ 45 && b ≠ 95
  let (turned, name) : Bool × List UInt8 := match name with
    | 94 :: name => (true, name)
    | name => (false, name)
  goTo after
  match property? (String.ofList (name.map fun b ↦ Char.ofUInt8 (ByteClass.lower b))) with
  | some test => pure fun b ↦ test b != (negated != turned)
  | none => fail .unknownProperty

inductive Escape
  | byte (b : UInt8)
  | kind (test : UInt8 → Bool)
  | pattern (p : Pattern) (repeatable : Bool)
  | literally
  | endOfLiteral

def readControl : Reader Escape := do
  match ← rest with
  | [] => fail .controlAtEnd
  | c :: cs =>
    if c < 32 || 126 < c then fail .badControl
    goTo cs
    pure (.byte (ByteClass.upper c ^^^ 64))

def readHexadecimal : Reader Escape := do
  if ← takes 123 then return .byte (← readBraced 16 isHexadecimal .notHexadecimal)
  let ds ← readDigits isHexadecimal 2
  pure (.byte (UInt8.ofNat (digitsValue 16 ds)))

def readOctal (front : List UInt8) (most : Nat) : Reader Escape := do
  let ds := front ++ (← readDigits isOctal most)
  if 255 < digitsValue 8 ds then fail .octalTooBig
  pure (.byte (UInt8.ofNat (digitsValue 8 ds)))

def readNumbered (f : Flags) (inClass : Bool) (d : UInt8) : Reader Escape := do
  let cs ← rest
  let ds := d :: cs.takeWhile ByteClass.isDigit
  let n := digitsValue 10 ds
  if !inClass && (n < 10 || 56 ≤ d || n ≤ (← get).groups) then
    goTo (cs.drop (ds.length - 1))
    return .pattern (← referTo f n) true
  if 56 ≤ d then pure (.byte d) else readOctal [d] 2

/-- Reads a reference to a group behind `\g`. -/
def readReference (f : Flags) : Reader Escape := do
  let byName (ending : UInt8) : Reader Pattern := do
    match ← readNumber with
    | some n => do
      if !(← takes ending) then fail .openName
      referTo f n
    | none => do referToName f (← readName ending)
  match ← rest with
  | 60 :: cs => do
    goTo cs
    let _ ← byName 62
    pure (.pattern never true)
  | 39 :: cs => do
    goTo cs
    let _ ← byName 39
    pure (.pattern never true)
  | 123 :: cs => do
    goTo cs
    return .pattern (← byName 125) true
  | _ =>
    match ← readNumber with
    | some n => return .pattern (← referTo f n) true
    | none => fail .badReference

def readNamedReference (f : Flags) : Reader Escape := do
  match ← rest with
  | 60 :: cs => do
    goTo cs
    return .pattern (← referToName f (← readName 62)) true
  | 39 :: cs => do
    goTo cs
    return .pattern (← referToName f (← readName 39)) true
  | 123 :: cs => do
    goTo cs
    return .pattern (← referToName f (← readName 125)) true
  | _ => fail .badNamed

def newlineAhead : Pattern := ahead true (one (· = newline))
where
  newline : UInt8 := 10

def anyLineBreak : Pattern :=
  first (either (both (one (· = 13)) (one (· = 10))) (one isVertical))

/-- Reads an escape from behind its backslash. -/
def readEscape (f : Flags) (inClass : Bool) : Reader Escape := do
  let cs ← rest
  match cs with
  | [] => fail .lonelyBackslash
  | c :: after => do
    goTo after
    let place (p : Pattern) : Reader Escape :=
      if inClass then fail .escapeInClass else pure (.pattern p false)
    match kind? c with
    | some test => pure (.kind test)
    | none =>
      if !ByteClass.isAlnum c then pure (.byte c)
      else
        match c with
        | 97 => pure (.byte 7)
        | 101 => pure (.byte 27)
        | 102 => pure (.byte 12)
        | 110 => pure (.byte 10)
        | 114 => pure (.byte 13)
        | 116 => pure (.byte 9)
        | 99 => readControl
        | 120 => readHexadecimal
        | 111 =>
          if ← takes 123 then return .byte (← readBraced 8 isOctal .notOctal) else fail .noBrace
        | 48 => readOctal [48] 2
        | 103 => if inClass then pure (.byte 103) else readReference f
        | 107 => if inClass then fail .escapeInClass else readNamedReference f
        | 112 => return .kind (← readProperty false)
        | 80 => return .kind (← readProperty true)
        | 81 => pure .literally
        | 69 => pure .endOfLiteral
        | 78 =>
          if inClass then fail .anyInClass
          else
            match after with
            | 123 :: 85 :: 43 :: _ => fail .wideOnly
            | _ => pure (.pattern (one (· ≠ 10)) true)
        | 82 => if inClass then fail .escapeInClass else pure (.pattern anyLineBreak true)
        | 88 | 67 => if inClass then fail .escapeInClass else pure (.pattern (one fun _ ↦ true) true)
        | 98 => if inClass then pure (.byte 8) else pure (.pattern (edge true) false)
        | 66 => place (edge false)
        | 65 | 71 => place lineStart
        | 122 => place lineEnd
        | 90 => place (either lineEnd (ahead true (both (one (· = 10)) lineEnd)))
        | 75 =>
          if inClass then fail .escapeInClass
          else do
            if f.looking then doubt (.fault .cutInside)
            pure (.pattern cut false)
        | 70 | 76 | 108 | 85 | 117 => fail .caseEscape
        | d => if ByteClass.isDigit d then readNumbered f inClass d else fail .unknownEscape

end JobShell.Program.Pattern.Ranked

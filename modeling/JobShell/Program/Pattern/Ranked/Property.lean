import JobShell.Program.Pattern

namespace JobShell.Program.Pattern.Ranked

def isHorizontal (b : UInt8) : Bool := b = 9 || b = 32 || b = 160

def isVertical (b : UInt8) : Bool := (10 ≤ b && b ≤ 13) || b = 133

def isUpperLetter (b : UInt8) : Bool := ByteClass.isUpper b || (192 ≤ b && b ≤ 222 && b ≠ 215)

def isLowerLetter (b : UInt8) : Bool :=
  ByteClass.isLower b || b = 181 || (223 ≤ b && b ≠ 247)

def isOtherLetter (b : UInt8) : Bool := b = 170 || b = 186

def isLetter (b : UInt8) : Bool := isUpperLetter b || isLowerLetter b || isOtherLetter b

def isOtherNumber (b : UInt8) : Bool := [178, 179, 185, 188, 189, 190].contains b

def isNumber (b : UInt8) : Bool := ByteClass.isDigit b || isOtherNumber b

def isSymbol (b : UInt8) : Bool :=
  "$+<=>^\x60|~".toList.any (·.toUInt8 = b)
    || [162, 163, 164, 165, 166, 168, 169, 172, 174, 175, 176, 177, 180, 184, 215, 247].contains b

def isPunctuation (b : UInt8) : Bool :=
  (ByteClass.isGraph b && !ByteClass.isAlnum b && !isSymbol b)
    || [161, 167, 171, 182, 183, 187, 191].contains b

def isOther (b : UInt8) : Bool := b < 32 || (127 ≤ b && b < 160) || b = 173

/-- The bytes that have a property, by its short name. -/
def property? (name : String) : Option (UInt8 → Bool) :=
  match name with
  | "any" => some fun _ ↦ true
  | "l" => some isLetter
  | "lu" => some isUpperLetter
  | "ll" => some isLowerLetter
  | "lo" => some isOtherLetter
  | "lt" | "lm" | "m" | "mn" | "mc" | "me" | "nl" | "zl" | "zp" | "co" | "cs" | "cn" => some fun _ ↦ false
  | "l&" | "lc" => some fun b ↦ isUpperLetter b || isLowerLetter b
  | "n" => some isNumber
  | "nd" => some ByteClass.isDigit
  | "no" => some isOtherNumber
  | "p" => some isPunctuation
  | "s" => some isSymbol
  | "z" | "zs" => some fun b ↦ b = 32 || b = 160
  | "c" => some isOther
  | "cc" => some fun b ↦ isOther b && b ≠ 173
  | "cf" => some (· = 173)
  | "xan" => some fun b ↦ isLetter b || isNumber b
  | "xwd" => some fun b ↦ isLetter b || isNumber b || b = 95
  | "xsp" | "xps" => some fun b ↦ ByteClass.isSpace b || b = 133 || b = 160
  | "latin" => some fun b ↦ isLetter b && b ≠ 181
  | _ => none

def kind? : UInt8 → Option (UInt8 → Bool)
  | 100 => some ByteClass.isDigit
  | 68 => some fun b ↦ !ByteClass.isDigit b
  | 119 => some isWordByte
  | 87 => some fun b ↦ !isWordByte b
  | 115 => some ByteClass.isSpace
  | 83 => some fun b ↦ !ByteClass.isSpace b
  | 104 => some isHorizontal
  | 72 => some fun b ↦ !isHorizontal b
  | 118 => some isVertical
  | 86 => some fun b ↦ !isVertical b
  | _ => none

end JobShell.Program.Pattern.Ranked

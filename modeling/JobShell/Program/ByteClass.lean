namespace JobShell.Program

def allBytes : List UInt8 := (List.range 256).map UInt8.ofNat

namespace ByteClass

def isUpper (b : UInt8) : Bool := 65 ≤ b && b ≤ 90

def isLower (b : UInt8) : Bool := 97 ≤ b && b ≤ 122

def isAlpha (b : UInt8) : Bool := isUpper b || isLower b

def isDigit (b : UInt8) : Bool := 48 ≤ b && b ≤ 57

def isAlnum (b : UInt8) : Bool := isAlpha b || isDigit b

def isBlank (b : UInt8) : Bool := b = 32 || b = 9

def isSpace (b : UInt8) : Bool := b = 32 || (9 ≤ b && b ≤ 13)

def isGraph (b : UInt8) : Bool := 33 ≤ b && b ≤ 126

def isPrint (b : UInt8) : Bool := 32 ≤ b && b ≤ 126

def upper (b : UInt8) : UInt8 := if isLower b then b - 32 else b

def lower (b : UInt8) : UInt8 := if isUpper b then b + 32 else b

def named? (name : String) : Option (UInt8 → Bool) :=
  match name with
  | "alnum" => some isAlnum
  | "alpha" => some isAlpha
  | "blank" => some isBlank
  | "cntrl" => some fun b ↦ b < 32 || b = 127
  | "digit" => some isDigit
  | "graph" => some isGraph
  | "lower" => some isLower
  | "print" => some isPrint
  | "punct" => some fun b ↦ isGraph b && !isAlnum b
  | "space" => some isSpace
  | "upper" => some isUpper
  | "xdigit" => some fun b ↦ isDigit b || (65 ≤ b && b ≤ 70) || (97 ≤ b && b ≤ 102)
  | _ => none

end ByteClass

end JobShell.Program

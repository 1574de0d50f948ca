import JobShell.Program.Numeral
import JobShell.Program.Basic

namespace JobShell.Program

inductive AmountFault
  | unreadable
  | tooLarge
  deriving DecidableEq

namespace Amount

def bound : Nat := 18446744073709551616

def power? (c : Char) : Option Nat :=
  match c with
  | 'k' | 'K' => some 1
  | 'm' | 'M' => some 2
  | 'g' | 'G' => some 3
  | 't' | 'T' => some 4
  | 'P' => some 5
  | 'E' => some 6
  | 'Z' => some 7
  | 'Y' => some 8
  | 'R' => some 9
  | 'Q' => some 10
  | _ => none

def unit? (cs : List Char) : Option (Nat × List Char) :=
  match cs with
  | [] => some (1, [])
  | 'b' :: rest => some (512, rest)
  | 'B' :: rest => some (1024, rest)
  | 'c' :: rest => some (1, rest)
  | 'w' :: rest => some (2, rest)
  | c :: rest =>
    (power? c).map fun p ↦
      match rest with
      | 'i' :: 'B' :: rest => (Nat.pow 1024 p, rest)
      | 'B' :: rest | 'D' :: rest => (Nat.pow 1000 p, rest)
      | rest => (Nat.pow 1024 p, rest)

def read (units : String) (text : String) : Except AmountFault Nat :=
  let body := text.toList.dropWhile isSpace
  let (negative, digits) := readSign body
  let allowed (cs : List Char) : Bool := match cs with
    | c :: _ => units.toList.contains c
    | [] => true
  let (n, rest) :=
    if startsWithDigit 10 digits then readDigits 10 0 digits else (1, text.toList)
  if negative || !(startsWithDigit 10 digits || (allowed rest && !rest.isEmpty)) || !allowed rest then
    .error .unreadable
  else
    match unit? rest with
    | some (factor, []) => if n * factor < bound then .ok (n * factor) else .error .tooLarge
    | _ => .error .unreadable

def sizeUnits : String := "bkKmMGTPEZYRQ"

def refusal (what text : String) : AmountFault → String
  | .unreadable => what ++ ": " ++ quote text
  | .tooLarge => what ++ ": " ++ quote text ++ ": Value too large for defined data type"

end Amount

end JobShell.Program

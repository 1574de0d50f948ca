import JobShell.Decimal

namespace JobShell.Program

def isSpace (c : Char) : Bool := c = ' ' || ('\t' ≤ c && c ≤ '\r')

def digitValue? (base : Nat) (c : Char) : Option Nat :=
  let v :=
    if '0' ≤ c && c ≤ '9' then c.toNat - 48
    else if 'a' ≤ c && c ≤ 'z' then c.toNat - 87
    else if 'A' ≤ c && c ≤ 'Z' then c.toNat - 55
    else base
  if v < base then some v else none

def readDigits (base : Nat) (v : Nat) : List Char → Nat × List Char
  | [] => (v, [])
  | c :: cs =>
    match digitValue? base c with
    | some d => readDigits base (base * v + d) cs
    | none => (v, c :: cs)

def startsWithDigit (base : Nat) (cs : List Char) : Bool := (cs.head?.bind (digitValue? base)).isSome

def markedBase (cs : List Char) : Nat × List Char :=
  match cs with
  | '0' :: x :: rest =>
    if (x = 'x' || x = 'X') && startsWithDigit 16 rest then (16, rest)
    else if (x = 'b' || x = 'B') && startsWithDigit 2 rest then (2, rest)
    else (8, cs)
  | '0' :: _ => (8, cs)
  | _ => (10, cs)

def readSign (cs : List Char) : Bool × List Char :=
  match cs with
  | '-' :: rest => (true, rest)
  | '+' :: rest => (false, rest)
  | _ => (false, cs)

def readInteger (base : Option Nat) (cs : List Char) : Option (Int × List Char) :=
  let (negative, digits) := readSign (cs.dropWhile isSpace)
  let (base, digits) := match base with
    | some b => (b, digits)
    | none => markedBase digits
  if startsWithDigit base digits then
    let (v, rest) := readDigits base 0 digits
    some (if negative then -v else v, rest)
  else none

def leastInteger : Int := -9223372036854775808

def greatestInteger : Int := 9223372036854775807

def clamp (n : Int) : Int := max leastInteger (min greatestInteger n)

def isInRange (n : Int) : Bool := leastInteger ≤ n && n ≤ greatestInteger

def wholeInteger? (base : Option Nat) (s : String) : Option Int :=
  match readInteger base s.toList with
  | some (n, rest) => if rest.all isSpace && isInRange n then some n else none
  | none => none

structure Taken (α : Type) where
  value : α
  outside : Bool
  begun : Bool
  complete : Bool

namespace Taken

def ofRead {α : Type} (zero : α) (word : String) : Option (α × Bool × List Char) → Taken α
  | some (v, outside, rest) => ⟨v, outside, true, rest.isEmpty⟩
  | none => ⟨zero, false, false, word.isEmpty⟩

def signed (word : String) : Taken Int :=
  ofRead 0 word ((readInteger none word.toList).map fun r ↦ (clamp r.1, !isInRange r.1, r.2))

def unsigned (word : String) : Taken Nat :=
  let bound := 18446744073709551616
  ofRead 0 word ((readInteger none word.toList).map fun r ↦
    if bound ≤ r.1.natAbs then (bound - 1, true, r.2)
    else ((r.1 % (bound : Int)).toNat, false, r.2))

end Taken

def count? (s : String) : Option Nat :=
  match wholeInteger? (some 10) s with
  | some n => if 0 ≤ n && n ≤ 2147483647 then some n.toNat else none
  | none => none

end JobShell.Program

import JobShell.Program.Numeral

namespace JobShell.Program

def roundQuotient (n d : Nat) : Nat :=
  if d < 2 * (n % d) ∨ (d = 2 * (n % d) ∧ n / d % 2 = 1) then n / d + 1 else n / d

structure Precision where
  digits : Nat
  least : Int
  greatest : Int

def Precision.double : Precision := ⟨53, -1074, 971⟩

def Precision.extended : Precision := ⟨64, -16445, 16320⟩

inductive Floating
  | finite (negative : Bool) (mantissa : Nat) (exponent : Int)
  | infinite (negative : Bool)
  | undefined (negative : Bool)

def shifted (n d : Nat) (e : Int) : Nat × Nat :=
  if 0 ≤ e then (n * Nat.pow 2 e.toNat, d) else (n, d * Nat.pow 2 e.natAbs)

def leadingExponent (n d : Nat) : Int :=
  let e : Int := (n.log2 : Int) - d.log2
  let (n, d) := shifted n d (-e)
  if n < d then e - 1 else e

def Precision.round (p : Precision) (negative : Bool) (n d : Nat) : Floating × Bool :=
  if n = 0 then (.finite negative 0 0, false)
  else
    let e := max p.least (leadingExponent n d - (p.digits - 1))
    let (n, d) := shifted n d (-e)
    let m := roundQuotient n d
    let (m, e) := if m = Nat.pow 2 p.digits then (m / 2, e + 1) else (m, e)
    if p.greatest < e then (.infinite negative, true)
    else (.finite negative m e, m < Nat.pow 2 (p.digits - 1) && n % d ≠ 0)

def compareScaled (m : Nat) (e : Int) (n : Nat) (f : Int) : Ordering :=
  let least := min e f
  compare (m * Nat.pow 2 (e - least).toNat) (n * Nat.pow 2 (f - least).toNat)

def Floating.compare : Floating → Floating → Ordering
  | undefined p, undefined q => Ord.compare p q
  | undefined _, _ => .lt
  | _, undefined _ => .gt
  | infinite p, infinite q => Ord.compare q p
  | infinite p, finite _ _ _ => if p then .lt else .gt
  | finite _ _ _, infinite q => if q then .gt else .lt
  | finite p m e, finite q n f =>
    match p && m ≠ 0, q && n ≠ 0 with
    | false, false => compareScaled m e n f
    | true, true => compareScaled n f m e
    | true, false => .lt
    | false, true => .gt

structure Significand where
  value : Nat
  count : Nat
  places : Nat
  rest : List Char

def readSignificand (base : Nat) (cs : List Char) : Option Significand :=
  let isDigit (c : Char) : Bool := (digitValue? base c).isSome
  let whole := cs.takeWhile isDigit
  let behind := cs.dropWhile isDigit
  let (places, rest) : List Char × List Char := match behind with
    | '.' :: r => (r.takeWhile isDigit, r.dropWhile isDigit)
    | r => ([], r)
  if whole.isEmpty && places.isEmpty then none
  else
    some {
      value := (readDigits base 0 (whole ++ places)).1
      count := whole.length + places.length
      places := places.length
      rest }

def readExponent (mark : Char) (cs : List Char) : Int × List Char :=
  match cs with
  | c :: rest =>
    let (negative, digits) := readSign rest
    if c.toLower = mark && startsWithDigit 10 digits then
      let (v, after) := readDigits 10 0 digits
      (if negative then -v else v, after)
    else (0, cs)
  | [] => (0, [])

def dropWord? : List Char → List Char → Option (List Char)
  | [], cs => some cs
  | w :: ws, c :: cs => if c.toLower = w then dropWord? ws cs else none
  | _ :: _, [] => none

def dropRemark (cs : List Char) : List Char :=
  match cs with
  | '(' :: inner =>
    match inner.dropWhile fun c ↦ c.isAlphanum || c = '_' with
    | ')' :: rest => rest
    | _ => cs
  | _ => cs

def exponentBound : Nat := 20000

def Precision.scale (p : Precision) (negative : Bool) (base : Nat) (s : Significand) (e : Int) :
    Floating × Bool :=
  let least : Int := -(4 * s.count + 4 * exponentBound : Nat)
  let e := max least (min (4 * exponentBound : Nat) e)
  if 0 ≤ e then p.round negative (s.value * Nat.pow base e.toNat) 1
  else p.round negative s.value (Nat.pow base e.natAbs)

/-- Reads a number at the front of a text. Gives it, whether it is out of range, and what follows. -/
def Precision.read (p : Precision) (cs : List Char) : Option (Floating × Bool × List Char) :=
  let (negative, body) := readSign (cs.dropWhile isSpace)
  let decimal : Option (Floating × Bool × List Char) :=
    (readSignificand 10 body).map fun s ↦
      let (e, rest) := readExponent 'e' s.rest
      let (x, outside) := p.scale negative 10 s (e - s.places)
      (x, outside, rest)
  match dropWord? "infinity".toList body, dropWord? "inf".toList body, dropWord? "nan".toList body with
  | some rest, _, _ | none, some rest, _ => some (.infinite negative, false, rest)
  | none, none, some rest => some (.undefined negative, false, dropRemark rest)
  | none, none, none =>
    match (dropWord? "0x".toList body).bind (readSignificand 16) with
    | some s =>
      let (e, rest) := readExponent 'p' s.rest
      let (x, outside) := p.scale negative 2 s (e - 4 * s.places)
      some (x, outside, rest)
    | none => decimal

end JobShell.Program

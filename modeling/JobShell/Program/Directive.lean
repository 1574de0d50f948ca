import JobShell.Program.Escape
import JobShell.Program.Floating.Written

namespace JobShell.Program

/-- How something is printed. -/
structure Directive where
  left : Bool := false
  plus : Bool := false
  space : Bool := false
  alternate : Bool := false
  zero : Bool := false
  width : Nat := 0
  precision : Option Nat := none

namespace Directive

def blanks (n : Nat) : List Char := List.replicate n ' '

def pad (d : Directive) (cs : List Char) : List Char :=
  let fill := blanks (d.width - cs.length)
  if d.left then cs ++ fill else fill ++ cs

def text (d : Directive) (cs : List Char) : List Char :=
  d.pad (match d.precision with
    | some n => cs.take n
    | none => cs)

def filled (d : Directive) (zero : Bool) (mark digits : List Char) : List Char :=
  let zeros := if zero && !d.left then d.width - mark.length - digits.length else 0
  d.pad (mark ++ List.replicate zeros '0' ++ digits)

def integer (d : Directive) (mark digits : List Char) : List Char :=
  let digits := match d.precision with
    | some 0 => if digits = ['0'] then [] else digits
    | some p => Floating.fillDigits p digits
    | none => digits
  d.filled (d.zero && d.precision.isNone) mark digits

def sign (d : Directive) (negative : Bool) : List Char :=
  if negative then ['-'] else if d.plus then ['+'] else if d.space then [' '] else []

def signed (d : Directive) (n : Int) : List Char :=
  d.integer (d.sign (n < 0)) (Nat.toDigits 10 n.natAbs)

def unsigned (d : Directive) (letter : Char) (n : Nat) : List Char :=
  match letter with
  | 'o' =>
    let ds := match d.precision with
      | some p => Floating.fillDigits p (Nat.toDigits 8 n)
      | none => Nat.toDigits 8 n
    if d.alternate && ds.head? ≠ some '0' then d.integer [] ('0' :: ds)
    else if d.alternate then d.filled (d.zero && d.precision.isNone) [] ds
    else d.integer [] ds
  | 'x' => d.integer (if d.alternate && n ≠ 0 then ['0', 'x'] else []) (Nat.toDigits 16 n)
  | 'X' =>
    d.integer (if d.alternate && n ≠ 0 then ['0', 'X'] else [])
      ((Nat.toDigits 16 n).map Char.toUpper)
  | _ => d.integer [] (Nat.toDigits 10 n)

/-- A floating-point number in the form that a small letter stands for. -/
def floating (d : Directive) (p : Precision) (letter : Char) : Floating → List Char
  | .infinite negative => d.pad (d.sign negative ++ "inf".toList)
  | .undefined negative => d.pad (d.sign negative ++ "nan".toList)
  | .finite negative m e =>
    let (n, k) := shifted m 1 e
    let places := d.precision.getD 6
    let sign := d.sign negative
    match letter with
    | 'a' =>
      d.filled d.zero (sign ++ ['0', 'x']) (Floating.hexadecimalText p m e d.precision d.alternate)
    | 'e' =>
      let (ds, x) := Floating.scientificDigits n k places
      d.filled d.zero sign (Floating.scientificText ds x d.alternate)
    | 'g' => d.filled d.zero sign (Floating.generalText n k places d.alternate)
    | _ =>
      let (whole, behind) := Floating.fixedDigits n k places
      d.filled d.zero sign (whole ++ Floating.behindPoint d.alternate behind)

def real (d : Directive) (p : Precision) (letter : Char) (x : Floating) : List Char :=
  let cs := d.floating p letter.toLower x
  if letter.isUpper then cs.map Char.toUpper else cs

end Directive

inductive Size
  | absent
  | given (n : Nat)
  | star

structure Spec where
  flags : List Char
  width : Size
  precision : Size

namespace Spec

def readSize (unwritten : Size) : List Char → Size × List Char
  | '*' :: rest => (.star, rest)
  | cs =>
    let ds := cs.takeWhile Decimal.isDigit
    (if ds.isEmpty then unwritten else .given (Decimal.value ds), cs.drop ds.length)

def read (flags : List Char) (cs : List Char) : Spec × List Char :=
  let fs := cs.takeWhile flags.contains
  let (width, rest) := readSize .absent (cs.drop fs.length)
  match rest with
  | '.' :: rest =>
    let (precision, rest) := readSize (.given 0) rest
    (⟨fs, width, precision⟩, rest)
  | rest => (⟨fs, width, .absent⟩, rest)

/-- The directive with the numbers that its stars stand for. A negative width fills on the right, a
negative precision counts for none. -/
def directive (s : Spec) (width precision : Int) : Directive where
  left := s.flags.contains '-' || (s.width matches .star && width < 0)
  plus := s.flags.contains '+'
  space := s.flags.contains ' '
  alternate := s.flags.contains '#'
  zero := s.flags.contains '0'
  width :=
    match s.width with
    | .absent => 0
    | .given n => n
    | .star => width.natAbs
  precision :=
    match s.precision with
    | .absent => none
    | .given n => some n
    | .star => if precision < 0 then none else some precision.toNat

end Spec

end JobShell.Program

import JobShell.Program.Floating
import JobShell.Program.Sorting.Version

namespace JobShell.Program

def compareBytes : List UInt8 → List UInt8 → Ordering
  | [], [] => .eq
  | [], _ => .lt
  | _, [] => .gt
  | a :: as, b :: bs => if a < b then .lt else if b < a then .gt else compareBytes as bs

def separatesFields (b : UInt8) : Bool := b = 32 || b = 9 || b = 10

namespace Collation

def digitsValue (ds : List UInt8) : Nat := ds.foldl (fun v b ↦ 10 * v + (b.toNat - 48)) 0

structure Fraction where
  negative : Bool
  whole : List UInt8
  places : List UInt8
  rest : List UInt8

def readFraction (bs : List UInt8) : Fraction :=
  let bs := bs.dropWhile separatesFields
  let (negative, bs) : Bool × List UInt8 := match bs with
    | 45 :: r => (true, r)
    | r => (false, r)
  let whole := bs.takeWhile ByteClass.isDigit
  match bs.drop whole.length with
  | 46 :: r =>
    let places := r.takeWhile ByteClass.isDigit
    ⟨negative, whole, places, r.drop places.length⟩
  | r => ⟨negative, whole, [], r⟩

def Fraction.isZero (x : Fraction) : Bool := (x.whole ++ x.places).all (· = 48)

def Fraction.compare (x y : Fraction) : Ordering :=
  let bare (ds : List UInt8) : List UInt8 := (ds.reverse.dropWhile (· = 48)).reverse
  let magnitude (x y : Fraction) : Ordering :=
    (Ord.compare (digitsValue x.whole) (digitsValue y.whole)).then
      (compareBytes (bare x.places) (bare y.places))
  match x.negative && !x.isZero, y.negative && !y.isZero with
  | false, false => magnitude x y
  | true, true => magnitude y x
  | true, false => .lt
  | false, true => .gt

def compareNumbers (as bs : List UInt8) : Ordering := (readFraction as).compare (readFraction bs)

def unitRank (x : Fraction) : Int :=
  let rank : Nat := match x.rest.head? with
    | some 75 | some 107 => 1
    | some 77 => 2
    | some 71 => 3
    | some 84 => 4
    | some 80 => 5
    | some 69 => 6
    | some 90 => 7
    | some 89 => 8
    | some 82 => 9
    | some 81 => 10
    | _ => 0
  if x.isZero then 0 else if x.negative then -rank else rank

def compareAmounts (as bs : List UInt8) : Ordering :=
  let x := readFraction as
  let y := readFraction bs
  (compare (unitRank x) (unitRank y)).then (x.compare y)

def compareReals (as bs : List UInt8) : Ordering :=
  let read (bs : List UInt8) : Option Floating :=
    (Precision.extended.read (bs.map Char.ofUInt8)).map (·.1)
  match read as, read bs with
  | none, none => .eq
  | none, some _ => .lt
  | some _, none => .gt
  | some x, some y => x.compare y

def month (bs : List UInt8) : Nat :=
  let name := ((bs.dropWhile separatesFields).take 3).map fun b ↦ Char.ofUInt8 (ByteClass.upper b)
  let names := ["JAN", "FEB", "MAR", "APR", "MAY", "JUN", "JUL", "AUG", "SEP", "OCT", "NOV", "DEC"]
  match names.findIdx? (· = String.ofList name) with
  | some i => i + 1
  | none => 0

end Collation

structure Collation where
  options : List Char := []
  skipsAtStart : Bool := false
  skipsAtEnd : Bool := false

namespace Collation

def has (c : Collation) (option : Char) : Bool := c.options.contains option

def isReversed (c : Collation) : Bool := c.has 'r'

def isPlain (c : Collation) : Bool :=
  c.options.all (· = 'r') && !c.skipsAtStart && !c.skipsAtEnd

def contradiction? (c : Collation) : Option String :=
  let leaving := c.has 'd' || c.has 'i' || c.has 'V' || c.has 'R'
  let kinds := ("nghM".toList.filter c.has).length + if leaving then 1 else 0
  let shown := "dfghiMnRV".toList.filter fun o ↦ c.has o && !(o = 'i' && c.has 'd')
  if 1 < kinds then some (String.ofList shown) else none

def seen (c : Collation) (bs : List UInt8) : List UInt8 :=
  let bs :=
    if c.has 'd' then bs.filter fun b ↦ ByteClass.isAlnum b || separatesFields b
    else if c.has 'i' then bs.filter ByteClass.isPrint
    else bs
  if c.has 'f' then bs.map ByteClass.upper else bs

def compare (c : Collation) (as bs : List UInt8) : Ordering :=
  let as := c.seen as
  let bs := c.seen bs
  let r :=
    if c.has 'n' then compareNumbers as bs
    else if c.has 'g' then compareReals as bs
    else if c.has 'h' then compareAmounts as bs
    else if c.has 'M' then Ord.compare (month as) (month bs)
    else if c.has 'R' then .eq
    else if c.has 'V' then Version.compareNames as bs
    else compareBytes as bs
  if c.isReversed then r.swap else r

end Collation

end JobShell.Program

import JobShell.Program.Floating

namespace JobShell.Program.Floating

def fillDigits (length : Nat) (ds : List Char) : List Char :=
  List.replicate (length - ds.length) '0' ++ ds

def withoutZeros (ds : List Char) : List Char := (ds.reverse.dropWhile (· = '0')).reverse

def behindPoint (pointed : Bool) (places : List Char) : List Char :=
  if places.isEmpty && !pointed then [] else '.' :: places

def fixedDigits (n d places : Nat) : List Char × List Char :=
  let ds := fillDigits (places + 1) (Nat.toDigits 10 (roundQuotient (n * Nat.pow 10 places) d))
  ds.splitAt (ds.length - places)

def reaches (n d : Nat) (x : Int) : Bool :=
  if 0 ≤ x then d * Nat.pow 10 x.toNat ≤ n else d ≤ n * Nat.pow 10 x.natAbs

def decimalExponent (n d : Nat) : Int :=
  let near := leadingExponent n d * 30103 / 100000
  if reaches n d (near + 1) then near + 1 else if reaches n d near then near else near - 1

def scientificDigits (n d places : Nat) : List Char × Int :=
  if n = 0 then (List.replicate (places + 1) '0', 0)
  else
    let x := decimalExponent n d
    let up := (places : Int) - x
    let q := if 0 ≤ up then roundQuotient (n * Nat.pow 10 up.toNat) d
      else roundQuotient n (d * Nat.pow 10 up.natAbs)
    let (q, x) := if q = Nat.pow 10 (places + 1) then (Nat.pow 10 places, x + 1) else (q, x)
    (Nat.toDigits 10 q, x)

def exponentText (mark : Char) (digits : Nat) (x : Int) : List Char :=
  mark :: (if x < 0 then '-' else '+') :: fillDigits digits (Nat.toDigits 10 x.natAbs)

def scientificText (ds : List Char) (x : Int) (pointed : Bool) : List Char :=
  ds.take 1 ++ behindPoint pointed (ds.drop 1) ++ exponentText 'e' 2 x

def generalText (n d digits : Nat) (pointed : Bool) : List Char :=
  let digits := max 1 digits
  let (ds, x) := scientificDigits n d (digits - 1)
  let kept (places : List Char) : List Char := if pointed then places else withoutZeros places
  if -4 ≤ x && x < digits then
    let (whole, places) := fixedDigits n d (digits - 1 - x).toNat
    whole ++ behindPoint pointed (kept places)
  else if x = digits && n < d * Nat.pow 10 digits then scientificText (ds.take 1) x pointed
  else scientificText (ds.take 1 ++ kept (ds.drop 1)) x pointed

/-- The first hexadecimal digit, the further ones, and the exponent of two behind them. The first holds
what is left when all others are full. -/
def hexadecimalText (p : Precision) (m : Nat) (e : Int) (places : Option Nat) (pointed : Bool) :
    List Char :=
  let full := (p.digits - 1) / 4
  let x : Int := if m = 0 then 0 else e + 4 * full
  let (lead, ds) : Nat × List Char := match places with
    | none =>
      (m / Nat.pow 16 full, withoutZeros (fillDigits full (Nat.toDigits 16 (m % Nat.pow 16 full))))
    | some k =>
      if k < full then
        let q := roundQuotient m (Nat.pow 16 (full - k))
        (q / Nat.pow 16 k,
          if k = 0 then [] else fillDigits k (Nat.toDigits 16 (q % Nat.pow 16 k)))
      else
        (m / Nat.pow 16 full,
          fillDigits full (Nat.toDigits 16 (m % Nat.pow 16 full)) ++
            List.replicate (k - full) '0')
  let (lead, x) := if lead = 16 then (1, x + 4) else (lead, x)
  Nat.toDigits 16 lead ++ behindPoint pointed ds ++ exponentText 'p' 1 x

end JobShell.Program.Floating

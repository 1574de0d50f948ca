import JobShell.Program.ByteClass

namespace JobShell.Program.Version

def rank : Option UInt8 → Int
  | none => -1
  | some b =>
    if ByteClass.isDigit b then 0
    else if ByteClass.isAlpha b then b.toNat
    else if b = 126 then -2
    else b.toNat + 256

def startsWithLetter : List UInt8 → Bool
  | b :: _ => !ByteClass.isDigit b
  | [] => false

def compareLetters : Nat → List UInt8 → List UInt8 → Except Ordering (List UInt8 × List UInt8)
  | 0, as, bs => .ok (as, bs)
  | n + 1, as, bs =>
    if startsWithLetter as || startsWithLetter bs then
      let x := rank as.head?
      let y := rank bs.head?
      if x = y then compareLetters n as.tail bs.tail else .error (compare x y)
    else .ok (as, bs)

def compareDigits (as bs : List UInt8) : Ordering × List UInt8 × List UInt8 :=
  let as := as.dropWhile (· = 48)
  let bs := bs.dropWhile (· = 48)
  let xs := as.takeWhile ByteClass.isDigit
  let ys := bs.takeWhile ByteClass.isDigit
  let value (ds : List UInt8) : Nat := ds.foldl (fun v b ↦ 10 * v + (b.toNat - 48)) 0
  (compare (value xs) (value ys), as.drop xs.length, bs.drop ys.length)

def comparePieces : Nat → List UInt8 → List UInt8 → Ordering
  | 0, _, _ => .eq
  | n + 1, as, bs =>
    if as.isEmpty && bs.isEmpty then .eq
    else
      match compareLetters (as.length + bs.length + 1) as bs with
      | .error r => r
      | .ok (as, bs) =>
        let (r, as, bs) := compareDigits as bs
        if r = .eq then comparePieces n as bs else r

def startsEnding : List UInt8 → Bool
  | 46 :: b :: _ => ByteClass.isAlpha b || b = 126
  | _ => false

def isEndingByte (b : UInt8) : Bool := ByteClass.isAlnum b || b = 126

def dropEndings : Nat → List UInt8 → List UInt8
  | 0, bs => bs
  | n + 1, bs =>
    if startsEnding bs then dropEndings n ((bs.drop 2).dropWhile isEndingByte) else bs

def bareLength : Nat → Nat → Nat → List UInt8 → Nat
  | 0, kept, _, _ => kept
  | _ + 1, kept, _, [] => kept
  | n + 1, _, place, _ :: bs =>
    let rest := dropEndings bs.length bs
    bareLength n (place + 1) (place + 1 + (bs.length - rest.length)) rest

def withoutEndings (bs : List UInt8) : List UInt8 := bs.take (bareLength bs.length 0 0 bs)

def dotRank : List UInt8 → Nat
  | [46] => 0
  | [46, 46] => 1
  | 46 :: _ => 2
  | _ => 3

def compareNames (as bs : List UInt8) : Ordering :=
  match as, bs with
  | [], [] => .eq
  | [], _ => .lt
  | _, [] => .gt
  | as, bs =>
    if dotRank as ≠ dotRank bs then compare (dotRank as) (dotRank bs)
    else if dotRank as < 2 then .eq
    else
      let pieces (as bs : List UInt8) : Ordering :=
        comparePieces (as.length + bs.length + 1) as bs
      (pieces (withoutEndings as) (withoutEndings bs)).then (pieces as bs)

end JobShell.Program.Version

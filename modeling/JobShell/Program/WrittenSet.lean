import JobShell.Program.ByteClass
import JobShell.Program.Amount
import JobShell.Program.Escape

namespace JobShell.Program

inductive LetterCase
  | upper
  | lower
  deriving DecidableEq

/-- A part of a written set. A repetition without a count fills up. -/
inductive SetPart
  | byte (b : UInt8)
  | range (low high : UInt8)
  | members (name : String) (test : UInt8 → Bool)
  | equivalent (b : UInt8)
  | repeated (b : UInt8) (count : Nat)
  | filling (b : UInt8)

structure SetItem where
  byte : UInt8
  letters : Option LetterCase := none
  isFirst : Bool := true

namespace SetPart

def countBound : Nat := 100000

def items (fill : Nat) : SetPart → List SetItem
  | byte b | equivalent b => [{ byte := b }]
  | range low high => (allBytes.filter fun b ↦ low ≤ b && b ≤ high).map fun b ↦ { byte := b }
  | members name test =>
    let letters : Option LetterCase :=
      if name = "upper" then some .upper else if name = "lower" then some .lower else none
    (allBytes.filter test).mapIdx fun i b ↦ { byte := b, letters, isFirst := i = 0 }
  | repeated b count => List.replicate (min count countBound) { byte := b }
  | filling b => List.replicate fill { byte := b }

def last? : SetPart → Option UInt8
  | byte b | equivalent b | repeated b _ | filling b => some b
  | range _ high => some high
  | members _ _ => none

end SetPart

namespace WrittenSet

def asText (bs : List UInt8) : String := String.ofList (bs.map Char.ofUInt8)

def shownByte (b : UInt8) : String :=
  if ByteClass.isPrint b then asText [b] else String.ofList ('\\' :: octalDigits b)

def shownBytes (bs : List UInt8) : String :=
  String.join (bs.map fun b ↦
    if b = 92 then "\\\\"
    else
      match controlEscape? (Char.ofUInt8 b) with
      | some c => String.ofList ['\\', c]
      | none => shownByte b)

abbrev Mark := UInt8 × Bool

def readOctal (cs : List Char) : Nat × List Char × Option String :=
  let (two, rest) := readDigitsUpTo octalValue? 8 2 0 cs
  let (three, after) := readDigitsUpTo octalValue? 8 3 0 cs
  if three < 256 then (three, after, none)
  else
    let ds := cs.take 3
    let front := String.ofList (ds.take 2)
    let third := String.ofList (ds.drop 2)
    (two, rest, some ("warning: the ambiguous octal escape \\" ++ String.ofList ds
      ++ " is being\n\tinterpreted as the 2-byte sequence \\0" ++ front ++ ", " ++ third))

/-- Takes backslashes out of a text. Also gives warnings. -/
def unescaped : Nat → List Char → List Mark × List String
  | 0, _ => ([], [])
  | _ + 1, [] => ([], [])
  | n + 1, c :: cs =>
    let onto (m : Mark) (rest : List Char) (warning : Option String) : List Mark × List String :=
      let (ms, ws) := unescaped n rest
      (m :: ms, warning.toList ++ ws)
    if c ≠ '\\' then onto (c.toUInt8, false) cs none
    else
      match cs with
      | [] =>
        onto (92, false) []
          (some "warning: an unescaped backslash at end of string is not portable")
      | d :: rest =>
        if (octalValue? d).isSome then
          let (v, rest, warning) := readOctal cs
          onto (UInt8.ofNat v, true) rest warning
        else
          match d with
          | 'a' => onto (7, true) rest none
          | 'b' => onto (8, true) rest none
          | 'f' => onto (12, true) rest none
          | 'n' => onto (10, true) rest none
          | 'r' => onto (13, true) rest none
          | 't' => onto (9, true) rest none
          | 'v' => onto (11, true) rest none
          | d => onto (d.toUInt8, true) rest none

def splitClass (mark : UInt8) : List UInt8 → List Mark → Option (List UInt8 × List Mark)
  | _, [] => none
  | inner, (b, escaped) :: rest =>
    match rest with
    | (93, false) :: after =>
      if b = mark && !escaped then some (inner.reverse, after) else splitClass mark (b :: inner) rest
    | _ => splitClass mark (b :: inner) rest

/-- A repetition behind its opening bracket: a byte, a star, and a count up to a closing bracket. A count
that is no number is refused. -/
def repetition? (ms : List Mark) : Option (Except String (SetPart × List Mark)) :=
  match ms with
  | (b, _) :: (42, false) :: rest =>
    let digits := rest.takeWhile fun m ↦ !m.2 && m.1 ≠ 93
    match rest.drop digits.length with
    | (93, false) :: after =>
      let text := asText (digits.map (·.1))
      let base := if text.startsWith "0" then 8 else 10
      let cs := text.toList.dropWhile isSpace
      let (v, left) := readDigits base 0 (if cs.head? = some '+' then cs.tail else cs)
      if digits.isEmpty then some (.ok (.filling b, after))
      else if !left.isEmpty || !startsWithDigit base (cs.dropWhile (· = '+')) || Amount.bound ≤ v then
        some (.error ("invalid repeat count " ++ quote (shownBytes (digits.map (·.1)))
          ++ " in [c*n] construct"))
      else if v = 0 then some (.ok (.filling b, after))
      else some (.ok (.repeated b v, after))
    | _ => none
  | _ => none

def isStarred (ms : List Mark) : Bool :=
  match ms with
  | (42, false) :: rest =>
    match rest.dropWhile fun m ↦ ByteClass.isDigit m.1 && !m.2 with
    | (93, false) :: _ => true
    | _ => false
  | _ => false

/-- The class or the equivalent bytes behind an opening bracket, if there are any. -/
def class? (ms : List Mark) : Option (Except String (SetPart × List Mark)) :=
  match ms with
  | (58, false) :: rest =>
    (splitClass 58 [] rest).bind fun (inner, after) ↦
      if inner.isEmpty then some (.error "missing character class name '[::]'")
      else
        match ByteClass.named? (asText inner) with
        | some test => some (.ok (.members (asText inner) test, after))
        | none =>
          if isStarred rest then none
          else some (.error ("invalid character class " ++ quote (shownBytes inner)))
  | (61, false) :: rest =>
    (splitClass 61 [] rest).bind fun (inner, after) ↦
      match inner with
      | [] => some (.error "missing equivalence class character '[==]'")
      | [b] => some (.ok (.equivalent b, after))
      | inner =>
        if isStarred rest then none
        else
          some (.error (shownBytes inner
            ++ ": equivalence class operand must be a single character"))
  | _ => none

/-- Reads the parts of a set, at most so many. Anything longer than a byte takes three bytes at least. -/
def parts : Nat → List Mark → Except String (List SetPart)
  | 0, _ => .ok []
  | n + 1, m :: second :: third :: rest =>
    let behind := second :: third :: rest
    let bracketed : Option (Except String (SetPart × List Mark)) :=
      if m = (91, false) then (class? behind).or (repetition? behind) else none
    match bracketed with
    | some (.ok (part, after)) => do return part :: (← parts n after)
    | some (.error problem) => .error problem
    | none =>
      if second = (45, false) then
        if third.1 < m.1 then
          .error ("range-endpoints of '" ++ shownByte m.1 ++ "-" ++ shownByte third.1
            ++ "' are in reverse collating sequence order")
        else do return .range m.1 third.1 :: (← parts n rest)
      else do return .byte m.1 :: (← parts n behind)
  | _ + 1, ms => .ok (ms.map fun m ↦ .byte m.1)

def read (text : String) : Except String (List SetPart) × List String :=
  let (ms, warnings) := unescaped (text.length + 1) text.toList
  (parts (ms.length + 1) ms, warnings)

def items (length : Nat) (ps : List SetPart) : List SetItem :=
  let fixed := (ps.flatMap (SetPart.items 0)).length
  ps.flatMap (SetPart.items (length - fixed))

def bytes (length : Nat) (ps : List SetPart) : List UInt8 := (items length ps).map (·.byte)

def fillings (ps : List SetPart) : Nat := ps.countP (· matches .filling _)

end WrittenSet

end JobShell.Program

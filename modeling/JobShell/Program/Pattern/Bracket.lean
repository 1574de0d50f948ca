import JobShell.Program.Pattern

namespace JobShell.Program.Pattern

/-- What may be wrong with the text of a pattern. -/
inductive Fault
  | cutShort
  | openBracket
  | openGroup
  | lonelyClosing
  | openBrace
  | badCount
  | tooBig
  | lonelyBackslash
  | badRange
  | unknownClass
  | unknownElement
  | unknownGroup
  | classOutside
  | badCountForLines
  | tooBigForLines
  deriving DecidableEq

def Fault.message : Fault → String
  | cutShort => "Invalid regular expression"
  | openBracket => "Unmatched [, [^, [:, [., or [="
  | openGroup => "Unmatched ( or \\("
  | lonelyClosing => "Unmatched ) or \\)"
  | openBrace => "Unmatched \\\x7b"
  | badCount => "Invalid content of \\\x7b\\\x7d"
  | tooBig => "Regular expression too big"
  | lonelyBackslash => "Trailing backslash"
  | badRange => "Invalid range end"
  | unknownClass => "Invalid character class name"
  | unknownElement => "Invalid collation character"
  | unknownGroup => "Invalid back reference"
  | classOutside => "character class syntax is [[:space:]], not [:space:]"
  | badCountForLines => "invalid content of \\\x7b\\\x7d"
  | tooBigForLines => "regular expression too big"

namespace Bracket

inductive Member
  | byte (b : UInt8)
  | element (b : UInt8)
  | range (low high : UInt8)
  | named (test : UInt8 → Bool)

def Member.has (ignoreCase : Bool) : Member → UInt8 → Bool
  | byte b | element b => folded ignoreCase (· = b)
  | range low high => folded ignoreCase fun x ↦ low ≤ x && x ≤ high
  | named test => folded ignoreCase test

inductive Written
  | byte (b : UInt8)
  | named (mark : UInt8) (name : List UInt8)

def close : UInt8 := 93

def dash : UInt8 := 45

def colon : UInt8 := 58

def equals : UInt8 := 61

def period : UInt8 := 46

def readName (mark : UInt8) : Nat → List UInt8 → List UInt8 → Except Fault (List UInt8 × List UInt8)
  | n + 1, name, c :: d :: rest =>
    if c = mark && d = close then .ok (name.reverse, rest)
    else readName mark n (c :: name) (d :: rest)
  | _, _, _ => .error .openBracket

def readElement (takesDash : Bool) : List UInt8 → Except Fault (Written × List UInt8)
  | [] => .error .openBracket
  | b :: rest =>
    match b, rest with
    | 91, mark :: rest' =>
      if mark = colon || mark = equals || mark = period then
        (readName mark 32 [] rest').map fun r ↦ (.named mark r.1, r.2)
      else .ok (.byte b, rest)
    | _, _ =>
      if b = dash && !takesDash && rest.head? ≠ some close then .error .badRange
      else .ok (.byte b, rest)

def rangeEnd : Written → Except Fault UInt8
  | .byte b => .ok b
  | .named mark name =>
    if mark = period then
      match name with
      | [b] => .ok b
      | _ => .error .unknownElement
    else .error .badRange

def single : Written → Except Fault Member
  | .byte b => .ok (.byte b)
  | .named mark name =>
    if mark = colon then
      match ByteClass.named? (String.ofList (name.map Char.ofUInt8)) with
      | some test => .ok (.named test)
      | none => .error .unknownClass
    else
      match name with
      | [b] => .ok (.element b)
      | _ => .error .unknownElement

def Written.isNamed : Written → Bool
  | .named _ _ => true
  | .byte _ => false

def canEndRange : Written → Bool
  | .named mark _ => mark = period
  | .byte _ => true

def readMembers (ignoreCase : Bool) : Nat → Bool → Bool → List Member → List UInt8 →
    Except Fault (List Member × List UInt8)
  | 0, _, _, _, _ => .error .openBracket
  | n + 1, isFirst, takesDash, acc, text =>
    match text with
    | 93 :: rest =>
      if isFirst then go n takesDash acc text
      else .ok (acc.reverse, rest)
    | _ => go n takesDash acc text
where
  go (n : Nat) (takesDash : Bool) (acc : List Member) (text : List UInt8) :
      Except Fault (List Member × List UInt8) := do
    let (e, rest) ← readElement takesDash text
    let alone (takesDash : Bool) := do
      let m ← single e
      readMembers ignoreCase n false takesDash (m :: acc) rest
    if !canEndRange e then alone false
    else
      match rest with
      | [] => throw .openBracket
      | 45 :: rest =>
        match rest with
        | [] => throw .openBracket
        | 93 :: _ => alone true
        | _ => do
          let (e', rest) ← readElement true rest
          if !canEndRange e' then throw .badRange
          let low ← rangeEnd e
          let high ← rangeEnd e'
          let shown (b : UInt8) : UInt8 := if ignoreCase then ByteClass.upper b else b
          if shown high < shown low then throw .badRange
          let acc := .range low high :: acc
          readMembers ignoreCase n false false
            (if e.isNamed || e'.isNamed then .element low :: acc else acc) rest
      | _ => alone false

def looksLikeClass (members : List Member) : Bool :=
  let bytes := members.filterMap fun m ↦ match m with
    | .byte b => some b
    | _ => none
  bytes.length = members.length && bytes.head? = some colon && bytes.getLast? = some colon
    && bytes.any (· ≠ colon)

structure Set where
  test : UInt8 → Bool
  looksLikeClass : Bool
  namesElements : Bool

def isElement : Member → Bool
  | .element _ => true
  | _ => false

def read (ignoreCase : Bool) (text : List UInt8) : Except Fault (Set × List UInt8) := do
  let (negated, text) : Bool × List UInt8 := match text with
    | 94 :: rest => (true, rest)
    | _ => (false, text)
  if text.isEmpty then throw .cutShort
  let (members, rest) ← readMembers ignoreCase (text.length + 1) true true [] text
  let test (b : UInt8) : Bool := (members.any fun m ↦ m.has ignoreCase b) != negated
  pure (⟨test, looksLikeClass members, members.any isElement⟩, rest)

end Bracket

end JobShell.Program.Pattern

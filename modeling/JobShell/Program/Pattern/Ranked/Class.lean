import JobShell.Program.Pattern.Ranked.Escape

namespace JobShell.Program.Pattern.Ranked

def namedHere? : List UInt8 → Option (UInt8 × List UInt8 × List UInt8)
  | 91 :: mark :: cs =>
    if mark = 58 || mark = 46 || mark = 61 then (find mark [] cs).map fun r ↦ (mark, r.1, r.2) else none
  | _ => none
where
  find (mark : UInt8) (name : List UInt8) : List UInt8 → Option (List UInt8 × List UInt8)
    | a :: b :: cs =>
      if a = mark && b = 93 then some (name.reverse, cs)
      else if a = 93 || (a = 91 && b = mark) then none
      else find mark (a :: name) (b :: cs)
    | _ => none

def classOf (f : Flags) (mark : UInt8) (name : List UInt8) : Reader (UInt8 → Bool) := do
  if mark ≠ 58 then fail .elementsUnsupported
  let (negated, name) : Bool × List UInt8 := match name with
    | 94 :: name => (true, name)
    | name => (false, name)
  let test? : Option (UInt8 → Bool) := match String.ofList (name.map Char.ofUInt8) with
    | "word" => some isWordByte
    | "ascii" => some (· < 128)
    | name => ByteClass.named? name
  match test? with
  | some test => pure fun b ↦ folded f.ignoreCase test b != negated
  | none => fail .unknownClass

inductive Member
  | byte (b : UInt8)
  | kind (test : UInt8 → Bool)
  | nothing

def readMember (f : Flags) : Reader Member := do
  match ← rest with
  | [] => fail .openClass
  | c :: after =>
    if (← get).literally then
      match c, after with
      | 92, 69 :: after => do
        goTo after
        modify fun s ↦ { s with literally := false }
        pure .nothing
      | _, _ => do
        goTo after
        pure (.byte c)
    else
      match namedHere? (c :: after) with
      | some (mark, name, after) => do
        let test ← classOf f mark name
        goTo after
        pure (.kind test)
      | none => do
        goTo after
        if c = 92 then
          match ← readEscape f true with
          | .byte b => pure (.byte b)
          | .kind test => pure (.kind test)
          | .literally => do
            modify fun s ↦ { s with literally := true }
            pure .nothing
          | .endOfLiteral | .pattern _ _ => pure .nothing
        else if f.freeInClass && (c = 32 || c = 9) then pure .nothing
        else pure (.byte c)

def readSomeMember (f : Flags) : Nat → Reader Member
  | 0 => fail .openClass
  | n + 1 => do
    if (← rest).head? = some 93 && !(← get).literally then return .nothing
    match ← readMember f with
    | .nothing => readSomeMember f n
    | m => pure m

/-- Reads a class up to its closing bracket. A closing bracket in front stands for itself. -/
def readMembers (f : Flags) : Nat → Bool → List (UInt8 → Bool) → Reader (List (UInt8 → Bool))
  | 0, _, _ => fail .openClass
  | n + 1, isFirst, tests => do
    let cs ← rest
    if cs.head? = some 93 && !isFirst && !(← get).literally then
      goTo cs.tail
      return tests
    let range : Bool := match cs with
      | 93 :: _ => false
      | _ => true
    let m ← if range then readMember f else do
      goTo cs.tail
      pure (Member.byte 93)
    let ranged ← match m with
      | .nothing => pure false
      | _ =>
        if (← get).literally then pure false
        else
          match ← rest with
          | 45 :: 93 :: _ | 45 :: [] => pure false
          | 45 :: _ => pure true
          | _ => pure false
    match m with
    | .nothing => readMembers f n isFirst tests
    | .kind test =>
      if ranged then fail .badRange else readMembers f n false (test :: tests)
    | .byte low =>
      if !ranged then readMembers f n false (folded f.ignoreCase (· = low) :: tests)
      else
        goTo (← rest).tail
        match ← readSomeMember f cs.length with
        | .byte high =>
          if high < low then fail .rangeOutOfOrder
          readMembers f n false (folded f.ignoreCase (fun b ↦ low ≤ b && b ≤ high) :: tests)
        | .kind _ => fail .badRange
        | .nothing =>
          readMembers f n false
            (folded f.ignoreCase (· = 45) :: folded f.ignoreCase (· = low) :: tests)

/-- Reads a class from behind its opening bracket. -/
def readClass (f : Flags) : Reader Pattern := do
  let cs ← rest
  match cs with
  | 91 :: 58 :: 60 :: 58 :: 93 :: 93 :: after => do
    goTo after
    return wordStart
  | 91 :: 58 :: 62 :: 58 :: 93 :: 93 :: after => do
    goTo after
    return wordEnd
  | _ => pure ()
  match namedHere? (91 :: cs) with
  | some (mark, _, _) => fail (if mark = 58 then .classOutside else .elementsUnsupported)
  | none => pure ()
  let negated ← takes 94
  let tests ← readMembers f (cs.length + 2) true []
  pure (one fun b ↦ (tests.any fun test ↦ test b) != negated)

end JobShell.Program.Pattern.Ranked

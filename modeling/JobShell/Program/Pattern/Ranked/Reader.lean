import JobShell.Program.Pattern
import JobShell.Program.Pattern.Ranked.Fault

namespace JobShell.Program.Pattern.Ranked

/-- How the text is to be taken from here on. -/
structure Flags where
  ignoreCase : Bool := false
  dotAll : Bool := false
  multiLine : Bool := false
  free : Bool := false
  freeInClass : Bool := false
  unnumbered : Bool := false
  turned : Bool := false
  looking : Bool := false

inductive Doubt
  | number (n : Nat)
  | name (name : List UInt8)
  | fault (f : Fault)

/-- Where reading stands. `literally` holds between `\Q` and `\E`. Groups that have been closed are kept
with their lengths; lookbehinds whose length varies, with the doubts in them. -/
structure State where
  rest : List UInt8
  groups : Nat := 0
  names : List (List UInt8 × Nat) := []
  literally : Bool := false
  lengths : List (Nat × Option Nat) := []
  varying : List (List Doubt) := []
  doubts : List Doubt := []

def State.length? (s : State) (number : Nat) : Option Nat :=
  ((s.lengths.find? fun l ↦ l.1 = number).map (·.2)).join

def State.isUnknown (s : State) : Doubt → Bool
  | .number n => n = 0 || s.groups < n
  | .name name => !s.names.any fun n ↦ n.1 = name
  | .fault _ => false

abbrev Reader := StateT State (Except Fault)

def fail {α : Type} (f : Fault) : Reader α := throw f

def rest : Reader (List UInt8) := return (← get).rest

def goTo (rest : List UInt8) : Reader Unit := modify fun s ↦ { s with rest }

def doubt (d : Doubt) : Reader Unit := modify fun s ↦ { s with doubts := d :: s.doubts }

def takes (b : UInt8) : Reader Bool := do
  match ← rest with
  | c :: cs =>
    if c = b then
      goTo cs
      pure true
    else pure false
  | [] => pure false

def digitsValue (base : Nat) (ds : List UInt8) : Nat :=
  ds.foldl (fun v b ↦ base * v + (hexValue b)) 0
where
  hexValue (b : UInt8) : Nat :=
    if ByteClass.isDigit b then b.toNat - 48 else (ByteClass.lower b).toNat - 87

def isOctal (b : UInt8) : Bool := 48 ≤ b && b ≤ 55

def isHexadecimal (b : UInt8) : Bool :=
  ByteClass.isDigit b || (97 ≤ ByteClass.lower b && ByteClass.lower b ≤ 102)

def readDigits (isDigit : UInt8 → Bool) (most : Nat) : Reader (List UInt8) := do
  let cs ← rest
  let ds := (cs.take most).takeWhile isDigit
  goTo (cs.drop ds.length)
  pure ds

def readBraced (base : Nat) (isDigit : UInt8 → Bool) (wrong : Fault) : Reader UInt8 := do
  let cs ← rest
  let ds := cs.takeWhile isDigit
  match ds, cs.drop ds.length with
  | [], [] | [], 125 :: _ => fail .noDigits
  | ds, 125 :: after =>
    if 255 < digitsValue base ds then fail .codeTooBig
    goTo after
    pure (UInt8.ofNat (digitsValue base ds))
  | ds, _ => fail (if 255 < digitsValue base ds then .codeTooBig else wrong)

def readName (ending : UInt8) : Reader (List UInt8) := do
  let cs ← rest
  if (cs.head?.map ByteClass.isDigit).getD false then fail .nameWithDigit
  let name := cs.takeWhile isWordByte
  if 32 < name.length then fail .nameTooLong
  if name.isEmpty then fail .noName
  goTo (cs.drop name.length)
  if ← takes ending then pure name else fail .openName

def referTo (f : Flags) (number : Nat) : Reader Pattern := do
  doubt (.number number)
  pure (if number = 0 then never else again number f.ignoreCase)

def referToName (f : Flags) (name : List UInt8) : Reader Pattern := do
  doubt (.name name)
  match (← get).names.find? fun n ↦ n.1 = name with
  | some (_, number) => pure (again number f.ignoreCase)
  | none => pure never

def readNumber : Reader (Option Nat) := do
  let groups := (← get).groups
  let read (sign : Option Bool) : Reader (Option Nat) := do
    let ds ← readDigits ByteClass.isDigit 10
    let n := digitsValue 10 ds
    if ds.isEmpty then pure none
    else
      match sign with
      | none => pure (some n)
      | some true => pure (some (groups + n))
      | some false => if groups < n then fail .noSuchGroup else pure (some (groups + 1 - n))
  if ← takes 43 then read (some true)
  else if ← takes 45 then read (some false)
  else read none

end JobShell.Program.Pattern.Ranked

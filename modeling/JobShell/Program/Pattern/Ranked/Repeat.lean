import JobShell.Program.Pattern.Ranked.Reader

namespace JobShell.Program.Pattern.Ranked

def mostRepeats : Nat := 65535

/-- Reads a count between braces, if there is one. -/
def readCount : Reader (Option (Nat × Option Nat)) := do
  match ← rest with
  | 123 :: cs =>
    let low := cs.takeWhile ByteClass.isDigit
    let behind := cs.drop low.length
    let (range, behind) : Option (List UInt8) × List UInt8 := match behind with
      | 44 :: cs =>
        let high := cs.takeWhile ByteClass.isDigit
        (some high, cs.drop high.length)
      | behind => (none, behind)
    match low, behind with
    | [], _ => pure none
    | low, 125 :: after => do
      let least := digitsValue 10 low
      let most : Option Nat := match range with
        | none => some least
        | some [] => none
        | some high => some (digitsValue 10 high)
      if mostRepeats < least || most.any (mostRepeats < ·) then fail .countTooBig
      if most.any (· < least) then fail .countsOutOfOrder
      goTo after
      pure (some (least, most))
    | _, _ => pure none
  | 42 :: cs => do
    goTo cs
    pure (some (0, none))
  | 43 :: cs => do
    goTo cs
    pure (some (1, none))
  | 63 :: cs => do
    goTo cs
    pure (some (0, some 1))
  | _ => pure none

/-- Passes over blanks and comments where they mean nothing. -/
def skipBlanks (f : Flags) : Nat → Reader Unit
  | 0 => pure ()
  | n + 1 => do
    match ← rest with
    | 40 :: 63 :: 35 :: cs =>
      match cs.dropWhile (· ≠ 41) with
      | [] => fail .openComment
      | _ :: after => do
        goTo after
        skipBlanks f n
    | c :: cs =>
      if !f.free then pure ()
      else if ByteClass.isSpace c then
        goTo cs
        skipBlanks f n
      else if c = 35 then
        goTo (cs.dropWhile (· ≠ 10))
        skipBlanks f n
      else pure ()
    | [] => pure ()

def readRepeat (f : Flags) (p : Pattern) : Reader Pattern := do
  if !(← get).literally then skipBlanks f ((← rest).length + 1)
  if (← get).literally then return p
  match ← readCount with
  | none => pure p
  | some (least, most) =>
    if ← takes 63 then pure (many p least most f.turned)
    else if ← takes 43 then pure (first (many p least most true))
    else pure (many p least most (!f.turned))

end JobShell.Program.Pattern.Ranked

import JobShell.Program.Pattern.Ranked.Class
import JobShell.Program.Pattern.Ranked.Group
import JobShell.Program.Pattern.Ranked.Repeat

namespace JobShell.Program.Pattern.Ranked

/-- Reads one item that is no group: the pattern, and whether it can be repeated. -/
def readItem (f : Flags) (c : UInt8) : Reader (Option (Pattern × Bool)) := do
  match c with
  | 92 => do
    match ← readEscape f false with
    | .byte b => pure (some (literal f.ignoreCase b, true))
    | .kind test => pure (some (one test, true))
    | .pattern p repeatable => pure (some (p, repeatable))
    | .literally => do
      modify fun s ↦ { s with literally := true }
      pure none
    | .endOfLiteral => pure none
  | 91 => return some (← readClass f, true)
  | 46 => pure (some (one fun b ↦ f.dotAll || b ≠ 10, true))
  | 94 =>
    pure (some (if f.multiLine then either lineStart (behind true (one (· = 10))) else lineStart, false))
  | 36 => pure (some (if f.multiLine then either lineEnd newlineAhead else lineEnd, false))
  | _ => pure (some (literal f.ignoreCase c, true))

/-- Reads alternatives up to a closing parenthesis or to the end. `items` holds what stands in the last of
them so far, the last first. With `reset`, each alternative counts its groups from there, and the other
number is the greatest one so far. -/
def readParts : Nat → Option (Nat × Nat) → Flags → List Pattern → List Pattern → Reader (List Pattern)
  | 0, _, _, _, _ => fail .openGroup
  | n + 1, reset, f, done, items => do
    let s ← get
    let inner (f : Flags) : Reader (List Pattern) := readParts n none f [] []
    let resetting (f : Flags) : Reader (List Pattern) := do
      let groups := (← get).groups
      readParts n (some (groups, groups)) f [] []
    let finish : Reader (List Pattern) := do
      match reset with
      | some (_, most) => modify fun s ↦ { s with groups := max most s.groups }
      | none => pure ()
      pure (done ++ [row items.reverse])
    if s.literally then
      match s.rest with
      | [] => finish
      | 92 :: 69 :: rest => do
        set { s with rest, literally := false }
        readParts n reset f done items
      | c :: rest => do
        goTo rest
        let ended : Bool := match rest with
          | 92 :: 69 :: _ => true
          | _ => false
        if ended then set { s with rest := rest.drop 2, literally := false }
        let p ← readRepeat f (literal f.ignoreCase c)
        readParts n reset f done (p :: items)
    else
      skipBlanks f (s.rest.length + 1)
      let cs ← rest
      match cs with
      | [] | 41 :: _ => finish
      | 124 :: rest => do
        goTo rest
        let alternatives := done ++ [row items.reverse]
        match reset with
        | some (start, most) => do
          let most := max most (← get).groups
          modify fun s ↦ { s with groups := start }
          readParts n (some (start, most)) f alternatives []
        | none => readParts n reset f alternatives []
      | 40 :: rest => do
        goTo rest
        match ← readOpened inner resetting f with
        | .item p => do
          let p ← readRepeat f p
          readParts n reset f done (p :: items)
        | .flags f => readParts n reset f done items
      | c :: rest => do
        match ← readCount with
        | some _ => fail .nothingToRepeat
        | none => pure ()
        goTo rest
        match ← readItem f c with
        | some (p, true) => do
          let p ← readRepeat f p
          readParts n reset f done (p :: items)
        | some (p, false) => readParts n reset f done (p :: items)
        | none => readParts n reset f done items

def readAll (f : Flags) (length : Nat) : Reader Pattern := do
  let ps ← readParts (2 * length + 2) none f [] []
  if !(← rest).isEmpty then fail .lonelyClosing
  let s ← get
  s.varying.reverse.forM fun inside ↦
    fail (if inside.any s.isUnknown then .noSuchGroup else .varyingLookbehind)
  s.doubts.reverse.forM fun d ↦
    match d with
    | .fault f => fail f
    | _ => if s.isUnknown d then fail .noSuchGroup else pure ()
  pure (oneOf ps).trim

def read (ignoreCase multiLine : Bool) (text : List UInt8) : Except Fault Pattern :=
  ((readAll { ignoreCase, multiLine } text.length).run { rest := text }).map (·.1)

end JobShell.Program.Pattern.Ranked

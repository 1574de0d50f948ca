import JobShell.Environment
import JobShell.Program.Sh.Arithmetic
import JobShell.Program.Sh.Field
import JobShell.Program.Sh.Glob
import JobShell.Program.Sh.State

namespace JobShell.Program.Sh

abbrev Runner := Tree → Work (List Char)

inductive Tildes
  | never
  | first
  | each
  deriving DecidableEq

structure Manner where
  fields : Bool := false
  quoted : Bool := false
  inWord : Bool := false
  tildes : Tildes := .never

def optionTable : List (String × Option Char) :=
  [("errexit", some 'e'), ("noglob", some 'f'), ("ignoreeof", some 'I'), ("interactive", some 'i'),
    ("monitor", some 'm'), ("noexec", some 'n'), ("stdin", some 's'), ("xtrace", some 'x'),
    ("verbose", some 'v'), ("vi", some 'V'), ("emacs", some 'E'), ("noclobber", some 'C'),
    ("allexport", some 'a'), ("notify", some 'b'), ("nounset", some 'u'), ("privileged", some 'p'),
    ("nolog", none), ("debug", none)]

def itemsOf (quoted : Bool) (cs : List Char) : List Item :=
  cs.map fun c ↦ .char c (quoted && (isMeaningful c || c = '\\'))

def betweenParameters (s : State) (fields quoted : Bool) (name : String) : List Item :=
  if fields && (!quoted || name = "@") then [.border]
  else
    match s.get? "IFS" with
    | none => itemsOf quoted [' ']
    | some separators => itemsOf quoted (separators.toList.take 1)

/-- The value of a parameter, if it has one. -/
def valueOf? (s : State) (fields quoted : Bool) (name : String) : Option (List Item) :=
  let number (n : Int) : Option (List Item) := some (itemsOf quoted (Decimal.text n).toList)
  match name with
  | "#" => number s.parameters.length
  | "?" => number s.status
  | "$" => number s.ownPid
  | "!" => s.lastPid.bind number
  | "-" =>
    some (itemsOf quoted ((optionTable.reverse.filter fun o ↦ s.isOn o.1).filterMap (·.2)))
  | "@" | "*" =>
    some ((betweenParameters s fields quoted name).intercalate
      (s.parameters.map fun p ↦ itemsOf quoted p.toList))
  | _ =>
    match Decimal.natural? name.toList with
    | some 0 => some (itemsOf quoted s.name.toList)
    | some n => (s.parameters[n - 1]?).map fun p ↦ itemsOf quoted p.toList
    | none => (s.get? name).map fun v ↦ itemsOf quoted v.toList

def textToBorder (items : List Item) : List Char := Field.text (items.takeWhile (· ≠ .border))

def cutFront (p : List Char) (longest : Bool) (items : List Item) : List Item :=
  let lengths := if longest then (List.range (items.length + 1)).reverse
    else List.range ((items.takeWhile (· ≠ .border)).length + 1)
  match lengths.find? fun n ↦ Pattern.fits p (textToBorder (items.take n)) with
  | some n => items.drop n
  | none => items

def cutBack (p : List Char) (longest : Bool) (items : List Item) : List Item :=
  let starts := if longest then List.range ((items.takeWhile (· ≠ .border)).length + 1)
    else (List.range (items.length + 1)).reverse
  match starts.find? fun n ↦ Pattern.fits p (textToBorder (items.drop n)) with
  | some n => items.take n
  | none => items

/-- The home directory that a tilde stands for, and the pieces behind the name of its user. -/
def homeAt? (s : State) (tildes : Tildes) (w : Word) : Option (String × Word) :=
  match w with
  | .char '~' false :: rest =>
    let ends (c : Char) : Bool := c = '/' || (c = ':' && tildes = .each)
    let user := rest.takeWhile fun
      | .char c false => !ends c
      | _ => false
    let behind := rest.drop user.length
    let isEnd := match behind with
      | [] => true
      | .char c false :: _ => ends c
      | _ => false
    if isEnd then
      let name := String.ofList (literalText user)
      let home := if name.isEmpty then s.get? "HOME" else Accounts.home? name
      home.map (·, behind)
    else none
  | _ => none

def takeText (tildes : Tildes) : Word → List (Char × Bool) × Bool × Word
  | .char ':' false :: .char '~' false :: rest =>
    if tildes = .each then ([(':', false)], true, .char '~' false :: rest)
    else
      let (cs, at_, rest) := takeText tildes rest
      ((':', false) :: ('~', false) :: cs, at_, rest)
  | .char c escaped :: rest =>
    let (cs, at_, rest) := takeText tildes rest
    ((c, escaped) :: cs, at_, rest)
  | w => ([], false, w)

def textParts (splits : Bool) : List (Char × Bool) → List Part
  | [] => []
  | (c, escaped) :: cs =>
    let region : Region := if splits && !escaped then .split else .whole
    match textParts splits cs with
    | ⟨r, items⟩ :: parts =>
      if r = region && !escaped then ⟨r, .char c escaped :: items⟩ :: parts
      else ⟨region, [.char c escaped]⟩ :: ⟨r, items⟩ :: parts
    | [] => [⟨region, [.char c escaped]⟩]

def textOf (parts : List Part) : List Char := parts.flatMap fun p ↦ Field.text p.items

def patternOf (parts : List Part) : List Char := parts.flatMap fun p ↦ Field.pattern p.items

def compute (text : String) : Work Int := do
  let s ← get
  let (result, assigned) := Arithmetic.evaluate s.get? text
  assigned.forM fun v ↦ setVariable v.1 (Decimal.text v.2)
  match result with
  | .ok n => pure n
  | .error (.badNumber text) => abort ("Illegal number: " ++ text)
  | .error (.malformed problem) =>
    abort ("arithmetic expression: " ++ problem ++ ": \x22" ++ text ++ "\x22")

def regionOf (s : State) (quoted : Bool) (name : String) : Region :=
  if !quoted then .split
  else if name = "@" && !s.parameters.isEmpty then .bordered
  else .whole

/-- Expands pieces, nested at most so deep. `quoted` tells that quotes are open. -/
def expandPieces (run : Runner) : Nat → Manner → Bool → Bool → Word → Work (List Part)
  | 0, _, _, _, _ => abort "Out of space"
  | n + 1, m, inQuotes, atTilde, w => do
    let goOn (inQuotes : Bool) (parts : List Part) (rest : Word) : Work (List Part) := do
      return parts ++ (← expandPieces run n m inQuotes false rest)
    let s ← get
    match if atTilde then homeAt? s m.tildes w else none with
    | some (home, rest) => goOn inQuotes [⟨.whole, itemsOf true home.toList⟩] rest
    | none =>
      let isQuoted := m.quoted || inQuotes
      match w with
      | [] => pure []
      | .char _ _ :: _ => do
        let (cs, atTilde, rest) := takeText m.tildes w
        let parts := textParts (m.inWord && !isQuoted) cs
        return parts ++ (← expandPieces run n m inQuotes atTilde rest)
      | .quote :: .parameter "@" .value false [] :: .quote :: rest =>
        if inQuotes then goOn (!inQuotes) [⟨.whole, [.quote]⟩] (w.drop 1)
        else
          goOn false [⟨regionOf s true "@", (valueOf? s m.fields true "@").getD []⟩] rest
      | .quote :: rest => goOn (!inQuotes) [⟨.whole, [.quote]⟩] rest
      | .command t :: rest => do
        let output ← run t
        goOn inQuotes [⟨if isQuoted then .whole else .split, itemsOf isQuoted output⟩] rest
      | .arithmetic inner :: rest => do
        let text := textOf (← expandPieces run n {} false false inner)
        let v ← compute (String.ofList text)
        let items := itemsOf isQuoted (Decimal.text v).toList
        goOn inQuotes [⟨if isQuoted then .whole else .split, items⟩] rest
      | .parameter name use orEmpty word :: rest => do
        let parts ← expandParameter run n { m with quoted := isQuoted } name use orEmpty word
        goOn inQuotes parts rest
where
  expandParameter (run : Runner) (n : Nat) (m : Manner) (name : String) (use : Use) (orEmpty : Bool)
      (word : Word) : Work (List Part) := do
    let s ← get
    let value := valueOf? s m.fields m.quoted name
    let isGiven : Bool := match value with
      | some items => !(orEmpty && items.isEmpty)
      | none => false
    let shown : Work (List Part) := do
      let s ← get
      pure [⟨regionOf s m.quoted name, (valueOf? s m.fields m.quoted name).getD []⟩]
    let inner (m : Manner) : Work (List Part) := expandPieces run n m false true word
    let mustBeSet : Work Unit := do
      if value.isNone && s.isOn "nounset" then abort (name ++ ": parameter not set")
    match use with
    | .senseless => abort "Bad substitution"
    | .value => do
      mustBeSet
      shown
    | .length => do
      mustBeSet
      let size := ((valueOf? s false m.quoted name).getD []).length
      pure [⟨regionOf s m.quoted name, itemsOf m.quoted (Decimal.text size).toList⟩]
    | .default =>
      if isGiven then shown
      else inner { m with inWord := true, tildes := if m.tildes = .each then .each else .first }
    | .alternative =>
      if isGiven then inner { m with inWord := true, tildes := if m.tildes = .each then .each else .first }
      else pure []
    | .assign =>
      if isGiven then shown
      else do
        let text := textOf (← inner { tildes := .first })
        setVariable name (String.ofList text)
        shown
    | .demand =>
      if isGiven then shown
      else if word.isEmpty then
        abort (name ++ ": parameter not set" ++ if orEmpty then " or null" else "")
      else
        let text := String.ofList (textOf (← inner { tildes := .first }))
        abort (name ++ ": " ++ text)
    | .cutFront longest => do
      mustBeSet
      match value with
      | none => pure []
      | some items => do
        let p := patternOf (← inner { tildes := .first })
        pure [⟨regionOf s m.quoted name, cutFront p longest items⟩]
    | .cutBack longest => do
      mustBeSet
      match value with
      | none => pure []
      | some items => do
        let p := patternOf (← inner { tildes := .first })
        pure [⟨regionOf s m.quoted name, cutBack p longest items⟩]

def expansionDepth : Nat := 1000000000

def expand (run : Runner) (m : Manner) (w : Word) : Work (List Part) :=
  expandPieces run expansionDepth m false (m.tildes ≠ .never) w

def pathsOfField (f : Field) : Work (List String) := do
  let text := String.ofList f.text
  let isOpen := f.text.any fun c ↦ c = '*' || c = '?' || c = '['
  if !isOpen || (← get).isOn "noglob" then pure [text]
  else
    let paths ← sys (filesFor f.pattern)
    pure (if paths.isEmpty then [text] else paths)

def expandFields (run : Runner) (w : Word) : Work (List String) := do
  let parts ← expand run { fields := true, tildes := .first } w
  let fields := splitFields (← get).separators none parts
  return (← fields.mapM pathsOfField).flatten

def expandWords (run : Runner) (ws : List Word) : Work (List String) := do
  return (← ws.mapM (expandFields run)).flatten

def expandText (run : Runner) (w : Word) : Work String := do
  return String.ofList (textOf (← expand run { tildes := .first } w))

def expandValue (run : Runner) (w : Word) : Work String := do
  return String.ofList (textOf (← expand run { tildes := .each } w))

def expandPattern (run : Runner) (w : Word) : Work (List Char) := do
  return patternOf (← expand run { tildes := .first } w)

def expandDocument (run : Runner) (w : Word) : Work String := do
  return String.ofList (textOf (← expand run { quoted := true } w))

end JobShell.Program.Sh

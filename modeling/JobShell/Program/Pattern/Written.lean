import JobShell.Program.Pattern.Bracket

namespace JobShell.Program.Pattern

inductive Manner
  | basic
  | extended
  deriving DecidableEq

inductive Use
  | parts
  | lines
  deriving DecidableEq

inductive Remark
  | repeatsNothing (sign : String)
  | refused (reason : Fault)

inductive Sign
  | atom (p : Pattern)
  | «open» (number : Nat)
  | close
  | bar
  | repeated (least : Nat) (most : Option Nat)

inductive Number
  | absent
  | wrong
  | value (n : Nat)

inductive Stop
  | comma
  | brace
  | textEnd
  deriving DecidableEq

def mostRepeats : Nat := 32767

def Number.digit (n : Number) (b : UInt8) : Number :=
  if !ByteClass.isDigit b then .wrong
  else
    let d := b.toNat - 48
    match n with
    | .wrong => .wrong
    | .absent => .value d
    | .value n => .value (min (mostRepeats + 1) (10 * n + d))

def Number.read (manner : Manner) : Number → List UInt8 → Number × Stop × List UInt8
  | _, [] => (.wrong, .textEnd, [])
  | n, 92 :: b :: rest =>
    if b = 125 && manner = .basic then (n, .brace, rest)
    else if b = 44 then (n, .comma, rest)
    else Number.read manner (n.digit b) rest
  | n, b :: rest =>
    if b = 125 && manner = .extended then (n, .brace, rest)
    else if b = 44 then (n, .comma, rest)
    else Number.read manner (n.digit b) rest

abbrev Counted := (Nat × Option Nat) × List UInt8

/-- Reads a count behind its opening brace. In the extended way of writing a brace may be plain. -/
def readCount (manner : Manner) (text : List UInt8) : Except Fault (Option Counted) := do
  let (low, stop, rest) := Number.read manner .absent text
  let (low, high, stop, rest) ← match low, stop with
    | .absent, .comma => do
      let (high, stop, rest) := Number.read manner .absent rest
      pure (Number.value 0, high, stop, rest)
    | .absent, .brace => throw .badCount
    | .value n, .comma => do
      let (high, stop, rest) := Number.read manner .absent rest
      pure (.value n, high, stop, rest)
    | .value n, stop => pure (.value n, .value n, stop, rest)
    | _, stop => pure (.wrong, .wrong, stop, rest)
  match low, high with
  | .value low, .value high =>
    if stop ≠ .brace || high < low then throw .badCount
    if mostRepeats < high then throw .tooBig
    pure (some ((low, some high), rest))
  | .value low, .absent =>
    if stop ≠ .brace then throw .badCount
    if mostRepeats < low then throw .tooBig
    pure (some ((low, none), rest))
  | _, _ =>
    if manner = .extended then pure none
    else throw (if stop = .textEnd then .openBrace else .badCount)

def decimal (ds : List UInt8) : Nat := ds.foldl (fun v b ↦ 10 * v + (b.toNat - 48)) 0

def plainCount? (manner : Manner) (text : List UInt8) : Option Counted :=
  let low := text.takeWhile ByteClass.isDigit
  let rest := text.drop low.length
  let (range, rest) : Option (Nat × Option Nat) × List UInt8 := match rest with
    | 44 :: rest =>
      let high := rest.takeWhile ByteClass.isDigit
      (some (decimal low, if high.isEmpty then none else some (decimal high)), rest.drop high.length)
    | _ => (if low.isEmpty then none else some (decimal low, some (decimal low)), rest)
  let after : Option (List UInt8) := match manner, rest with
    | .basic, 92 :: 125 :: after | .extended, 125 :: after => some after
    | _, _ => none
  match range, after with
  | some (low, high), some after => if high.any (· < low) then none else some ((low, high), after)
  | _, _ => none

/-- What has been read so far, the last sign first. With `atStart` there is nothing yet to be repeated;
with `isFresh` a caret stands for the start of the line; with `passed` a sign has just been passed over.
`opened` has the open groups, `closed` those that can be referred to. Each open group comes with those that
could be referred to where its first alternative begins, and those that are closed in the alternatives
before. With `hard`, lines have to be looked at part by part. -/
structure Reading where
  manner : Manner
  use : Use
  ignoreCase : Bool
  signs : List Sign := []
  groups : Nat := 0
  opened : List (Nat × List Nat × List Nat) := []
  closed : List Nat := []
  hard : Bool := false
  atStart : Bool := true
  isFresh : Bool := true
  passed : Bool := false
  remarks : List Remark := []

namespace Reading

def push (r : Reading) (s : Sign) (atStart isFresh : Bool) : Reading :=
  { r with signs := s :: r.signs, atStart, isFresh, passed := false }

def atom (r : Reading) (p : Pattern) : Reading := r.push (.atom p) false false

def place (r : Reading) (p : Pattern) : Reading :=
  r.push (.atom p) (r.atStart || r.use = .parts) false

def literal (r : Reading) (b : UInt8) : Reading := r.atom (Pattern.literal r.ignoreCase b)

def remark (r : Reading) (m : Remark) : Reading := { r with remarks := m :: r.remarks }

def openGroup (r : Reading) : Reading :=
  let number := r.groups + 1
  { r.push (.«open» number) true true with
    groups := number, opened := (number, r.closed, []) :: r.opened }

def bar (r : Reading) : Reading :=
  let next := r.push .bar true true
  match r.opened with
  | (number, known, before) :: opened =>
    { next with opened := (number, known, before ++ r.closed) :: opened, closed := known }
  | [] => { next with closed := [] }

def closeGroup (r : Reading) : Reading :=
  match r.opened with
  | (number, _, before) :: opened =>
    { r.push .close false false with opened, closed := number :: before ++ r.closed }
  | [] => r

def repeated (r : Reading) (least : Nat) (most : Option Nat) (sign : String) : Reading :=
  let next := r.push (.repeated least most) r.atStart false
  if r.atStart then next.remark (.repeatsNothing sign) else next

def pass (r : Reading) : Reading := { r with passed := true }

end Reading

def escaped? : UInt8 → Option (Bool × Pattern)
  | 60 => some (true, .wordStart)
  | 62 => some (true, .wordEnd)
  | 98 => some (true, .edge true)
  | 66 => some (true, .edge false)
  | 96 => some (true, .lineStart)
  | 39 => some (true, .lineEnd)
  | 119 => some (false, .one isWordByte)
  | 87 => some (false, .one fun b ↦ !isWordByte b)
  | 115 => some (false, .one ByteClass.isSpace)
  | 83 => some (false, .one fun b ↦ !ByteClass.isSpace b)
  | _ => none

def readRepeat (r : Reading) (least : Nat) (most : Option Nat) (sign : String) : Option Reading :=
  if !r.atStart then some (r.repeated least most sign)
  else
    match r.manner, r.use with
    | .basic, _ => none
    | .extended, .lines => some (r.repeated least most sign)
    | .extended, .parts => some r.pass

/-- Reads a count from behind its brace. Gives nothing where the brace stands for itself. -/
def readBrace (r : Reading) (rest : List UInt8) : Except Fault (Option (Reading × List UInt8)) := do
  let repeatBy (c : Counted) : Reading × List UInt8 :=
    ({ r.repeated c.1.1 c.1.2 "\x7b...\x7d" with atStart := false }, c.2)
  match r.use with
  | .parts =>
    if r.atStart then pure (if r.manner = .basic then none else some (r.pass, rest))
    else pure ((← readCount r.manner rest).map repeatBy)
  | .lines =>
    if r.atStart && r.manner = .basic then pure none
    else
      match plainCount? r.manner rest with
      | some c =>
        let (r, rest) := repeatBy c
        pure (some (if c.1.2.any (mostRepeats < ·) then r.remark (.refused .tooBigForLines) else r, rest))
      | none =>
        if r.manner = .extended then pure none
        else pure (some ((r.remark (.refused .badCountForLines)).literal 123, rest))

def readOperator (r : Reading) (b : UInt8) (rest : List UInt8) :
    Except Fault (Option (Reading × List UInt8)) := do
  let with_ (r : Reading) : Reading × List UInt8 := (r, rest)
  match b with
  | 40 => pure (some (with_ r.openGroup))
  | 41 =>
    if r.opened.isEmpty && r.manner = .basic then throw .lonelyClosing
    else pure (if r.opened.isEmpty || r.passed then none else some (with_ r.closeGroup))
  | 124 => pure (some (with_ r.bar))
  | 43 => pure ((readRepeat r 1 none "+").map with_)
  | 63 => pure ((readRepeat r 0 (some 1) "?").map with_)
  | 123 => readBrace r rest
  | _ => pure none

def endsPart (r : Reading) (rest : List UInt8) : Bool :=
  if r.manner = .extended then true
  else
    match r.use, rest with
    | _, [] | _, 92 :: 41 :: _ | _, 92 :: 124 :: _ | .lines, 10 :: _ => true
    | .lines, b :: _ :: _ => b = 41 || b = 124
    | _, _ => false

def readEscaped (r : Reading) (b : UInt8) (rest : List UInt8) : Except Fault (Reading × List UInt8) := do
  let operator ← if r.manner = .basic then readOperator r b rest else pure none
  match operator, escaped? b with
  | some done, _ => pure done
  | none, some (isPlace, p) => pure (if isPlace then r.place p else r.atom p, rest)
  | none, none =>
    if 49 ≤ b && b ≤ 57 then
      let number := b.toNat - 48
      if r.use = .parts && !r.closed.contains number then throw .unknownGroup
      else pure ({ r.atom (.again number r.ignoreCase) with hard := true }, rest)
    else pure (r.literal b, rest)

def readSign (r : Reading) (b : UInt8) (rest : List UInt8) : Except Fault (Reading × List UInt8) := do
  let itself := (r.literal b, rest)
  match b with
  | 92 =>
    match rest with
    | [] => throw .lonelyBackslash
    | c :: rest => readEscaped r c rest
  | 91 => do
    let (set, rest) ← Bracket.read r.ignoreCase rest
    let r := if set.looksLikeClass then r.remark (.refused .classOutside) else r
    pure ({ r.atom (.one set.test) with hard := r.hard || set.namesElements }, rest)
  | 46 => pure (r.atom (.one fun _ ↦ true), rest)
  | 42 => pure (((readRepeat r 0 none "*").map fun r ↦ (r, rest)).getD itself)
  | 94 => pure (if r.manner = .extended || r.isFresh then (r.place .lineStart, rest) else itself)
  | 36 => pure (if endsPart r rest then (r.place .lineEnd, rest) else itself)
  | 10 => pure (r.bar, rest)
  | _ =>
    if r.manner = .extended then pure ((← readOperator r b rest).getD itself) else pure itself

def readSigns : Nat → Reading → List UInt8 → Except Fault Reading
  | 0, r, _ | _, r, [] => .ok r
  | n + 1, r, b :: rest => do
    let (r, rest) ← readSign r b rest
    readSigns n r rest

structure Part where
  number : Nat := 0
  before : Option Pattern := none
  items : List Pattern := []

def Part.whole (p : Part) : Pattern :=
  let last := row p.items.reverse
  match p.before with
  | some q => either q last
  | none => last

def Part.add (p : Part) (q : Pattern) : Part := { p with items := q :: p.items }

def ofSigns : Part → List Part → List Sign → Pattern
  | part, _, [] => part.whole
  | part, outer, .atom p :: rest => ofSigns (part.add p) outer rest
  | part, outer, .«open» number :: rest => ofSigns { number } (part :: outer) rest
  | part, outer, .bar :: rest => ofSigns { part with before := some part.whole, items := [] } outer rest
  | part, [], .close :: rest => ofSigns part [] rest
  | part, last :: outer, .close :: rest => ofSigns (last.add (group part.number part.whole)) outer rest
  | part, outer, .repeated least most :: rest =>
    match part.items with
    | p :: items => ofSigns { part with items := many p least most true :: items } outer rest
    | [] => ofSigns part outer rest

structure Written where
  pattern : Pattern
  hard : Bool
  remarks : List Remark

def read (manner : Manner) (use : Use) (ignoreCase : Bool) (text : List UInt8) :
    Except Fault Written := do
  let r ← readSigns (text.length + 1) { manner, use, ignoreCase } text
  if !r.opened.isEmpty then throw .openGroup
  pure ⟨(ofSigns {} [] r.signs.reverse).trim, r.hard, r.remarks.reverse⟩

def around (manner : Manner) (wholeLines : Bool) : String × String :=
  match manner, wholeLines with
  | .basic, true => ("^\\(", "\\)$")
  | .extended, true => ("^(", ")$")
  | .basic, false => ("\\(^\\|[^[:alnum:]_]\\)\\(", "\\)\\([^[:alnum:]_]\\|$\\)")
  | .extended, false => ("(^|[^[:alnum:]_])(", ")([^[:alnum:]_]|$)")

end JobShell.Program.Pattern

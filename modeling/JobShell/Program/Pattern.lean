import Std.Data.HashSet
import JobShell.Program.ByteClass

namespace JobShell.Program

/-- What a line may fit. A repetition that is `eager` prefers more rounds to fewer. -/
inductive Pattern
  | nothing
  | never
  | one (test : UInt8 → Bool)
  | both (p q : Pattern)
  | either (p q : Pattern)
  | many (p : Pattern) (least : Nat) (most : Option Nat) (eager : Bool)
  | lineStart
  | lineEnd
  | wordStart
  | wordEnd
  | edge (is : Bool)
  | group (number : Nat) (p : Pattern)
  | again (number : Nat) (ignoreCase : Bool)
  | first (p : Pattern)
  | ahead (is : Bool) (p : Pattern)
  | behind (is : Bool) (p : Pattern)
  | caught (number : Nat)
  | whether (condition p q : Pattern)
  | cut

namespace Pattern

structure Progress where
  place : Nat
  groups : List (Nat × Nat × Nat) := []
  deriving DecidableEq, Hashable

namespace Progress

def group? (s : Progress) (number : Nat) : Option (Nat × Nat) :=
  (s.groups.find? fun g ↦ g.1 = number).map (·.2)

def note (s : Progress) (number start : Nat) : Progress :=
  let others := s.groups.filter fun g ↦ g.1 ≠ number
  { s with
    groups := (others.filter fun g ↦ g.1 < number) ++ (number, start, s.place)
      :: others.filter fun g ↦ number < g.1 }

def start (s : Progress) (i : Nat) : Nat := ((s.group? 0).map (·.2)).getD i

end Progress

def byteAt? (text : ByteArray) (i : Nat) : Option UInt8 := text[i]?

def isWordByte (b : UInt8) : Bool := b = 95 || ByteClass.isAlnum b

def wordAt (line : ByteArray) (i : Nat) : Bool := (byteAt? line i).any isWordByte

def wordBefore (line : ByteArray) (i : Nat) : Bool := 0 < i && wordAt line (i - 1)

def distinct (ps : List Progress) : List Progress :=
  match ps with
  | [] | [_] => ps
  | _ =>
    ((ps.foldl (fun (acc : Std.HashSet Progress × List Progress) p ↦
      if acc.1.contains p then acc else (acc.1.insert p, p :: acc.2)) ({}, [])).2).reverse

def after (step : Progress → List Progress) : Nat → List Progress → List Progress
  | 0, ps => ps
  | n + 1, ps => if ps.isEmpty then [] else after step n (distinct (ps.flatMap step))

inductive Task
  | enter (p : Progress) (rounds : Nat)
  | take (p : Progress)

def closure (step : Progress → List Progress) (counted eager : Bool) :
    Nat → Std.HashSet (Progress × Nat) → List Progress → List Task → List Progress
  | 0, _, reached, _ => reached.reverse
  | _ + 1, _, reached, [] => reached.reverse
  | n + 1, seen, reached, .take p :: tasks => closure step counted eager n seen (p :: reached) tasks
  | n + 1, seen, reached, .enter p rounds :: tasks =>
    if seen.contains (p, rounds) then closure step counted eager n seen reached tasks
    else
      let seen := seen.insert (p, rounds)
      let next :=
        if counted && rounds = 0 then []
        else ((step p).filter (· ≠ p)).map fun q ↦ Task.enter q (rounds - 1)
      if eager then closure step counted eager n seen reached (next ++ .take p :: tasks)
      else closure step counted eager n seen (p :: reached) (next ++ tasks)

def manyTasks : Nat := 1000000000000000

def stands (line : ByteArray) (ignoreCase : Bool) (bytes : ByteArray) (i : Nat) : Bool :=
  let there := line.extract i (i + bytes.size)
  if ignoreCase then there.toList.map ByteClass.lower = bytes.toList.map ByteClass.lower
  else there.toList = bytes.toList

def placeIf (is : Bool) (s : Progress) : List Progress := if is then [s] else []

/-- How far matches come that have come to some place. Preferred ones come first. -/
def ends (line : ByteArray) : Pattern → Progress → List Progress
  | nothing, s => [s]
  | never, _ => []
  | one test, s =>
    match byteAt? line s.place with
    | some b => placeIf (test b) { s with place := s.place + 1 }
    | none => []
  | both p q, s => distinct ((ends line p s).flatMap (ends line q))
  | either p q, s => distinct (ends line p s ++ ends line q s)
  | many p least most eager, s =>
    let start := after (ends line p) least [s]
    let rounds := match most with
      | some most => most - least
      | none => 0
    distinct (closure (ends line p) most.isSome eager manyTasks {} []
      (start.map fun p ↦ .enter p rounds))
  | lineStart, s => placeIf (s.place = 0) s
  | lineEnd, s => placeIf (s.place = line.size) s
  | wordStart, s => placeIf (wordAt line s.place && !wordBefore line s.place) s
  | wordEnd, s => placeIf (wordBefore line s.place && !wordAt line s.place) s
  | edge is, s => placeIf ((wordAt line s.place != wordBefore line s.place) == is) s
  | group number p, s => (ends line p s).map (·.note number s.place)
  | again number ignoreCase, s =>
    match s.group? number with
    | some (b, e) =>
      placeIf (stands line ignoreCase (line.extract b e) s.place)
        { s with place := s.place + (e - b) }
    | none => []
  | first p, s => (ends line p s).take 1
  | ahead is p, s =>
    match ends line p s with
    | t :: _ => placeIf is { s with groups := t.groups }
    | [] => placeIf (!is) s
  | behind is p, s =>
    let from_ := (List.range (s.place + 1)).reverse.findSome? fun i ↦
      (ends line p { s with place := i }).find? (·.place = s.place)
    match from_ with
    | some t => placeIf is { s with groups := t.groups }
    | none => placeIf (!is) s
  | caught number, s => placeIf (s.group? number).isSome s
  | whether condition p q, s => if (ends line condition s).isEmpty then ends line q s else ends line p s
  | cut, s => [s.note 0 s.place]

def refersTo (number : Nat) : Pattern → Bool
  | both p q | either p q => refersTo number p || refersTo number q
  | many p _ _ _ | group _ p | first p | ahead _ p | behind _ p => refersTo number p
  | again n _ | caught n => n = number
  | whether c p q => refersTo number c || refersTo number p || refersTo number q
  | _ => false

def plain (keeps : Nat → Bool) : Pattern → Pattern
  | both p q => both (plain keeps p) (plain keeps q)
  | either p q => either (plain keeps p) (plain keeps q)
  | many p least most eager => many (plain keeps p) least most eager
  | group n p => if keeps n then group n (plain keeps p) else plain keeps p
  | first p => first (plain keeps p)
  | ahead is p => ahead is (plain keeps p)
  | behind is p => behind is (plain keeps p)
  | whether c p q => whether (plain keeps c) (plain keeps p) (plain keeps q)
  | p => p

def trim (p : Pattern) : Pattern := plain (fun n ↦ refersTo n p) p

def oneOf : List Pattern → Pattern
  | [] => never
  | [p] => p
  | p :: ps => either p (oneOf ps)

def row : List Pattern → Pattern
  | [] => nothing
  | [p] => p
  | p :: ps => both p (row ps)

def fixedLength? (known : Nat → Option Nat) : Pattern → Option Nat
  | one _ => some 1
  | both p q => do return (← fixedLength? known p) + (← fixedLength? known q)
  | either p q | whether _ p q => do
    let m ← fixedLength? known p
    let n ← fixedLength? known q
    if m = n then some m else none
  | many (ahead _ _) _ _ _ | many (behind _ _) _ _ _ => some 0
  | many p least most _ => do
    let n ← fixedLength? known p
    if most = some least then some (least * n) else none
  | group _ p | first p => fixedLength? known p
  | again n _ => known n
  | _ => some 0

def folded (ignoreCase : Bool) (test : UInt8 → Bool) : UInt8 → Bool :=
  if ignoreCase then fun b ↦ test b || test (ByteClass.lower b) || test (ByteClass.upper b) else test

def literal (ignoreCase : Bool) (b : UInt8) : Pattern := one (folded ignoreCase (· = b))

def fixed (ignoreCase : Bool) (text : List UInt8) : Pattern := row (text.map (literal ignoreCase))

end Pattern

end JobShell.Program

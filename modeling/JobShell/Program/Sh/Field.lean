import JobShell.Program.Sh.Tree

namespace JobShell.Program.Sh

inductive Item
  | char (c : Char) (escaped : Bool)
  | quote
  | border
  deriving DecidableEq

inductive Region
  | whole
  | split
  | bordered
  deriving DecidableEq

structure Part where
  region : Region
  items : List Item

abbrev Field := List Item

namespace Field

def text (f : Field) : List Char :=
  f.filterMap fun
    | .char c _ => some c
    | _ => none

def pattern (f : Field) : List Char :=
  f.flatMap fun
    | .char c true => ['\\', c]
    | .char c false => [c]
    | _ => []

end Field

structure Splitting where
  fields : List Field := []
  here : Field := []
  afterBlank : Bool := false
  room : Option Nat := none
  tail : Option Nat := none

namespace Splitting

def push (s : Splitting) (i : Item) : Splitting :=
  { s with here := i :: s.here, afterBlank := false, tail := s.tail.map (· + 1) }

def close (s : Splitting) (afterBlank : Bool) : Splitting :=
  { s with fields := s.here.reverse :: s.fields, here := [], afterBlank }

/-- Takes an item of a region that is split. `bordered` tells that the region in front was one of
parameters, or this one is. -/
def step (separates isBlank : Item → Bool) (bordered : Bool) (s : Splitting) (i : Item) : Splitting :=
  match s.room with
  | some 0 =>
    if isBlank i then
      let tail := (s.tail.map (· + 1)).getD 1
      { s with here := i :: s.here, tail := some tail }
    else
      let keeps := separates i && s.afterBlank
      { s with
        here := i :: s.here, afterBlank := false, tail := if keeps then s.tail.map (· + 1) else none }
  | room =>
    if s.afterBlank && isBlank i then { s with here := [] }
    else if s.afterBlank && separates i then { s with here := [], afterBlank := false }
    else if separates i then
      let afterBlank := !bordered && isBlank i
      if s.here.isEmpty && afterBlank then { s with afterBlank := false }
      else
        match room with
        | some 1 => { s with room := some 0, here := i :: s.here, afterBlank, tail := some 1 }
        | some n => { s.close afterBlank with room := some (n - 1) }
        | none => s.close afterBlank
    else { s with here := i :: s.here, afterBlank := false }

def part (separators : List Char) (before : Region) (s : Splitting) (p : Part) : Splitting :=
  let inSeparators : Item → Bool
    | .char c _ => separators.contains c
    | .border => true
    | .quote => false
  let isBlank : Item → Bool
    | .char c _ => separators.contains c && (c = ' ' || c = '\t' || c = '\n')
    | .border => true
    | .quote => false
  match p.region with
  | .whole => p.items.foldl push s
  | .split =>
    p.items.foldl (step inSeparators isBlank (before = .bordered)) { s with afterBlank := false }
  | .bordered =>
    p.items.foldl (step (· = .border) (fun _ ↦ false) true) { s with afterBlank := false }

def regionBehind (before : Region) (p : Part) : Region := if p.region = .whole then before else p.region

end Splitting

def splitFields (separators : List Char) (limit : Option Nat) (parts : List Part) : List Field :=
  let (s, last) := parts.foldl (fun (acc : Splitting × Region) p ↦
    (acc.1.part separators acc.2 p, Splitting.regionBehind acc.2 p)) ({ room := limit }, .whole)
  let here := (s.here.drop (s.tail.getD 0)).reverse
  (if here.isEmpty && last ≠ .bordered then s.fields else here :: s.fields).reverse

end JobShell.Program.Sh

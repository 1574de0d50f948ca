import JobShell.Program.Flags
import JobShell.Program.WrittenSet

namespace JobShell.Program

structure Translation where
  image : UInt8 → Option UInt8 := some
  squeezes : UInt8 → Bool := fun _ ↦ false

namespace Translation

def apply (t : Translation) : Option UInt8 → List UInt8 → List UInt8 → List UInt8 × Option UInt8
  | last, acc, [] => (acc, last)
  | last, acc, b :: bs =>
    match t.image b with
    | none => t.apply last acc bs
    | some c =>
      if t.squeezes c && last == some c then t.apply last acc bs
      else t.apply (some c) (c :: acc) bs

def align : Nat → List SetItem → List SetItem → Option (List (SetItem × SetItem) × List SetItem)
  | 0, xs, _ => some ([], xs)
  | _ + 1, xs, [] => some ([], xs)
  | n + 1, xs, y :: ys =>
    let behind (items : List SetItem) : List SetItem := items.dropWhile (!·.isFirst)
    match xs, y.letters with
    | [], some _ => none
    | [], none => some ([], [])
    | x :: xs, some _ =>
      if x.letters.isSome && x.isFirst then
        (align n (behind xs) (behind ys)).map fun r ↦ ((x, y) :: r.1, r.2)
      else none
    | x :: xs, none => (align n xs ys).map fun r ↦ ((x, y) :: r.1, r.2)

def pairImage (p : SetItem × SetItem) (b : UInt8) : Option UInt8 :=
  match p.1.letters, p.2.letters with
  | some .lower, some .upper => if ByteClass.isLower b then some (ByteClass.upper b) else none
  | some .upper, some .lower => if ByteClass.isUpper b then some (ByteClass.lower b) else none
  | _, _ => if p.1.byte = b then some p.2.byte else none

def imageUnder (pairs : List (SetItem × SetItem)) (b : UInt8) : UInt8 :=
  (pairs.reverse.findSome? fun p ↦ pairImage p b).getD b

/-- The translation of one set into another. -/
def replacing (complemented truncates squeezes : Bool) (ps qs : List SetPart) :
    Except String Translation := do
  let members := WrittenSet.bytes 0 ps
  let xs : List SetItem :=
    if complemented then (allBytes.filter (!members.contains ·)).map fun b ↦ { byte := b }
    else WrittenSet.items 0 ps
  if 1 < WrittenSet.fillings qs then
    throw "only one [c*] repeat construct may appear in string2"
  if qs.any (· matches .equivalent _) then
    throw "[=c=] expressions may not appear in string2 when translating"
  let barred : SetPart → Bool
    | .members name _ => name ≠ "upper" && name ≠ "lower"
    | _ => false
  if qs.any barred then
    throw ("when translating, the only character classes that may appear in\n"
      ++ "string2 are 'upper' and 'lower'")
  let ys := WrittenSet.items xs.length qs
  let plain (items : List SetItem) : List SetItem := items.map fun i ↦ { byte := i.byte }
  let (pairs, left) ←
    match align (ys.length + 1) xs (if complemented then plain ys else ys) with
    | some r => pure r
    | none => throw "misaligned [:upper:] and/or [:lower:] construct"
  let more : List (SetItem × SetItem) ←
    if left.isEmpty || truncates then pure []
    else if ys.isEmpty then throw "when not truncating set1, string2 must be non-empty"
    else
      match qs.getLast?.bind SetPart.last? with
      | some b => pure (left.map fun x ↦ ({ x with letters := none }, { byte := b }))
      | none =>
        throw ("when translating with string1 longer than string2,\n"
          ++ "the latter string must not end with a character class")
  let images := (ys.map (·.byte)) ++ more.map (·.2.byte)
  let hasClass := ps.any (· matches .members _ _)
  if complemented && hasClass &&
      !(images.length = xs.length && images.all (some · = images.head?)) then
    throw ("when translating with complemented character classes,\n"
      ++ "string2 must map all characters in the domain to one")
  let table := (allBytes.map (imageUnder (pairs ++ more))).toArray
  pure {
    image := fun b ↦ some (table[b.toNat]?.getD b)
    squeezes := fun b ↦ squeezes && images.contains b }

/-- The translation that flags and sets ask for. -/
def ofSets (f : Found) (ps : List SetPart) (qs : Option (List SetPart)) :
    Except String Translation := do
  if 0 < WrittenSet.fillings ps then
    throw "the [c*] repeat construct may not appear in string1"
  let complemented := f.has "complement"
  let members := WrittenSet.bytes 0 ps
  let isMember (b : UInt8) : Bool := members.contains b != complemented
  let delete (b : UInt8) : Option UInt8 := if isMember b then none else some b
  match qs with
  | none => pure (if f.has "delete" then { image := delete } else { squeezes := isMember })
  | some qs =>
    if f.has "delete" then
      if 1 < WrittenSet.fillings qs then
        throw "only one [c*] repeat construct may appear in string2"
      if 0 < WrittenSet.fillings qs then
        throw "the [c*] construct may appear in string2 only when translating"
      pure { image := delete, squeezes := (WrittenSet.bytes 0 qs).contains }
    else replacing complemented (f.has "truncate") (f.has "squeeze") ps qs

def miscount? (f : Found) : Option String :=
  let deletes := f.has "delete"
  let squeezes := f.has "squeeze"
  let least := if deletes = squeezes then 2 else 1
  let most := if deletes && !squeezes then 1 else 2
  match f.words with
  | [] => some "missing operand"
  | words =>
    if words.length < least then
      some ("missing operand after " ++ quote (words.getLastD "") ++
        if squeezes then "\nTwo strings must be given when both deleting and squeezing repeats."
        else "\nTwo strings must be given when translating.")
    else if most < words.length then
      some ("extra operand " ++ quote ((words.drop most).headD "") ++
        if words.length = 2 then
          "\nOnly one string may be given when deleting without squeezing repeats."
        else "")
    else none

def ofInput (t : Translation) (name : String) : Nat → Option UInt8 → Held Unit
  | 0, _ => liftM (Sys.hang : Sys Unit)
  | n + 1, last => do
    let piece : Except Errno ByteArray ← liftM (Sys.read Sys.stdin 8192)
    match piece with
    | .error e => do
      Held.blame (name ++ ": read error: " ++ e.libraryText)
      Held.leave 1
    | .ok piece =>
      if !piece.isEmpty then
        let (acc, last) := t.apply last [] piece.toList
        Held.put ⟨acc.reverse.toArray⟩
        ofInput t name n last

def switches : List Switch :=
  [{ key := "complement", letters := "cC", long := "complement" },
    { key := "delete", letters := "d", long := "delete" },
    { key := "squeeze", letters := "s", long := "squeeze-repeats" },
    { key := "truncate", letters := "t", long := "truncate-set1" },
    { key := "bytes", letters := "A" }]

end Translation

def tr (words : List String) : Sys Int :=
  let name := words.headD "tr"
  let f := Switch.readStrictly Translation.switches words.tail
  f.run name 1 do
    let refuse (problem : String) : Held Unit := do
      Held.blame (name ++ ": " ++ problem)
      Held.leave 1
    let set (text : String) : Held (List SetPart) := do
      let (ps, warnings) := WrittenSet.read text
      warnings.forM fun w ↦ Held.blame (name ++ ": " ++ w)
      match ps with
      | .ok ps => pure ps
      | .error problem => do
        refuse problem
        pure []
    match Translation.miscount? f with
    | some problem => do
      liftM (tryHelp name problem)
      pure 1
    | none => do
      let ps ← set (f.words.headD "")
      let qs ← f.words.tail.head?.mapM set
      match Translation.ofSets f ps qs with
      | .error problem => do
        refuse problem
        pure 1
      | .ok t => do
        t.ofInput name Sys.patience none
        pure 0

end JobShell.Program

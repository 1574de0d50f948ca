import JobShell.Program.Amount
import JobShell.Program.Sorting.Collation

namespace JobShell.Program

structure SortKey where
  field : Nat := 0
  byte : Nat := 0
  stop : Option (Nat × Nat) := none
  order : Collation := {}

namespace SortKey

def skipFields (separator : Option UInt8) : Nat → List UInt8 → List UInt8
  | 0, bs => bs
  | n + 1, bs =>
    match separator with
    | some c => skipFields separator n ((bs.dropWhile (· ≠ c)).drop 1)
    | none =>
      skipFields separator n ((bs.dropWhile separatesFields).dropWhile (!separatesFields ·))

def fromStart (separator : Option UInt8) (k : SortKey) (bs : List UInt8) : List UInt8 :=
  let rest := skipFields separator (min k.field bs.length) bs
  (if k.order.skipsAtStart then rest.dropWhile separatesFields else rest).drop k.byte

def behindEnd (separator : Option UInt8) (k : SortKey) (bs : List UInt8) : List UInt8 :=
  match k.stop with
  | none => []
  | some (field, 0) =>
    match separator with
    | some c => (skipFields separator (min field bs.length) bs).dropWhile (· ≠ c)
    | none => skipFields separator (min field bs.length + 1) bs
  | some (field, count) =>
    let rest := skipFields separator (min field bs.length) bs
    (if k.order.skipsAtEnd then rest.dropWhile separatesFields else rest).drop count

def extract (separator : Option UInt8) (k : SortKey) (bs : List UInt8) : List UInt8 :=
  let rest := k.fromStart separator bs
  rest.take (rest.length - (k.behindEnd separator bs).length)

def readCount (what text : String) : Except String (Nat × String) :=
  let body := text.toList.dropWhile isSpace
  let (negative, ds) := readSign body
  if !negative && startsWithDigit 10 ds then
    let (n, rest) := readDigits 10 0 ds
    .ok (n, String.ofList rest)
  else .error (what ++ ": invalid count at start of " ++ quote text)

def readOptions (atStart atEnd : Bool) (c : Collation) : List Char → Collation × List Char
  | [] => (c, [])
  | o :: cs =>
    if o = 'b' then
      readOptions atStart atEnd { c with
        skipsAtStart := c.skipsAtStart || atStart
        skipsAtEnd := c.skipsAtEnd || atEnd } cs
    else if "dfghiMnRrV".toList.contains o then
      readOptions atStart atEnd { c with options := o :: c.options } cs
    else (c, o :: cs)

def behindDot? (text : String) : Option String :=
  match text.toList with
  | '.' :: cs => some (String.ofList cs)
  | _ => none

def read (text : String) : Except String SortKey := do
  let bad (why : String) : String := why ++ ": invalid field specification " ++ quote text
  let (field, rest) ← readCount "invalid number at field start" text
  if field = 0 then throw (bad "field number is zero")
  let (byte, rest) ← match behindDot? rest with
    | some digits => readCount "invalid number after '.'" digits
    | none => pure (1, rest)
  if byte = 0 then throw (bad "character offset is zero")
  let (order, rest) := readOptions true false {} rest.toList
  match rest with
  | ',' :: rest =>
    let (last, rest) ← readCount "invalid number after ','" (String.ofList rest)
    if last = 0 then throw (bad "field number is zero")
    let (count, rest) ← match behindDot? rest with
      | some digits => readCount "invalid number after '.'" digits
      | none => pure (0, rest)
    let (order, rest) := readOptions false true order rest.toList
    if !rest.isEmpty then throw (bad "stray character in field spec")
    pure { field := field - 1, byte := byte - 1, stop := some (last - 1, count), order }
  | rest =>
    if !rest.isEmpty then throw (bad "stray character in field spec")
    pure { field := field - 1, byte := byte - 1, order }

end SortKey

structure SortOrder where
  keys : List SortKey
  separator : Option UInt8
  reversed : Bool
  stable : Bool

namespace SortOrder

def compareKeys (o : SortOrder) (as bs : List UInt8) : Ordering :=
  o.keys.foldl (fun r k ↦
    r.then (k.order.compare (k.extract o.separator as) (k.extract o.separator bs))) .eq

def compare (o : SortOrder) (as bs : List UInt8) : Ordering :=
  let r := o.compareKeys as bs
  if o.stable && !o.keys.isEmpty then r
  else r.then (if o.reversed then (compareBytes as bs).swap else compareBytes as bs)

def unique (o : SortOrder) : List (List UInt8) → List (List UInt8)
  | [] => []
  | [line] => [line]
  | line :: next :: rest =>
    if o.compare line next = .eq then o.unique (line :: rest) else line :: o.unique (next :: rest)
termination_by lines => lines.length

def disorder? (o : SortOrder) (unique : Bool) :
    Nat → List (List UInt8) → Option (Nat × List UInt8)
  | n, line :: next :: rest =>
    let r := o.compare line next
    if r = .gt || (unique && r = .eq) then some (n + 1, next)
    else disorder? o unique (n + 1) (next :: rest)
  | _, _ => none

def takeLeast (o : SortOrder) :
    List (List (List UInt8)) → Option (List UInt8 × List (List (List UInt8)))
  | [] => none
  | [] :: files => (takeLeast o files).map fun r ↦ (r.1, [] :: r.2)
  | (line :: rest) :: files =>
    match takeLeast o files with
    | some (least, others) =>
      if o.compare line least = .gt then some (least, (line :: rest) :: others)
      else some (line, rest :: files)
    | none => some (line, rest :: files)

def merge (o : SortOrder) : Nat → List (List (List UInt8)) → List (List UInt8)
  | 0, _ => []
  | n + 1, files =>
    match o.takeLeast files with
    | some (line, files) => line :: merge o n files
    | none => []

end SortOrder

end JobShell.Program

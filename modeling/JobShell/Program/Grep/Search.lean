import JobShell.Program.Ends
import JobShell.Program.Grep.Colors
import JobShell.Program.Grep.Wish
import JobShell.Program.Pattern

namespace JobShell.Program.Grep

/-- What is searched for and how it is shown. Where a match is chosen by its length the longest counts,
and else the preferred one. Lines may have a pattern of their own, which they fit as a whole. -/
structure Plan where
  wish : Wish
  pattern : Pattern
  lines : Option Pattern := none
  byLength : Bool := true
  colors : Option Colors := none
  before : Nat := 0
  after : Nat := 0
  separated : Bool := false
  quiet : Bool := false
  once : Bool := false

namespace Plan

def matchAt? (p : Plan) (line : ByteArray) (i : Nat) : Option (Nat × Nat) :=
  let fits (s : Pattern.Progress) : Bool :=
    if p.wish.wholeLines then i = 0 && s.place = line.size
    else !p.wish.wholeWords || !Pattern.wordBefore line i && !Pattern.wordAt line s.place
  let found := (p.pattern.ends line { place := i }).filter fits
  let chosen := if p.byLength then found.foldl longer none else found.head?
  chosen.map fun s ↦ (s.start i, s.place)
where
  longer : Option Pattern.Progress → Pattern.Progress → Option Pattern.Progress
    | some s, t => some (if s.place < t.place then t else s)
    | none, t => some t

def firstMatch? (p : Plan) (line : ByteArray) : Nat → Nat → Option (Nat × Nat)
  | 0, _ => none
  | n + 1, i =>
    match p.matchAt? line i with
    | some m => some m
    | none => if i < line.size then firstMatch? p line n (i + 1) else none

def matchesFrom (p : Plan) (line : ByteArray) : Nat → Nat → List (Nat × Nat)
  | 0, _ => []
  | n + 1, i =>
    match p.firstMatch? line (line.size + 1 - i) i with
    | none => []
    | some (b, e) =>
      if b < e then (b, e) :: matchesFrom p line n e
      else if b < line.size then matchesFrom p line n (b + 1)
      else []

def allMatches (p : Plan) (line : ByteArray) : List (Nat × Nat) :=
  p.matchesFrom line (line.size + 2) 0

def fits (p : Plan) (line : ByteArray) : Bool :=
  match p.lines with
  | some q => (List.range (line.size + 1)).any fun i ↦ !(q.ends line { place := i }).isEmpty
  | none => (p.firstMatch? line (line.size + 1) 0).isSome

def selects (p : Plan) (line : ByteArray) : Bool := p.fits line != p.wish.inverted

def paint (p : Plan) (color : Colors → String) (text : ByteArray) : ByteArray :=
  match p.colors with
  | some c => c.paint (color c) text
  | none => text

def paintText (p : Plan) (color : Colors → String) (text : String) : ByteArray :=
  p.paint color (Text.toBytes text)

end Plan

structure Line where
  number : Nat
  offset : Nat
  text : ByteArray

structure Place where
  label : String
  named : Bool
  width : Nat := 0

def lead (p : Plan) (at_ : Place) (mark : String) (number offset : Nat) (isEmpty : Bool) : ByteArray :=
  let w := p.wish
  let mark := p.paintText (·.separator) mark
  let filled (n : Nat) : String :=
    let ds := Decimal.text n
    String.ofList (List.replicate (at_.width - ds.length) ' ') ++ ds
  let name :=
    if !at_.named then ByteArray.empty
    else p.paintText (·.file) at_.label ++ if w.zeroNames then ⟨#[0]⟩ else mark
  let number := if w.numbers then p.paintText (·.line) (filled number) ++ mark else .empty
  let offset := if w.offsets then p.paintText (·.byte) (filled offset) ++ mark else .empty
  let tab := w.tabs && (at_.named || w.numbers || w.offsets) && !isEmpty
  name ++ number ++ offset ++ if tab then Text.toBytes "\t" else .empty

def painted (lineColor matchColor : String) (c : Colors) (text : ByteArray)
    (found : List (Nat × Nat)) : ByteArray :=
  let (out, done) := found.foldl (fun (acc : ByteArray × Nat) (m : Nat × Nat) ↦
    (acc.1 ++ c.start lineColor ++ text.extract acc.2 m.1 ++ c.paint matchColor (text.extract m.1 m.2),
      m.2)) (ByteArray.empty, 0)
  let rest := text.extract done text.size
  let kept := if rest.toList.getLast? = some 13 then rest.size - 1 else rest.size
  let tail := rest.extract 0 kept
  out ++ (if tail.isEmpty then .empty else c.paint lineColor tail) ++ rest.extract kept rest.size

/-- What is shown of a line that was selected, or that stands around one. -/
def shown (p : Plan) (at_ : Place) (selected : Bool) (l : Line) : ByteArray :=
  let w := p.wish
  let ending : ByteArray := ⟨#[w.ending]⟩
  let holdsMatches := selected != w.inverted
  if w.onlyMatching then
    if !holdsMatches then .empty
    else
      concat ((p.allMatches l.text).map fun m ↦
        lead p at_ (if w.inverted then "-" else ":") l.number (l.offset + m.1) false
          ++ p.paint (if selected then (·.selectedMatch) else (·.contextMatch)) (l.text.extract m.1 m.2)
          ++ ending)
  else
    let front := lead p at_ (if selected then ":" else "-") l.number l.offset l.text.isEmpty
    let body := match p.colors with
      | none => l.text
      | some c =>
        let lineColor :=
          if selected != (w.inverted && c.turned) then c.selectedLine else c.contextLine
        let matchColor := if selected then c.selectedMatch else c.contextMatch
        let found := if holdsMatches && !matchColor.isEmpty then p.allMatches l.text else []
        painted lineColor matchColor c l.text found
    front ++ body ++ ending

/-- How far the search of a file has come. `recent` holds lines since the last one that was shown, the
last first; with `apart` there are others before them. `behind` is the end of the last line that was
selected. -/
structure Search where
  number : Nat := 0
  offset : Nat := 0
  left : Option Nat
  found : Nat := 0
  pending : Nat := 0
  recent : List Line := []
  apart : Bool := true
  shownAny : Bool
  zeroAfter : Option Nat := none
  behind : Nat := 0
  output : ByteArray := .empty
  stopped : Bool := false

namespace Search

def isQuiet (p : Plan) (s : Search) : Bool :=
  p.quiet || s.zeroAfter.isSome && !p.wish.counts

def isOnce (p : Plan) (s : Search) : Bool :=
  p.once || s.zeroAfter.isSome && !p.wish.counts

def show_ (p : Plan) (at_ : Place) (s : Search) (l : Line) : Search :=
  if s.isQuiet p then { s with pending := 0, shownAny := true }
  else
    let gap := match p.wish.separator with
      | some text =>
        if p.separated && s.shownAny && s.apart then p.paintText (·.separator) text ++ Text.toBytes "\n"
        else .empty
      | none => .empty
    let around := concat (s.recent.reverse.map (shown p at_ false))
    { s with
      output := s.output ++ gap ++ around ++ shown p at_ true l
      recent := [], apart := false, shownAny := true, pending := p.after }

/-- Looks at the next line; `size` is its length with its ending. -/
def next (p : Plan) (at_ : Place) (s : Search) (text : ByteArray) (size : Nat) : Search :=
  if s.stopped then s
  else
    let l : Line := ⟨s.number + 1, s.offset, text⟩
    let s := { s with number := s.number + 1, offset := s.offset + size }
    let ended (s : Search) : Search :=
      { s with stopped := s.isOnce p && 0 < s.found || s.left = some 0 && s.pending = 0 }
    if s.left ≠ some 0 && p.selects text then
      ended { s.show_ p at_ l with
        left := s.left.map (· - 1), found := s.found + 1, behind := s.offset }
    else if 0 < s.pending && !s.isQuiet p then
      ended { s with
        output := s.output ++ shown p at_ false l
        recent := [], apart := false, pending := s.pending - 1 }
    else
      { s with
        recent := (l :: s.recent).take p.before
        apart := s.apart || p.before ≤ s.recent.length }

def nextLines (p : Plan) (at_ : Place) (s : Search) (ls : List ByteArray) : Search :=
  ls.foldl (fun s l ↦ s.next p at_ (l.extract 0 (l.size - 1)) l.size) s

end Search

def trouble (p : Plan) (name label problem : String) : Held Unit := do
  if !p.wish.silent then Held.blame (name ++ ": " ++ label ++ ": " ++ problem)

def flush (name : String) : Held Unit := do
  let o ← get
  if !o.held.isEmpty then
    let r : Except Errno Unit × ByteArray ← liftM (Sys.writeAll Sys.stdout o.held)
    set { o with held := ByteArray.empty }
    match r.1 with
    | .ok _ => pure ()
    | .error e => refuse name ("write error: " ++ e.libraryText)

def emit (name : String) (p : Plan) (output : ByteArray) : Held Unit := do
  Held.put output
  if 4096 ≤ (← get).held.size || (p.wish.lineBuffered && !output.isEmpty) then flush name

/-- How the reading of a file ended. -/
structure Outcome where
  found : Nat
  shownAny : Bool
  atEnd : Bool := false
  failed : Bool := false
  holdsZeros : Bool := false
  left : Option Nat
  extra : Nat := 0

/-- Searches an open file piece by piece. `rest` is the beginning of a line whose end is not yet read,
`size` the length of what has been read. -/
def searchPieces (p : Plan) (name : String) (at_ : Place) (fd : Int) :
    Nat → Nat → ByteArray → Search → Held Outcome
  | 0, _, _, _ => liftM (Sys.hang (α := Outcome))
  | n + 1, size, rest, s => do
    let outcome (s : Search) (size : Nat) : Outcome :=
      { found := s.found, shownAny := s.shownAny, left := s.left, extra := size - s.behind
        holdsZeros := !p.quiet && s.zeroAfter.any fun k ↦ k < s.found }
    let r : Except Errno ByteArray ← liftM (Sys.read fd 98304)
    match r with
    | .error e => do
      trouble p name at_.label e.libraryText
      pure { outcome s size with failed := true }
    | .ok piece =>
      if piece.isEmpty then
        let s := if rest.isEmpty then s else s.next p at_ rest rest.size
        emit name p s.output
        pure { outcome s size with atEnd := true }
      else
        let size := size + piece.size
        let zeros := p.wish.ending ≠ 0 && p.wish.binary ≠ .text && piece.toList.contains 0
        if zeros && p.wish.binary = .passOver then
          emit name p s.output
          pure { outcome s size with found := 0, holdsZeros := false }
        else
          let s := if zeros && s.zeroAfter.isNone then { s with zeroAfter := some s.found } else s
          let piece : ByteArray :=
            if s.zeroAfter.isSome then
              ⟨(piece.toList.map fun b ↦ if b = 0 then p.wish.ending else b).toArray⟩
            else piece
          let all := Ends.split p.wish.ending (rest ++ piece)
          let (whole, rest) : List ByteArray × ByteArray := match all.getLast? with
            | some l => if Ends.isWhole p.wish.ending l then (all, .empty) else (all.dropLast, l)
            | none => ([], .empty)
          let s := s.nextLines p at_ whole
          emit name p s.output
          let s := { s with output := ByteArray.empty }
          let s := { s with stopped := s.stopped || s.left = some 0 && s.pending = 0 }
          if s.stopped then pure (outcome s size) else searchPieces p name at_ fd n size rest s

end JobShell.Program.Grep

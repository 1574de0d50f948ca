import JobShell.Text.Cluster.Table

namespace JobShell.Text

/-- What a character does at the border of a cluster. The syllables of Hangul are made of leading
consonants, vowels and trailing consonants. -/
inductive Border
  | carriageReturn
  | lineFeed
  | control
  | extending
  | joiner
  | flag
  | prepended
  | spacing
  | leading
  | vowel
  | trailing
  | openSyllable
  | closedSyllable
  | other
  deriving DecidableEq, Repr

def isLetterOfFlag (c : Char) : Bool := decide (0x1f1e6 ≤ c.toNat) && decide (c.toNat ≤ 0x1f1ff)

def isModifier (c : Char) : Bool := decide (0x1f3fb ≤ c.toNat) && decide (c.toNat ≤ 0x1f3ff)

def leadingRanges : Ranges := [(0x1100, 0x115f), (0xa960, 0xa97c)]

def vowelRanges : Ranges :=
  [(0x1160, 0x11a7), (0xd7b0, 0xd7c6), (0x16d63, 0x16d63), (0x16d67, 0x16d6a)]

def trailingRanges : Ranges := [(0x11a8, 0x11ff), (0xd7cb, 0xd7fb)]

def syllableRanges : Ranges := [(0xac00, 0xd7a3)]

def borderOf (c : Char) : Border :=
  if c = '\r' then .carriageReturn
  else if c = '\n' then .lineFeed
  else if c = '\u200d' then .joiner
  else if controlRanges.has c then .control
  else if isJoining c || isModifier c then .extending
  else if isLetterOfFlag c then .flag
  else if prependedRanges.has c then .prepended
  else if spacingRanges.has c then .spacing
  else if leadingRanges.has c then .leading
  else if vowelRanges.has c then .vowel
  else if trailingRanges.has c then .trailing
  else if syllableRanges.has c then
    if (c.toNat - 0xac00) % 28 = 0 then .openSyllable else .closedSyllable
  else .other

def isPictograph (c : Char) : Bool := pictographRanges.has c

def staysInConjunct (c : Char) : Bool :=
  c ≠ '\u200c' && (borderOf c = .extending || borderOf c = .joiner || linkerRanges.has c)

def isOpenConjunct (before : List Char) : Bool :=
  (before.takeWhile staysInConjunct).any linkerRanges.has &&
    (before.dropWhile staysInConjunct).head?.any consonantRanges.has

def isOpenPictograph (before : List Char) : Bool :=
  (before.dropWhile fun c ↦ borderOf c = .extending).head?.any isPictograph

/-- Whether a character belongs to the cluster of those before it, which are given backwards. -/
def joins (last : Char) (before : List Char) (c : Char) : Bool :=
  match borderOf last, borderOf c with
  | .carriageReturn, .lineFeed => true
  | .carriageReturn, _ | .lineFeed, _ | .control, _ => false
  | _, .carriageReturn | _, .lineFeed | _, .control => false
  | .leading, .leading | .leading, .vowel | .leading, .openSyllable
  | .leading, .closedSyllable => true
  | .openSyllable, .vowel | .openSyllable, .trailing | .vowel, .vowel | .vowel, .trailing => true
  | .closedSyllable, .trailing | .trailing, .trailing => true
  | _, .extending | _, .joiner | _, .spacing => true
  | .prepended, _ => true
  | .flag, .flag => (before.takeWhile isLetterOfFlag).length % 2 = 0
  | .joiner, _ =>
    isPictograph c && isOpenPictograph before
      || consonantRanges.has c && isOpenConjunct (last :: before)
  | _, _ => consonantRanges.has c && isOpenConjunct (last :: before)

def clustersFrom (last : Char) (before : List Char) : List Char → List (List Char)
  | [] => [(last :: before).reverse]
  | c :: cs =>
    if joins last before c then clustersFrom c (last :: before) cs
    else (last :: before).reverse :: clustersFrom c [] cs

def clusters : List Char → List (List Char)
  | [] => []
  | c :: cs => clustersFrom c [] cs

theorem flatten_clustersFrom (last : Char) (before cs : List Char) :
    (clustersFrom last before cs).flatten = (last :: before).reverse ++ cs := by
  induction cs generalizing last before with
  | nil => simp [clustersFrom]
  | cons c cs ih => by_cases h : joins last before c <;> simp [clustersFrom, h, ih]

theorem flatten_clusters (cs : List Char) : (clusters cs).flatten = cs := by
  cases cs with
  | nil => rfl
  | cons c cs => simp [clusters, flatten_clustersFrom]

def backspace : Char := '\x08'

/-- Takes bytes off the end of some characters, which are given backwards; `none` if that would cut one
of them. -/
def dropBytes : Nat → List Char → Option (List Char)
  | 0, cs => some cs
  | _, [] => some []
  | n, c :: cs => if c.utf8Size ≤ n then dropBytes (n - c.utf8Size) cs else none

def byteSize (cs : List Char) : Nat := (cs.map Char.utf8Size).foldr (· + ·) 0

/-- Applies backspaces to clusters. `kept` are the characters so far, backwards, and `sizes` what each
backspace takes off them. -/
def eraseFrom (kept : List Char) (sizes : List Nat) : List (List Char) → Option (List Char)
  | [] => some kept.reverse
  | g :: gs =>
    if g = [backspace] then
      match sizes with
      | [] => eraseFrom kept [] gs
      | n :: sizes => (dropBytes n kept).bind fun kept ↦ eraseFrom kept sizes gs
    else eraseFrom (g.reverse ++ kept) (byteSize g % 256 :: sizes) gs

def erase? (line : String) : Option String :=
  if line.toList.contains backspace then
    (eraseFrom [] [] (clusters line.toList)).map String.ofList
  else some line

end JobShell.Text

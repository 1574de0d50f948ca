import JobShell.Program.Basic

namespace JobShell.Program

structure EscapeRules where
  hexadecimal : Bool := false
  escapeKey : Bool := false
  zeroLeads : Bool := false
  quotes : Bool := false

inductive Escape
  | byte (b : UInt8) (rest : List Char)
  | stop
  | none

def octalValue? (c : Char) : Option Nat :=
  if '0' ≤ c && c ≤ '7' then some (c.toNat - 48) else none

def hexValue? (c : Char) : Option Nat :=
  if '0' ≤ c && c ≤ '9' then some (c.toNat - 48)
  else if 'a' ≤ c && c ≤ 'f' then some (c.toNat - 87)
  else if 'A' ≤ c && c ≤ 'F' then some (c.toNat - 55)
  else none

def readDigitsUpTo (digit : Char → Option Nat) (base : Nat) : Nat → Nat → List Char → Nat × List Char
  | 0, v, cs => (v, cs)
  | _ + 1, v, [] => (v, [])
  | n + 1, v, c :: cs =>
    match digit c with
    | some d => readDigitsUpTo digit base n (base * v + d) cs
    | none => (v, c :: cs)

def octalEscape (digits : Nat) (cs : List Char) : Escape :=
  let (v, rest) := readDigitsUpTo octalValue? 8 digits 0 cs
  .byte (UInt8.ofNat v) rest

def readEscape (r : EscapeRules) : List Char → Escape
  | [] => .none
  | c :: cs =>
    match c with
    | '\\' => .byte 92 cs
    | 'a' => .byte 7 cs
    | 'b' => .byte 8 cs
    | 'c' => .stop
    | 'e' => if r.escapeKey then .byte 27 cs else .none
    | 'f' => .byte 12 cs
    | 'n' => .byte 10 cs
    | 'r' => .byte 13 cs
    | 't' => .byte 9 cs
    | 'v' => .byte 11 cs
    | '\x22' => if r.quotes then .byte 34 cs else .none
    | 'x' =>
      if r.hexadecimal && (cs.head?.bind hexValue?).isSome then
        let (v, rest) := readDigitsUpTo hexValue? 16 2 0 cs
        .byte (UInt8.ofNat v) rest
      else .none
    | '0' => if r.zeroLeads then octalEscape 3 cs else octalEscape 3 (c :: cs)
    | _ => if (octalValue? c).isSome then octalEscape 3 (c :: cs) else .none

/-- The bytes of a text with its escapes replaced, and whether it orders to stop; reads at most so many
characters. -/
def unescapeFor (r : EscapeRules) : Nat → List Char → List UInt8 × Bool
  | 0, _ => ([], false)
  | _ + 1, [] => ([], false)
  | n + 1, c :: cs =>
    if c = '\\' then
      match readEscape r cs with
      | .byte b rest =>
        let (bs, stopped) := unescapeFor r n rest
        (b :: bs, stopped)
      | .stop => ([], true)
      | .none =>
        let (bs, stopped) := unescapeFor r n cs
        (92 :: bs, stopped)
    else
      let (bs, stopped) := unescapeFor r n cs
      (c.toUInt8 :: bs, stopped)

def unescape (r : EscapeRules) (s : String) : List UInt8 × Bool :=
  unescapeFor r (s.length + 1) s.toList

def echoed (r : Option EscapeRules) (newlineWanted : Bool) (words : List String) : ByteArray :=
  let text := " ".intercalate words
  let (bs, stopped) := match r with
    | some r => unescape r text
    | none => ((Text.toBytes text).toList, false)
  ⟨(if newlineWanted && !stopped then bs ++ [newline] else bs).toArray⟩

def echoFlags : Bool → Bool → List String → Bool × Bool × List String
  | newlineWanted, escapes, [] => (newlineWanted, escapes, [])
  | newlineWanted, escapes, word :: rest =>
    match word.toList with
    | '-' :: c :: cs =>
      if (c :: cs).all "neE".toList.contains then
        let last := (c :: cs).filter (· ≠ 'n') |>.getLast?
        echoFlags (newlineWanted && !(c :: cs).contains 'n')
          (match last with
            | some 'e' => true
            | some _ => false
            | none => escapes) rest
      else (newlineWanted, escapes, word :: rest)
    | _ => (newlineWanted, escapes, word :: rest)

def echo (words : List String) : Sys Int :=
  let (newlineWanted, escapes, rest) := echoFlags true false words.tail
  let rules : EscapeRules := { hexadecimal := true, escapeKey := true, zeroLeads := true }
  finish (words.headD "echo") (echoed (if escapes then some rules else none) newlineWanted rest) 0

end JobShell.Program

import JobShell.Program.Numeral

namespace JobShell.Program.Sh.Pattern

def classes : List (String × (Char → Bool)) :=
  let isLetter (c : Char) : Bool := c.isAlpha
  let isShown (c : Char) : Bool := '!' ≤ c && c ≤ '~'
  [(":alnum:]", Char.isAlphanum), (":cntrl:]", fun c ↦ c < ' ' || c = '\x7f'), (":lower:]", Char.isLower),
    (":space:]", isSpace), (":alpha:]", isLetter), (":digit:]", Char.isDigit),
    (":print:]", fun c ↦ c = ' ' || isShown c), (":upper:]", Char.isUpper),
    (":blank:]", fun c ↦ c = ' ' || c = '\t'), (":graph:]", isShown),
    (":punct:]", fun c ↦ isShown c && !c.isAlphanum), (":xdigit:]", fun c ↦ (digitValue? 16 c).isSome)]

def classAt? (c : Char) (p : List Char) : Option (Bool × List Char) :=
  (classes.find? fun k ↦ k.1.toList.isPrefixOf p).map fun k ↦ (k.2 c, p.drop k.1.length)

def rank (c : Char) : Int := if c.toNat < 128 then c.toNat else (c.toNat : Int) - 256

/-- Reads a bracket behind its opening sign: whether it has the character, and what follows. The first
character belongs to it in any case. -/
def bracket? (c : Char) : Nat → Bool → Bool → List Char → Option (Bool × List Char)
  | 0, _, _, _ => none
  | _ + 1, _, _, [] => none
  | n + 1, isFirst, found, a :: rest =>
    if a = ']' && !isFirst then some (found, rest)
    else
      match if a = '[' then classAt? c rest else none with
      | some (has, rest) => bracket? c n false (found || has) rest
      | none =>
        let (a, rest) : Char × List Char := match a, rest with
          | '\\', b :: rest => (b, rest)
          | _, _ => (a, rest)
        let single : Option (Bool × List Char) := bracket? c n false (found || a = c) rest
        match rest with
        | '-' :: ']' :: _ => single
        | '-' :: '\\' :: b :: rest | '-' :: b :: rest =>
          bracket? c n false (found || (rank a ≤ rank c && rank c ≤ rank b)) rest
        | _ => single

/-- Whether a text fits a pattern, looking at no more than so many signs. -/
def fitsFor : Nat → List Char → List Char → Bool
  | 0, _, _ => false
  | _ + 1, [], cs => cs.isEmpty
  | n + 1, a :: p, cs =>
    let same (a : Char) (p : List Char) : Bool := match cs with
      | c :: cs => a = c && fitsFor n p cs
      | [] => false
    match a with
    | '\\' =>
      match p with
      | b :: p => same b p
      | [] => same '\\' []
    | '?' =>
      match cs with
      | _ :: cs => fitsFor n p cs
      | [] => false
    | '*' =>
      fitsFor n p cs || match cs with
        | _ :: cs => fitsFor n ('*' :: p) cs
        | [] => false
    | '[' =>
      match cs with
      | [] => false
      | c :: rest =>
        let (negated, body) : Bool × List Char := match p with
          | '!' :: p => (true, p)
          | p => (false, p)
        match bracket? c (body.length + 1) true false body with
        | some (found, after) => found != negated && fitsFor n after rest
        | none => same '[' p
    | a => same a p

def fits (p cs : List Char) : Bool := fitsFor (p.length + cs.length + 1) p cs

end JobShell.Program.Sh.Pattern

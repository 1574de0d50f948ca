import JobShell.Program.Sh.Token

namespace JobShell.Program.Sh

inductive Style
  | bare
  | double
  | single
  | arithmetic
  deriving DecidableEq

/-- A style of reading with what is open in it. `parameters` counts the parameters between braces, those
that stand in quotes also in `quotedParameters`. -/
structure Level where
  style : Style
  innerQuotes : Bool := false
  isPushed : Bool := false
  isDouble : Bool := false
  parameters : Nat := 0
  quotedParameters : Nat := 0
  parentheses : Nat := 0

inductive Opening
  | parameter (name : String) (use : Use) (orEmpty : Bool)
  | arithmetic

structure Draft where
  level : Level
  below : List Level := []
  pieces : List Piece := []
  outer : List (Opening × List Piece) := []
  quoted : Bool := false

namespace Draft

def put (w : Draft) (p : Piece) : Draft := { w with pieces := p :: w.pieces }

def plain (w : Draft) (c : Char) : Draft := w.put (.char c false)

def escaped (w : Draft) (c : Char) : Draft := w.put (.char c true)

def descend (w : Draft) (level : Level) : Draft := { w with level, below := w.level :: w.below }

def ascend (w : Draft) : Draft :=
  match w.below with
  | level :: below => { w with level, below }
  | [] => w

def enter (w : Draft) (o : Opening) : Draft :=
  { w with pieces := [], outer := (o, w.pieces) :: w.outer }

def leave (w : Draft) : Draft :=
  match w.outer with
  | [] => w
  | (o, before) :: outer =>
    let inner := w.pieces.reverse
    let piece : Piece := match o with
      | .parameter name use orEmpty => .parameter name use orEmpty inner
      | .arithmetic => .arithmetic inner
    { w with pieces := piece :: before, outer }

end Draft

def isMeaningful (c : Char) : Bool := "!*?[=~:/-]".toList.contains c

inductive Position
  | line
  | required
  | optional
  deriving DecidableEq

structure Nested where
  list : Position → Read (Option Tree)
  command : Read Tree
  inParentheses : Read Tree

def Nested.none : Nested where
  list _ := malformed "too deep"
  command := malformed "too deep"
  inParentheses := malformed "too deep"

def skipTabs : Nat → Option Char → Read (Option Char)
  | 0, c => pure c
  | n + 1, c => do if c = some '\t' then skipTabs n (← getChar) else pure c

def atLineStart (p : Option Pending) (c : Option Char) : Read (Option Char) := do
  match p with
  | none => pure c
  | some p => do
    let c ← if p.stripsTabs then skipTabs 1000000000000 c else pure c
    match (← get).source.afterLine? p.delimiter c with
    | .error e => throw e
    | .ok none => pure c
    | .ok (some source) => do
      modify fun r ↦ { r with source }
      pure none

/-- Reads the text between backquotes, the last character first. A backslash protects a few
characters. -/
def readBackquoted (inQuotes : Bool) : Nat → List Char → Read (List Char)
  | 0, acc => pure acc
  | n + 1, acc => do
    match ← getJoined with
    | none => malformed "EOF in backquote substitution"
    | some '\x60' => pure acc
    | some '\\' => do
      match ← getChar with
      | none => readBackquoted inQuotes n ('\\' :: acc)
      | some c =>
        if c = '\\' || c = '\x60' || c = '$' || (c = '\x22' && inQuotes) then
          readBackquoted inQuotes n (c :: acc)
        else readBackquoted inQuotes n (c :: '\\' :: acc)
    | some '\n' => do
      nextLine
      readBackquoted inQuotes n ('\n' :: acc)
    | some c => readBackquoted inQuotes n (c :: acc)

def readApart (g : Nested) (text : List Char) : Read Tree := do
  let r ← get
  let inner : Reader := {
    source := { rest := text }, serial := r.serial, documents := r.documents, aliases := r.aliases }
  match (g.list .optional).run inner with
  | .error e => throw e
  | .ok (t, inner) => do
    set { r with serial := inner.serial, documents := inner.documents }
    pure (t.getD .nothing)

def useOf? : Option Char → Option Use
  | some '\x7d' => some .value
  | some '-' => some .default
  | some '+' => some .alternative
  | some '?' => some .demand
  | some '=' => some .assign
  | _ => none

def takeName (belongs : Char → Bool) : Nat → Option Char → List Char → Read (String × Option Char)
  | 0, c, acc => pure (String.ofList acc.reverse, c)
  | n + 1, c, acc => do
    match c with
    | some d =>
      if belongs d then takeName belongs n (← getJoined) (d :: acc)
      else pure (String.ofList acc.reverse, c)
    | none => pure (String.ofList acc.reverse, none)

/-- Reads the name of a parameter and what is done with it. Without braces nothing is. `c` is the first
character of the name. -/
def readParameter (braced : Bool) (c : Option Char) : Read (String × Use × Bool) := do
  let named (length : Bool) (c : Option Char) : Read (String × Use × Bool) := do
    let (name, c) ←
      if c.any isNameStart then takeName isNameChar 1000000000000 c []
      else if braced then takeName Decimal.isDigit 1000000000000 c []
      else pure (String.ofList c.toList, ← getJoined)
    if length then do
      putBack c
      pure (name, .length, false)
    else if braced then used name c
    else do
      putBack c
      pure (name, .value, false)
  if c.any isNameStart || c.any Decimal.isDigit then named false c
  else if c = some '\x7d' then do
    putBack c
    pure ("", .senseless, false)
  else
    let d ← getJoined
    if braced && c = some '#' then
      if d.any fun d ↦ d = '_' || d.isAlphanum then named true d
      else
        let e ← getJoined
        if d = some '\x7d' || e ≠ some '\x7d' then do
          putBack e
          used "#" d
        else if d.any isSpecialParameter then do
          putBack e
          pure (String.ofList d.toList, .length, false)
        else do
          putBack e
          pure ("", .senseless, false)
    else if c.any isSpecialParameter then
      if braced then used (String.ofList c.toList) d
      else do
        putBack d
        pure (String.ofList c.toList, .value, false)
    else do
      putBack d
      pure ("", .senseless, false)
where
  used (name : String) (c : Option Char) : Read (String × Use × Bool) := do
    if c = some '%' || c = some '#' then
      let d ← getJoined
      let longest : Bool := d = c
      if !longest then putBack d
      pure (name, if c = some '#' then .cutFront longest else .cutBack longest, false)
    else
      let orEmpty : Bool := c = some ':'
      let c ← if orEmpty then getJoined else pure c
      pure (name, (useOf? c).getD .senseless, orEmpty)

def readDollar (g : Nested) (w : Draft) : Read Draft := do
  let c ← getJoined
  let begins : Bool := c.any fun c ↦ c = '(' || c = '\x7b' || isNameStart c || isSpecialParameter c
  if (← get).checks.delimiter || !begins then do
    putBack c
    pure (w.plain '$')
  else if c = some '(' then
    let d ← getJoined
    if d = some '(' then
      pure ((w.descend { style := .arithmetic, isDouble := true }).enter .arithmetic)
    else do
      putBack d
      let pending := (← get).pending
      modify fun r ↦ { r with pending := [] }
      let t ← g.inParentheses
      modify fun r ↦ { r with pending }
      pure (w.put (.command t))
  else
    let braced : Bool := c = some '\x7b'
    let c ← if braced then getJoined else pure c
    let (name, use, orEmpty) ← readParameter braced c
    if use = .value && !orEmpty then pure (w.put (.parameter name use false []))
    else
      let style := match use with
        | .cutFront _ | .cutBack _ => .bare
        | _ => if w.level.style = .arithmetic then .double else w.level.style
      let w := if style ≠ w.level.style || w.level.innerQuotes then
          w.descend { style, isPushed := true, isDouble := style != .bare }
        else w
      let level := { w.level with
        parameters := w.level.parameters + 1
        quotedParameters := w.level.quotedParameters + (if w.level.isDouble then 1 else 0) }
      pure ({ w with level }.enter (.parameter name use orEmpty))

def closeBrace (w : Draft) : Draft :=
  let l := w.level
  if !l.innerQuotes && l.parameters > 0 then
    let w := w.leave
    let l := { l with parameters := l.parameters - 1 }
    if l.parameters = 0 && l.isPushed then w.ascend
    else { w with level := { l with quotedParameters := l.quotedParameters - 1 } }
  else w.plain '\x7d'

def readEscaped (p : Option Pending) (w : Draft) : Read Draft := do
  match ← getChar with
  | none => pure (w.escaped '\\')
  | some c =>
    let open_ := w.level.parameters > 0
    let keeps := w.level.isDouble && c ≠ '\\' && c ≠ '\x60' && c ≠ '$'
      && (c ≠ '\x22' || (p.isSome && !open_)) && (c ≠ '\x7d' || !open_)
    let w := if keeps then w.escaped '\\' else w
    pure { w.escaped c with quoted := true }

def closeQuote (p : Option Pending) (c : Char) (w : Draft) : Draft :=
  let l := w.level
  if p.isSome && l.parameters = 0 then w.plain c
  else
    let l := if l.quotedParameters = 0 then { l with style := .bare, isDouble := false } else l
    let l := if c = '\x22' && l.parameters > 0 then { l with innerQuotes := !l.innerQuotes } else l
    let w := { w with level := l, quoted := true }
    if p.isNone then w.put .quote else w

def openQuote (p : Option Pending) (style : Style) (w : Draft) : Draft :=
  let l := { w.level with style }
  let l := if style = .double then
      { l with isDouble := true, innerQuotes := if l.parameters > 0 then !l.innerQuotes else l.innerQuotes }
    else l
  let w := { w with level := l }
  if p.isNone then w.put .quote else w

def closeParenthesis (w : Draft) : Read Draft := do
  if w.level.parentheses > 0 then
    pure { w.plain ')' with level := { w.level with parentheses := w.level.parentheses - 1 } }
  else
    let c ← getJoined
    if c = some ')' then pure w.leave.ascend
    else do
      putBack c
      pure (w.plain ')')

/-- Reads one character, which has been taken. None is left of the word where it ends. -/
def readCharacter (g : Nested) (p : Option Pending) (c : Option Char) (w : Draft) :
    Read (Option Draft) := do
  let l := w.level
  match c with
  | none => pure none
  | some c =>
    if c = '\n' then
      if l.style = .bare && l.parameters = 0 then pure none
      else do
        nextLine
        return some (w.plain c)
    else
      match l.style with
      | .single =>
        if c = '\x27' then return some (closeQuote p c w)
        else
          let escapes := (isMeaningful c || c = '\\') && (p.isNone || l.isDouble || l.parameters > 0)
          return some (if escapes then w.escaped c else w.plain c)
      | .double =>
        match c with
        | '\x22' => return some (closeQuote p c w)
        | _ => shared c
      | .bare =>
        match c with
        | '\x22' => return some (openQuote p .double w)
        | '\x27' => return some (openQuote p .single w)
        | _ =>
          if l.parameters = 0 && "<>();&| \t".toList.contains c then pure none else shared c
      | .arithmetic =>
        match c with
        | '(' => return some { w.plain c with level := { l with parentheses := l.parentheses + 1 } }
        | ')' => some <$> closeParenthesis w
        | _ => shared c
where
  shared (c : Char) : Read (Option Draft) := do
    match c with
    | '\\' => some <$> readEscaped p w
    | '$' => some <$> readDollar g w
    | '\x7d' => return some (closeBrace w)
    | '\x60' =>
      if (← get).checks.delimiter then return some { w.plain c with quoted := true }
      else
        let text ← readBackquoted w.level.isDouble 1000000000000 []
        return some (w.put (.command (← readApart g text.reverse)))
    | _ => return some (if w.level.style = .double && isMeaningful c then w.escaped c else w.plain c)

def readCharacters (g : Nested) (p : Option Pending) : Nat → Option Char → Draft →
    Read (Option Char × Draft)
  | 0, c, w => pure (c, w)
  | n + 1, c, w => do
    match ← readCharacter g p c w with
    | none => pure (c, w)
    | some w => do
      let next ← if w.level.style = .single then getChar else getJoined
      let next ← if c = some '\n' then atLineStart p next else pure next
      readCharacters g p n next w

def readWord (g : Nested) (p : Option Pending) (style : Style) (c : Option Char) :
    Read (Option Char × Draft) := do
  let c ← atLineStart p c
  let level : Level := { style, isDouble := style = .double }
  let (c, w) ← readCharacters g p 1000000000000 c { level }
  if w.level.style = .arithmetic then malformed "Missing '))'"
  if w.level.style ≠ .bare && p.isNone then malformed "Unterminated quoted string"
  if w.level.parameters ≠ 0 then malformed "Missing '\x7d'"
  pure (c, w)

end JobShell.Program.Sh

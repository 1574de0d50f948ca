import JobShell.Program.Sh.Word

namespace JobShell.Program.Sh

def readingLimit : Nat := 1000000000000

def skipComment : Nat → Read Unit
  | 0 => pure ()
  | n + 1 => do
    match ← getChar with
    | none => pure ()
    | some '\n' => putBack (some '\n')
    | some _ => skipComment n

def readOperator (c : Char) : Read Token := do
  let d ← getJoined
  if d = some c then pure (.operator (String.ofList [c, c]))
  else do
    putBack d
    pure (.operator (String.singleton c))

/-- The operator of a redirection, whose first character has been taken. -/
def readRedirectOperator (c : Char) : Read String := do
  let d ← getJoined
  if c = '>' then
    match d with
    | some '>' => pure ">>"
    | some '|' => pure ">|"
    | some '&' => pure ">&"
    | _ => do
      putBack d
      pure ">"
  else
    match d with
    | some '<' => do
      let e ← getJoined
      if e = some '-' then pure "<<-"
      else do
        putBack e
        pure "<<"
    | some '&' => pure "<&"
    | some '>' => pure "<>"
    | _ => do
      putBack d
      pure "<"

/-- Reads a word, or a redirection, which may have the number of a descriptor in front. -/
def readWordToken (g : Nested) (c : Option Char) : Read Token := do
  let (c, w) ← readWord g none .bare c
  let fd? : Option (Option Nat) :=
    if w.quoted then none
    else
      match w.pieces with
      | [] => some none
      | [.char d false] => if Decimal.isDigit d then some (some (d.toNat - 48)) else none
      | _ => none
  match c, fd? with
  | some '<', some fd => return .redirect fd (← readRedirectOperator '<')
  | some '>', some fd => return .redirect fd (← readRedirectOperator '>')
  | _, _ => do
    putBack c
    pure (.word w.pieces.reverse w.quoted)

/-- Reads a token behind blanks and comments. -/
def readTokenFor (g : Nested) : Nat → Read Token
  | 0 => pure .finish
  | n + 1 => do
    match ← getJoined with
    | none => pure .finish
    | some ' ' | some '\t' => readTokenFor g n
    | some '#' => do
      skipComment readingLimit
      readTokenFor g n
    | some '\n' => do
      nextLine
      pure .newline
    | some '&' => readOperator '&'
    | some '|' => readOperator '|'
    | some ';' => readOperator ';'
    | some '(' => pure (.operator "(")
    | some ')' => pure (.operator ")")
    | c => readWordToken g c

def nextToken (g : Nested) : Read Token := do
  let r ← get
  if r.isBack then do
    set { r with isBack := false }
    pure r.last
  else
    let t ← readTokenFor g readingLimit
    modify fun r ↦ { r with last := t }
    pure t

def readDocument (g : Nested) (p : Pending) : Read Unit := do
  let c ← if p.expands then getJoined else getChar
  let (_, w) ← readWord g (some p) (if p.expands then .double else .single) c
  modify fun r ↦ { r with documents := ⟨p.number, p.expands, w.pieces.reverse⟩ :: r.documents }

def readDocuments (g : Nested) : Read Unit := do
  let ps := (← get).pending
  modify fun r ↦ { r with pending := [] }
  ps.forM (readDocument g)

def skipNewlines (g : Nested) : Nat → Token → Read Token
  | 0, t => pure t
  | n + 1, t => do
    match t with
    | .newline => do
      readDocuments g
      skipNewlines g n (← nextToken g)
    | t => pure t

/-- Reads a token as the checks ask for. The text of an alias is read in place of it. -/
def readTokenWith (g : Nested) : Nat → Checks → Read Token
  | 0, _ => pure .finish
  | n + 1, checks => do
    let t ← nextToken g
    let t ← if checks.newlines then skipNewlines g readingLimit t else pure t
    let r ← get
    let checks := { checks with
      reserved := checks.reserved || r.checks.reserved
      aliases := checks.aliases || r.checks.aliases }
    modify fun r ↦ { r with checks := {} }
    match t with
    | .word w false =>
      match plainText? w with
      | none => pure t
      | some cs =>
        let text := String.ofList cs
        if checks.reserved && reservedWords.contains text then do
          modify fun r ↦ { r with last := .reserved text }
          pure (.reserved text)
        else
          match if checks.aliases then r.aliases.find? fun a ↦ a.1 == text else none with
          | some (name, value) =>
            if r.source.isBusy name then pure t
            else do
              modify fun r ↦ { r with source := r.source.push name value.toList }
              readTokenWith g n checks
          | none => pure t
    | t => pure t

def readToken (g : Nested) : Read Token := do readTokenWith g readingLimit (← get).checks

def unexpected {α : Type} (expected : Option String) : Read α := do
  malformed ((← get).last.shown ++ " unexpected" ++ match expected with
    | some e => " (expecting " ++ e ++ ")"
    | none => "")

def quoted (text : String) : String := "\x22" ++ text ++ "\x22"

def demandOperator (g : Nested) (text : String) : Read Unit := do
  if !(← readToken g).isOperator text then unexpected (some (quoted text))

def demand (g : Nested) (r : String) : Read Unit := do
  if !(← readToken g).isReserved r then unexpected (some (quoted r))

def copyOf (w : Word) : Channel Word :=
  match w with
  | [.char '-' false] => .close
  | [.char c false] => if Decimal.isDigit c then .copy (c.toNat - 48) else .copyNamed w
  | _ => .copyNamed w

def readRedirect (g : Nested) (fd : Option Nat) (op : String) : Read (Redirect Word) := do
  let isDocument := op.startsWith "<<"
  if isDocument then check { delimiter := true }
  match ← readToken g with
  | .word w wasQuoted =>
    let out := fd.getD 1
    let in_ := fd.getD 0
    match op with
    | "<" => pure ⟨in_, .input w⟩
    | ">" => pure ⟨out, .output w false⟩
    | ">|" => pure ⟨out, .output w true⟩
    | ">>" => pure ⟨out, .append w⟩
    | "<>" => pure ⟨in_, .both w⟩
    | ">&" => pure ⟨out, copyOf w⟩
    | "<&" => pure ⟨in_, copyOf w⟩
    | _ => do
      let r ← get
      let p : Pending := ⟨r.serial, literalText w, !wasQuoted, op == "<<-"⟩
      set { r with serial := r.serial + 1, pending := r.pending ++ [p] }
      pure ⟨in_, .document r.serial⟩
  | _ => unexpected none

def readRedirects (g : Nested) : Nat → Read (List (Redirect Word))
  | 0 => pure []
  | n + 1 => do
    match ← readToken g with
    | .redirect fd op => do
      let r ← readRedirect g fd op
      return r :: (← readRedirects g n)
    | _ => do
      putTokenBack
      pure []

structure Simple where
  assignments : List (String × Word) := []
  words : List Word := []
  redirects : List (Redirect Word) := []

def specialNames : List String :=
  [".", ":", "break", "continue", "eval", "exec", "exit", "export", "local", "readonly", "return", "set",
    "shift", "times", "trap", "unset"]

def mayName (name : String) : Bool := isName name && !specialNames.contains name

/-- Reads the parts of a simple command, at most so many, or the body of a function. -/
def readSimple (g : Nested) (line : Nat) : Nat → Simple → Read Tree
  | 0, _ => pure .nothing
  | n + 1, c => do
    check { aliases := c.words.isEmpty }
    match ← readToken g with
    | .word w _ =>
      match if c.words.isEmpty then assignment? w else none with
      | some a => readSimple g line n { c with assignments := a :: c.assignments }
      | none => readSimple g line n { c with words := w :: c.words }
    | .redirect fd op => do
      let r ← readRedirect g fd op
      readSimple g line n { c with redirects := r :: c.redirects }
    | t => do
      match t, c with
      | .operator "(", ⟨[], [w], []⟩ => do
        demandOperator g ")"
        match plainText? w with
        | none => malformed "Bad function name"
        | some cs =>
          let name := String.ofList cs
          if !mayName name then malformed "Bad function name"
          check { newlines := true, reserved := true, aliases := true }
          return .define name (← g.command)
      | _, _ => do
        putTokenBack
        pure (.simple line c.assignments.reverse c.words.reverse c.redirects.reverse)

def readLoopWords (g : Nested) : Nat → Read (List Word)
  | 0 => pure []
  | n + 1 => do
    match ← readToken g with
    | .word w _ => return w :: (← readLoopWords g n)
    | .newline => pure []
    | t => if t.isOperator ";" then pure [] else unexpected none

def readPatterns (g : Nested) : Nat → Token → Read (List Word)
  | 0, _ => pure []
  | n + 1, t => do
    let w : Word := match t with
      | .word w _ => w
      | .reserved r => r.toList.map (.char · false)
      | _ => []
    let t ← readToken g
    if t.isOperator "|" then return w :: (← readPatterns g n (← readToken g))
    else if t.isOperator ")" then pure [w]
    else unexpected (some "\x22)\x22")

def readCases (g : Nested) : Nat → Read (List (List Word × Tree))
  | 0 => pure []
  | n + 1 => do
    check { newlines := true, reserved := true }
    let t ← readToken g
    if t.isReserved "esac" then pure []
    else
      let t ← if t.isOperator "(" then readToken g else pure t
      let patterns ← readPatterns g readingLimit t
      let body := (← g.list .optional).getD .nothing
      check { newlines := true, reserved := true }
      let t ← readToken g
      if t.isReserved "esac" then pure [(patterns, body)]
      else if t.isOperator ";;" then return (patterns, body) :: (← readCases g n)
      else unexpected (some "\x22;;\x22")

def readBlock (g : Nested) : Read Tree := return (← g.list .required).getD .nothing

def readBranches (g : Nested) : Nat → Read (Option Tree)
  | 0 => pure none
  | n + 1 => do
    let t ← readToken g
    if t.isReserved "elif" then do
      let condition ← readBlock g
      demand g "then"
      let yes ← readBlock g
      return some (.branch condition yes (← readBranches g n))
    else if t.isReserved "else" then return some (← readBlock g)
    else do
      putTokenBack
      pure none

/-- Reads a loop over words, behind its first word. -/
def readEach (g : Nested) (line : Nat) : Read Tree := do
  let name ← match ← readToken g with
    | .word w false =>
      match (plainText? w).map String.ofList with
      | some name => if isName name then pure name else malformed "Bad for loop variable"
      | none => malformed "Bad for loop variable"
    | _ => malformed "Bad for loop variable"
  check { newlines := true, reserved := true, aliases := true }
  let t ← readToken g
  let words ← if t.isReserved "in" then some <$> readLoopWords g readingLimit
    else do
      if !t.isOperator ";" then putTokenBack
      pure none
  check { newlines := true, reserved := true, aliases := true }
  demand g "do"
  let body ← readBlock g
  demand g "done"
  pure (.each line name words body)

def readChoice (g : Nested) (line : Nat) : Read Tree := do
  match ← readToken g with
  | .word subject _ => do
    check { newlines := true, reserved := true, aliases := true }
    demand g "in"
    return .choice line subject (← readCases g readingLimit)
  | _ => unexpected (some "word")

def readCommand (g : Nested) : Read Tree := do
  let before := (← get).source.line
  let t ← readToken g
  let compound (t : Tree) : Read Tree := do
    check { reserved := true, aliases := true }
    let redirects ← readRedirects g readingLimit
    pure (if redirects.isEmpty then t
      else
        match t with
        | .subshell t line _ => .subshell t line redirects
        | t => .redirected t before redirects)
  match t with
  | .word _ _ | .redirect _ _ => do
    putTokenBack
    readSimple g (← get).source.line readingLimit {}
  | .operator "(" => do
    let t ← readBlock g
    demandOperator g ")"
    compound (.subshell t before [])
  | .reserved "\x7b" => do
    let t ← readBlock g
    demand g "\x7d"
    compound t
  | .reserved "if" => do
    let condition ← readBlock g
    demand g "then"
    let yes ← readBlock g
    let no ← readBranches g readingLimit
    demand g "fi"
    compound (.branch condition yes no)
  | .reserved "while" | .reserved "until" => do
    let condition ← readBlock g
    demand g "do"
    let body ← readBlock g
    demand g "done"
    compound (.loop (t.isReserved "until") condition body)
  | .reserved "for" => do compound (← readEach g before)
  | .reserved "case" => do compound (← readChoice g before)
  | _ => unexpected none

def readStages (g : Nested) : Nat → Read (List Tree)
  | 0 => pure []
  | n + 1 => do
    if (← readToken g).isOperator "|" then
      check { newlines := true, reserved := true, aliases := true }
      let t ← readCommand g
      return t :: (← readStages g n)
    else do
      putTokenBack
      pure []

def readPipeline (g : Nested) : Read Tree := do
  let negated := (← readToken g).isReserved "!"
  if negated then check { reserved := true, aliases := true } else putTokenBack
  let first ← readCommand g
  let rest ← readStages g readingLimit
  let t := if rest.isEmpty then first else .pipeline (first :: rest)
  pure (if negated then .negated t else t)

def readAndOr (g : Nested) : Nat → Tree → Read Tree
  | 0, t => pure t
  | n + 1, t => do
    let op ← readToken g
    if op.isOperator "&&" || op.isOperator "||" then
      check { newlines := true, reserved := true, aliases := true }
      let u ← readPipeline g
      readAndOr g n (if op.isOperator "&&" then .both t u else .either t u)
    else do
      putTokenBack
      pure t

def inBackground (line : Nat) : Tree → Tree
  | .redirected t line redirects => .background t line redirects
  | t => .background t line []

def followedBy : Option Tree → Tree → Tree
  | none, t => t
  | some t, u => .next t u

/-- Reads a list of commands, of which some have been read. -/
def readList (g : Nested) (p : Position) : Nat → Option Tree → Read (Option Tree)
  | 0, t => pure t
  | n + 1, t => do
    check { newlines := p ≠ .line, reserved := true, aliases := true }
    match ← readToken g with
    | .newline => do
      readDocuments g
      pure (some (t.getD .nothing))
    | .finish => atEnd (if p = .line then t else some (t.getD .nothing))
    | next => do
      putTokenBack
      if p ≠ .line && (t.isSome || p = .optional) && next.endsList then pure t
      else
        let first ← readPipeline g
        let u ← readAndOr g readingLimit first
        let line := (← get).source.line
        let next ← readToken g
        let t := some (followedBy t (if next.isOperator "&" then inBackground line u else u))
        match next with
        | .finish => atEnd t
        | .newline => do
          putTokenBack
          readList g p n t
        | next =>
          if next.isOperator "&" || next.isOperator ";" then readList g p n t
          else if p = .line then unexpected none
          else do
            putTokenBack
            pure t
where
  atEnd (t : Option Tree) : Read (Option Tree) := do
    readDocuments g
    modify fun r ↦ { r with last := .finish, isBack := true }
    pure t

def readParenthesized (g : Nested) : Read Tree := do
  let t ← readList g .optional readingLimit none
  demandOperator g ")"
  let source := (← get).source
  modify fun r ↦ { r with source := { rest := [], line := source.line } }
  readDocuments g
  modify fun r ↦ { r with source }
  pure (t.getD .nothing)

def nested : Nat → Nested
  | 0 => .none
  | n + 1 => {
    list := fun p ↦ readList (nested n) p readingLimit none
    command := fun r ↦ readCommand (nested n) r
    inParentheses := fun r ↦ readParenthesized (nested n) r }

inductive Complete
  | finished
  | command (t : Tree) (last : Bool)

def Reader.next (r : Reader) : Except Stop (Complete × Reader) := do
  let r := { r with isBack := false, checks := {}, pending := [] }
  match ← (readList (nested readingLimit) .line readingLimit none).run r with
  | (none, r) => .ok (.finished, r)
  | (some t, r) =>
    let last : Bool := r.isBack && match r.last with
      | .finish => true
      | _ => false
    .ok (.command t last, r)

end JobShell.Program.Sh

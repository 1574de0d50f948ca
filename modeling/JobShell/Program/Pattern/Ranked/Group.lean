import JobShell.Program.Pattern.Ranked.Reader

namespace JobShell.Program.Pattern.Ranked

inductive Opened
  | item (p : Pattern)
  | flags (f : Flags)

def close : Reader Unit := do
  if !(← takes 41) then fail .openGroup

/-- Reads flags up to a colon or the closing parenthesis. -/
def readFlags (f : Flags) (on : Bool) (turned : Bool) : List UInt8 → Reader (Flags × Bool)
  | [] => fail .openGroup
  | c :: cs => do
    let next (f : Flags) := readFlags f on turned cs
    match c with
    | 41 => do
      goTo cs
      pure (f, true)
    | 58 => do
      goTo cs
      pure (f, false)
    | 45 => if turned then fail .badHyphen else readFlags f false true cs
    | 105 => next { f with ignoreCase := on }
    | 109 => next { f with multiLine := on }
    | 115 => next { f with dotAll := on }
    | 110 => next { f with unnumbered := on }
    | 85 => next { f with turned := on }
    | 74 => next f
    | 120 =>
      match cs with
      | 120 :: _ => next { f with free := on, freeInClass := on }
      | _ => next { f with free := on, freeInClass := f.freeInClass && on }
    | _ => fail .unknownFlag

def readCounted (inner : Flags → Reader (List Pattern)) (f : Flags) (name : Option (List UInt8)) :
    Reader Opened := do
  let number := (← get).groups + 1
  modify fun s ↦ { s with groups := number }
  match name with
  | some name =>
    if (← get).names.any fun n ↦ n.1 = name && n.2 ≠ number then fail .sameName
    modify fun s ↦ { s with names := (name, number) :: s.names }
  | none => pure ()
  let p := oneOf (← inner f)
  close
  modify fun s ↦ { s with lengths := (number, p.fixedLength? s.length?) :: s.lengths }
  pure (.item (group number p))

def readLook (inner : Flags → Reader (List Pattern)) (f : Flags) (isAhead is : Bool) :
    Reader Opened := do
  let before := (← get).doubts.length
  let ps ← inner { f with looking := true }
  close
  if isAhead then pure (.item (ahead is (oneOf ps)))
  else
    let s ← get
    if ps.any fun p ↦ (p.fixedLength? s.length?).isNone then
      let inside := s.doubts.take (s.doubts.length - before)
      set { s with varying := inside :: s.varying }
    pure (.item (behind is (oneOf ps)))

def readBranches (inner : Flags → Reader (List Pattern)) (f : Flags) (condition : Pattern) :
    Reader Opened := do
  let ps ← inner f
  close
  match ps with
  | [p] => pure (.item (whether condition p nothing))
  | [p, q] => pure (.item (whether condition p q))
  | _ => do
    doubt (.fault .manyBranches)
    pure (.item never)

/-- Reads a condition and its branches from behind the second parenthesis. -/
def readCondition (inner : Flags → Reader (List Pattern)) (f : Flags) : Reader Opened := do
  let look (isAhead is : Bool) (cs : List UInt8) : Reader Opened := do
    goTo cs
    match ← readLook inner f isAhead is with
    | .item condition => readBranches inner f condition
    | .flags _ => fail .openCondition
  let named (ending : UInt8) (cs : List UInt8) : Reader Pattern := do
    goTo cs
    match ← referToName f (← readName ending) with
    | again n _ => pure (caught n)
    | p => pure p
  let finish (condition : Pattern) : Reader Opened := do
    if !(← takes 41) then fail .openCondition
    readBranches inner f condition
  match ← rest with
  | [] => fail .openGroup
  | 63 :: 61 :: cs => look true true cs
  | 63 :: 33 :: cs => look true false cs
  | 63 :: 60 :: 61 :: cs => look false true cs
  | 63 :: 60 :: 33 :: cs => look false false cs
  | 60 :: cs => do finish (← named 62 cs)
  | 39 :: cs => do finish (← named 39 cs)
  | 68 :: 69 :: 70 :: 73 :: 78 :: 69 :: 41 :: cs => do
    goTo cs
    readBranches inner f never
  | 82 :: 41 :: cs => do
    goTo cs
    readBranches inner f never
  | cs =>
    match ← readNumber with
    | some n => do
      let _ ← referTo f n
      finish (caught n)
    | none => do
      goTo cs
      return ← readBranches inner f (← named 41 cs)

def readVerb (cs : List UInt8) : Reader Opened := do
  let verb := cs.takeWhile (· ≠ 41)
  match cs.drop verb.length with
  | [] => fail .unknownVerb
  | _ :: after => do
    if (verb.head?.map ByteClass.isLower).getD true then fail .unknownVerb
    goTo after
    match String.ofList (verb.map Char.ofUInt8) with
    | "F" | "FAIL" => pure (.item never)
    | _ => pure (.item nothing)

def readCall (f : Flags) (byName : Bool) (cs : List UInt8) : Reader Opened := do
  goTo cs
  if byName then
    let _ ← referToName f (← readName 41)
  else
    match ← readNumber with
    | some n => do
      if n ≠ 0 || cs.head? ≠ some 48 then
        let _ ← referTo f n
      close
    | none => fail .unknownFlag
  pure (.item never)

/-- Reads what an opening parenthesis begins; `inner` reads the alternatives of a group, `reset` those
that count their groups from the same number. -/
def readOpened (inner reset : Flags → Reader (List Pattern)) (f : Flags) : Reader Opened := do
  let grouped (cs : List UInt8) (wrap : Pattern → Pattern) : Reader Opened := do
    goTo cs
    let ps ← inner f
    close
    pure (.item (wrap (oneOf ps)))
  let look (isAhead is : Bool) (cs : List UInt8) : Reader Opened := do
    goTo cs
    readLook inner f isAhead is
  let named (ending : UInt8) (cs : List UInt8) : Reader Opened := do
    goTo cs
    let name ← readName ending
    readCounted inner f (some name)
  match ← rest with
  | 42 :: c :: cs =>
    if ByteClass.isAlpha c then readVerb (c :: cs) else readCounted inner f none
  | 63 :: cs =>
    match cs with
    | 58 :: cs => grouped cs id
    | 62 :: cs => grouped cs first
    | 124 :: cs => do
      goTo cs
      let ps ← reset f
      close
      pure (.item (oneOf ps))
    | 61 :: cs => look true true cs
    | 33 :: cs => look true false cs
    | 60 :: 61 :: cs => look false true cs
    | 60 :: 33 :: cs => look false false cs
    | 60 :: cs => named 62 cs
    | 39 :: cs => named 39 cs
    | [80] => fail .openGroup
    | 80 :: 60 :: cs => named 62 cs
    | 80 :: 61 :: cs => do
      goTo cs
      return .item (← referToName f (← readName 41))
    | 80 :: 62 :: cs => readCall f true cs
    | 80 :: _ => fail .unknownNaming
    | 38 :: cs => readCall f true cs
    | 82 :: 41 :: cs => do
      goTo cs
      pure (.item never)
    | 40 :: cs => do
      goTo cs
      readCondition inner f
    | 67 :: cs => do
      goTo (cs.dropWhile ByteClass.isDigit)
      close
      pure (.item nothing)
    | [] => fail .openGroup
    | 94 :: cs => do
      let (g, done) ← readFlags { looking := f.looking, turned := f.turned } true true cs
      if done then pure (.flags g) else openFlagged g
    | c :: d :: rest =>
      if ByteClass.isDigit c || ((c = 43 || c = 45) && ByteClass.isDigit d) then
        readCall f false (c :: d :: rest)
      else do
        let (g, done) ← readFlags f true false (c :: d :: rest)
        if done then pure (.flags g) else openFlagged g
    | cs => do
      let (g, done) ← readFlags f true false cs
      if done then pure (.flags g) else openFlagged g
  | _ =>
    if f.unnumbered then grouped (← rest) id else readCounted inner f none
where
  openFlagged (g : Flags) : Reader Opened := do
    let ps ← inner g
    close
    pure (.item (oneOf ps))

end JobShell.Program.Pattern.Ranked

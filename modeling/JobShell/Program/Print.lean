import JobShell.Program.Directive

namespace JobShell.Program.Print

structure Progress where
  name : String
  words : List String
  failed : Bool := false

abbrev Printing := StateT Progress Held

def say (cs : List Char) : Printing Unit := liftM (Held.say (String.ofList cs))

def blame (text : String) : Printing Unit := do
  let p ← get
  liftM (Held.blame (p.name ++ ": " ++ text))

def refuse {α : Type} (text : String) : Printing α := do
  blame text
  liftM (Held.leave 1 : Held α)

def next? : Printing (Option String) := do
  let p ← get
  match p.words with
  | [] => pure none
  | w :: ws => do
    set { p with words := ws }
    pure (some w)

def fault (text : String) : Printing Unit := do
  blame text
  modify fun p ↦ { p with failed := true }

def number {α : Type} (ofByte : Nat → α) (take : String → Taken α) (word : String) : Printing α := do
  match word.toList with
  | q :: c :: rest =>
    if q = '\x27' || q = '\x22' then do
      if !rest.isEmpty then
        blame ("warning: " ++ String.ofList rest
          ++ ": character(s) following character constant have been ignored")
      pure (ofByte c.toNat)
    else plain
  | _ => plain
where
  plain : Printing α := do
    let t := take word
    if t.outside then fault (quote word ++ ": Numerical result out of range")
    else if !t.complete then
      fault (quote word ++
        if t.begun then ": value not completely converted" else ": expected a numeric value")
    pure t.value

def integer (word : String) : Printing Int := number Int.ofNat Taken.signed word

def takeReal (word : String) : Taken Floating :=
  Taken.ofRead (.finite false 0 0) word (Precision.extended.read word.toList)

def bounded (what word : String) (n : Int) : Printing Int := do
  if 2147483647 < n then refuse ("invalid " ++ what ++ ": " ++ quote word) else pure n

def starred (what : String) (s : Size) : Printing Int := do
  match s with
  | .star =>
    match ← next? with
    | some word => do
      let n ← bounded what word (← integer word)
      if n < -2147483648 && what = "field width" then
        refuse ("invalid " ++ what ++ ": " ++ quote word)
      else pure n
    | none => pure 0
  | _ => pure 0

def allows (s : Spec) (letter : Char) : Bool :=
  let barred : List Char :=
    (if s.flags.any "I\x27".toList.contains then "aAceEosxX".toList else []) ++
    (if s.flags.contains '#' then "cdisu".toList else []) ++
    (if s.flags.contains '0' then "cs".toList else []) ++
    (if s.precision matches .absent then [] else ['c'])
  "aAcdeEfFgGiosuxX".toList.contains letter && !barred.contains letter

def isReal (letter : Char) : Bool := "aAeEfFgG".toList.contains letter

def convert (d : Directive) (letter : Char) : Printing Unit := do
  let word := (← next?).getD ""
  if letter = 's' then say (d.text word.toList)
  else if letter = 'c' then say (d.pad [word.toList.headD '\x00'])
  else if letter = 'd' || letter = 'i' then do
    let n ← integer word
    say (d.signed n)
  else if isReal letter then do
    let ofByte (n : Nat) : Floating := (Precision.extended.round false n 1).1
    let x ← number ofByte takeReal word
    say (d.real .extended letter x)
  else do
    let n ← number id Taken.unsigned word
    say (d.unsigned letter n)

def universal (mark : Char) (digits : Nat) (cs : List Char) : Printing (List Char) := do
  let ds := cs.take digits
  if ds.length < digits || !ds.all (fun c ↦ (hexValue? c).isSome) then
    refuse "missing hexadecimal number in escape"
  else do
    let n := (readDigits 16 0 ds).1
    if 0xd800 ≤ n && n ≤ 0xdfff then
      refuse ("invalid universal character name \\" ++ String.ofList (mark :: ds.map Char.toLower))
    else do
      let shown := (Nat.toDigits 16 n).map Char.toUpper
      if n < 128 then say [Char.ofNat n]
      else if n < 65536 then say ('\\' :: 'u' :: Floating.fillDigits 4 shown)
      else say ('\\' :: 'U' :: Floating.fillDigits 8 shown)
      pure (cs.drop digits)

def escaped (zeroLeads : Bool) (cs : List Char) : Printing (List Char) := do
  match cs with
  | 'x' :: rest =>
    if !(rest.head?.bind hexValue?).isSome then refuse "missing hexadecimal number in escape"
    else print
  | 'u' :: rest => universal 'u' 4 rest
  | 'U' :: rest => universal 'U' 8 rest
  | _ => print
where
  print : Printing (List Char) := do
    match readEscape { hexadecimal := true, escapeKey := true, quotes := true, zeroLeads } cs with
    | .byte b rest => do
      say [Char.ofUInt8 b]
      pure rest
    | .stop => liftM (Held.leave 0 : Held (List Char))
    | .none => do
      say ('\\' :: cs.take 1)
      pure (cs.drop 1)

def unescaped : Nat → List Char → Printing Unit
  | 0, _ => pure ()
  | _ + 1, [] => pure ()
  | n + 1, c :: cs => do
    if c = '\\' then do
      let rest ← escaped true cs
      unescaped n rest
    else do
      say [c]
      unescaped n cs

/-- Prints the directive behind a percent sign, and gives what follows it. -/
def directive (cs : List Char) : Printing (List Char) := do
  match cs with
  | '%' :: rest => do
    say ['%']
    pure rest
  | 'b' :: rest => do
    let word := (← next?).getD ""
    unescaped (word.length + 1) word.toList
    pure rest
  | 'q' :: rest => do
    match ← next? with
    | some word => say (fileName word).toList
    | none => pure ()
    pure rest
  | _ => do
    let (s, rest) := Spec.read "-+ #0I\x27".toList cs
    let width ← starred "field width" s.width
    let precision ← starred "precision" s.precision
    match rest.dropWhile "hlLjzt".toList.contains with
    | letter :: after =>
      if allows s letter then do
        convert (s.directive width precision) letter
        pure after
      else invalid after
    | [] => invalid []
where
  invalid (after : List Char) : Printing (List Char) :=
    refuse ("%" ++ String.ofList (cs.take (cs.length - after.length))
      ++ ": invalid conversion specification")

def once : Nat → List Char → Printing Unit
  | 0, _ => pure ()
  | _ + 1, [] => pure ()
  | n + 1, c :: cs => do
    let rest ←
      if c = '\\' then escaped false cs
      else if c = '%' then directive cs
      else do
        say [c]
        pure cs
    once n rest

def repeatedly (format : List Char) : Nat → Printing Unit
  | 0 => pure ()
  | n + 1 => do
    let before := (← get).words.length
    once (format.length + 1) format
    match (← get).words with
    | [] => pure ()
    | w :: ws =>
      if (w :: ws).length < before then repeatedly format n
      else blame ("warning: ignoring excess arguments, starting with " ++ quote w)

end Print

def printf (words : List String) : Sys Int := do
  let name := words.headD "printf"
  let rest := match words.tail with
    | "--" :: rest => rest
    | rest => rest
  match rest with
  | [] => do
    tryHelp name "missing operand"
    pure 1
  | format :: args =>
    Held.run name 1 do
      let (_, p) ← (Print.repeatedly format.toList (args.length + 1)).run ⟨name, args, false⟩
      pure (if p.failed then 1 else 0)

end JobShell.Program

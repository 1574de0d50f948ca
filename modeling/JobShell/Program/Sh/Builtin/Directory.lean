import JobShell.Program.Sh.Builtin.Basic
import JobShell.Program.Sh.Search

namespace JobShell.Program.Sh

def logicalPath (here path : String) : String :=
  let isAbsolute := path.startsWith "/"
  let leads (p : String) : Bool := p.startsWith "//" && !p.startsWith "///"
  let isDoubled := if isAbsolute then leads path else here.startsWith "//"
  let names (start : List String) (p : String) : List String :=
    (p.splitOn "/").foldl (fun (acc : List String) name ↦
      if name = "" || name = "." then acc
      else if name = ".." then acc.drop 1
      else name :: acc) start
  let all := if isAbsolute then names [] path else names (names [] here) path
  (if isDoubled then "//" else "/") ++ "/".intercalate all.reverse

def physicalDirectory : Work String := do
  match ← ask .workingDirectory with
  | .ok directory => pure directory
  | .error _ => pure ""

def noteDirectory (path : Option String) (isMove : Bool) : Work Unit := do
  let before := (← get).directory
  if isMove then assign "OLDPWD" (some before) { exported := true }
  let directory ← match path with
    | some p => pure p
    | none => physicalDirectory
  modify fun s ↦ { s with directory }
  assign "PWD" (some directory) { exported := true }

def isPhysical (flags : List Flag) : Bool := flags.getLast?.any (·.1 == 'P')

def moveTo? (physical : Bool) (path : String) : Work Bool := do
  let here := (← get).directory
  let target := if physical || (here.isEmpty && !path.startsWith "/") then none
    else some (logicalPath here path)
  match ← ask (.changeDirectory (target.getD path)) with
  | .error _ => pure false
  | .ok _ => do
    noteDirectory target true
    doubtPrograms
    pure true

def isDirect (path : String) : Bool :=
  path.startsWith "/" || path = "." || path = ".." || path.startsWith "./" || path.startsWith "../"

def firstDirectory (path : String) : List String → Work (Option (String × Bool))
  | [] => pure none
  | d :: ds => do
    let candidate := inDirectory d path
    match ← ask (.inspect candidate) with
    | .ok i => if i.kind = .directory then pure (some (candidate, !d.isEmpty)) else firstDirectory path ds
    | .error _ => firstDirectory path ds

def cdCommand (words : List String) : Work Int := do
  let (flags, words) ← readOptions "LP" "" words
  let s ← get
  let goesBack := words.head? = some "-"
  let wanted := match words with
    | [] => (s.get? "HOME").getD ""
    | "-" :: _ => (s.get? "OLDPWD").getD ""
    | w :: _ => w
  let path := if wanted.isEmpty then "." else wanted
  let (target, isShown) ←
    if isDirect wanted then pure (path, false)
    else
      match s.get? "CDPATH" with
      | none => pure (path, false)
      | some directories => do
        let found ← firstDirectory path (directoriesOf directories)
        pure (found.getD (path, false))
  if ← moveTo? (isPhysical flags) target then
    if goesBack || isShown then sayText ((← get).directory ++ "\n")
    pure 0
  else abort ("can't cd to " ++ wanted)

def pwdCommand (words : List String) : Work Int := do
  let (flags, _) ← readOptions "LP" "" words
  let here ← if isPhysical flags then physicalDirectory else pure (← get).directory
  sayText (here ++ "\n")
  pure 0

def octalText (m : Nat) : String :=
  let ds := Nat.toDigits 8 m
  String.ofList (List.replicate (4 - ds.length) '0' ++ ds)

def allowedText (mask : Nat) : String :=
  let part (who : String) (shift : Nat) : String :=
    let m := mask / Nat.pow 8 shift % 8
    let letter (bit : Nat) (c : Char) : List Char := if m / bit % 2 = 0 then [c] else []
    who ++ "=" ++ String.ofList (letter 4 'r' ++ letter 2 'w' ++ letter 1 'x')
  ",".intercalate [part "u" 2, part "g" 1, part "o" 0]

def takeWhom : Nat → List Char → Nat × List Char
  | whom, 'u' :: cs => takeWhom (whom ||| 0o100) cs
  | whom, 'g' :: cs => takeWhom (whom ||| 0o010) cs
  | whom, 'o' :: cs => takeWhom (whom ||| 0o001) cs
  | whom, 'a' :: cs => takeWhom (whom ||| 0o111) cs
  | whom, cs => (whom, cs)

def takeAllowed (before : Nat) : Nat → List Char → Nat × List Char
  | bits, c :: cs =>
    match c with
    | 'r' => takeAllowed before (bits ||| 4) cs
    | 'w' => takeAllowed before (bits ||| 2) cs
    | 'x' => takeAllowed before (bits ||| 1) cs
    | 'u' => takeAllowed before (bits ||| before / 64) cs
    | 'g' => takeAllowed before (bits ||| before / 8) cs
    | 'o' => takeAllowed before (bits ||| before) cs
    | 'X' => takeAllowed before (if before &&& 0o111 ≠ 0 then bits ||| 1 else bits) cs
    | 's' => takeAllowed before bits cs
    | _ => (bits, c :: cs)
  | bits, [] => (bits, [])

/-- What is allowed after changes in letters, at most so many; none if they are malformed. -/
def changeAllowed (before : Nat) : Nat → Nat → Nat → List Char → Option Nat
  | 0, _, _, _ => none
  | n + 1, whom, allowed, cs =>
    match cs with
    | [] => some allowed
    | _ =>
      let (whom, cs) := takeWhom whom cs
      let whom := if whom = 0 then 0o111 else whom
      match cs with
      | [] => some allowed
      | op :: cs =>
        if op ≠ '=' && op ≠ '+' && op ≠ '-' then none
        else
          let (bits, cs) := takeAllowed before 0 cs
          let value := (bits &&& 7) * whom
          let allowed :=
            if op = '+' then allowed ||| value
            else
              let others := allowed - (allowed &&& (if op = '=' then 7 * whom else value))
              if op = '=' then others ||| value else others
          match cs with
          | ',' :: cs => changeAllowed before n 0 allowed cs
          | cs => changeAllowed before n whom allowed cs

def umaskCommand (words : List String) : Work Int := do
  let (flags, words) ← readOptions "S" "" words
  let mask ← ask (.setMask 0)
  let _ ← ask (.setMask mask)
  match words with
  | [] => do
    sayText ((if flags.isEmpty then octalText mask else allowedText mask) ++ "\n")
    pure 0
  | word :: _ => do
    let cs := word.toList
    if cs.head?.any Decimal.isDigit then
      if cs.all fun c ↦ '0' ≤ c && c < '8' then
        let _ ← ask (.setMask ((readDigits 8 0 cs).1 % 512))
        pure 0
      else abort ("Illegal number: " ++ word)
    else
      match changeAllowed (0o777 - mask) (cs.length + 1) 0 (0o777 - mask) cs with
      | some allowed => do
        let _ ← ask (.setMask (0o777 - allowed))
        pure 0
      | none => abort ("Illegal mode: " ++ word)

end JobShell.Program.Sh

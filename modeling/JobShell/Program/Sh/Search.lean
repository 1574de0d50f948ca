import JobShell.Program.Sh.State
import JobShell.Sys.Execute

namespace JobShell.Program.Sh

def standardPath : String := "/usr/local/sbin:/usr/local/bin:/usr/sbin:/usr/bin:/sbin:/bin"

def directoriesOf (path : String) : List String := path.splitOn ":"

def inDirectory (directory name : String) : String :=
  if directory.isEmpty then name else directory ++ "/" ++ name

def State.path (s : State) : String := (s.get? "PATH").getD ""

def isMissing (e : Errno) : Bool := e = .noEntry || e = .notDirectory

def runFailure (e : Errno) : String := if isMissing e then "not found" else e.libraryText

def isNamed (name : String) : Bool := !name.toList.contains '/'

def searchProgram (name : String) (known : Option Nat) : Nat → Errno → List String →
    Sys (Except Errno Nat)
  | _, e, [] => pure (.error e)
  | n, e, d :: ds => do
    let path := inDirectory d name
    if path.startsWith "/" && known.any (n ≤ ·) then
      if known = some n then pure (.ok n) else searchProgram name known (n + 1) e ds
    else
      match ← Sys.ask (.inspect path) with
      | .error e' => searchProgram name known (n + 1) (if isMissing e' then e else e') ds
      | .ok i =>
        if i.kind = .regular && i.mode &&& 0o111 ≠ 0 then pure (.ok n)
        else searchProgram name known (n + 1) .accessDenied ds

def forgetProgram (name : String) : Work Unit :=
  modify fun s ↦ { s with found := s.found.filter (·.name != name) }

def findProgram (name : String) (other : Option String) : Work (Except Errno Nat) := do
  let s ← get
  match other with
  | some path => sys (searchProgram name none 0 .noEntry (directoriesOf path))
  | none =>
    let known := s.found.find? (·.name == name)
    match known with
    | some f => if !f.stale then pure (.ok f.index) else search s (some f.index)
    | none => search s none
where
  search (s : State) (known : Option Nat) : Work (Except Errno Nat) := do
    let isFunction := s.functions.any (·.1 == name)
    let r ← sys (searchProgram name known 0 .noEntry (directoriesOf s.path))
    match r with
    | .ok index =>
      if !isFunction then
        modify fun s ↦
          if s.found.any (·.name == name) then
            { s with found := s.found.map fun f ↦ if f.name == name then ⟨name, index, false⟩ else f }
          else { s with found := s.found ++ [⟨name, index, false⟩] }
    | .error _ => forgetProgram name
    pure r

def programPath (name path : String) (index : Nat) : String :=
  inDirectory ((directoriesOf path).getD index "") name

def doubtPrograms : Work Unit :=
  modify fun s ↦ { s with found := s.found.map fun f ↦ { f with stale := true } }

def tryPaths (words : List String) (environment : Environment) (last : Errno) :
    List String → Sys Errno
  | [] => pure last
  | path :: rest => do
    let e ← Sys.executePath path words environment
    tryPaths words environment (if isMissing e then last else e) rest

def become {α : Type} (path : String) (index : Nat) (words : List String) : Work α := do
  let name := words.headD ""
  let environment := (← get).environment
  let e ← sys do
    if isNamed name then
      tryPaths words environment .noEntry
        (((directoriesOf path).drop index).map fun d ↦ inDirectory d name)
    else Sys.executePath name words environment
  tell (name ++ ": " ++ runFailure e)
  throw (.exit (if isMissing e || e = .loop || e = .nameTooLong then 127 else 126))

end JobShell.Program.Sh

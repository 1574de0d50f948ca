import JobShell.Sys.Basic

namespace JobShell.Sys

def standardShell : String := "/bin/sh"

def executePath (path : String) (words : List String) (environment : Environment) : Sys Errno := do
  let e ← ask (.exec path words environment)
  if e = .execFormat then ask (.exec standardShell (standardShell :: path :: words.tail) environment)
  else pure e

def isMissing (e : Errno) : Bool :=
  e = .noEntry || e = .notDirectory || e = .noDevice || e = .stale || e = .timedOut

/-- Tries directories in order. A file that may not be executed is remembered, in case there is no
other. -/
def searchIn (name : String) (words : List String) (environment : Environment) (denied : Bool)
    (last : Errno) : List String → Sys Errno
  | [] => pure (if denied then .accessDenied else last)
  | directory :: rest => do
    let path := if directory.isEmpty then name else directory ++ "/" ++ name
    let e ← executePath path words environment
    if e = .accessDenied then searchIn name words environment true e rest
    else if isMissing e then searchIn name words environment denied e rest
    else pure e

/-- Executes a program by name, with words and an environment. -/
def execute (name : String) (words : List String) (environment : Environment) : Sys Errno :=
  if name.isEmpty then pure .noEntry
  else if name.toList.contains '/' then executePath name words environment
  else if name.length > 255 then pure .nameTooLong
  else
    searchIn name words environment false .noEntry
      (((environment.get? "PATH").getD "/bin:/usr/bin").splitOn ":")

end JobShell.Sys

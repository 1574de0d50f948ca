import JobShell.Failure
import JobShell.Home
import JobShell.Text.Bytes
import JobShell.Text.Quoted

namespace JobShell.Accounts

def table : List (String × String) :=
  [("root", "/root"), ("daemon", "/usr/sbin"), ("bin", "/bin"), ("sys", "/dev"), ("sync", "/bin"),
    ("games", "/usr/games"), ("man", "/var/cache/man"), ("lp", "/var/spool/lpd"),
    ("mail", "/var/mail"), ("news", "/var/spool/news"), ("uucp", "/var/spool/uucp"),
    ("proxy", "/bin"), ("www-data", "/var/www"), ("backup", "/var/backups"), ("list", "/var/list"),
    ("irc", "/run/ircd"), ("_apt", "/nonexistent"), ("nobody", "/nonexistent")]

def home? (user : String) : Option String :=
  (table.find? fun a ↦ a.1 == user).map (·.2)

def own : String := "/root"

end JobShell.Accounts

namespace JobShell

abbrev Environment := List (String × String)

namespace Environment

def get? (e : Environment) (name : String) : Option String :=
  (e.find? fun v ↦ v.1 == name).map (·.2)

def set (e : Environment) (name value : String) : Environment :=
  if e.any fun v ↦ v.1 == name then
    e.map fun v ↦ if v.1 == name then (name, value) else v
  else e ++ [(name, value)]

def erase (e : Environment) (name : String) : Environment :=
  e.filter fun v ↦ v.1 != name

def unspelled (e : Environment) : Environment :=
  e.map fun v ↦ (Text.unspell v.1, Text.unspell v.2)

def hasNul (s : String) : Bool := s.toList.contains '\x00'

def refusal? (name value : String) : Option StreamFault :=
  if hasNul name || hasNul value then some .nulInPath
  else if name.isEmpty || name.toList.contains '=' then some (.system .invalid)
  else none

def changes (e : Environment) (name : String) (overwrite : Bool) : Bool :=
  overwrite || (e.get? name).isNone

def put (e : Environment) (name value : String) (overwrite : Bool) : Except String Environment :=
  if e.changes name overwrite then
    match refusal? name value with
    | some f => .error ("failed to set environment variable \x60" ++ Text.quoted name ++ "\x60 to \x60"
        ++ Text.quoted value ++ "\x60: " ++ f.message)
    | none => .ok (e.set name value)
  else .ok e

def ownHome (e : Environment) : String :=
  ((e.get? "HOME").filter (!·.isEmpty)).getD Accounts.own

def homes (e : Environment) : HomeDirs := ⟨some e.ownHome, Accounts.home?⟩

end Environment

end JobShell

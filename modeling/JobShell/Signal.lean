namespace JobShell.Text

def upperTable : List (Char × String) :=
  [('ı', "I"), ('ſ', "S"), ('ß', "SS"), ('ŉ', "ʼN"), ('ǰ', "J̌"), ('ẖ', "H̱"), ('ẗ', "T̈"), ('ẘ', "W̊"),
    ('ẙ', "Y̊"), ('ẚ', "Aʾ"), ('ﬀ', "FF"), ('ﬁ', "FI"), ('ﬂ', "FL"), ('ﬃ', "FFI"), ('ﬄ', "FFL"),
    ('ﬅ', "ST"), ('ﬆ', "ST")]

def upperChar (c : Char) : String :=
  match upperTable.find? fun e ↦ e.1 == c with
  | some e => e.2
  | none => c.toUpper.toString

def upper (s : String) : String := String.join (s.toList.map upperChar)

end JobShell.Text

namespace JobShell

inductive Signal
  | hup | int | quit | ill | trap | abrt | bus | fpe | kill | usr1 | segv | usr2 | pipe | alrm | term
  | stkflt | chld | cont | stop | tstp | ttin | ttou | urg | xcpu | xfsz | vtalrm | prof | winch | io
  | pwr | sys
  deriving DecidableEq, Repr, Inhabited

namespace Signal

def all : List Signal :=
  [hup, int, quit, ill, trap, abrt, bus, fpe, kill, usr1, segv, usr2, pipe, alrm, term, stkflt, chld,
    cont, stop, tstp, ttin, ttou, urg, xcpu, xfsz, vtalrm, prof, winch, io, pwr, sys]

def number : Signal → Nat
  | hup => 1 | int => 2 | quit => 3 | ill => 4 | trap => 5 | abrt => 6 | bus => 7 | fpe => 8
  | kill => 9 | usr1 => 10 | segv => 11 | usr2 => 12 | pipe => 13 | alrm => 14 | term => 15
  | stkflt => 16 | chld => 17 | cont => 18 | stop => 19 | tstp => 20 | ttin => 21 | ttou => 22
  | urg => 23 | xcpu => 24 | xfsz => 25 | vtalrm => 26 | prof => 27 | winch => 28 | io => 29
  | pwr => 30 | sys => 31

def ofNumber? (n : Int) : Option Signal :=
  all.find? fun s ↦ (s.number : Int) = n

theorem ofNumber?_number (s : Signal) : ofNumber? s.number = some s := by
  cases s <;> rfl

theorem number_lt (s : Signal) : s.number < 32 := by
  cases s <;> decide

/-- The name without its `SIG`. -/
def shortName : Signal → String
  | hup => "HUP" | int => "INT" | quit => "QUIT" | ill => "ILL" | trap => "TRAP" | abrt => "ABRT"
  | bus => "BUS" | fpe => "FPE" | kill => "KILL" | usr1 => "USR1" | segv => "SEGV" | usr2 => "USR2"
  | pipe => "PIPE" | alrm => "ALRM" | term => "TERM" | stkflt => "STKFLT" | chld => "CHLD"
  | cont => "CONT" | stop => "STOP" | tstp => "TSTP" | ttin => "TTIN" | ttou => "TTOU" | urg => "URG"
  | xcpu => "XCPU" | xfsz => "XFSZ" | vtalrm => "VTALRM" | prof => "PROF" | winch => "WINCH"
  | io => "IO" | pwr => "PWR" | sys => "SYS"

def name (s : Signal) : String := "SIG" ++ s.shortName

def ofName? (text : String) : Option Signal :=
  all.find? fun s ↦ s.name = text

/-- The words of a job list for a job that ended by this signal: common signals have an English
phrase, the others show their name. -/
def description : Signal → String
  | hup => "Hangup"
  | int => "Interrupt"
  | quit => "Quit"
  | abrt => "Aborted"
  | kill => "Killed"
  | segv => "Segmentation fault"
  | pipe => "Broken pipe"
  | term => "Terminated"
  | s => s.name

/-- What a process does on receiving a signal it neither handles nor ignores. -/
inductive DefaultAction
  | terminate
  | discard
  | stop
  | resume
  deriving DecidableEq, Repr

def defaultAction : Signal → DefaultAction
  | chld | urg | winch => .discard
  | stop | tstp | ttin | ttou => .stop
  | cont => .resume
  | _ => .terminate

end Signal

end JobShell

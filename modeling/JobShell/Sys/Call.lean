import JobShell.Environment
import JobShell.Signal

namespace JobShell

/-- What a process has a signal do. -/
inductive Disposition
  | default
  | ignore
  | notice
  deriving DecidableEq, Repr

structure OpenFlags where
  readable : Bool := false
  writable : Bool := false
  create : Bool := false
  exclusive : Bool := false
  truncate : Bool := false
  append : Bool := false
  closeOnExec : Bool := false
  deriving DecidableEq, Repr

/-- How to wait for children. An interruptible wait ends with an error when the process has a signal to
take notice of. The death of a child by a real-time signal is reported only with `realTime`; a wait that
finds it otherwise ends with an error, and nothing is left to be waited for. -/
structure WaitFlags where
  noHang : Bool := false
  untraced : Bool := false
  continued : Bool := false
  interruptible : Bool := false
  realTime : Bool := false
  deriving DecidableEq, Repr

/-- A change in a child that `wait` reports. -/
inductive WaitReport
  | exited (code : Int)
  | killed (s : Signal) (dumped : Bool)
  | killedRealTime (number : Nat)
  | stopped (s : Signal)
  | continued
  | traceEvent (s : Signal)
  | traceCall
  | stillAlive
  deriving DecidableEq, Repr

/-- On which side of a fork a process finds itself. -/
inductive Forked
  | child
  | parent (pid : Int)
  deriving DecidableEq, Repr

inductive LogLevel
  | off
  | error
  | warn
  | info
  | debug
  | trace
  deriving DecidableEq, Repr

inductive FileKind
  | regular
  | directory
  | device
  | pipe
  deriving DecidableEq, Repr

/-- What a process may learn of a file without reading it. No two files have the same index. The last
change is given by its time; zero is before all others. -/
structure FileInfo where
  kind : FileKind
  mode : Nat
  size : Nat
  index : Nat
  changed : Nat := 0
  deriving DecidableEq, Repr

/-- Where reading and writing goes on in a file. -/
inductive Seek
  | start
  | back (count : Nat)
  | «end»
  deriving DecidableEq, Repr

/-- What a process may ask of the kernel. A negative number given to `kill` names a process group, as it
does for real-time signals, which have numbers above those of all others and no names.
`watch` waits until a child has ended, or stopped, and leaves its report to be waited for. -/
inductive Call
  | «open» (path : String) (flags : OpenFlags) (mode : Nat)
  | close (fd : Int)
  | duplicate (fd target : Int)
  | duplicateAbove (fd low : Int)
  | setCloseOnExec (fd : Int)
  | pipe
  | read (fd : Int) (count : Nat)
  | write (fd : Int) (bytes : ByteArray)
  | seek (fd : Int) (place : Seek)
  | temporary (template : String)
  | unlink (path : String)
  | setMode (fd : Int) (mode : Nat)
  | setMask (mask : Nat)
  | inspect (path : String)
  | inspectOpen (fd : Int)
  | listDirectory (path : String)
  | fork
  | exec (path : String) (words : List String) (environment : Environment)
  | exit (code : Int)
  | wait (pid : Int) (flags : WaitFlags)
  | watch (pid : Int) (untilStopped : Bool)
  | kill (pid : Int) (signal : Option Signal)
  | killRealTime (pid : Int) (number : Nat)
  | ownPid
  | parentPid
  | ownGroup
  | setGroup (pid group : Int)
  | isTerminal (fd : Int)
  | terminalGroup (fd : Int)
  | setTerminalGroup (fd group : Int)
  | disposition (s : Signal)
  | setDisposition (s : Signal) (d : Disposition)
  | takeNotice (s : Signal)
  | sleep (milliseconds : Nat)
  | workingDirectory
  | changeDirectory (path : String)
  | environment
  | setVariable (name value : String)
  | openLog (path : String) (level : LogLevel)
  | log (level : LogLevel) (target text : String)
  | hang

/-- The replies to a call. -/
@[reducible] def Reply : Call → Type
  | .«open» _ _ _ => Except Errno Int
  | .close _ => Except Errno Unit
  | .duplicate _ _ => Except Errno Unit
  | .duplicateAbove _ _ => Except Errno Int
  | .setCloseOnExec _ => Except Errno Unit
  | .pipe => Except Errno (Int × Int)
  | .read _ _ => Except Errno ByteArray
  | .write _ _ => Except Errno Nat
  | .seek _ _ => Except Errno Unit
  | .temporary _ => Except Errno (Int × String)
  | .unlink _ => Except Errno Unit
  | .setMode _ _ => Except Errno Unit
  | .setMask _ => Nat
  | .inspect _ => Except Errno FileInfo
  | .inspectOpen _ => Except Errno FileInfo
  | .listDirectory _ => Except Errno (List String)
  | .fork => Except Errno Forked
  | .exec _ _ _ => Errno
  | .exit _ => Empty
  | .wait _ _ => Except Errno (Int × WaitReport)
  | .watch _ _ => Unit
  | .kill _ _ => Except Errno Unit
  | .killRealTime _ _ => Except Errno Unit
  | .ownPid => Int
  | .parentPid => Int
  | .ownGroup => Int
  | .setGroup _ _ => Except Errno Unit
  | .isTerminal _ => Bool
  | .terminalGroup _ => Except Errno Int
  | .setTerminalGroup _ _ => Except Errno Unit
  | .disposition _ => Disposition
  | .setDisposition _ _ => Except Errno Unit
  | .takeNotice _ => Bool
  | .sleep _ => Unit
  | .workingDirectory => Except Errno String
  | .changeDirectory _ => Except Errno Unit
  | .environment => Environment
  | .setVariable _ _ => Unit
  | .openLog _ _ => Except Errno Unit
  | .log _ _ _ => Unit
  | .hang => Empty

end JobShell

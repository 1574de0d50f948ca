import JobShell.Command.Connector
import JobShell.Decimal
import JobShell.Errno

namespace JobShell

/-- Why reading or writing a stream failed. -/
inductive StreamFault
  | system (e : Errno)
  | invalidText
  | nulInPath
  | described (text : String)
  deriving DecidableEq, Repr

def StreamFault.message : StreamFault → String
  | .system e => e.libraryText ++ " (os error " ++ Decimal.text e.number ++ ")"
  | .invalidText => "stream did not contain valid UTF-8"
  | .nulInPath => "file name contained an unexpected NUL byte"
  | .described text => text

inductive Failure
  | unexpectedToken (token : String)
  | unexpectedEnd (expected : String)
  | interrupted
  | commandNotFound (command : String)
  | notExecutable (command reason : String)
  | forkFailed (e : Errno)
  | redirectionFailed (target : String) (e : Errno)
  | nulByte (word : String)
  | builtin (text : String) (code : Int)
  | noSuchJob (job : String)
  | badUsage (text : String)
  | stream (fault : StreamFault)
  | system (e : Errno)
  | editor (fault : StreamFault)
  | plain (text : String)
  deriving DecidableEq, Repr

namespace Failure

def message : Failure → String
  | unexpectedToken token => "syntax error near unexpected token \x60" ++ token ++ "'"
  | unexpectedEnd expected => "unexpected end of file while looking for " ++ expected
  | interrupted => "interrupted"
  | commandNotFound command => command ++ ": command not found"
  | notExecutable command reason => command ++ ": " ++ reason
  | forkFailed e => "fork: " ++ e.description
  | redirectionFailed target e => target ++ ": " ++ e.description
  | nulByte word => word ++ ": argument contains a NUL byte"
  | builtin text _ => text
  | noSuchJob job => job ++ ": no such job"
  | badUsage text => text
  | stream fault => fault.message
  | system e => e.name ++ ": " ++ e.description
  | editor fault => fault.message
  | plain text => text

def isMalformed : Failure → Bool
  | unexpectedToken _ | unexpectedEnd _ => true
  | _ => false

def report (f : Failure) : String := "psh: " ++ f.message ++ "\n"

end Failure

inductive Defect
  | noWords
  | danglingList (last : Option Connector)
  | missingDocument
  | missingDescriptor
  | beyondBuffer
  | registeredTwice (job : Nat)
  | noCommandString
  | cutCharacter
  | unprintable (stream : String) (fault : StreamFault)
  deriving DecidableEq, Repr

def Defect.message : Defect → String
  | .noWords => "command built without an argument vector"
  | .danglingList none => "command list must end a chain, found None"
  | .danglingList (some c) => "command list must end a chain, found Some(" ++ c.name ++ ")"
  | .missingDocument => "here-document request names no here-document"
  | .missingDescriptor => "internal error: entered unreachable code: duplication parses a descriptor"
  | .beyondBuffer => "range start index out of range for slice"
  | .registeredTwice job => "job " ++ Decimal.text job ++ " registered twice"
  | .noCommandString => "internal error: entered unreachable code"
  | .cutCharacter => "assertion failed: self.is_char_boundary(new_len)"
  | .unprintable stream fault => "failed printing to " ++ stream ++ ": " ++ fault.message

end JobShell

import JobShell.Signal

namespace JobShell

structure ExitStatus where
  raw : Int
  deriving DecidableEq, Repr, Inhabited

namespace ExitStatus

def ofCode (code : Int) : ExitStatus := ⟨code % 256 * 256⟩

def success : ExitStatus := ofCode 0

def failure : ExitStatus := ofCode 1

def ofSignal (s : Signal) : ExitStatus := ofCode (128 + s.number)

def code? (s : ExitStatus) : Option Int :=
  if s.raw % 128 = 0 then some (s.raw / 256 % 256) else none

def isSuccess (s : ExitStatus) : Bool := decide (s.raw = 0)

theorem code?_ofCode (n : Int) : (ofCode n).code? = some (n % 256) := by
  have h : n % 256 * 256 % 128 = 0 := by omega
  simp only [code?, ofCode, h, if_true, Option.some.injEq]
  omega

theorem isSuccess_ofCode (n : Int) : (ofCode n).isSuccess = true ↔ n % 256 = 0 := by
  rw [isSuccess, decide_eq_true_iff, ofCode]
  dsimp only
  constructor <;> intro h <;> omega

theorem code?_ofSignal (s : Signal) : (ofSignal s).code? = some (128 + s.number : Int) := by
  have := s.number_lt
  rw [ofSignal, code?_ofCode, Option.some.injEq]
  omega

end ExitStatus

end JobShell

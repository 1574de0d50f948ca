import JobShell.Errno
import JobShell.Least

namespace JobShell

/-- What a number stands for. -/
structure Descriptor where
  file : Nat
  closeOnExec : Bool := false
  deriving DecidableEq, Repr

structure Descriptors where
  entries : List (Nat × Descriptor) := []
  deriving DecidableEq, Repr

namespace Descriptors

def limit : Nat := 1048576

def numbers (t : Descriptors) : List Nat := t.entries.map (·.1)

def get? (t : Descriptors) (fd : Nat) : Option Descriptor :=
  (t.entries.find? fun e ↦ e.1 == fd).map (·.2)

def erase (t : Descriptors) (fd : Nat) : Descriptors :=
  ⟨t.entries.filter fun e ↦ e.1 != fd⟩

def set (t : Descriptors) (fd : Nat) (d : Descriptor) : Descriptors :=
  ⟨(fd, d) :: (t.erase fd).entries⟩

@[simp] theorem get?_erase_self (t : Descriptors) (fd : Nat) : (t.erase fd).get? fd = none := by
  simp [get?, erase]

theorem get?_erase_of_ne (t : Descriptors) {fd n : Nat} (h : n ≠ fd) :
    (t.erase fd).get? n = t.get? n := by
  unfold get? erase
  congr 1
  induction t.entries with
  | nil => rfl
  | cons e l ih =>
    by_cases he : e.1 = fd
    · have hn : ¬ fd = n := fun x ↦ h x.symm
      simp [he, hn, ih]
    · by_cases hn : e.1 = n
      · simp [hn, h]
      · simp [he, hn, ih]

@[simp] theorem get?_set_self (t : Descriptors) (fd : Nat) (d : Descriptor) :
    (t.set fd d).get? fd = some d := by
  simp [get?, set]

theorem get?_set_of_ne (t : Descriptors) {fd n : Nat} (d : Descriptor) (h : n ≠ fd) :
    (t.set fd d).get? n = t.get? n := by
  have hn : ¬ fd = n := fun x ↦ h x.symm
  rw [← get?_erase_of_ne t h]
  simp [get?, set, hn]

theorem get?_eq_none_of_not_mem {t : Descriptors} {fd : Nat} (h : fd ∉ t.numbers) :
    t.get? fd = none := by
  simp only [get?, Option.map_eq_none_iff, List.find?_eq_none, beq_iff_eq]
  exact fun e he hf ↦ h (List.mem_map.2 ⟨e, he, hf⟩)

def free (t : Descriptors) (low : Nat) : Nat := leastUnused low t.numbers

@[simp] theorem get?_free (t : Descriptors) (low : Nat) : t.get? (t.free low) = none :=
  get?_eq_none_of_not_mem (leastUnused_not_mem low t.numbers)

def open? (t : Descriptors) (low : Nat) (d : Descriptor) : Except Errno (Nat × Descriptors) :=
  let fd := t.free low
  if fd < limit then .ok (fd, t.set fd d) else .error .tooManyOpen

/-- Makes `target` stand for the file of `fd`. A descriptor that is already there stays as it is. -/
def duplicate (t : Descriptors) (fd target : Nat) : Except Errno Descriptors :=
  match t.get? fd with
  | none => .error .badDescriptor
  | some d =>
    if limit ≤ target then .error .badDescriptor
    else if fd = target then .ok t
    else .ok (t.set target ⟨d.file, false⟩)

def duplicateAbove (t : Descriptors) (fd low : Nat) : Except Errno (Nat × Descriptors) :=
  match t.get? fd with
  | none => .error .badDescriptor
  | some d => if limit ≤ low then .error .invalid else t.open? low ⟨d.file, true⟩

def close (t : Descriptors) (fd : Nat) : Except Errno Descriptors :=
  match t.get? fd with
  | none => .error .badDescriptor
  | some _ => .ok (t.erase fd)

def setCloseOnExec (t : Descriptors) (fd : Nat) : Except Errno Descriptors :=
  match t.get? fd with
  | none => .error .badDescriptor
  | some d => .ok (t.set fd ⟨d.file, true⟩)

def inherited (t : Descriptors) : Descriptors :=
  ⟨t.entries.filter fun e ↦ !e.2.closeOnExec⟩

end Descriptors

end JobShell

import Mathlib.Algebra.Group.Int.Defs
import Mathlib.Algebra.Group.Nat.Defs
import JobShell.Job.Basic
import JobShell.Shell.Start

namespace JobShell

namespace ExitStatus

/-- A code as it is packed into a word: its low byte, above the byte that tells of a signal. -/
def pack (n : Int32) : Int32 := (n &&& 0xff) <<< 8

def unpack? (w : Int32) : Option Int32 := if w &&& 0x7f = 0 then some (w >>> 8 &&& 0xff) else none

def byteOf (c : Int32) : Int32 := if c < 0 then (256 + c) % 256 else c % 256

theorem toInt_and_mask (w m : Int32) {k : Nat} (hk : k < 31) (hm : m.toBitVec.toNat = 2 ^ k - 1) :
    (w &&& m).toInt = w.toInt % 2 ^ k := by
  have hnat : (w &&& m).toBitVec.toNat = w.toBitVec.toNat % 2 ^ k := by
    rw [Int32.toBitVec_and, BitVec.toNat_and, hm, Nat.and_two_pow_sub_one_eq_mod]
  have hle : 2 ^ k ≤ 2 ^ 30 := Nat.pow_le_pow_right (by decide) (by omega)
  have hmod : w.toBitVec.toNat % 2 ^ k < 2 ^ k := Nat.mod_lt _ (Nat.two_pow_pos k)
  obtain ⟨q, hq⟩ : (2 : Int) ^ k ∣ 2 ^ 32 := by
    exact_mod_cast Nat.pow_dvd_pow 2 (show k ≤ 32 by omega)
  have hw : w.toInt % 2 ^ k = (w.toBitVec.toNat : Int) % 2 ^ k := by
    rw [← Int32.toInt_toBitVec, BitVec.toInt_eq_toNat_cond]
    split
    · rfl
    · rw [Int.natCast_pow, Int.cast_ofNat_Int, hq, Int.sub_mul_emod_self_left]
  rw [← Int32.toInt_toBitVec, BitVec.toInt_eq_toNat_of_lt (by rw [hnat]; omega), hnat, hw]
  simp

theorem toInt_byte (w : Int32) : (w &&& 0xff).toInt = w.toInt % 256 := toInt_and_mask w 0xff (k := 8) (by decide) rfl

theorem toInt_shiftRight (w : Int32) : (w >>> 8).toInt = w.toInt / 256 := by
  have hshift : (w >>> 8).toBitVec = w.toBitVec.sshiftRight 8 := rfl
  rw [← Int32.toInt_toBitVec, hshift, BitVec.toInt_sshiftRight, Int32.toInt_toBitVec, Int.shiftRight_eq_div_pow]
  rfl

theorem toInt_shiftLeft {w : Int32} (h0 : 0 ≤ w.toInt) (h : w.toInt < 256) : (w <<< 8).toInt = w.toInt * 256 := by
  have hshift : (w <<< 8).toBitVec = w.toBitVec <<< 8 := rfl
  have hnat : w.toInt = w.toBitVec.toNat := by
    rw [← Int32.toInt_toBitVec, BitVec.toInt_eq_toNat_cond] at *
    split <;> omega
  have hshifted : (w <<< 8).toBitVec.toNat = w.toBitVec.toNat * 256 := by
    rw [hshift, BitVec.toNat_shiftLeft, Nat.shiftLeft_eq]
    omega
  rw [← Int32.toInt_toBitVec, BitVec.toInt_eq_toNat_of_lt (by rw [hshifted]; omega), hshifted, hnat]
  simp

theorem raw_ofCode (n : Int32) : (ofCode n.toInt).raw = (pack n).toInt := by
  have hbyte := toInt_byte n
  rw [pack, toInt_shiftLeft (by omega) (by omega), hbyte, ofCode]

theorem code?_word (w : Int32) : (⟨w.toInt⟩ : ExitStatus).code? = (unpack? w).map Int32.toInt := by
  have hmask : (w &&& 0x7f).toInt = w.toInt % 128 := toInt_and_mask w 0x7f (k := 7) (by decide) rfl
  have hiff : w &&& 0x7f = 0 ↔ w.toInt % 128 = 0 := by
    rw [← Int32.toInt_inj, hmask]
    rfl
  rw [code?, unpack?]
  by_cases h : w.toInt % 128 = 0
  · rw [if_pos h, if_pos (hiff.2 h), Option.map_some, toInt_byte, toInt_shiftRight]
  · rw [if_neg h, if_neg (mt hiff.1 h), Option.map_none]

theorem lowByte_word (c : Int32) : Shell.lowByte c.toInt = (byteOf c).toInt := by
  have hneg : c < 0 ↔ c.toInt < 0 := Int32.lt_iff_toInt_lt
  have hlow := c.le_toInt
  rw [Shell.lowByte, byteOf]
  by_cases h : c < 0
  · have hc := hneg.1 h
    have hsum : (256 + c).toInt = 256 + c.toInt := by
      have hwide : ((256 : Int32).toInt + c.toInt).bmod (2 ^ 32) = 256 + c.toInt :=
        Int.bmod_eq_of_le (by change _ ≤ 256 + c.toInt; omega) (by change 256 + c.toInt < _; omega)
      rw [Int32.toInt_add, hwide]
    rw [if_pos h, if_pos hc, Int32.toInt_mod, hsum]
    rfl
  · rw [if_neg h, if_neg (mt hneg.2 h), Int32.toInt_mod]
    rfl

theorem isSuccess_iff_dvd (n : Int) : (ofCode n).isSuccess ↔ 256 ∣ n :=
  (isSuccess_ofCode n).trans Int.dvd_iff_emod_eq_zero.symm

theorem byte_of_code? {s : ExitStatus} {code : Int} (h : s.code? = some code) : 0 ≤ code ∧ code < 256 := by
  unfold code? at h
  split at h
  · cases h
    omega
  · cases h

/-- The status is that of a process that has exited, as far as can be told. -/
def HasCode (s : ExitStatus) : Prop := ∃ code, s.code? = some code

theorem hasCode_ofCode (n : Int) : (ofCode n).HasCode := ⟨_, code?_ofCode n⟩

end ExitStatus

namespace Shell

theorem lowByte_of_byte {code : Int} (h : 0 ≤ code ∧ code < 256) : lowByte code = code := by
  rw [lowByte, if_neg (Int.not_lt.2 h.1), Int.tmod_eq_emod_of_nonneg h.1]
  omega

theorem exitCode_of_code? {s : ExitStatus} {code : Int} (h : s.code? = some code) : exitCode s = code := by
  rw [exitCode, h]
  exact lowByte_of_byte (ExitStatus.byte_of_code? h)

theorem exitCode_ofCode (n : Int) : exitCode (.ofCode n) = n % 256 := exitCode_of_code? (ExitStatus.code?_ofCode n)

theorem byte_exitCode (s : ExitStatus) : 0 ≤ exitCode s ∧ exitCode s < 256 := by
  cases h : s.code? with
  | none =>
    rw [exitCode, h]
    decide
  | some code =>
    rw [exitCode_of_code? h]
    exact ExitStatus.byte_of_code? h

end Shell

/-- The code that a process in this status stands for: its low byte if it has exited, and 128 and the number of the
signal that has stopped or killed it. One that runs has none. -/
def ProcessStatus.code? : ProcessStatus → Option Int
  | running => none
  | exited code => some (code % 256)
  | stopped s | signaled s => some (128 + s.number)

variable {p : Process} {ps : List Process} {code : Int}

theorem Process.exists_exitStatus (h : p.status.code? = some code) :
    ∃ status, p.exitStatus? = some status ∧ status.code? = some code := by
  unfold exitStatus?
  cases hp : p.status with
  | running => simp [hp, ProcessStatus.code?] at h
  | exited c => exact ⟨_, rfl, by rw [ExitStatus.code?_ofCode, ← h, hp]; rfl⟩
  | stopped s => exact ⟨_, rfl, by rw [ExitStatus.code?_ofSignal, ← h, hp]; rfl⟩
  | signaled s => exact ⟨_, rfl, by rw [ExitStatus.code?_ofSignal, ← h, hp]; rfl⟩

theorem Process.exists_code (h : p.isCompleted ∨ p.isStopped) : ∃ code, p.status.code? = some code := by
  unfold isCompleted isStopped at h
  cases hp : p.status with
  | running => simp [hp] at h
  | exited c => exact ⟨_, rfl⟩
  | stopped s => exact ⟨_, rfl⟩
  | signaled s => exact ⟨_, rfl⟩

theorem Process.code?_last (hp : ps.getLast? = some p) (hcode : p.status.code? = some code) :
    ((ps.getLast?.bind (·.exitStatus?)).getD .success).code? = some code := by
  obtain ⟨status, hstatus, hcode⟩ := exists_exitStatus hcode
  rw [hp, Option.bind_some, hstatus, Option.getD_some, hcode]

theorem Process.hasCode_last (ps : List Process) :
    ((ps.getLast?.bind (·.exitStatus?)).getD .success).HasCode := by
  cases hp : ps.getLast?.bind (·.exitStatus?) with
  | none => exact ExitStatus.hasCode_ofCode 0
  | some status =>
    obtain ⟨p, -, hstatus⟩ := Option.bind_eq_some_iff.1 hp
    unfold exitStatus? at hstatus
    split at hstatus <;> cases hstatus
    all_goals exact ExitStatus.hasCode_ofCode _

theorem Job.code?_exitStatus {j : Job} (hp : j.processes.getLast? = some p) (hcode : p.status.code? = some code) :
    j.exitStatus.code? = some code := Process.code?_last hp hcode

end JobShell

import Mathlib.Data.List.Nodup
import JobShell.Proofs.Kernel.Basic

namespace JobShell.Kernel

variable {k₀ k k' : Kernel} {held : List (Int × Nat)}

/-- A process has the descriptors that it had at first, and these numbers for these open files. -/
structure Holds (k₀ k : Kernel) (held : List (Int × Nat)) : Prop where
  nodup : (held.map (·.1)).Nodup
  free : ∀ e ∈ held, k₀.file? e.1 = none
  has : ∀ e ∈ held, k.file? e.1 = some e.2
  own : ∀ fd, fd ∉ held.map (·.1) → k.file? fd = k₀.file? fd

theorem holds_nil (h : k.file? = k₀.file?) : Holds k₀ k [] where
  nodup := List.nodup_nil
  free := fun _ he ↦ nomatch he
  has := fun _ he ↦ nomatch he
  own := fun fd _ ↦ congrFun h fd

theorem Holds.of_file? (h : Holds k₀ k held) (hk : k'.file? = k.file?) : Holds k₀ k' held :=
  ⟨h.nodup, h.free, hk ▸ h.has, hk ▸ h.own⟩

theorem Holds.unused (h : Holds k₀ k held) {fd : Int} (hfd : k.file? fd = none) :
    fd ∉ held.map (·.1) := by
  intro hmem
  obtain ⟨e, he, rfl⟩ := List.mem_map.1 hmem
  rw [h.has e he] at hfd
  cases hfd

theorem Holds.install {f : OpenFile} {closeOnExec : Bool} {fd : Int} (h : Holds k₀ k held)
    (hinstalled : k.Installed f closeOnExec fd k') : Holds k₀ k' (held ++ [(fd, k.files.length)]) := by
  have hfree : k.file? fd = none := by rw [Kernel.file?, hinstalled.free]; rfl
  have hunused := h.unused hfree
  have hfile := hinstalled.file?
  constructor
  · rw [List.map_append]
    refine List.nodup_append.2 ⟨h.nodup, List.nodup_singleton _, ?_⟩
    rintro n hn _ hm rfl
    obtain rfl : n = fd := by simpa using hm
    exact hunused hn
  · intro e he
    rcases List.mem_append.1 he with he | he
    · exact h.free e he
    · obtain rfl : e = (fd, k.files.length) := by simpa using he
      exact (h.own fd hunused).symm.trans hfree
  · intro e he
    rw [hfile]
    rcases List.mem_append.1 he with he | he
    · have hne : e.1 ≠ fd := fun hfd ↦ hunused (hfd ▸ List.mem_map_of_mem he)
      rw [Function.update_of_ne hne, h.has e he]
    · obtain rfl : e = (fd, k.files.length) := by simpa using he
      rw [Function.update_self]
  · intro n hn
    rw [List.map_append, List.mem_append, not_or] at hn
    have hne : n ≠ fd := by simpa using hn.2
    rw [hfile, Function.update_of_ne hne, h.own n hn.1]

theorem Holds.release {closed kept : List (Int × Nat)} (h : Holds k₀ k held)
    (hsplit : held.Perm (kept ++ closed))
    (hclosed : ∀ fd, k'.file? fd = if fd ∈ closed.map (·.1) then none else k.file? fd) :
    Holds k₀ k' kept := by
  have hnodup := (hsplit.map (·.1)).nodup h.nodup
  rw [List.map_append] at hnodup
  obtain ⟨hkept, -, hapart⟩ := List.nodup_append.1 hnodup
  have hmem {e : Int × Nat} (he : e ∈ kept) : e ∈ held := hsplit.mem_iff.2 (List.mem_append_left _ he)
  constructor
  · exact hkept
  · exact fun e he ↦ h.free e (hmem he)
  · intro e he
    have hopen : e.1 ∉ closed.map (·.1) := fun hgone ↦
      hapart e.1 (List.mem_map_of_mem he) e.1 hgone rfl
    rw [hclosed, if_neg hopen, h.has e (hmem he)]
  · intro fd hfd
    rw [hclosed]
    split
    · next hgone =>
      obtain ⟨e, he, rfl⟩ := List.mem_map.1 hgone
      exact (h.free e (hsplit.mem_iff.2 (List.mem_append_right _ he))).symm
    · next hopen =>
      refine h.own fd fun hheld ↦ ?_
      rw [(hsplit.map (·.1)).mem_iff, List.map_append] at hheld
      exact (List.mem_append.1 hheld).elim hfd hopen

theorem Holds.file? (h : Holds k₀ k []) : k.file? = k₀.file? :=
  funext fun fd ↦ h.own fd List.not_mem_nil

end JobShell.Kernel

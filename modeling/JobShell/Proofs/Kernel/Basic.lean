import Mathlib.Logic.Function.Basic
import JobShell.Machine.Kernel
import JobShell.Proofs.Sys.Calls

namespace JobShell

/-- A file opened by a call. Nobody else writes to a temporary file, so that its content is known, with
the place where reading and writing go on. -/
structure OpenFile where
  call : Call
  content : Option (ByteArray × Nat) := none

structure Kernel where
  descriptors : Descriptors := {}
  files : List OpenFile := []

def Seek.within (c : ByteArray × Nat) : Seek → Nat
  | .start => 0
  | .back count => c.2 - count
  | .«end» => c.1.size

/-- The calls that leave the descriptors of a process as they are, and the process alone with its
program. -/
def Call.isStill : Call → Prop
  | .«open» _ _ _ | .close _ | .duplicate _ _ | .duplicateAbove _ _ | .setCloseOnExec _ | .pipe
  | .temporary _ | .openLog _ _ | .fork | .exec _ _ _ => False
  | _ => True

/-- Which calls for new descriptors a kernel refuses, and why. -/
abbrev Refusals := Kernel → Call → Option Errno

namespace Kernel

open Sys (Runs)

/-- Splits the change of a kernel from the value that comes with it. -/
def split {β : Type} (k : Kernel) : Except Errno (β × Kernel) → Except Errno β × Kernel
  | .ok (b, k') => (.ok b, k')
  | .error e => (.error e, k)

def install (k : Kernel) (f : OpenFile) (closeOnExec : Bool) : Except Errno (Int × Kernel) := do
  let (fd, descriptors) ← k.descriptors.open? 0 ⟨k.files.length, closeOnExec⟩
  .ok (fd, ⟨descriptors, k.files ++ [f]⟩)

def withDescriptors (k : Kernel) (d : Except Errno Descriptors) : Except Errno (Unit × Kernel) :=
  d.map fun d ↦ ((), { k with descriptors := d })

def grant {β : Type} (refused : Option Errno) (x : Except Errno (β × Kernel)) :
    Except Errno (β × Kernel) :=
  match refused with
  | some e => .error e
  | none => x

def descriptor? (k : Kernel) (fd : Int) : Option Descriptor :=
  (Machine.number fd).toOption.bind k.descriptors.get?

def file? (k : Kernel) (fd : Int) : Option Nat := (k.descriptor? fd).map (·.file)

/-- Changes the content of the file behind a number, if it is known. -/
def modifyFile (k : Kernel) (fd : Int) (f : ByteArray × Nat → ByteArray × Nat) : Kernel :=
  match k.descriptor? fd with
  | some d => { k with files := k.files.modify d.file fun o ↦ { o with content := o.content.map f } }
  | none => k

/-- The reply that a call may get, and what it leaves. Calls that are not told apart here change nothing
that a process has open. -/
def Answers (refuses : Refusals) (k : Kernel) : (c : Call) → Reply c → Kernel → Prop
  | .«open» path flags mode, r, k' =>
    (r, k') = k.split (grant (refuses k (.«open» path flags mode))
      (k.install ⟨.«open» path flags mode, none⟩ flags.closeOnExec))
  | .temporary template, r, k' =>
    ∃ path, (r, k') = k.split ((grant (refuses k (.temporary template))
      (k.install ⟨.temporary template, some (.empty, 0)⟩ false)).map fun x ↦ ((x.1, path), x.2))
  | .pipe, r, k' =>
    (r, k') = k.split (grant (refuses k .pipe) do
      let (input, k) ← k.install ⟨.pipe, none⟩ false
      let (output, k) ← k.install ⟨.pipe, none⟩ false
      .ok ((input, output), k))
  | .openLog path level, r, k' =>
    (r, k') = k.split ((grant (refuses k (.openLog path level))
      (k.install ⟨.openLog path level, none⟩ true)).map fun x ↦ ((), x.2))
  | .close fd, r, k' =>
    (r, k') = k.split (k.withDescriptors (Machine.number fd >>= k.descriptors.close))
  | .duplicate fd target, r, k' =>
    (r, k') = k.split (k.withDescriptors do
      k.descriptors.duplicate (← Machine.number fd) (← Machine.number target))
  | .duplicateAbove fd low, r, k' =>
    (r, k') = k.split do
      let (copy, d) ← k.descriptors.duplicateAbove (← Machine.number fd) (← Machine.number low)
      .ok ((copy : Int), { k with descriptors := d })
  | .setCloseOnExec fd, r, k' =>
    (r, k') = k.split (k.withDescriptors (Machine.number fd >>= k.descriptors.setCloseOnExec))
  | .write fd bytes, r, k' =>
    match r with
    | .error _ => k' = k
    | .ok count => count ≤ bytes.size ∧ k' = k.modifyFile fd fun c ↦
        (Machine.splice c.1 c.2 (bytes.extract 0 count), c.2 + count)
  | .read fd count, r, k' =>
    match r with
    | .error _ => k' = k
    | .ok bytes => bytes.size ≤ count ∧ k' = k.modifyFile fd fun c ↦ (c.1, c.2 + bytes.size)
  | .seek fd place, r, k' =>
    match r with
    | .error _ => k' = k
    | .ok _ => k' = k.modifyFile fd fun c ↦ (c.1, place.within c)
  | _, _, k' => k' = k

/-- Calls answered one after another. -/
inductive Serves (refuses : Refusals) : Kernel → List Event → Kernel → Prop
  | nil (k : Kernel) : Serves refuses k [] k
  | cons {k k₁ k' : Kernel} {c : Call} {r : Reply c} {t : List Event} :
      k.Answers refuses c r k₁ → Serves refuses k₁ t k' → Serves refuses k (⟨c, r⟩ :: t) k'

/-- A program comes to an end with a result and leaves the kernel so. -/
def Ends {α : Type} (refuses : Refusals) (k : Kernel) (x : Sys α) (a : α) (k' : Kernel) : Prop :=
  ∃ t, Runs x t a ∧ Serves refuses k t k'

variable {refuses : Refusals} {k k₁ k' : Kernel} {α β : Type} {t u : List Event}

theorem Serves.append (h : Serves refuses k t k₁) (h' : Serves refuses k₁ u k') :
    Serves refuses k (t ++ u) k' := by
  induction h with
  | nil => exact h'
  | cons hc _ ih => exact .cons hc (ih h')

theorem serves_append : Serves refuses k (t ++ u) k' ↔
    ∃ k₁, Serves refuses k t k₁ ∧ Serves refuses k₁ u k' := by
  constructor
  · intro h
    induction t generalizing k with
    | nil => exact ⟨k, .nil k, h⟩
    | cons e t ih =>
      cases h with
      | cons hc h =>
        obtain ⟨k₁, ht, hu⟩ := ih h
        exact ⟨k₁, .cons hc ht, hu⟩
  · rintro ⟨k₁, ht, hu⟩
    exact ht.append hu

theorem ends_pure {a b : α} : Ends refuses k (pure a) b k' ↔ b = a ∧ k' = k := by
  constructor
  · rintro ⟨t, h, hserves⟩
    obtain ⟨rfl, rfl⟩ := Sys.runs_pure.1 h
    cases hserves
    exact ⟨rfl, rfl⟩
  · rintro ⟨rfl, rfl⟩
    exact ⟨[], .done _, .nil _⟩

theorem ends_bind {x : Sys α} {f : α → Sys β} {b : β} :
    Ends refuses k (x >>= f) b k' ↔
      ∃ a k₁, Ends refuses k x a k₁ ∧ Ends refuses k₁ (f a) b k' := by
  constructor
  · rintro ⟨t, h, hserves⟩
    obtain ⟨u, v, a, rfl, hx, hf⟩ := Sys.runs_bind.1 h
    obtain ⟨k₁, hu, hv⟩ := serves_append.1 hserves
    exact ⟨a, k₁, ⟨u, hx, hu⟩, ⟨v, hf, hv⟩⟩
  · rintro ⟨a, k₁, ⟨u, hx, hu⟩, ⟨v, hf, hv⟩⟩
    exact ⟨u ++ v, hx.bind hf, hu.append hv⟩

theorem ends_map {x : Sys α} {f : α → β} {b : β} :
    Ends refuses k (f <$> x) b k' ↔ ∃ a, Ends refuses k x a k' ∧ b = f a := by
  rw [← bind_pure_comp, ends_bind]
  constructor
  · rintro ⟨a, k₁, hx, hend⟩
    obtain ⟨rfl, rfl⟩ := ends_pure.1 hend
    exact ⟨a, hx, rfl⟩
  · rintro ⟨a, hx, rfl⟩
    exact ⟨a, k', hx, ends_pure.2 ⟨rfl, rfl⟩⟩

theorem ends_ask {c : Call} {r : Reply c} :
    Ends refuses k (Sys.ask c) r k' ↔ k.Answers refuses c r k' := by
  constructor
  · rintro ⟨t, h, hserves⟩
    obtain rfl := Sys.runs_ask.1 h
    cases hserves with
    | cons hc hnil =>
      cases hnil
      exact hc
  · intro h
    exact ⟨[⟨c, r⟩], Sys.runs_ask.2 rfl, .cons h (.nil _)⟩

theorem not_ends_hang {a : α} : ¬ Ends refuses k Sys.hang a k' :=
  fun ⟨_, h, _⟩ ↦ Sys.not_runs_hang h

variable {fd target n : Int} {d : Descriptor}

theorem number_natCast (n : Nat) : Machine.number n = .ok n := by
  rw [Machine.number, if_neg (by omega), Int.toNat_natCast]

theorem descriptor?_natCast (k : Kernel) (n : Nat) : k.descriptor? n = k.descriptors.get? n := by
  rw [descriptor?, number_natCast]
  rfl

theorem descriptor?_of_neg (h : fd < 0) : k.descriptor? fd = none := by
  rw [descriptor?, Machine.number, if_pos h]
  rfl

theorem nonneg_of_descriptor? (h : k.descriptor? fd = some d) : 0 ≤ fd := by
  by_contra hneg
  rw [descriptor?_of_neg (Int.not_le.1 hneg)] at h
  cases h

theorem descriptor?_set (t : Descriptors) (files : List OpenFile) (n : Nat) (d : Descriptor) :
    descriptor? ⟨t.set n d, files⟩ = Function.update (descriptor? ⟨t, files⟩) n (some d) := by
  funext fd
  by_cases hneg : fd < 0
  · rw [Function.update_of_ne (by omega), descriptor?_of_neg hneg, descriptor?_of_neg hneg]
  · obtain ⟨m, rfl⟩ := Int.eq_ofNat_of_zero_le (Int.not_lt.1 hneg)
    rw [descriptor?_natCast]
    by_cases hm : m = n
    · rw [hm, Descriptors.get?_set_self, Function.update_self]
    · rw [Descriptors.get?_set_of_ne t d hm, Function.update_of_ne (by omega), descriptor?_natCast]

theorem descriptor?_erase (t : Descriptors) (files : List OpenFile) (n : Nat) :
    descriptor? ⟨t.erase n, files⟩ = Function.update (descriptor? ⟨t, files⟩) n none := by
  funext fd
  by_cases hneg : fd < 0
  · rw [Function.update_of_ne (by omega), descriptor?_of_neg hneg, descriptor?_of_neg hneg]
  · obtain ⟨m, rfl⟩ := Int.eq_ofNat_of_zero_le (Int.not_lt.1 hneg)
    rw [descriptor?_natCast]
    by_cases hm : m = n
    · rw [hm, Descriptors.get?_erase_self, Function.update_self]
    · rw [Descriptors.get?_erase_of_ne t hm, Function.update_of_ne (by omega), descriptor?_natCast]

theorem file?_update {x : Option Descriptor}
    (h : k'.descriptor? = Function.update k.descriptor? fd x) :
    k'.file? = Function.update k.file? fd (x.map (·.file)) := by
  funext n
  rw [file?, h]
  by_cases hn : n = fd
  · rw [hn, Function.update_self, Function.update_self]
  · rw [Function.update_of_ne hn, Function.update_of_ne hn]
    rfl

theorem file?_congr (h : k'.descriptor? n = k.descriptor? n) : k'.file? n = k.file? n :=
  congrArg (Option.map Descriptor.file) h

structure Installed (k : Kernel) (f : OpenFile) (closeOnExec : Bool) (fd : Int) (k' : Kernel) :
    Prop where
  least : fd = k.descriptors.free 0
  lt : fd < Descriptors.limit
  descriptors : k'.descriptor? = Function.update k.descriptor? fd (some ⟨k.files.length, closeOnExec⟩)
  files : k'.files = k.files ++ [f]

variable {f : OpenFile} {closeOnExec : Bool}

theorem Installed.free (h : k.Installed f closeOnExec fd k') : k.descriptor? fd = none := by
  rw [h.least, descriptor?_natCast, Descriptors.get?_free]

theorem Installed.file? (h : k.Installed f closeOnExec fd k') :
    k'.file? = Function.update k.file? fd (some k.files.length) := file?_update h.descriptors

theorem install_eq_ok (h : k.install f closeOnExec = .ok (fd, k')) :
    k.Installed f closeOnExec fd k' := by
  rw [install, Descriptors.open?] at h
  split at h
  · next hlt =>
    cases h
    exact ⟨rfl, by omega, descriptor?_set _ _ _ _, rfl⟩
  · cases h

theorem eq_split {x : Except Errno (β × Kernel)} {r : Except Errno β} (h : (r, k') = k.split x) :
    (∃ e, x = .error e ∧ r = .error e ∧ k' = k) ∨ ∃ b, x = .ok (b, k') ∧ r = .ok b := by
  cases x with
  | error e =>
    cases h
    exact .inl ⟨e, rfl, rfl, rfl⟩
  | ok x =>
    cases h
    exact .inr ⟨x.1, rfl, rfl⟩

theorem eq_of_grant {refused : Option Errno} {x : Except Errno (β × Kernel)} {y : β × Kernel}
    (h : grant refused x = .ok y) : refused = none ∧ x = .ok y := by
  cases refused with
  | some e => cases h
  | none => exact ⟨rfl, h⟩

theorem answers_open {path : String} {flags : OpenFlags} {mode : Nat} {r : Except Errno Int}
    (h : k.Answers refuses (.«open» path flags mode) r k') :
    (∃ e, r = .error e ∧ k' = k) ∨
      ∃ fd, r = .ok fd ∧ k.Installed ⟨.«open» path flags mode, none⟩ flags.closeOnExec fd k' := by
  obtain ⟨e, -, rfl, rfl⟩ | ⟨fd, hx, rfl⟩ := eq_split h
  · exact .inl ⟨e, rfl, rfl⟩
  · exact .inr ⟨fd, rfl, install_eq_ok (eq_of_grant hx).2⟩

theorem answers_open_of_refused {path : String} {flags : OpenFlags} {mode : Nat} {r : Except Errno Int}
    {e : Errno} (hrefused : refuses k (.«open» path flags mode) = some e)
    (h : k.Answers refuses (.«open» path flags mode) r k') : r = .error e ∧ k' = k := by
  have h : (r, k') = k.split (grant (refuses k (.«open» path flags mode))
    (k.install ⟨.«open» path flags mode, none⟩ flags.closeOnExec)) := h
  rw [hrefused] at h
  cases h
  exact ⟨rfl, rfl⟩

theorem answers_open_of_granted {path : String} {flags : OpenFlags} {mode : Nat} {r : Except Errno Int}
    (hgranted : refuses k (.«open» path flags mode) = none)
    (hroom : k.descriptors.free 0 < Descriptors.limit)
    (h : k.Answers refuses (.«open» path flags mode) r k') :
    ∃ fd, r = .ok fd ∧ k.Installed ⟨.«open» path flags mode, none⟩ flags.closeOnExec fd k' := by
  obtain ⟨e, hx, -, -⟩ | ⟨fd, hx, rfl⟩ := eq_split h
  · rw [hgranted, grant, install, Descriptors.open?] at hx
    simp only [if_pos hroom, bind, Except.bind] at hx
    cases hx
  · exact ⟨fd, rfl, install_eq_ok (eq_of_grant hx).2⟩

theorem answers_temporary {template : String} {r : Except Errno (Int × String)}
    (h : k.Answers refuses (.temporary template) r k') :
    (∃ e, r = .error e ∧ k' = k) ∨
      ∃ fd path, r = .ok (fd, path) ∧
        k.Installed ⟨.temporary template, some (.empty, 0)⟩ false fd k' := by
  obtain ⟨path, h⟩ := h
  obtain ⟨e, -, rfl, rfl⟩ | ⟨made, hx, rfl⟩ := eq_split h
  · exact .inl ⟨e, rfl, rfl⟩
  · cases hy : grant (refuses k (.temporary template))
        (k.install ⟨.temporary template, some (.empty, 0)⟩ false) with
    | error e =>
      rw [hy] at hx
      cases hx
    | ok y =>
      rw [hy] at hx
      cases hx
      exact .inr ⟨y.1, path, rfl, install_eq_ok (eq_of_grant hy).2⟩

theorem answers_openLog {path : String} {level : LogLevel} {r : Except Errno Unit}
    (h : k.Answers refuses (.openLog path level) r k') :
    (∃ e, r = .error e ∧ k' = k) ∨
      ∃ fd, r = .ok () ∧ k.Installed ⟨.openLog path level, none⟩ true fd k' := by
  obtain ⟨e, -, rfl, rfl⟩ | ⟨_, hx, rfl⟩ := eq_split h
  · exact .inl ⟨e, rfl, rfl⟩
  · cases hy : grant (refuses k (.openLog path level))
        (k.install ⟨.openLog path level, none⟩ true) with
    | error e =>
      rw [hy] at hx
      cases hx
    | ok y =>
      rw [hy] at hx
      cases hx
      exact .inr ⟨y.1, rfl, install_eq_ok (eq_of_grant hy).2⟩

theorem answers_pipe {r : Except Errno (Int × Int)} (h : k.Answers refuses .pipe r k') :
    (∃ e, r = .error e ∧ k' = k) ∨
      ∃ input output k₁, r = .ok (input, output) ∧ k.Installed ⟨.pipe, none⟩ false input k₁ ∧
        k₁.Installed ⟨.pipe, none⟩ false output k' := by
  obtain ⟨e, -, rfl, rfl⟩ | ⟨ends, hx, rfl⟩ := eq_split h
  · exact .inl ⟨e, rfl, rfl⟩
  · replace hx := (eq_of_grant hx).2
    cases hinput : k.install ⟨.pipe, none⟩ false with
    | error e =>
      rw [hinput] at hx
      cases hx
    | ok x =>
      obtain ⟨input, k₁⟩ := x
      rw [hinput] at hx
      cases houtput : k₁.install ⟨.pipe, none⟩ false with
      | error e =>
        simp only [bind, Except.bind, houtput] at hx
        cases hx
      | ok y =>
        simp only [bind, Except.bind, houtput] at hx
        cases hx
        exact .inr ⟨input, y.1, k₁, rfl, install_eq_ok hinput, install_eq_ok houtput⟩

def Valid (fd : Int) : Prop := 0 ≤ fd ∧ fd < Descriptors.limit

instance (fd : Int) : Decidable (Valid fd) := inferInstanceAs (Decidable (_ ∧ _))

theorem number_of_neg (h : fd < 0) : Machine.number fd = .error .badDescriptor := if_pos h

theorem eq_natCast_of_descriptor? (h : k.descriptor? fd = some d) :
    ∃ m : Nat, fd = m ∧ k.descriptors.get? m = some d := by
  obtain ⟨m, rfl⟩ := Int.eq_ofNat_of_zero_le (nonneg_of_descriptor? h)
  exact ⟨m, rfl, descriptor?_natCast k m ▸ h⟩

theorem number_bind_of_closed {f : Nat → Except Errno β} (hclosed : k.descriptor? fd = none)
    (hf : ∀ n, k.descriptors.get? n = none → f n = .error .badDescriptor) :
    Machine.number fd >>= f = .error .badDescriptor := by
  by_cases hneg : fd < 0
  · rw [number_of_neg hneg]
    rfl
  · obtain ⟨n, rfl⟩ := Int.eq_ofNat_of_zero_le (Int.not_lt.1 hneg)
    rw [number_natCast]
    exact hf n (descriptor?_natCast k n ▸ hclosed)

theorem answers_duplicate_of_closed {r : Except Errno Unit}
    (h : k.Answers refuses (.duplicate fd target) r k') (hclosed : k.descriptor? fd = none) :
    r = .error .badDescriptor ∧ k' = k := by
  have hfails : (do k.descriptors.duplicate (← Machine.number fd) (← Machine.number target)) =
      .error .badDescriptor := by
    refine number_bind_of_closed hclosed fun n hn ↦ ?_
    by_cases hneg : target < 0
    · rw [number_of_neg hneg]
      rfl
    · obtain ⟨m, rfl⟩ := Int.eq_ofNat_of_zero_le (Int.not_lt.1 hneg)
      rw [number_natCast]
      simp only [bind, Except.bind, Descriptors.duplicate, hn]
  have h : (r, k') = k.split (k.withDescriptors
    (do k.descriptors.duplicate (← Machine.number fd) (← Machine.number target))) := h
  rw [hfails] at h
  cases h
  exact ⟨rfl, rfl⟩

theorem answers_duplicate {r : Except Errno Unit}
    (h : k.Answers refuses (.duplicate fd target) r k') (hopen : k.descriptor? fd = some d) :
    (¬ Valid target ∧ r = .error .badDescriptor ∧ k' = k) ∨
      Valid target ∧ r = .ok () ∧ k'.files = k.files ∧
        k'.descriptor? = if fd = target then k.descriptor?
          else Function.update k.descriptor? target (some ⟨d.file, false⟩) := by
  obtain ⟨n, rfl, hn⟩ := eq_natCast_of_descriptor? hopen
  have h : (r, k') = k.split (k.withDescriptors
    (do k.descriptors.duplicate (← Machine.number n) (← Machine.number target))) := h
  rw [number_natCast] at h
  by_cases hneg : target < 0
  · rw [number_of_neg hneg] at h
    cases h
    exact .inl ⟨fun hvalid ↦ absurd hvalid.1 (Int.not_le.2 hneg), rfl, rfl⟩
  · obtain ⟨m, rfl⟩ := Int.eq_ofNat_of_zero_le (Int.not_lt.1 hneg)
    rw [number_natCast] at h
    simp only [bind, Except.bind, Descriptors.duplicate, hn] at h
    split at h
    · next hlimit =>
      cases h
      exact .inl ⟨fun hvalid ↦ by have := hvalid.2; omega, rfl, rfl⟩
    · next hlimit =>
      refine .inr ⟨⟨by omega, by omega⟩, ?_⟩
      split at h
      · next hnm =>
        cases h
        rw [if_pos (congrArg _ hnm)]
        exact ⟨rfl, rfl, rfl⟩
      · next hnm =>
        cases h
        rw [if_neg (by omega)]
        exact ⟨rfl, rfl, descriptor?_set _ _ _ _⟩

theorem file?_duplicate {r : Except Errno Unit} {file : Nat}
    (h : k.Answers refuses (.duplicate fd target) r k') (hopen : k.file? fd = some file)
    (hvalid : Valid target) :
    r = .ok () ∧ k'.files = k.files ∧ k'.file? = Function.update k.file? target (some file) := by
  obtain ⟨d, hd, rfl⟩ := Option.map_eq_some_iff.1 hopen
  obtain ⟨hinvalid, -, -⟩ | ⟨-, hr, hfiles, hnumbers⟩ := answers_duplicate h hd
  · exact absurd hvalid hinvalid
  · refine ⟨hr, hfiles, ?_⟩
    split at hnumbers
    · next hsame =>
      rw [← hsame, ← hopen, Function.update_eq_self]
      funext n
      exact file?_congr (congrFun hnumbers n)
    · exact file?_update hnumbers

theorem answers_close {r : Except Errno Unit} (h : k.Answers refuses (.close fd) r k') :
    (k.descriptor? fd = none ∧ r = .error .badDescriptor ∨ k.descriptor? fd ≠ none ∧ r = .ok ()) ∧
      k'.descriptor? = Function.update k.descriptor? fd none ∧ k'.files = k.files := by
  have h : (r, k') = k.split (k.withDescriptors (Machine.number fd >>= k.descriptors.close)) := h
  cases hopen : k.descriptor? fd with
  | none =>
    rw [number_bind_of_closed hopen fun n hn ↦ by rw [Descriptors.close, hn]] at h
    cases h
    rw [← hopen, Function.update_eq_self]
    exact ⟨.inl ⟨rfl, rfl⟩, rfl, rfl⟩
  | some d =>
    obtain ⟨n, rfl, hn⟩ := eq_natCast_of_descriptor? hopen
    rw [number_natCast] at h
    simp only [bind, Except.bind, Descriptors.close, hn] at h
    cases h
    exact ⟨.inr ⟨Option.some_ne_none d, rfl⟩, descriptor?_erase _ _ _, rfl⟩

theorem ends_drop (h : Ends refuses k (Sys.drop fd) () k') :
    k'.descriptor? = Function.update k.descriptor? fd none ∧ k'.files = k.files := by
  obtain ⟨r, k₁, hclose, hend⟩ := ends_bind.1 h
  obtain ⟨-, rfl⟩ := ends_pure.1 hend
  exact (answers_close (ends_ask.1 hclose)).2

theorem answers_duplicateAbove {low : Int} {r : Except Errno Int} (hlow : Valid low)
    (h : k.Answers refuses (.duplicateAbove fd low) r k') :
    (k.descriptor? fd = none ∧ r = .error .badDescriptor ∧ k' = k) ∨
      (k.descriptor? fd ≠ none ∧ r = .error .tooManyOpen ∧ k' = k) ∨
      ∃ d copy, k.descriptor? fd = some d ∧ r = .ok copy ∧ k.descriptor? copy = none ∧
        Valid copy ∧ low ≤ copy ∧ k'.files = k.files ∧
        k'.descriptor? = Function.update k.descriptor? copy (some ⟨d.file, true⟩) := by
  obtain ⟨low, rfl⟩ := Int.eq_ofNat_of_zero_le hlow.1
  have hlow : low < Descriptors.limit := by have := hlow.2; omega
  have h : (r, k') = k.split (Machine.number fd >>= fun n ↦ do
      let (copy, d) ← k.descriptors.duplicateAbove n (← Machine.number low)
      .ok ((copy : Int), { k with descriptors := d })) := h
  rw [number_natCast] at h
  cases hopen : k.descriptor? fd with
  | none =>
    rw [number_bind_of_closed hopen fun n hn ↦ by
      simp only [bind, Except.bind, Descriptors.duplicateAbove, hn]] at h
    cases h
    exact .inl ⟨rfl, rfl, rfl⟩
  | some d =>
    obtain ⟨n, rfl, hn⟩ := eq_natCast_of_descriptor? hopen
    rw [number_natCast] at h
    simp only [bind, Except.bind, Descriptors.duplicateAbove, hn, if_neg (Nat.not_le.2 hlow),
      Descriptors.open?] at h
    by_cases hroom : k.descriptors.free low < Descriptors.limit
    · rw [if_pos hroom] at h
      cases h
      refine .inr (.inr ⟨d, _, rfl, rfl, ?_, ⟨by omega, by omega⟩, ?_, rfl, descriptor?_set _ _ _ _⟩)
      · rw [descriptor?_natCast, Descriptors.get?_free]
      · exact Int.ofNat_le.2 (le_leastUnused low _)
    · rw [if_neg hroom] at h
      cases h
      exact .inr (.inl ⟨Option.some_ne_none d, rfl, rfl⟩)

theorem answers_duplicateAbove_of_invalid {low : Int} {r : Except Errno Int} (hlow : ¬ Valid low)
    (h : k.Answers refuses (.duplicateAbove fd low) r k') : k' = k := by
  obtain ⟨e, -, -, rfl⟩ | ⟨copy, hx, -⟩ := eq_split h
  · rfl
  · exfalso
    by_cases hfd : fd < 0
    · rw [number_of_neg hfd] at hx
      cases hx
    · obtain ⟨n, rfl⟩ := Int.eq_ofNat_of_zero_le (Int.not_lt.1 hfd)
      by_cases hneg : low < 0
      · rw [number_natCast, number_of_neg hneg] at hx
        cases hx
      · obtain ⟨m, rfl⟩ := Int.eq_ofNat_of_zero_le (Int.not_lt.1 hneg)
        have hlimit : Descriptors.limit ≤ m := by
          by_contra hlt
          exact hlow ⟨by omega, by omega⟩
        rw [number_natCast, number_natCast] at hx
        simp only [bind, Except.bind, Descriptors.duplicateAbove, if_pos hlimit] at hx
        cases hn : k.descriptors.get? n <;> rw [hn] at hx <;> cases hx

theorem answers_setCloseOnExec {r : Except Errno Unit}
    (h : k.Answers refuses (.setCloseOnExec fd) r k') :
    (k.descriptor? fd = none ∧ r = .error .badDescriptor ∧ k' = k) ∨
      ∃ d, k.descriptor? fd = some d ∧ r = .ok () ∧ k'.files = k.files ∧
        k'.descriptor? = Function.update k.descriptor? fd (some ⟨d.file, true⟩) := by
  have h : (r, k') =
    k.split (k.withDescriptors (Machine.number fd >>= k.descriptors.setCloseOnExec)) := h
  cases hopen : k.descriptor? fd with
  | none =>
    rw [number_bind_of_closed hopen fun n hn ↦ by rw [Descriptors.setCloseOnExec, hn]] at h
    cases h
    exact .inl ⟨rfl, rfl, rfl⟩
  | some d =>
    obtain ⟨n, rfl, hn⟩ := eq_natCast_of_descriptor? hopen
    rw [number_natCast] at h
    simp only [bind, Except.bind, Descriptors.setCloseOnExec, hn] at h
    cases h
    exact .inr ⟨d, rfl, rfl, rfl, descriptor?_set _ _ _ _⟩

theorem descriptors_modifyFile (k : Kernel) (fd : Int) (f : ByteArray × Nat → ByteArray × Nat) :
    (k.modifyFile fd f).descriptors = k.descriptors ∧
      (k.modifyFile fd f).files.length = k.files.length := by
  unfold modifyFile
  split
  · exact ⟨rfl, List.length_modify _ _ _⟩
  · exact ⟨rfl, rfl⟩

theorem Answers.still {c : Call} {r : Reply c} (hc : c.isStill) (h : k.Answers refuses c r k') :
    k'.descriptors = k.descriptors ∧ k'.files.length = k.files.length := by
  have hsame (h : k' = k) : k'.descriptors = k.descriptors ∧ k'.files.length = k.files.length :=
    h ▸ ⟨rfl, rfl⟩
  cases c with
  | «open» | close | duplicate | duplicateAbove | setCloseOnExec | pipe | temporary | openLog | fork
  | exec => cases hc
  | write fd bytes =>
    cases r with
    | error e => exact hsame h
    | ok count => exact h.2 ▸ k.descriptors_modifyFile fd _
  | read fd count =>
    cases r with
    | error e => exact hsame h
    | ok bytes => exact h.2 ▸ k.descriptors_modifyFile fd _
  | seek fd place =>
    cases r with
    | error e => exact hsame h
    | ok _ => exact h ▸ k.descriptors_modifyFile fd _
  | _ => exact hsame h

/-- Numbers in use are valid, and stand for files that have been opened. -/
def Sound (k : Kernel) : Prop :=
  ∀ fd d, k.descriptor? fd = some d → Valid fd ∧ d.file < k.files.length

theorem sound_of_entries
    (h : ∀ e ∈ k.descriptors.entries, e.1 < Descriptors.limit ∧ e.2.file < k.files.length) : k.Sound := by
  intro fd d hd
  obtain ⟨n, rfl, hn⟩ := eq_natCast_of_descriptor? hd
  obtain ⟨e, he, rfl⟩ := Option.map_eq_some_iff.1 hn
  have hnumber : e.1 = n := by simpa using List.find?_some he
  obtain ⟨hlt, hfile⟩ := h e (List.mem_of_find?_eq_some he)
  exact ⟨⟨by omega, by omega⟩, hfile⟩

theorem Sound.of_eq (hk : k.Sound) (hdescriptors : k'.descriptor? = k.descriptor?)
    (hfiles : k'.files.length = k.files.length) : k'.Sound := by
  intro fd d h
  rw [hdescriptors] at h
  exact hfiles ▸ hk fd d h

theorem Sound.close (hk : k.Sound) (hdescriptors : k'.descriptor? = Function.update k.descriptor? fd none)
    (hfiles : k'.files = k.files) : k'.Sound := by
  intro n d h
  rw [hdescriptors] at h
  rw [hfiles]
  by_cases hn : n = fd
  · rw [hn, Function.update_self] at h
    cases h
  · rw [Function.update_of_ne hn] at h
    exact hk n d h

theorem Sound.update (hk : k.Sound) {d : Descriptor} (hvalid : Valid fd) (hd : d.file < k'.files.length)
    (hdescriptors : k'.descriptor? = Function.update k.descriptor? fd (some d))
    (hfiles : k.files.length ≤ k'.files.length) : k'.Sound := by
  intro n c h
  rw [hdescriptors] at h
  by_cases hn : n = fd
  · rw [hn, Function.update_self] at h
    cases h
    exact ⟨hn ▸ hvalid, hd⟩
  · rw [Function.update_of_ne hn] at h
    obtain ⟨hvalid, hc⟩ := hk n c h
    exact ⟨hvalid, by omega⟩

theorem Installed.valid (h : k.Installed f closeOnExec fd k') : Valid fd := by
  obtain ⟨rfl, hlt, -, -⟩ := h
  exact ⟨by omega, hlt⟩

theorem Installed.sound (hk : k.Sound) (h : k.Installed f closeOnExec fd k') : k'.Sound := by
  have hlength : k'.files.length = k.files.length + 1 := by rw [h.files, List.length_append]; rfl
  exact hk.update h.valid (by simp only; omega) h.descriptors (by omega)

/-- Whatever is called, the kernel stays sound. -/
theorem Answers.sound {c : Call} {r : Reply c} (hk : k.Sound) (h : k.Answers refuses c r k') :
    k'.Sound := by
  by_cases hstill : c.isStill
  · obtain ⟨hdescriptors, hfiles⟩ := h.still hstill
    exact hk.of_eq (by unfold descriptor?; rw [hdescriptors]) hfiles
  -- only calls that change descriptors are left
  · cases c with
    | «open» path flags mode =>
      obtain ⟨e, -, rfl⟩ | ⟨fd, -, hinstalled⟩ := answers_open h
      · exact hk
      · exact hinstalled.sound hk
    | temporary template =>
      obtain ⟨e, -, rfl⟩ | ⟨fd, path, -, hinstalled⟩ := answers_temporary h
      · exact hk
      · exact hinstalled.sound hk
    | openLog path level =>
      obtain ⟨e, -, rfl⟩ | ⟨fd, -, hinstalled⟩ := answers_openLog h
      · exact hk
      · exact hinstalled.sound hk
    | pipe =>
      obtain ⟨e, -, rfl⟩ | ⟨input, output, k₁, -, hinput, houtput⟩ := answers_pipe h
      · exact hk
      · exact houtput.sound (hinput.sound hk)
    | close fd =>
      obtain ⟨-, hdescriptors, hfiles⟩ := answers_close h
      exact hk.close hdescriptors hfiles
    | setCloseOnExec fd =>
      obtain ⟨-, -, rfl⟩ | ⟨d, hopen, -, hfiles, hdescriptors⟩ := answers_setCloseOnExec h
      · exact hk
      · obtain ⟨hvalid, hd⟩ := hk fd d hopen
        exact hk.update hvalid (hfiles ▸ hd) hdescriptors (hfiles ▸ Nat.le_refl _)
    | duplicate fd target =>
      cases hopen : k.descriptor? fd with
      | none => exact (answers_duplicate_of_closed h hopen).2 ▸ hk
      | some d =>
        obtain ⟨-, -, rfl⟩ | ⟨hvalid, -, hfiles, hdescriptors⟩ := answers_duplicate h hopen
        · exact hk
        · split at hdescriptors
          · exact hk.of_eq hdescriptors (by rw [hfiles])
          · exact hk.update hvalid (hfiles ▸ (hk fd d hopen).2) hdescriptors (hfiles ▸ Nat.le_refl _)
    | duplicateAbove fd low =>
      by_cases hlow : Valid low
      · obtain ⟨-, -, rfl⟩ | ⟨-, -, rfl⟩ | ⟨d, copy, hopen, -, -, hvalid, -, hfiles, hdescriptors⟩ :=
          answers_duplicateAbove hlow h
        · exact hk
        · exact hk
        · exact hk.update hvalid (hfiles ▸ (hk fd d hopen).2) hdescriptors (hfiles ▸ Nat.le_refl _)
      · exact answers_duplicateAbove_of_invalid hlow h ▸ hk
    | fork | exec =>
      obtain rfl : k' = k := h
      exact hk
    | _ => exact absurd trivial hstill

theorem Serves.sound (hk : k.Sound) (h : Serves refuses k t k') : k'.Sound := by
  induction h with
  | nil => exact hk
  | cons hc _ ih => exact ih (hc.sound hk)

theorem Ends.sound {x : Sys α} {a : α} (hk : k.Sound) (h : Ends refuses k x a k') : k'.Sound :=
  let ⟨_, _, hserves⟩ := h
  hserves.sound hk

theorem Serves.still (ht : ∀ e ∈ t, e.call.isStill) (h : Serves refuses k t k') :
    k'.descriptors = k.descriptors ∧ k'.files.length = k.files.length := by
  induction h with
  | nil => exact ⟨rfl, rfl⟩
  | cons hc _ ih =>
    obtain ⟨hdescriptors, hfiles⟩ := hc.still (ht _ List.mem_cons_self)
    obtain ⟨hdescriptors', hfiles'⟩ := ih fun e he ↦ ht e (List.mem_cons_of_mem _ he)
    exact ⟨hdescriptors'.trans hdescriptors, hfiles'.trans hfiles⟩

theorem Ends.still {x : Sys α} {a : α} (hx : Sys.Only Call.isStill x) (h : Ends refuses k x a k') :
    k'.descriptors = k.descriptors ∧ k'.files.length = k.files.length :=
  let ⟨t, hruns, hserves⟩ := h
  hserves.still (hx t a hruns)

theorem isSome_file?_iff {n : Nat} : (k.file? n).isSome ↔ n ∈ k.descriptors.numbers := by
  rw [file?, descriptor?_natCast, Option.isSome_map, Descriptors.get?, Option.isSome_map]
  simp [Descriptors.numbers, List.find?_isSome]

theorem free_lt (hvalid : Valid n) (hfree : k.file? n = none) :
    k.descriptors.free 0 < Descriptors.limit := by
  obtain ⟨m, rfl⟩ := Int.eq_ofNat_of_zero_le hvalid.1
  by_contra hfull
  have hlt : m < Descriptors.limit := Int.ofNat_lt.1 hvalid.2
  have hused : m ∈ k.descriptors.numbers :=
    mem_of_lt_leastUnused (Nat.zero_le m) (Nat.lt_of_lt_of_le hlt (Nat.not_lt.1 hfull))
  have hsome : (k.file? m).isSome := isSome_file?_iff.2 hused
  rw [show k.file? m = none from hfree] at hsome
  cases hsome

def streams : Kernel :=
  ⟨⟨[(0, ⟨0, false⟩), (1, ⟨1, false⟩), (2, ⟨2, false⟩)]⟩,
    List.replicate 3 ⟨.«open» "/dev/tty" {} 0, none⟩⟩

theorem sound_streams : streams.Sound := sound_of_entries (by decide)

end Kernel

end JobShell

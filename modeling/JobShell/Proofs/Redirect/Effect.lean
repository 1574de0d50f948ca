import JobShell.Proofs.Redirect.Order

namespace JobShell

namespace Kernel

variable {refuses : Refusals} {k k' : Kernel}

/-- Why a file cannot be opened, if it cannot: the call is refused, or no number is free. -/
def obstacle (refuses : Refusals) (k : Kernel) (c : Call) : Option Errno :=
  (refuses k c).or (if k.descriptors.free 0 < Descriptors.limit then none else some .tooManyOpen)

theorem obstacle_of_room (h : k.descriptors.free 0 < Descriptors.limit) (c : Call) :
    k.obstacle refuses c = refuses k c := by
  rw [obstacle, if_pos h, Option.or_none]

theorem answers_open_obstacle {path : String} {flags : OpenFlags} {mode : Nat} {r : Except Errno Int}
    (h : k.Answers refuses (.«open» path flags mode) r k') :
    (∃ e, k.obstacle refuses (.«open» path flags mode) = some e ∧ r = .error e ∧ k' = k) ∨
      k.obstacle refuses (.«open» path flags mode) = none ∧
        ∃ fd, r = .ok fd ∧ k.Installed ⟨.«open» path flags mode, none⟩ flags.closeOnExec fd k' := by
  cases hrefused : refuses k (.«open» path flags mode) with
  | some e =>
    obtain ⟨rfl, rfl⟩ := answers_open_of_refused hrefused h
    exact .inl ⟨e, by rw [obstacle, hrefused, Option.some_or], rfl, rfl⟩
  | none =>
    by_cases hroom : k.descriptors.free 0 < Descriptors.limit
    · exact .inr ⟨(obstacle_of_room hroom _).trans hrefused, answers_open_of_granted hrefused hroom h⟩
    · have h : (r, k') = k.split (grant (refuses k (.«open» path flags mode))
        (k.install ⟨.«open» path flags mode, none⟩ flags.closeOnExec)) := h
      rw [hrefused, grant, install, Descriptors.open?, if_neg hroom] at h
      cases h
      exact .inl ⟨_, by rw [obstacle, hrefused, if_neg hroom, Option.none_or], rfl, rfl⟩

end Kernel

namespace Redirect

open Kernel (Ends Valid ends_bind ends_pure ends_ask)

variable {refuses : Refusals} {k k₁ k' : Kernel} {e : Redirection × Option Int}
  {x : Except Failure Unit} {d : Descriptor} {source n : Int}

/-- What a number stands for once `fd` has been duplicated onto it. What is there already stays as it
is. -/
def put (what : String) (v : Int → Option Descriptor) (fd source : Int) :
    Except Failure (Option Descriptor) :=
  match v fd with
  | some d =>
    if Valid source then .ok (some (if fd = source then d else ⟨d.file, false⟩))
    else .error (.redirectionFailed what .badDescriptor)
  | none => .error (.redirectionFailed what .badDescriptor)

/-- What the source of a redirection stands for once it has been applied. A file that is opened has the
number `opened`. -/
def effect (obstacle : Call → Option Errno) (opened : Nat) (v : Int → Option Descriptor) :
    Redirection × Option Int → Except Failure (Option Descriptor)
  | (.duplicate source target _, _) =>
    if target = source then .ok (v source) else put (Decimal.text target) v target source
  | (.close _ _, _) => .ok none
  | (.document source _, some fd) => put (Decimal.text source) v fd source
  | (.document _ _, none) => .error (.plain "here-document was not prepared")
  | (.path mode source name, _) =>
    match obstacle (.«open» (Text.spell name) (flagsOf mode) 0o644) with
    | some e => .error (.redirectionFailed name e)
    | none =>
      if Valid source then .ok (some ⟨opened, false⟩)
      else .error (.redirectionFailed name .badDescriptor)

def Takes (k : Kernel) (r : Redirection) (outcome : Except Failure (Option Descriptor))
    (x : Except Failure Unit) (k' : Kernel) : Prop :=
  match outcome with
  | .error f => x = .error f ∧ k'.descriptor? = k.descriptor?
  | .ok d => x = .ok () ∧ k'.descriptor? = Function.update k.descriptor? r.source d ∧
      k'.files = k.files ++ r.opens?.toList

theorem answers_put {fd : Int} {r : Except Errno Unit} (what : String)
    (h : k.Answers refuses (.duplicate fd source) r k') :
    (put what k.descriptor? fd source = .error (.redirectionFailed what .badDescriptor) ∧
      r = .error .badDescriptor ∧ k' = k) ∨
    ∃ d, k.descriptor? fd = some d ∧ Valid source ∧
      put what k.descriptor? fd source = .ok (some (if fd = source then d else ⟨d.file, false⟩)) ∧
      r = .ok () ∧ k'.files = k.files ∧
      k'.descriptor? =
        Function.update k.descriptor? source (some (if fd = source then d else ⟨d.file, false⟩)) := by
  cases hopen : k.descriptor? fd with
  | none =>
    obtain ⟨rfl, rfl⟩ := Kernel.answers_duplicate_of_closed h hopen
    exact .inl ⟨by rw [put, hopen], rfl, rfl⟩
  | some d =>
    obtain ⟨hinvalid, rfl, rfl⟩ | ⟨hvalid, rfl, hfiles, hnumbers⟩ := Kernel.answers_duplicate h hopen
    · exact .inl ⟨by simp only [put, hopen, if_neg hinvalid], rfl, rfl⟩
    · refine .inr ⟨d, rfl, hvalid, by simp only [put, hopen, if_pos hvalid], rfl, hfiles, ?_⟩
      rw [hnumbers]
      split
      · next hsame => rw [← hsame, ← hopen, Function.update_eq_self]
      · rfl

theorem takes_put {fd : Int} {what : String} {r : Redirection} (hsource : r.source = source)
    (hopens : r.opens? = none)
    (h : Ends refuses k (do return blame what (← Sys.ask (.duplicate fd source))) x k') :
    Takes k r (put what k.descriptor? fd source) x k' := by
  obtain ⟨reply, k₁, hasked, hend⟩ := ends_bind.1 h
  obtain ⟨rfl, rfl⟩ := ends_pure.1 hend
  obtain ⟨hput, rfl, rfl⟩ | ⟨d, -, -, hput, rfl, hfiles, hnumbers⟩ := answers_put what (ends_ask.1 hasked)
  · rw [hput]
    exact ⟨rfl, rfl⟩
  · rw [hput]
    exact ⟨rfl, hsource ▸ hnumbers, by rw [hfiles, hopens]; exact (List.append_nil _).symm⟩

theorem takes_path {mode : OpenMode} {name : String} {fd : Option Int}
    (h : Ends refuses k (applyOne (.path mode source name, fd)) x k') :
    Takes k (.path mode source name)
      (effect (k.obstacle refuses) k.files.length k.descriptor? (.path mode source name, fd)) x k' := by
  obtain ⟨reply, k₁, hasked, hnext⟩ := ends_bind.1 h
  simp only [effect]
  obtain ⟨e, hobstacle, rfl, rfl⟩ | ⟨hfree, fd, rfl, hinstalled⟩ :=
    Kernel.answers_open_obstacle (ends_ask.1 hasked)
  · obtain ⟨rfl, rfl⟩ := ends_pure.1 hnext
    rw [hobstacle]
    exact ⟨rfl, rfl⟩
  · rw [hfree]
    have hopened : k₁.descriptor? = Function.update k.descriptor? fd (some ⟨k.files.length, false⟩) := by
      rw [hinstalled.descriptors]
      cases mode <;> rfl
    simp only at hnext
    split at hnext
    · next hsame =>
      obtain ⟨rfl, rfl⟩ := ends_pure.1 hnext
      rw [if_pos (hsame ▸ hinstalled.valid)]
      exact ⟨rfl, hsame ▸ hopened, hinstalled.files⟩
    · next hne =>
      obtain ⟨moved, k₂, hmoved, hdrop⟩ := ends_bind.1 hnext
      obtain ⟨_, k₃, hclose, hend⟩ := ends_bind.1 hdrop
      obtain ⟨rfl, rfl⟩ := ends_pure.1 hend
      obtain ⟨hdropped, hfiles'⟩ := Kernel.ends_drop hclose
      have hfile : k₁.descriptor? fd = some ⟨k.files.length, false⟩ := by
        rw [hopened, Function.update_self]
      obtain ⟨hput, rfl, rfl⟩ | ⟨d, hd, hvalid, -, rfl, hfiles, hk⟩ := answers_put name (ends_ask.1 hmoved)
      · -- the source is no number to move a file to
        have hinvalid : ¬ Valid source := by
          intro hvalid
          rw [put, hfile] at hput
          simp only [if_pos hvalid] at hput
          cases hput
        rw [if_neg hinvalid]
        refine ⟨rfl, ?_⟩
        rw [hdropped, hopened, Function.update_idem, ← hinstalled.free, Function.update_eq_self]
      · -- the number at which the file was opened is free again
        obtain rfl : d = ⟨k.files.length, false⟩ := Option.some.inj (hd.symm.trans hfile)
        rw [if_pos hvalid]
        refine ⟨rfl, ?_, by rw [hfiles', hfiles, hinstalled.files]; rfl⟩
        rw [hdropped, hk, if_neg hne, hopened, Function.update_comm hne, Function.update_idem,
          ← hinstalled.free, Function.update_comm (Ne.symm hne), Function.update_eq_self]
        rfl

theorem takes_applyOne (h : Ends refuses k (applyOne e) x k') :
    Takes k e.1 (effect (k.obstacle refuses) k.files.length k.descriptor? e) x k' := by
  obtain ⟨redirection, fd⟩ := e
  cases redirection with
  | path mode source name => exact takes_path h
  | duplicate source target input =>
    rw [applyOne] at h
    rw [effect]
    split at h
    · next hsame =>
      obtain ⟨rfl, rfl⟩ := ends_pure.1 h
      rw [if_pos hsame]
      exact ⟨rfl, (Function.update_eq_self source k'.descriptor?).symm, (List.append_nil _).symm⟩
    · next hne =>
      rw [if_neg hne]
      exact takes_put rfl rfl h
  | close source input =>
    obtain ⟨reply, k₁, hasked, hend⟩ := ends_bind.1 h
    obtain ⟨hreply, hnumbers, hfiles⟩ := Kernel.answers_close (ends_ask.1 hasked)
    have hend : x = .ok () ∧ k' = k₁ := by
      obtain ⟨-, rfl⟩ | ⟨-, rfl⟩ := hreply
      · exact ends_pure.1 hend
      · exact ends_pure.1 hend
    obtain ⟨rfl, rfl⟩ := hend
    exact ⟨rfl, hnumbers, by rw [hfiles]; exact (List.append_nil _).symm⟩
  | document source body =>
    cases fd with
    | none =>
      obtain ⟨rfl, rfl⟩ := ends_pure.1 h
      exact ⟨rfl, rfl⟩
    | some fd => exact takes_put rfl rfl h

end Redirect

end JobShell

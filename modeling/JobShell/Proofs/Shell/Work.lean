import JobShell.Proofs.Sys.Output
import JobShell.Shell.State

namespace JobShell.Shell

open Sys (Runs)

variable {α β : Type} {s s' : Shell} {t : List Event}

/-- The work makes these calls on a shell, ends without a defect and leaves this shell. -/
def Yields (x : Act α) (s : Shell) (t : List Event) (a : α) (s' : Shell) : Prop :=
  Runs (x.run.run s) t (.ok a, s')

def Succeeds (x : Try α) (s : Shell) (t : List Event) (a : α) (s' : Shell) : Prop :=
  Yields x.run s t (.ok a) s'

theorem yields_pure {a b : α} : Yields (pure a) s t b s' ↔ t = [] ∧ b = a ∧ s' = s := by
  refine Sys.runs_pure.trans (and_congr_right fun _ ↦ ?_)
  rw [Prod.mk.injEq, Except.ok.injEq]

theorem yields_bind {x : Act α} {f : α → Act β} {b : β} :
    Yields (x >>= f) s t b s' ↔
      ∃ u v a s₁, t = u ++ v ∧ Yields x s u a s₁ ∧ Yields (f a) s₁ v b s' := by
  constructor
  · intro h
    obtain ⟨u, v, ⟨r, s₁⟩, rfl, hx, hf⟩ := Sys.runs_bind.1 h
    cases r with
    | error d => obtain ⟨-, ⟨⟩⟩ := Sys.runs_pure.1 hf
    | ok a => exact ⟨u, v, a, s₁, rfl, hx, hf⟩
  · rintro ⟨u, v, a, s₁, rfl, hx, hf⟩
    exact Runs.bind hx hf

theorem yields_get_bind {f : Shell → Act β} {b : β} :
    Yields (get >>= f) s t b s' ↔ Yields (f s) s t b s' := Iff.rfl

theorem yields_modify {f : Shell → Shell} :
    Yields (modify f) s t () s' ↔ t = [] ∧ s' = f s := by
  refine Sys.runs_pure.trans (and_congr_right fun _ ↦ ?_)
  simp

theorem run_system_bind (x : Sys α) (f : α → Act β) (s : Shell) :
    (system x >>= f).run.run s = x >>= fun a ↦ (f a).run.run s := by
  induction x with
  | done a => rfl
  | call c next ih => exact congrArg (Sys.call c) (funext ih)

theorem yields_system {x : Sys α} {a : α} :
    Yields (system x) s t a s' ↔ Runs x t a ∧ s' = s := by
  constructor
  · intro h
    obtain ⟨_, v, _, rfl, hx, hend⟩ := Sys.runs_bind.1 h
    obtain ⟨_, w, _, rfl, hmade, hpure⟩ := Sys.runs_bind.1 hx
    obtain ⟨rfl, rfl⟩ := Sys.runs_pure.1 hpure
    obtain ⟨rfl, ⟨⟩⟩ := Sys.runs_pure.1 hend
    rw [List.append_nil, List.append_nil]
    exact ⟨hmade, rfl⟩
  · rintro ⟨h, rfl⟩
    exact Sys.runs_bind.2 ⟨t, [], (a, s'), (List.append_nil t).symm,
      Sys.runs_bind.2 ⟨t, [], a, (List.append_nil t).symm, h, .done _⟩, .done _⟩

theorem yields_ask {c : Call} {r : Reply c} (h : Yields (ask c) s t r s') : t = [⟨c, r⟩] ∧ s' = s :=
  let ⟨hc, hs⟩ := yields_system.1 h
  ⟨Sys.runs_ask.1 hc, hs⟩

theorem yields_map {x : Act α} {f : α → β} {b : β} :
    Yields (f <$> x) s t b s' ↔ ∃ a, Yields x s t a s' ∧ b = f a := by
  rw [← bind_pure_comp, yields_bind]
  constructor
  · rintro ⟨_, v, a, s₁, rfl, hx, hend⟩
    obtain ⟨rfl, rfl, rfl⟩ := yields_pure.1 hend
    rw [List.append_nil]
    exact ⟨a, hx, rfl⟩
  · rintro ⟨a, hx, rfl⟩
    exact ⟨t, [], a, s', (List.append_nil t).symm, hx, yields_pure.2 ⟨rfl, rfl, rfl⟩⟩

theorem yields_ensuring {x : Act α} {after : Act Unit} {a : α} (h : Yields (ensuring x after) s t a s') :
    ∃ u v s₁, t = u ++ v ∧ Yields x s u a s₁ ∧ Yields after s₁ v () s' := by
  obtain ⟨u, v, made, s₁, rfl, hmade, hnext⟩ := yields_bind.1 h
  obtain ⟨u', v', ⟨_, s₂⟩, rfl, hx, hend⟩ := Sys.runs_bind.1 hmade
  obtain ⟨rfl, ⟨⟩⟩ := Sys.runs_pure.1 hend
  obtain ⟨v, w, _, s₃, rfl, hafter, hlast⟩ := yields_bind.1 hnext
  cases made with
  | error d => obtain ⟨-, ⟨⟩⟩ := Sys.runs_pure.1 hlast
  | ok b =>
    obtain ⟨rfl, rfl, rfl⟩ := yields_pure.1 hlast
    rw [List.append_nil, List.append_nil]
    exact ⟨u', v, s₁, rfl, hx, hafter⟩

theorem succeeds_pure {a b : α} : Succeeds (pure a) s t b s' ↔ t = [] ∧ b = a ∧ s' = s := by
  refine yields_pure.trans (and_congr_right fun _ ↦ ?_)
  rw [Except.ok.injEq]

theorem succeeds_bind {x : Try α} {f : α → Try β} {b : β} :
    Succeeds (x >>= f) s t b s' ↔
      ∃ u v a s₁, t = u ++ v ∧ Succeeds x s u a s₁ ∧ Succeeds (f a) s₁ v b s' := by
  constructor
  · intro h
    obtain ⟨u, v, r, s₁, rfl, hx, hf⟩ := yields_bind.1 h
    cases r with
    | error f => obtain ⟨-, ⟨⟩, -⟩ := yields_pure.1 hf
    | ok a => exact ⟨u, v, a, s₁, rfl, hx, hf⟩
  · rintro ⟨u, v, a, s₁, rfl, hx, hf⟩
    exact yields_bind.2 ⟨u, v, _, s₁, rfl, hx, hf⟩

theorem yields_try_bind {x : Try α} {f : α → Try β} {r : Except Failure β}
    (h : Yields (x >>= f).run s t r s') :
    (∃ e, r = .error e ∧ Yields x.run s t (.error e) s') ∨
      ∃ u v a s₁, t = u ++ v ∧ Succeeds x s u a s₁ ∧ Yields (f a).run s₁ v r s' := by
  obtain ⟨u, v, made, s₁, rfl, hx, hf⟩ := yields_bind.1 h
  cases made with
  | error e =>
    obtain ⟨rfl, rfl, rfl⟩ := yields_pure.1 hf
    rw [List.append_nil]
    exact .inl ⟨e, rfl, hx⟩
  | ok a => exact .inr ⟨u, v, a, s₁, rfl, hx, hf⟩

theorem succeeds_doing {x : Act α} {a : α} : Succeeds (doing x) s t a s' ↔ Yields x s t a s' := by
  refine yields_map.trans ?_
  simp

theorem yields_doing_bind {x : Act α} {f : α → Try β} {r : Except Failure β} :
    Yields (doing x >>= f).run s t r s' ↔
      ∃ u v a s₁, t = u ++ v ∧ Yields x s u a s₁ ∧ Yields (f a).run s₁ v r s' := by
  constructor
  · intro h
    obtain ⟨u, v, _, s₁, rfl, hmade, hf⟩ := yields_bind.1 h
    obtain ⟨a, hx, rfl⟩ := yields_map.1 hmade
    exact ⟨u, v, a, s₁, rfl, hx, hf⟩
  · rintro ⟨u, v, a, s₁, rfl, hx, hf⟩
    exact yields_bind.2 ⟨u, v, _, s₁, rfl, yields_map.2 ⟨a, hx, rfl⟩, hf⟩

theorem succeeds_get_bind {f : Shell → Try β} {b : β} :
    Succeeds (doing get >>= f) s t b s' ↔ Succeeds (f s) s t b s' := Iff.rfl

theorem succeeds_attempt {x : Act (Except Failure α)} {a : α} :
    Succeeds (attempt x) s t a s' ↔ Yields x s t (.ok a) s' := Iff.rfl

/-- Between two states, a shell has printed exactly this text, after what was still to be printed. -/
def Printed (s : Shell) (t : List Event) (s' : Shell) (text : String) : Prop :=
  s'.captured = s.captured ∧ taken Sys.stdout t ++ s'.output.held = s.output.held ++ text.toUTF8

/-- Between two states, a shell has said exactly this text: it has been caught, or printed. -/
def Said (s : Shell) (t : List Event) (s' : Shell) (text : String) : Prop :=
  match s.captured with
  | some said => s'.captured = some (said ++ text)
  | none => Printed s t s' text

theorem Printed.of_eq (hcaptured : s'.captured = s.captured) (houtput : s'.output = s.output)
    (htaken : taken Sys.stdout t = .empty) : Printed s t s' "" := by
  refine ⟨hcaptured, ?_⟩
  rw [houtput, htaken]
  simp [String.toUTF8_eq_toByteArray]

theorem Printed.trans {s₁ s₂ : Shell} {u : List Event} {text more : String} (h : Printed s t s₁ text)
    (h' : Printed s₁ u s₂ more) : Printed s (t ++ u) s₂ (text ++ more) := by
  refine ⟨h'.1.trans h.1, ?_⟩
  rw [taken_append, ByteArray.append_assoc, h'.2, ← ByteArray.append_assoc, h.2,
    ByteArray.append_assoc]
  simp [String.toUTF8_eq_toByteArray]

theorem Printed.unique {text other : String} (h : Printed s t s' text) (h' : Printed s t s' other) :
    text = other := by
  have htext : text.toUTF8 = other.toUTF8 := (ByteArray.append_right_inj _).1 (h.2.symm.trans h'.2)
  rw [String.toUTF8_eq_toByteArray, String.toUTF8_eq_toByteArray] at htext
  exact String.toByteArray_inj.1 htext

theorem Said.of_eq (hcaptured : s'.captured = s.captured) (houtput : s'.output = s.output)
    (htaken : taken Sys.stdout t = .empty) : Said s t s' "" := by
  unfold Said
  split
  · next h => rw [hcaptured, h, String.append_empty]
  · exact .of_eq hcaptured houtput htaken

theorem Said.trans {s₁ s₂ : Shell} {u : List Event} {text more : String} (h : Said s t s₁ text)
    (h' : Said s₁ u s₂ more) : Said s (t ++ u) s₂ (text ++ more) := by
  unfold Said at h h' ⊢
  cases hs : s.captured with
  | some said =>
    rw [hs] at h
    simp only [h] at h' ⊢
    rw [h', String.append_assoc]
  | none =>
    rw [hs] at h
    have hnone : s₁.captured = none := h.1.trans hs
    rw [hnone] at h'
    exact h.trans h'

theorem Said.unique {text other : String} (h : Said s t s' text) (h' : Said s t s' other) :
    text = other := by
  unfold Said at h h'
  cases hs : s.captured with
  | some said =>
    rw [hs] at h h'
    exact (String.append_right_inj said).1 (Option.some_inj.1 (h.symm.trans h'))
  | none =>
    rw [hs] at h h'
    exact h.unique h'

theorem yields_print {pieces : List String} (h : Yields (print pieces) s t (.ok ()) s') :
    Printed s t s' (String.join pieces) ∧ s'.jobs = s.jobs := by
  rw [print, yields_get_bind] at h
  obtain ⟨u, v, ⟨r, b⟩, s₁, rfl, hwrite, hwrote⟩ := yields_bind.1 h
  obtain ⟨hwrite, rfl⟩ := yields_system.1 hwrite
  obtain ⟨u', v', _, s₂, rfl, hmodify, hend⟩ := yields_bind.1 hwrote
  obtain ⟨rfl, rfl⟩ := yields_modify.1 hmodify
  obtain ⟨rfl, hr, rfl⟩ := yields_pure.1 hend
  cases r with
  | error e => cases hr
  | ok _ =>
    refine ⟨⟨rfl, ?_⟩, rfl⟩
    rw [List.append_nil, List.append_nil]
    exact LineBuffer.keeps_writeEach hwrite

theorem yields_say {pieces : List String} (h : Yields (say pieces) s t (.ok ()) s') :
    Said s t s' (String.join pieces) ∧ s'.jobs = s.jobs := by
  rw [say, yields_get_bind] at h
  cases hs : s.captured with
  | none =>
    simp only [hs] at h
    rw [Said, hs]
    exact yields_print h
  | some said =>
    simp only [hs] at h
    obtain ⟨u, v, _, s₁, rfl, hmodify, hend⟩ := yields_bind.1 h
    obtain ⟨rfl, rfl⟩ := yields_modify.1 hmodify
    obtain ⟨rfl, -, rfl⟩ := yields_pure.1 hend
    refine ⟨?_, rfl⟩
    rw [Said, hs]

end JobShell.Shell

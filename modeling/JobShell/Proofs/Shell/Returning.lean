import JobShell.Proofs.Job.Signalling
import JobShell.Proofs.Shell.Work
import JobShell.Shell.Builtin

namespace JobShell.Shell

/-- What is written to standard error is taken whole, or there is no such descriptor. Any other call may be
replied to at will. -/
def Audible : Event → Prop
  | ⟨.write n bytes, r⟩ => n = Sys.stderr → r = .ok bytes.size ∨ r = .error .badDescriptor
  | _ => True

theorem delivers_complaint (bytes : ByteArray) :
    (Sys.writeAll Sys.stderr bytes).Delivers Audible fun (r, _) ↦ r = .ok () ∨ r = .error .badDescriptor := by
  obtain ⟨n, hn⟩ : ∃ n, Sys.patience = n + 2 := ⟨999999999999998, rfl⟩
  rw [Sys.writeAll, hn, Sys.writeLoop]
  split
  · exact .inl rfl
  · refine ⟨⟨.ok bytes.size, fun _ ↦ .inl rfl⟩, fun answer hheard ↦ ?_⟩
    obtain rfl | rfl := hheard rfl
    · have hwhole : (bytes.extract bytes.size bytes.size).isEmpty := by
        simp [ByteArray.isEmpty]
      change (Sys.writeLoop _ (n + 1) _).Delivers _ _
      rw [Sys.writeLoop, if_pos hwhole]
      exact .inl rfl
    · exact .inr rfl

/-- The work comes to a result and leaves the shell as it is, as long as the shell is heard. -/
def Returns {α : Type} (x : Act α) : Prop :=
  ∀ s, (x.run.run s).Delivers Audible fun (r, s') ↦ (∃ a, r = .ok a) ∧ s' = s

namespace Returns

variable {α β : Type}

theorem bind {x : Act α} {f : α → Act β} (hx : Returns x) (hf : ∀ a, Returns (f a)) : Returns (x >>= f) := by
  intro s
  refine (hx s).bind ?_
  rintro ⟨_, s₁⟩ ⟨⟨a, rfl⟩, rfl⟩
  exact hf a s₁

theorem pure (a : α) : Returns (Pure.pure a) := fun _ ↦ ⟨⟨a, rfl⟩, rfl⟩

theorem try_bind {x : Try α} {f : α → Try β} (hx : Returns x.run) (hf : ∀ a, Returns (f a).run) :
    Returns (x >>= f).run := by
  refine hx.bind fun r ↦ ?_
  cases r with
  | error e => exact .pure _
  | ok a => exact hf a

theorem system_bind {x : Sys α} {P : α → Prop} {f : α → Act β} (h : x.Delivers Audible P)
    (hf : ∀ a, P a → Returns (f a)) : Returns (Shell.system x >>= f) := by
  intro s
  have hlifted : ((StateT.lift x : StateT Shell Sys α).run s).Delivers Audible fun (a, s') ↦ P a ∧ s' = s :=
    h.bind fun a ha ↦ ⟨ha, rfl⟩
  have hmade : ((Shell.system x).run.run s).Delivers Audible fun (r, s') ↦ (∃ a, r = .ok a ∧ P a) ∧ s' = s :=
    hlifted.bind fun (a, s') ⟨ha, hs⟩ ↦ ⟨⟨a, rfl, ha⟩, hs⟩
  refine hmade.bind ?_
  rintro ⟨_, s₁⟩ ⟨⟨a, rfl, ha⟩, rfl⟩
  exact hf a ha s₁

theorem system {x : Sys α} {P : α → Prop} (h : x.Delivers Audible P) : Returns (Shell.system x) := by
  rw [← bind_pure (Shell.system x)]
  exact system_bind h fun a _ ↦ .pure a

theorem get_bind {f : Shell → Act β} (hf : ∀ s, Returns (f s)) : Returns (get >>= f) := fun s ↦ hf s s

theorem doing_get_bind {f : Shell → Try β} (hf : ∀ s, Returns (f s).run) :
    Returns (Shell.doing get >>= f).run := fun s ↦ hf s s

theorem doing {x : Act α} (hx : Returns x) : Returns (Shell.doing x).run :=
  hx.bind fun a ↦ .pure (Except.ok a)

theorem report (f : Failure) : Returns (Shell.report f) := by
  refine system_bind (delivers_complaint _) ?_
  rintro ⟨r, left⟩ (rfl | rfl)
  · exact .pure ()
  · exact .pure ()

theorem signalJob (id : JobId) (signal : Signal) : Returns (Shell.signalJob id signal).run :=
  get_bind fun s ↦ system (JobTable.delivers_signal_of (fun _ _ ↦ trivial) s.jobs id)

theorem named (b : Builtin) (word : Option String) : Returns (Shell.named b word).run := by
  refine doing_get_bind fun s ↦ ?_
  simp only
  split
  · exact .pure _
  · exact .pure _

theorem eachReported {f : α → Try Unit} (hf : ∀ a, Returns (f a).run) (as : List α) :
    Returns (Shell.eachReported f as) := by
  induction as with
  | nil => exact .pure true
  | cons a as ih =>
    refine (hf a).bind fun r ↦ ?_
    cases r with
    | ok _ => exact ih
    | error e => exact (report e).bind fun _ ↦ ih.bind fun _ ↦ .pure false

theorem exists_yields {x : Act α} (h : Returns x) (s : Shell) : ∃ t a, Yields x s t a s := by
  obtain ⟨⟨t, ⟨r, s'⟩, hruns, ht⟩, hall⟩ := (h s).exists_runs
  obtain ⟨⟨a, rfl⟩, rfl⟩ := hall t _ hruns ht
  exact ⟨t, a, hruns⟩

end Returns

end JobShell.Shell

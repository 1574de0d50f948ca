import JobShell.Proofs.Redirect.Restore
import JobShell.Proofs.Shell.Stillness
import JobShell.Shell.Launch

namespace JobShell.Shell

open Kernel (Ends ends_bind ends_map ends_pure ends_ask streams sound_streams)
open Redirect (Saves Clear Prepares)

variable {refuses : Refusals} {k k' : Kernel} {α β : Type} {s s' : Shell}

theorem ends_act_bind {x : Act α} {f : α → Act β} {r : Except Defect β}
    (h : Ends refuses k ((x >>= f).run.run s) (r, s') k') :
    (∃ d, r = .error d ∧ Ends refuses k (x.run.run s) (.error d, s') k') ∨
      ∃ a s₁ k₁, Ends refuses k (x.run.run s) (.ok a, s₁) k₁ ∧
        Ends refuses k₁ ((f a).run.run s₁) (r, s') k' := by
  obtain ⟨⟨a, s₁⟩, k₁, hx, hf⟩ := ends_bind.1 h
  cases a with
  | error d =>
    obtain ⟨⟨⟩, rfl⟩ := ends_pure.1 hf
    exact .inl ⟨d, rfl, hx⟩
  | ok a => exact .inr ⟨a, s₁, k₁, hx, hf⟩

theorem ends_system {x : Sys α} {r : Except Defect α}
    (h : Ends refuses k ((system x).run.run s) (r, s') k') :
    ∃ a, r = .ok a ∧ s' = s ∧ Ends refuses k x a k' := by
  obtain ⟨_, k₁, hx, hend⟩ := ends_bind.1 h
  obtain ⟨a, k₂, hmade, hpure⟩ := ends_bind.1 hx
  obtain ⟨rfl, rfl⟩ := ends_pure.1 hpure
  obtain ⟨⟨⟩, rfl⟩ := ends_pure.1 hend
  exact ⟨a, rfl, rfl, hmade⟩

theorem ends_ensuring {x : Act α} {after : Act Unit} {r : Except Defect α}
    (h : Ends refuses k ((ensuring x after).run.run s) (r, s') k') :
    ∃ r₁ s₁ k₁ r₂, Ends refuses k (x.run.run s) (r₁, s₁) k₁ ∧
      Ends refuses k₁ (after.run.run s₁) (r₂, s') k' := by
  obtain ⟨⟨a, s₁⟩, k₁, hx, hafter⟩ := ends_bind.1 h
  obtain ⟨⟨r₁, s₂⟩, k₂, hx, hend⟩ := ends_bind.1 hx
  obtain ⟨⟨⟩, rfl⟩ := ends_pure.1 hend
  obtain ⟨d, -, hafter⟩ | ⟨_, s₃, k₃, hafter, hend⟩ := ends_act_bind hafter
  · exact ⟨_, s₁, k₁, _, hx, hafter⟩
  · obtain ⟨⟨⟩, rfl⟩ := ends_pure.1 hend
    exact ⟨_, s₁, k₁, _, hx, hafter⟩

theorem ends_bind_of_steady {x : Act α} {f : α → Act β} {r : Except Defect β} (hx : Steady x)
    (h : Ends refuses k ((x >>= f).run.run s) (r, s') k') :
    ∃ a s₁ k₁, Ends refuses k (x.run.run s) (.ok a, s₁) k₁ ∧
      Ends refuses k₁ ((f a).run.run s₁) (r, s') k' := by
  obtain ⟨d, -, t, hruns, -⟩ | h := ends_act_bind h
  · exact absurd hruns (hx s t d s')
  · exact h

theorem Still.ends {x : Act α} {r : Except Defect α} (hx : Still x)
    (h : Ends refuses k (x.run.run s) (r, s') k') : k'.descriptor? = k.descriptor? := by
  unfold Kernel.descriptor?
  rw [(h.still (hx s)).1]

theorem steady_logFailure (target what : String) (r : Except Failure Unit) :
    Steady (logFailure target what r) := by
  cases r with
  | ok _ => exact steady_pure _
  | error f => exact steady_system _

theorem ends_putBack {saved : Redirect.Saved} {p : Redirect.Prepared} {r : Except Defect Unit}
    (h : Ends refuses k ((do putBack saved; system (Redirect.release p) : Act Unit).run.run s) (r, s') k') :
    ∃ u v, u.descriptor? = k.descriptor? ∧ Ends refuses u (Redirect.restore saved) () v ∧
      Ends refuses v (Redirect.release p) () k' := by
  obtain ⟨_, s₁, k₁, hback, hrelease⟩ := ends_bind_of_steady
    (steady_flush.bind fun _ ↦ (steady_logFailure _ _ _).bind fun _ ↦ steady_system _) h
  obtain ⟨_, -, rfl, hclosed⟩ := ends_system hrelease
  obtain ⟨_, s₂, k₂, hflush, hback⟩ := ends_bind_of_steady steady_flush hback
  obtain ⟨_, s₃, k₃, hlog, hback⟩ := ends_bind_of_steady (steady_logFailure _ _ _) hback
  obtain ⟨_, -, rfl, hrestore⟩ := ends_system hback
  refine ⟨k₃, k₁, ?_, hrestore, hclosed⟩
  exact ((still_logFailure _ _ _).ends hlog).trans (still_flush.ends hflush)

/-- What stands between saving and putting back changes the sources of redirections only. -/
theorem ends_work {b : Builtin} {c : Command} {p : Redirect.Prepared} {saved : Except Failure Unit}
    {r : Except Defect (Except Failure ExitStatus)} {n : Int}
    (h : Ends refuses k ((match saved with
      | .error f => pure (.error f)
      | .ok _ => do
        match ← system (Redirect.apply p) with
        | .error f => report f; pure (.ok .failure)
        | .ok _ => Except.ok <$> runBuiltin b c.arguments : Act (Except Failure ExitStatus)).run.run s)
      (r, s') k')
    (hn : saved = .ok () → ∀ e ∈ p, n ≠ e.1.source) : k'.descriptor? n = k.descriptor? n := by
  cases saved with
  | error f =>
    obtain ⟨-, rfl⟩ := ends_pure.1 h
    rfl
  | ok _ =>
    obtain ⟨applied, s₁, k₁, hsystem, hnext⟩ := ends_bind_of_steady (steady_system _) h
    obtain ⟨_, ⟨⟩, rfl, happly⟩ := ends_system hsystem
    have hsame : k'.descriptor? = k₁.descriptor? := by
      cases applied with
      | error f => exact ((still_report f).bind fun _ ↦ still_pure _).ends hnext
      | ok _ => exact ((still_runBuiltin b c.arguments).map _).ends hnext
    rw [hsame]
    exact Redirect.ends_apply_frame happly (hn rfl)

/-- A builtin in the shell itself leaves the descriptors as they were: when it comes back, each number
stands for the open file that it stood for before, if it did for any. -/
theorem runInShell_restores {b : Builtin} {c : Command} {r : Except Defect (Except Failure ExitStatus)}
    (hk : k.Sound)
    (hclear : ∀ p k₁ x saved k₂, Ends refuses k (Redirect.prepare c.redirections) (.ok p) k₁ →
      Ends refuses k₁ (Redirect.save c.redirections) (x, saved) k₂ → Clear saved)
    (h : Ends refuses k ((runInShell b c).run.run s) (r, s') k') : k'.file? = k.file? := by
  obtain ⟨prepared, s₁, k₁, hprepared, hnext⟩ := ends_bind_of_steady (steady_system _) h
  obtain ⟨_, ⟨⟩, rfl, hprepare⟩ := ends_system hprepared
  obtain ⟨p, rfl, hp⟩ | ⟨⟨f, rfl⟩, hsame⟩ := Redirect.ends_prepare hprepare
  · obtain ⟨⟨x, saved⟩, s₂, k₂, hsystem, hensuring⟩ := ends_bind_of_steady (steady_system _) hnext
    obtain ⟨_, ⟨⟩, rfl, hsave⟩ := ends_system hsystem
    obtain ⟨_, heq, hsaved, hsources⟩ := Redirect.ends_saveFrom hsave
    rw [List.nil_append] at heq
    subst heq
    obtain ⟨_, s₃, k₃, _, hwork, hback⟩ := ends_ensuring hensuring
    obtain ⟨u, v, hu, hrestore, hrelease⟩ := ends_putBack hback
    -- the work is confined to the sources, all of which have been saved
    have hconfined (n : Int) (hn : n ∉ saved.map (·.1)) : u.file? n = k₂.file? n := by
      refine Kernel.file?_congr ((congrFun hu n).trans (ends_work hwork ?_))
      rintro rfl e he rfl
      exact hn (hsources rfl e.1 (hp.redirections ▸ List.mem_map_of_mem he))
    have hrestored (n : Int) : v.file? n = k₁.file? n :=
      hsaved.undone (hprepare.sound hk) (hclear p k₁ x saved k₂ hprepare hsave)
        (fun _ _ _ ↦ List.not_mem_nil) (fun n _ ↦ hconfined n) hrestore List.not_mem_nil
    obtain ⟨hfree, hothers⟩ := hp.numbers
    funext n
    rw [Kernel.file?, Redirect.ends_release hrelease]
    split
    · next hn => rw [Kernel.file?, hfree n hn]
    · next hn => exact (hrestored n).trans (Kernel.file?_congr (hothers n hn))
  · obtain ⟨-, rfl⟩ := ends_pure.1 hnext
    funext n
    exact Kernel.file?_congr (congrFun hsame n)

theorem runInShell_restores_stdout :
    let s : Shell := { history := ⟨0, [], 0⟩, config := .script, isInteractive := false }
    let c : Command := ⟨.single, ["jobs"], [.path .truncate 1 "f"]⟩
    ∃ r s' k', Ends (fun _ _ ↦ none) streams ((runInShell .jobs c).run.run s) (r, s') k' ∧
      k'.file? = streams.file? := by
  intro s c
  have hruns : Ends (fun _ _ ↦ none) streams ((runInShell .jobs c).run.run s) (_, _) _ :=
    ⟨[⟨.duplicateAbove 1 10, .ok 10⟩, ⟨.«open» (Text.spell "f") (Redirect.flagsOf .truncate) 0o644, .ok 3⟩,
      ⟨.duplicate 3 1, .ok ()⟩, ⟨.close 3, .ok ()⟩, ⟨.duplicate 10 1, .ok ()⟩, ⟨.close 10, .ok ()⟩],
      .call (.call (.call (.call (.call (.call (.done _)))))),
      .cons rfl (.cons rfl (.cons rfl (.cons rfl (.cons rfl (.cons rfl (.nil _))))))⟩
  exact ⟨_, _, _, hruns, runInShell_restores sound_streams
    (fun _ _ _ _ _ _ hsave ↦ Redirect.clear_of_lt (by decide) hsave) hruns⟩

/-- After `jobs 10>g 1>f`, standard output is the file `g`: it was saved at ten, which was closed, and
then `g` was put there. -/
theorem runInShell_misplaces_stdout :
    ¬ ∀ (c : Command) (s s' : Shell) (r : Except Defect (Except Failure ExitStatus)) (k' : Kernel),
      Ends (fun _ _ ↦ none) streams ((runInShell .jobs c).run.run s) (r, s') k' →
        k'.file? = streams.file? := by
  intro hrestores
  have hruns : Ends (fun _ _ ↦ none) streams
      ((runInShell .jobs ⟨.single, ["jobs"], [.path .truncate 10 "g", .path .truncate 1 "f"]⟩).run.run
        { history := ⟨0, [], 0⟩, config := .script, isInteractive := false }) (_, _) _ :=
    ⟨[⟨.duplicateAbove 10 10, .error .badDescriptor⟩, ⟨.duplicateAbove 1 10, .ok 10⟩,
      ⟨.«open» (Text.spell "g") (Redirect.flagsOf .truncate) 0o644, .ok 3⟩, ⟨.duplicate 3 10, .ok ()⟩,
      ⟨.close 3, .ok ()⟩,
      ⟨.«open» (Text.spell "f") (Redirect.flagsOf .truncate) 0o644, .ok 3⟩, ⟨.duplicate 3 1, .ok ()⟩,
      ⟨.close 3, .ok ()⟩,
      ⟨.duplicate 10 1, .ok ()⟩, ⟨.close 10, .ok ()⟩, ⟨.close 10, .error .badDescriptor⟩],
      .call (.call (.call (.call (.call (.call (.call (.call (.call (.call (.call (.done _))))))))))),
      .cons rfl (.cons rfl (.cons rfl (.cons rfl (.cons rfl (.cons rfl (.cons rfl (.cons rfl (.cons rfl
        (.cons rfl (.cons rfl (.nil _)))))))))))⟩
  have hstdout := congrFun (hrestores _ _ _ _ _ hruns) 1
  cases hstdout

end JobShell.Shell

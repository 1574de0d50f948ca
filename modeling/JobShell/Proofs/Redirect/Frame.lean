import JobShell.Proofs.Redirect.Agreement

namespace JobShell.Redirect

open Kernel (Ends ends_bind ends_pure streams)

variable {refuses : Refusals} {k k' : Kernel} {p : Prepared} {e : Redirection × Option Int}
  {x : Except Failure Unit} {f : Failure}

theorem ends_applyOne_failed (h : Ends refuses k (applyOne e) (.error f) k') : k'.descriptor? = k.descriptor? := by
  have htakes := takes_applyOne h
  cases heffect : effect (k.obstacle refuses) k.files.length k.descriptor? e with
  | error g =>
    rw [heffect] at htakes
    exact htakes.2
  | ok d =>
    rw [heffect] at htakes
    cases htakes.1

/-- Redirections are applied one after another: all of them, or those before one that fails. -/
theorem ends_apply_cases (h : Ends refuses k (apply p) x k') :
    x = .ok () ∨ ∃ done e later f k₁, p = done ++ e :: later ∧ x = .error f ∧
      FailsAt refuses k p done.length f ∧ Ends refuses k (apply done) (.ok ()) k₁ ∧
      Ends refuses k₁ (applyOne e) (.error f) k' := by
  induction p generalizing k with
  | nil => exact .inl (ends_pure.1 h).1
  | cons e p ih =>
    obtain ⟨applied, k₁, hone, hrest⟩ := ends_bind.1 h
    cases applied with
    | error f =>
      obtain ⟨rfl, rfl⟩ := ends_pure.1 hrest
      exact .inr ⟨[], e, p, f, k, rfl, rfl, .here hone, ends_pure.2 ⟨rfl, rfl⟩, hone⟩
    | ok _ =>
      obtain hx | ⟨done, e', later, f, k₂, rfl, hx, hfails, hdone, hfailed⟩ := ih hrest
      · exact .inl hx
      · exact .inr ⟨e :: done, e', later, f, k₂, rfl, hx, .later hone hfails,
          ends_bind.2 ⟨_, k₁, hone, hdone⟩, hfailed⟩

/-- Applying redirections touches only what they name. It comes to an end, with all of them applied or at the first
that fails; either way every number that is no source of those before that stands for what it stood for, and the
numbers that are open were open before or are such sources. -/
theorem apply_touches_sources (refuses : Refusals) (k : Kernel) (p : Prepared) :
    (∃ x k', Ends refuses k (apply p) x k') ∧
    ∀ x k', Ends refuses k (apply p) x k' → ∃ done left, p = done ++ left ∧
      (x = .ok () ∧ left = [] ∨ ∃ f, x = .error f ∧ FailsAt refuses k p done.length f) ∧
      (∀ n, (∀ e ∈ done, n ≠ e.1.source) → k'.descriptor? n = k.descriptor? n) ∧
      ∀ n, k'.descriptor? n ≠ none → k.descriptor? n ≠ none ∨ ∃ e ∈ done, n = e.1.source := by
  refine ⟨exists_ends_apply refuses k p, fun x k' h ↦ ?_⟩
  have hopen {done : Prepared} (hframe : ∀ n, (∀ e ∈ done, n ≠ e.1.source) → k'.descriptor? n = k.descriptor? n)
      (n : Int) (hn : k'.descriptor? n ≠ none) : k.descriptor? n ≠ none ∨ ∃ e ∈ done, n = e.1.source := by
    by_cases hsource : ∃ e ∈ done, n = e.1.source
    · exact .inr hsource
    · exact .inl (hframe n (fun e he heq ↦ hsource ⟨e, he, heq⟩) ▸ hn)
  obtain rfl | ⟨done, e, later, f, k₁, rfl, rfl, hfails, hdone, hfailed⟩ := ends_apply_cases h
  · have hframe (n : Int) (hn : ∀ e ∈ p, n ≠ e.1.source) := ends_apply_frame h hn
    exact ⟨p, [], (List.append_nil p).symm, .inl ⟨rfl, rfl⟩, hframe, hopen hframe⟩
  · have hframe (n : Int) (hn : ∀ e ∈ done, n ≠ e.1.source) : k'.descriptor? n = k.descriptor? n := by
      rw [ends_applyOne_failed hfailed, ends_apply_frame hdone hn]
    exact ⟨done, e :: later, rfl, .inr ⟨f, rfl, hfails⟩, hframe, hopen hframe⟩

theorem apply_touches_sources_up_to_failure :
    let p : Prepared := [(.path .truncate 1 "f", none), (.duplicate 2 9 false, none), (.close 0 true, none)]
    ∃ k', Ends (fun _ _ ↦ none) streams (apply p) (.error (.redirectionFailed (Decimal.text 9) .badDescriptor)) k' ∧
      k'.file? 1 = some 3 ∧ k'.file? 3 = none := by
  intro p
  have happly : Ends (fun _ _ ↦ none) streams (apply p) (.error (.redirectionFailed (Decimal.text 9) .badDescriptor)) _ :=
    ⟨[⟨.«open» (Text.spell "f") (flagsOf .truncate) 0o644, .ok 3⟩, ⟨.duplicate 3 1, .ok ()⟩, ⟨.close 3, .ok ()⟩,
      ⟨.duplicate 9 2, .error .badDescriptor⟩],
      .call (.call (.call (.call (.done _)))), .cons rfl (.cons rfl (.cons rfl (.cons rfl (.nil _))))⟩
  obtain ⟨done, left, hp, -, hframe, -⟩ := (apply_touches_sources (fun _ _ ↦ none) streams p).2 _ _ happly
  have hsources : ∀ e ∈ p, 3 ≠ e.1.source := by
    decide
  have hthree := hframe 3 fun e he ↦ hsources e (hp ▸ List.mem_append_left left he)
  exact ⟨_, happly, rfl, Kernel.file?_congr hthree⟩

end JobShell.Redirect

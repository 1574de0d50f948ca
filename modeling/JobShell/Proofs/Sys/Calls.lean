import JobShell.Sys.Stream

namespace JobShell.Sys

variable {α β : Type} {P Q : Call → Prop}

def Only (P : Call → Prop) (x : Sys α) : Prop := ∀ t a, Runs x t a → ∀ e ∈ t, P e.call

theorem Only.mono {x : Sys α} (h : Only P x) (hPQ : ∀ c, P c → Q c) : Only Q x :=
  fun t a hx e he ↦ hPQ _ (h t a hx e he)

theorem only_pure (a : α) : Only P (pure a) := by
  intro t b h e he
  obtain ⟨rfl, -⟩ := runs_pure.1 h
  cases he

theorem only_ask {c : Call} (h : P c) : Only P (ask c) := by
  intro t a hc e he
  obtain rfl := runs_ask.1 hc
  obtain rfl := List.mem_singleton.1 he
  exact h

theorem Only.bind {x : Sys α} {f : α → Sys β} (hx : Only P x) (hf : ∀ a, Only P (f a)) :
    Only P (x >>= f) := by
  intro t b h e he
  obtain ⟨u, v, a, rfl, hu, hv⟩ := runs_bind.1 h
  rcases List.mem_append.1 he with he | he
  · exact hx u a hu e he
  · exact hf a v b hv e he

theorem only_hang : Only P (hang : Sys α) := fun _ _ h ↦ absurd h not_runs_hang

/-- Whatever it is replied, and also where it never comes to an end, the program makes only calls of this
kind. -/
def Every (P : Call → Prop) : Sys α → Prop
  | done _ => True
  | call c next => P c ∧ ∀ r, (next r).Every P

theorem every_pure (a : α) : (pure a : Sys α).Every P := trivial

theorem every_ask {c : Call} (h : P c) : (ask c).Every P := ⟨h, fun _ ↦ trivial⟩

theorem every_hang (h : P .hang) : (hang : Sys α).Every P := ⟨h, fun r ↦ r.elim⟩

theorem Every.bind {x : Sys α} {f : α → Sys β} (hx : x.Every P) (hf : ∀ a, (f a).Every P) :
    (x >>= f).Every P := by
  induction x with
  | done a => exact hf a
  | call c next ih => exact ⟨hx.1, fun r ↦ ih r (hx.2 r)⟩

theorem Every.map {x : Sys α} (h : x.Every P) (f : α → β) : (f <$> x).Every P := by
  rw [← bind_pure_comp]
  exact h.bind fun _ ↦ every_pure _

theorem runs_map {x : Sys α} {f : α → β} {t : List Event} {b : β} :
    Runs (f <$> x) t b ↔ ∃ a, Runs x t a ∧ b = f a := by
  rw [← bind_pure_comp, runs_bind]
  constructor
  · rintro ⟨u, v, a, rfl, hx, hend⟩
    obtain ⟨rfl, rfl⟩ := runs_pure.1 hend
    rw [List.append_nil]
    exact ⟨a, hx, rfl⟩
  · rintro ⟨a, hx, rfl⟩
    exact ⟨t, [], a, (List.append_nil t).symm, hx, .done _⟩

theorem Every.mono {x : Sys α} (h : x.Every P) (hPQ : ∀ c, P c → Q c) : x.Every Q := by
  induction x with
  | done a => trivial
  | call c next ih => exact ⟨hPQ c h.1, fun r ↦ ih r (h.2 r)⟩

theorem Every.only {x : Sys α} (h : x.Every P) : Only P x := by
  intro t a hruns
  induction hruns with
  | done a => exact fun e he ↦ nomatch he
  | call _ ih =>
    intro e he
    rcases List.mem_cons.1 he with rfl | he
    · exact h.1
    · exact ih (h.2 _) e he

/-- A property of programs that call for nothing, and of one program after another if it is one of both. -/
structure Closed (C : {α : Type} → Sys α → Prop) : Prop where
  pure {α : Type} (a : α) : C (pure a : Sys α)
  bind {α β : Type} {x : Sys α} {f : α → Sys β} : C x → (∀ a, C (f a)) → C (x >>= f)

theorem closed_only : Closed (Only P) := ⟨only_pure, Only.bind⟩

theorem closed_every : Closed (Every P) := ⟨every_pure, Every.bind⟩

variable {C : {α : Type} → Sys α → Prop}

theorem Closed.forM (hC : Closed C) {f : α → Sys Unit} (hf : ∀ a, C (f a)) (as : List α) : C (as.forM f) := by
  induction as with
  | nil => exact hC.pure ()
  | cons a as ih => exact hC.bind (hf a) fun _ ↦ ih

end JobShell.Sys

import JobShell.Proofs.Sys.Calls
import JobShell.Sys.Basic

namespace JobShell.Sys

variable {α β : Type} {P : Call → Prop} {x y : Sys α} {t : List Event}

/-- Some replies let the program make these calls, and then this is what it has still to do. -/
inductive Leads : Sys α → List Event → Sys α → Prop
  | refl (x : Sys α) : Leads x [] x
  | call {c : Call} {next : Reply c → Sys α} {r : Reply c} {t : List Event} {y : Sys α} :
      Leads (next r) t y → Leads (call c next) (⟨c, r⟩ :: t) y

theorem leads_done {a : α} (h : Leads (done a) t y) : t = [] ∧ y = done a := by
  cases h
  exact ⟨rfl, rfl⟩

theorem leads_call {c : Call} {next : Reply c → Sys α} (h : Leads (call c next) t y) :
    (t = [] ∧ y = call c next) ∨ ∃ r u, t = ⟨c, r⟩ :: u ∧ Leads (next r) u y := by
  cases h with
  | refl => exact .inl ⟨rfl, rfl⟩
  | call h => exact .inr ⟨_, _, rfl, h⟩

theorem not_leads {x : Sys α} {c : Call} {next : Reply c → Sys α} (hx : x.Every P) (hc : ¬ P c) :
    ¬ Leads x t (call c next) := by
  induction x generalizing t with
  | done a =>
    intro h
    obtain ⟨-, ⟨⟩⟩ := leads_done h
  | call d rest ih =>
    intro h
    obtain ⟨-, heq⟩ | ⟨r, u, -, hu⟩ := leads_call h
    · obtain ⟨rfl, -⟩ := Sys.call.inj heq
      exact hc hx.1
    · exact ih r (hx.2 r) hu

theorem Leads.snoc {x : Sys α} {c : Call} {next : Reply c → Sys α} (h : Leads x t (Sys.call c next))
    (r : Reply c) : Leads x (t ++ [⟨c, r⟩]) (next r) := by
  generalize hy : Sys.call c next = y at h
  induction h with
  | refl x =>
    subst hy
    exact .call (.refl _)
  | call _ ih => exact .call (ih hy)

theorem Leads.runs {x : Sys α} {a : α} (h : Leads x t (done a)) : Runs x t a := by
  generalize hy : done a = y at h
  induction h with
  | refl x =>
    subst hy
    exact .done a
  | call _ ih => exact .call (ih hy)

theorem Leads.every (hx : x.Every P) (h : Leads x t y) : ∀ e ∈ t, P e.call := by
  induction h with
  | refl => exact fun e he ↦ nomatch he
  | call _ ih =>
    intro e he
    rcases List.mem_cons.1 he with rfl | he
    · exact hx.1
    · exact ih (hx.2 _) e he

/-- A call of two programs one after the other is made by the first or, once that has ended, by the second. -/
theorem leads_bind_cases {x : Sys α} {f : α → Sys β} {c : Call} {next : Reply c → Sys β}
    (h : Leads (x >>= f) t (call c next)) :
    (∃ next', Leads x t (call c next')) ∨
      ∃ u v a, t = u ++ v ∧ Runs x u a ∧ Leads (f a) v (call c next) := by
  induction x generalizing t with
  | done a => exact .inr ⟨[], t, a, rfl, .done a, h⟩
  | call d rest ih =>
    obtain ⟨rfl, heq⟩ | ⟨r, u, rfl, hu⟩ := leads_call h
    · obtain ⟨rfl, -⟩ := Sys.call.inj heq
      exact .inl ⟨rest, .refl _⟩
    · obtain ⟨next', hleads⟩ | ⟨u, v, a, rfl, hruns, hleads⟩ := ih r hu
      · exact .inl ⟨next', .call hleads⟩
      · exact .inr ⟨⟨d, r⟩ :: u, v, a, rfl, .call hruns, hleads⟩

theorem leads_bind {x : Sys α} {f : α → Sys β} {c : Call} {next : Reply c → Sys β} (hx : x.Every P)
    (hc : ¬ P c) (h : Leads (x >>= f) t (call c next)) :
    ∃ u v a, t = u ++ v ∧ Runs x u a ∧ Leads (f a) v (call c next) :=
  (leads_bind_cases h).resolve_left fun ⟨_, hleads⟩ ↦ not_leads hx hc hleads

theorem leads_of_bind {x : Sys α} {f : α → Sys β} {c : Call} {next : Reply c → Sys β}
    (hf : ∀ a, (f a).Every P) (hc : ¬ P c) (h : Leads (x >>= f) t (call c next)) :
    ∃ next', Leads x t (call c next') :=
  (leads_bind_cases h).resolve_right fun ⟨_, _, a, _, _, hleads⟩ ↦ not_leads (hf a) hc hleads

theorem Leads.bind {x y : Sys α} (h : Leads x t y) (f : α → Sys β) : Leads (x >>= f) t (y >>= f) := by
  induction h with
  | refl => exact .refl _
  | call _ ih => exact .call ih

theorem Leads.after {x : Sys α} {a : α} {f : α → Sys β} {u : List Event} {y : Sys β} (h : Runs x t a)
    (h' : Leads (f a) u y) : Leads (x >>= f) (t ++ u) y := by
  induction h with
  | done => exact h'
  | call _ ih => exact .call (ih h')

variable {α β : Type} {possible : Event → Prop} {P : α → Prop} {Q : β → Prop}

/-- Each call of the program has a possible reply, and whatever the possible replies are, the program comes
to an end with such a result. -/
def Delivers (possible : Event → Prop) (P : α → Prop) : Sys α → Prop
  | done a => P a
  | call c next => (∃ r, possible ⟨c, r⟩) ∧ ∀ r, possible ⟨c, r⟩ → (next r).Delivers possible P

theorem Delivers.bind {x : Sys α} {f : α → Sys β} (hx : x.Delivers possible P)
    (hf : ∀ a, P a → (f a).Delivers possible Q) : (x >>= f).Delivers possible Q := by
  induction x with
  | done a => exact hf a hx
  | call c next ih => exact ⟨hx.1, fun r hr ↦ ih r (hx.2 r hr)⟩

/-- What is delivered is the result of some run, and of no other one. -/
theorem Delivers.exists_runs {x : Sys α} (h : x.Delivers possible P) :
    (∃ t a, Runs x t a ∧ ∀ e ∈ t, possible e) ∧
      ∀ t a, Runs x t a → (∀ e ∈ t, possible e) → P a := by
  constructor
  · induction x with
    | done a => exact ⟨[], a, .done a, fun e he ↦ nomatch he⟩
    | call c next ih =>
      obtain ⟨r, hr⟩ := h.1
      obtain ⟨t, a, hruns, ht⟩ := ih r (h.2 r hr)
      exact ⟨⟨c, r⟩ :: t, a, .call hruns, List.forall_mem_cons.2 ⟨hr, ht⟩⟩
  · intro t a hruns
    induction hruns with
    | done a => exact fun _ ↦ h
    | call _ ih =>
      intro ht
      obtain ⟨hr, ht⟩ := List.forall_mem_cons.1 ht
      exact ih (h.2 _ hr) ht

end JobShell.Sys

import JobShell.Proofs.Kernel.Basic
import JobShell.Proofs.Sys.Progress

namespace JobShell.Kernel

open Sys (Leads)

variable {refuses : Refusals} {P : Call → Prop} {k k' : Kernel} {α β : Type} {x : Sys α} {f : α → Sys β}
  {Q R : Sys α → Kernel → Prop} {S : Sys β → Kernel → Prop}

/-- Whatever the kernel replies, the program comes to such a point. Until then it makes only calls of this kind, each
of which the kernel answers. -/
inductive Arrives (refuses : Refusals) (P : Call → Prop) (Q : Sys α → Kernel → Prop) : Kernel → Sys α → Prop
  | here {k : Kernel} {x : Sys α} : Q x k → Arrives refuses P Q k x
  | call {k : Kernel} {c : Call} {next : Reply c → Sys α} :
      P c → (∃ r k', k.Answers refuses c r k') →
      (∀ r k', k.Answers refuses c r k' → Arrives refuses P Q k' (next r)) →
      Arrives refuses P Q k (.call c next)

theorem Arrives.bind (h : Arrives refuses P Q k x)
    (hf : ∀ y k', Q y k' → Arrives refuses P S k' (y >>= f)) : Arrives refuses P S k (x >>= f) := by
  induction h with
  | here hQ => exact hf _ _ hQ
  | call hc hanswer _ ih => exact .call hc hanswer ih

theorem Arrives.leads (h : Arrives refuses P Q k x) :
    Arrives refuses P (fun y k' ↦ Q y k' ∧ ∃ t, Leads x t y ∧ Serves refuses k t k') k x := by
  have hgeneral (z : Sys α) (k₀ : Kernel) (hz : ∃ t, Leads z t x ∧ Serves refuses k₀ t k) :
      Arrives refuses P (fun y k' ↦ Q y k' ∧ ∃ t, Leads z t y ∧ Serves refuses k₀ t k') k x := by
    induction h with
    | here hQ => exact .here ⟨hQ, hz⟩
    | call hc hanswer _ ih =>
      obtain ⟨t, hleads, hserves⟩ := hz
      exact .call hc hanswer fun r k' hr ↦
        ih r k' hr ⟨_, hleads.snoc r, hserves.append (.cons hr (.nil k'))⟩
  exact hgeneral x k ⟨[], .refl x, .nil k⟩

theorem Arrives.exists_leads (h : Arrives refuses P Q k x) :
    ∃ t y k', Leads x t y ∧ Serves refuses k t k' ∧ Q y k' := by
  induction h with
  | here hQ => exact ⟨[], _, _, .refl _, .nil _, hQ⟩
  | call _ hanswer _ ih =>
    obtain ⟨r, k', hr⟩ := hanswer
    obtain ⟨t, y, k'', hleads, hserves, hQ⟩ := ih r k' hr
    exact ⟨_, y, k'', .call hleads, .cons hr hserves, hQ⟩

/-- Whatever the kernel replies, the program comes to an end, with calls of this kind only. -/
def Finishes (refuses : Refusals) (P : Call → Prop) (k : Kernel) (x : Sys α) : Prop :=
  Arrives refuses P (fun y _ ↦ ∃ a, y = .done a) k x

theorem finishes_pure (a : α) : Finishes refuses P k (pure a) := .here ⟨a, rfl⟩

theorem finishes_ask {c : Call} (hc : P c) (hanswer : ∃ r k', k.Answers refuses c r k') :
    Finishes refuses P k (Sys.ask c) :=
  .call hc hanswer fun r _ _ ↦ finishes_pure r

/-- One program is sure to end, and then the other to arrive. -/
theorem Finishes.arrives (hx : Finishes refuses P k x)
    (hf : ∀ a k', Ends refuses k x a k' → Arrives refuses P S k' (f a)) : Arrives refuses P S k (x >>= f) := by
  refine hx.leads.bind ?_
  rintro _ k' ⟨⟨a, rfl⟩, t, hleads, hserves⟩
  exact hf a k' ⟨t, hleads.runs, hserves⟩

theorem Finishes.bind (hx : Finishes refuses P k x)
    (hf : ∀ a k', Ends refuses k x a k' → Finishes refuses P k' (f a)) : Finishes refuses P k (x >>= f) :=
  hx.arrives hf

end JobShell.Kernel

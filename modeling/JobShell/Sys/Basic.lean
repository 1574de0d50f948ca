import JobShell.Sys.Call

namespace JobShell

inductive Sys (α : Type) where
  | done (a : α)
  | call (c : Call) (next : Reply c → Sys α)

structure Event where
  call : Call
  reply : Reply call

namespace Sys

variable {α β γ : Type}

protected def bind : Sys α → (α → Sys β) → Sys β
  | done a, f => f a
  | call c next, f => call c fun r ↦ (next r).bind f

instance : Monad Sys where
  pure := done
  bind := Sys.bind

@[simp] theorem done_bind (a : α) (f : α → Sys β) : done a >>= f = f a := rfl

@[simp] theorem call_bind (c : Call) (next : Reply c → Sys α) (f : α → Sys β) :
    call c next >>= f = call c fun r ↦ next r >>= f := rfl

theorem bind_done (x : Sys α) : x >>= done = x := by
  induction x with
  | done => rfl
  | call c next ih => exact congrArg (call c) (funext ih)

theorem bind_bind (x : Sys α) (f : α → Sys β) (g : β → Sys γ) :
    x >>= f >>= g = x >>= fun a ↦ f a >>= g := by
  induction x with
  | done => rfl
  | call c next ih => exact congrArg (call c) (funext ih)

instance : LawfulMonad Sys :=
  LawfulMonad.mk' Sys bind_done (fun _ _ ↦ rfl) bind_bind

def ask (c : Call) : Sys (Reply c) := call c done

def exit (code : Int) : Sys α := call (.exit code) Empty.elim

def hang : Sys α := call .hang Empty.elim

def patience : Nat := 1000000000000000

/-- Some replies let the program make these calls and end with this result. -/
inductive Runs : Sys α → List Event → α → Prop
  | done (a : α) : Runs (done a) [] a
  | call {c : Call} {next : Reply c → Sys α} {r : Reply c} {t : List Event} {a : α} :
      Runs (next r) t a → Runs (call c next) (⟨c, r⟩ :: t) a

theorem Runs.bind {x : Sys α} {f : α → Sys β} {t u : List Event} {a : α} {b : β}
    (hx : Runs x t a) (hf : Runs (f a) u b) : Runs (x >>= f) (t ++ u) b := by
  induction hx with
  | done => exact hf
  | call _ ih => exact .call (ih hf)

theorem runs_bind {x : Sys α} {f : α → Sys β} {t : List Event} {b : β} :
    Runs (x >>= f) t b ↔ ∃ u v a, t = u ++ v ∧ Runs x u a ∧ Runs (f a) v b := by
  constructor
  · intro h
    induction x generalizing t with
    | done a => exact ⟨[], t, a, rfl, .done a, h⟩
    | call c next ih =>
      cases h with
      | @call _ _ r t _ h =>
        obtain ⟨u, v, a, rfl, hu, hv⟩ := ih r h
        exact ⟨⟨c, r⟩ :: u, v, a, rfl, .call hu, hv⟩
  · rintro ⟨u, v, a, rfl, hx, hf⟩
    exact hx.bind hf

@[simp] theorem runs_pure {a b : α} {t : List Event} : Runs (pure a) t b ↔ t = [] ∧ b = a := by
  constructor
  · rintro ⟨⟩
    exact ⟨rfl, rfl⟩
  · rintro ⟨rfl, rfl⟩
    exact .done _

theorem runs_call {c : Call} {next : Reply c → Sys α} {t : List Event} {a : α} :
    Runs (call c next) t a ↔ ∃ r u, t = ⟨c, r⟩ :: u ∧ Runs (next r) u a := by
  constructor
  · rintro (_ | ⟨h⟩)
    exact ⟨_, _, rfl, h⟩
  · rintro ⟨r, u, rfl, h⟩
    exact .call h

@[simp] theorem runs_ask {c : Call} {t : List Event} {r : Reply c} :
    Runs (ask c) t r ↔ t = [⟨c, r⟩] := by
  constructor
  · intro h
    obtain ⟨r', u, rfl, hu⟩ := runs_call.1 h
    obtain ⟨rfl, rfl⟩ := runs_pure.1 hu
    rfl
  · rintro rfl
    exact .call (.done r)

theorem runs_ask_bind {c : Call} {f : Reply c → Sys α} {t : List Event} {a : α} :
    Runs (ask c >>= f) t a ↔ ∃ r u, t = ⟨c, r⟩ :: u ∧ Runs (f r) u a :=
  runs_call

@[simp] theorem not_runs_hang {t : List Event} {a : α} : ¬ Runs hang t a := by
  intro h
  obtain ⟨r, -⟩ := runs_call.1 h
  exact r.elim

@[simp] theorem not_runs_exit {code : Int} {t : List Event} {a : α} : ¬ Runs (exit code) t a := by
  intro h
  obtain ⟨r, -⟩ := runs_call.1 h
  exact r.elim

end Sys

end JobShell

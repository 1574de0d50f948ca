import Mathlib.Data.List.Forall2
import JobShell.Job.Process
import JobShell.Proofs.Sys.Calls

namespace JobShell

open Sys (Runs)

/-- A reply to a wait for a child after which it is known to have completed: its end is reported, or it
is nobody's child any more. -/
def TellsEnd : Except Errno (Int × WaitReport) → Prop
  | .ok (_, .exited _) | .ok (_, .killed _ _) => True
  | .ok _ => False
  | .error e => e = .noChild

def Ended (t : List Event) (pid : Int) : Prop :=
  ∃ flags reply, (⟨.wait pid flags, reply⟩ : Event) ∈ t ∧ TellsEnd reply

/-- No wait has failed but for an interruption, or because the child was gone. -/
def Orderly (t : List Event) : Prop :=
  ∀ pid flags e, (⟨.wait pid flags, .error e⟩ : Event) ∈ t → e = .interrupted ∨ e = .noChild

theorem Ended.mono {t u : List Event} {pid : Int} (h : Ended t pid) (hsub : t ⊆ u) : Ended u pid :=
  let ⟨flags, reply, hmem, hends⟩ := h
  ⟨flags, reply, hsub hmem, hends⟩

theorem Orderly.mono {t u : List Event} (h : Orderly u) (hsub : t ⊆ u) : Orderly t :=
  fun pid flags e hmem ↦ h pid flags e (hsub hmem)

theorem Orderly.tail {e : Event} {t : List Event} (h : Orderly (e :: t)) : Orderly t :=
  h.mono (List.subset_cons_self e t)

namespace Process

variable {p q : Process} {t : List Event} {untraced : Bool}

def Awaited (t : List Event) (p q : Process) : Prop :=
  q.pid = p.pid ∧ (q.isCompleted → p.isCompleted ∨ Ended t p.pid)

theorem Awaited.mono {u : List Event} (h : Awaited t p q) (hsub : t ⊆ u) : Awaited u p q :=
  ⟨h.1, fun hq ↦ (h.2 hq).imp_right fun hended ↦ hended.mono hsub⟩

theorem awaited_refl (t : List Event) (p : Process) : Awaited t p p := ⟨rfl, .inl⟩

theorem Awaited.cons {p₁ : Process} {flags : WaitFlags} {reply : Except Errno (Int × WaitReport)}
    (h : Awaited t p₁ q) (hpid : p₁.pid = p.pid)
    (hcompleted : p₁.isCompleted → p.isCompleted ∨ TellsEnd reply) : Awaited (⟨.wait p.pid flags, reply⟩ :: t) p q := by
  refine ⟨h.1.trans hpid, fun hq ↦ ?_⟩
  rcases h.2 hq with hp₁ | hended
  · exact (hcompleted hp₁).imp_right fun hends ↦ ⟨flags, reply, List.mem_cons_self, hends⟩
  · exact .inr ((hpid ▸ hended).mono (List.subset_cons_self _ _))

theorem pid_update (p : Process) (report : WaitReport) : (p.update report).1.pid = p.pid := by
  unfold update
  split <;> rfl

theorem isCompleted_update {report : WaitReport} {child : Int}
    (h : (p.update report).1.isCompleted) : p.isCompleted ∨ TellsEnd (.ok (child, report)) := by
  cases report with
  | exited code => exact .inr trivial
  | killed s dumped => exact .inr trivial
  | stopped s => cases h
  | continued => cases h
  | killedRealTime number => exact .inl h
  | traceEvent s => exact .inl h
  | traceCall => exact .inl h
  | stillAlive => exact .inl h

/-- Waiting for a process comes back if it has settled. Otherwise it asks once more: it records a report, is
interrupted, finds that the child is gone, or fails. -/
theorem awaitFor_cases {n : Nat} {r : Except Failure Unit} (h : Runs (p.awaitFor untraced (n + 1)) t (r, q)) :
    (p.settled untraced ∧ t = [] ∧ r = .ok () ∧ q = p) ∨
      p.settled untraced = false ∧ ∃ flags reply u, t = ⟨.wait p.pid flags, reply⟩ :: u ∧
        ((∃ answer, reply = .ok answer ∧ Runs ((p.update answer.2).1.awaitFor untraced n) u (r, q)) ∨
          (reply = .error .interrupted ∧ Runs (p.awaitFor untraced n) u (r, q)) ∨
          (reply = .error .noChild ∧ ∃ level target text v, u = ⟨.log level target text, ()⟩ :: v ∧
            Runs (({ p with status := .exited 0 } : Process).awaitFor untraced n) v (r, q)) ∨
          ∃ e, reply = .error e ∧ e ≠ .interrupted ∧ e ≠ .noChild ∧ u = [] ∧
            r = .error (.system e) ∧ q = p) := by
  rw [awaitFor] at h
  split at h
  · next hsettled =>
    obtain ⟨rfl, ⟨⟩⟩ := Sys.runs_pure.1 h
    exact .inl ⟨hsettled, rfl, rfl, rfl⟩
  · next hsettled =>
    obtain ⟨reply, u, rfl, hnext⟩ := Sys.runs_ask_bind.1 h
    refine .inr ⟨Bool.eq_false_iff.2 hsettled, _, reply, u, rfl, ?_⟩
    cases reply with
    | ok answer => exact .inl ⟨answer, rfl, hnext⟩
    | error e =>
      simp only at hnext
      split at hnext
      · next he =>
        subst he
        exact .inr (.inl ⟨rfl, hnext⟩)
      · next hinterrupted =>
        split at hnext
        · next he =>
          subst he
          obtain ⟨_, v, lost, rfl, hlost, hnext⟩ := Sys.runs_bind.1 hnext
          obtain ⟨_, _, rfl, hmarked⟩ := Sys.runs_ask_bind.1 hlost
          obtain ⟨rfl, rfl⟩ := Sys.runs_pure.1 hmarked
          exact .inr (.inr (.inl ⟨rfl, _, _, _, v, rfl, hnext⟩))
        · next hgone =>
          obtain ⟨rfl, ⟨⟩⟩ := Sys.runs_pure.1 hnext
          exact .inr (.inr (.inr ⟨e, rfl, hinterrupted, hgone, rfl, rfl, rfl⟩))

theorem isCompleted_or_isStopped (h : p.settled untraced) : p.isCompleted ∨ untraced ∧ p.isStopped := by
  simpa [settled] using h

theorem runs_awaitFor {n : Nat} {r : Except Failure Unit}
    (h : Runs (p.awaitFor untraced n) t (r, q)) :
    Awaited t p q ∧ (r = .ok () → q.settled untraced) ∧ (Orderly t → r = .ok ()) := by
  induction n generalizing p t with
  | zero => exact absurd h Sys.not_runs_hang
  | succ n ih =>
    obtain ⟨hsettled, rfl, rfl, rfl⟩ | ⟨-, flags, reply, u, rfl, hreply⟩ := awaitFor_cases h
    · exact ⟨awaited_refl _ _, fun _ ↦ hsettled, fun _ ↦ rfl⟩
    obtain ⟨answer, rfl, hnext⟩ | ⟨rfl, hnext⟩ | ⟨rfl, level, target, text, v, rfl, hnext⟩ |
      ⟨e, rfl, hinterrupted, hgone, rfl, rfl, rfl⟩ := hreply
    · obtain ⟨hawaited, hsettled, hok⟩ := ih hnext
      exact ⟨hawaited.cons (pid_update p answer.2) isCompleted_update, hsettled, fun ho ↦ hok ho.tail⟩
    · obtain ⟨hawaited, hsettled, hok⟩ := ih hnext
      exact ⟨hawaited.cons rfl .inl, hsettled, fun ho ↦ hok ho.tail⟩
    · obtain ⟨hawaited, hsettled, hok⟩ := ih hnext
      have hlost := hawaited.mono (List.subset_cons_self ⟨.log level target text, ()⟩ v)
      exact ⟨hlost.cons rfl fun _ ↦ .inr rfl, hsettled, fun ho ↦ hok ho.tail.tail⟩
    · refine ⟨awaited_refl _ _, nofun, fun ho ↦ ?_⟩
      rcases ho _ _ e List.mem_cons_self with he | he
      · exact absurd he hinterrupted
      · exact absurd he hgone

theorem awaitAll_cases {ps qs : List Process} {r : Except Failure Unit}
    (h : Runs (awaitAll untraced (p :: ps)) t (r, qs)) :
    (∃ f q, r = .error f ∧ qs = q :: ps ∧ Runs (p.awaitFor untraced Sys.patience) t (.error f, q)) ∨
      ∃ u v q qs', t = u ++ v ∧ qs = q :: qs' ∧ Runs (p.awaitFor untraced Sys.patience) u (.ok (), q) ∧
        Runs (awaitAll untraced ps) v (r, qs') := by
  obtain ⟨u, v, ⟨r', q⟩, rfl, hp, h⟩ := Sys.runs_bind.1 h
  cases r' with
  | error f =>
    obtain ⟨rfl, ⟨⟩⟩ := Sys.runs_pure.1 h
    rw [List.append_nil]
    exact .inl ⟨f, q, rfl, rfl, hp⟩
  | ok _ =>
    obtain ⟨w, v, ⟨r', qs'⟩, rfl, hrest, h⟩ := Sys.runs_bind.1 h
    obtain ⟨rfl, ⟨⟩⟩ := Sys.runs_pure.1 h
    exact .inr ⟨u, w, q, qs', by rw [List.append_nil], rfl, hp, hrest⟩

theorem runs_awaitAll {ps qs : List Process} {r : Except Failure Unit}
    (h : Runs (awaitAll untraced ps) t (r, qs)) :
    List.Forall₂ (Awaited t) ps qs ∧ (Orderly t → r = .ok () ∧ ∀ q ∈ qs, q.settled untraced) := by
  induction ps generalizing t r qs with
  | nil =>
    obtain ⟨-, ⟨⟩⟩ := Sys.runs_pure.1 h
    exact ⟨.nil, fun _ ↦ ⟨rfl, fun _ hq ↦ nomatch hq⟩⟩
  | cons p ps ih =>
    obtain ⟨f, q, rfl, rfl, hp⟩ | ⟨u, v, q, qs', rfl, rfl, hp, hrest⟩ := awaitAll_cases h
    · obtain ⟨hawaited, -, hok⟩ := runs_awaitFor hp
      exact ⟨.cons hawaited (List.forall₂_same.2 fun p _ ↦ awaited_refl _ p), fun ho ↦ nomatch hok ho⟩
    · obtain ⟨hawaited, hsettled, -⟩ := runs_awaitFor hp
      obtain ⟨hlater, hall⟩ := ih hrest
      have hleft : u ⊆ u ++ v := List.subset_append_left u v
      have hright : v ⊆ u ++ v := List.subset_append_right u v
      refine ⟨.cons (hawaited.mono hleft) (hlater.imp fun _ _ h ↦ h.mono hright), fun ho ↦ ?_⟩
      obtain ⟨hr, hqs⟩ := hall (ho.mono hright)
      refine ⟨hr, fun x hx ↦ ?_⟩
      rcases List.mem_cons.1 hx with rfl | hx
      · exact hsettled rfl
      · exact hqs x hx

theorem pids_of_awaited {ps qs : List Process} (h : List.Forall₂ (Awaited t) ps qs) :
    qs.map (·.pid) = ps.map (·.pid) := by
  induction h with
  | nil => rfl
  | cons hp _ ih => rw [List.map_cons, List.map_cons, ih, hp.1]

theorem ended_of_awaited {ps qs : List Process} (h : List.Forall₂ (Awaited t) ps qs)
    (hps : ∀ p ∈ ps, p.isCompleted = false) (hqs : ∀ q ∈ qs, q.isCompleted) :
    ∀ p ∈ ps, Ended t p.pid := by
  induction h with
  | nil => exact fun p hp ↦ nomatch hp
  | @cons p q ps qs hpq _ ih =>
    intro x hx
    rcases List.mem_cons.1 hx with rfl | hx
    · rcases hpq.2 (hqs q List.mem_cons_self) with hcompleted | hended
      · exact absurd hcompleted (by simp [hps x List.mem_cons_self])
      · exact hended
    · exact ih (fun p hp ↦ hps p (List.mem_cons_of_mem _ hp))
        (fun q hq ↦ hqs q (List.mem_cons_of_mem _ hq)) x hx

theorem ended_of_unstopped {ps qs : List Process} (h : List.Forall₂ (Awaited t) ps qs)
    (hps : ∀ p ∈ ps, p.isCompleted = false) (hqs : ∀ q ∈ qs, q.isCompleted ∨ untraced ∧ q.isStopped)
    (hnone : qs.any (·.isStopped) = false) : ∀ p ∈ ps, Ended t p.pid := by
  refine ended_of_awaited h hps fun q hq ↦ (hqs q hq).resolve_right fun hstopped ↦ ?_
  exact List.any_eq_false.1 hnone q hq hstopped.2

end Process

end JobShell

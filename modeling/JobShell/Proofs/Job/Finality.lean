import JobShell.Proofs.Job.Collecting
import JobShell.Proofs.Sys.Progress

namespace JobShell

open Sys (Runs)

namespace Process

variable {p q : Process} {ps qs : List Process} {t u : List Event} {untraced : Bool}

/-- What is asked about a process, call by call, and what is known of it after that. Each wait is for a
process that is not known to have completed, and so is each change. -/
inductive Follows : Process → List Event → Process → Prop
  | stay (p : Process) : Follows p [] p
  | told {p q : Process} {flags : WaitFlags} {answer : Int × WaitReport} {t : List Event} :
      p.isCompleted = false → Follows (p.update answer.2).1 t q →
      Follows p (⟨.wait p.pid flags, .ok answer⟩ :: t) q
  | untold {p q : Process} {flags : WaitFlags} {e : Errno} {t : List Event} :
      p.isCompleted = false → Follows p t q → Follows p (⟨.wait p.pid flags, .error e⟩ :: t) q
  | probed {p q : Process} {r : Except Errno Unit} {t : List Event} :
      Follows p t q → Follows p (⟨.kill p.pid none, r⟩ :: t) q
  | lost {p q : Process} {level : LogLevel} {target text : String} {t : List Event} :
      p.isCompleted = false → Follows { p with status := .exited 0 } t q →
      Follows p (⟨.log level target text, ()⟩ :: t) q

inductive FollowsAll : List Process → List Event → List Process → Prop
  | nil : FollowsAll [] [] []
  | cons {p q : Process} {ps qs : List Process} {t u : List Event} :
      Follows p t q → FollowsAll ps u qs → FollowsAll (p :: ps) (t ++ u) (q :: qs)

/-- The same process, and unchanged if it has completed. -/
structure Continues (p q : Process) : Prop where
  origin : q.origin = p.origin
  final : p.isCompleted → q = p

theorem continues_refl (p : Process) : p.Continues p := ⟨rfl, fun _ ↦ rfl⟩

theorem Continues.of_open {p' : Process} (h : p'.Continues q) (hp : p.isCompleted = false)
    (horigin : p'.origin = p.origin) : p.Continues q :=
  ⟨h.origin.trans horigin, fun hcompleted ↦ absurd hcompleted (by simp [hp])⟩

theorem Follows.continues (h : Follows p t q) : p.Continues q := by
  induction h with
  | stay p => exact p.continues_refl
  | told hp _ ih => exact ih.of_open hp (origin_update _ _)
  | untold _ _ ih => exact ih
  | probed _ ih => exact ih
  | lost hp _ ih => exact ih.of_open hp rfl

theorem FollowsAll.continues (h : FollowsAll ps t qs) : List.Forall₂ Continues ps qs := by
  induction h with
  | nil => exact .nil
  | cons hp _ ih => exact .cons hp.continues ih

theorem followsAll_refl (ps : List Process) : FollowsAll ps [] ps := by
  induction ps with
  | nil => exact .nil
  | cons p ps ih => exact .cons (.stay p) ih

theorem Follows.first (h : Follows p t q) (ps : List Process) : FollowsAll (p :: ps) t (q :: ps) := by
  simpa using FollowsAll.cons h (followsAll_refl ps)

theorem FollowsAll.append {ps' qs' : List Process} (h : FollowsAll ps t qs) (h' : FollowsAll ps' u qs') :
    FollowsAll (ps ++ ps') (t ++ u) (qs ++ qs') := by
  induction h with
  | nil => exact h'
  | cons hp _ ih =>
    rw [List.append_assoc]
    exact .cons hp ih

theorem isCompleted_of_isStopped (h : p.isStopped) : p.isCompleted = false := by
  unfold isStopped at h
  unfold isCompleted
  split at h <;> simp_all

theorem isCompleted_of_unsettled (h : p.settled untraced = false) : p.isCompleted = false :=
  (Bool.or_eq_false_iff.1 h).1

theorem follows_awaitFor {n : Nat} {r : Except Failure Unit} (h : Runs (p.awaitFor untraced n) t (r, q)) :
    Follows p t q := by
  induction n generalizing p t with
  | zero => exact absurd h Sys.not_runs_hang
  | succ n ih =>
    obtain ⟨-, rfl, -, rfl⟩ | ⟨hp, flags, reply, u, rfl, hreply⟩ := awaitFor_cases h
    · exact .stay _
    replace hp := isCompleted_of_unsettled hp
    obtain ⟨answer, rfl, hnext⟩ | ⟨rfl, hnext⟩ | ⟨rfl, level, target, text, v, rfl, hnext⟩ |
      ⟨e, rfl, -, -, rfl, -, rfl⟩ := hreply
    · exact .told hp (ih hnext)
    · exact .untold hp (ih hnext)
    · exact .untold hp (.lost hp (ih hnext))
    · exact .untold hp (.stay _)

theorem followsAll_awaitAll {r : Except Failure Unit} (h : Runs (awaitAll untraced ps) t (r, qs)) :
    FollowsAll ps t qs := by
  induction ps generalizing t r qs with
  | nil =>
    obtain ⟨rfl, ⟨⟩⟩ := Sys.runs_pure.1 h
    exact .nil
  | cons p ps ih =>
    obtain ⟨f, q, -, rfl, hp⟩ | ⟨u, v, q, qs', rfl, rfl, hp, hrest⟩ := awaitAll_cases h
    · exact (follows_awaitFor hp).first ps
    · exact .cons (follows_awaitFor hp) (ih hrest)

theorem follows_poll {n : Nat} {r : Except Failure Bool} (hp : p.isCompleted = false)
    (h : Runs (p.poll n) t (r, q)) : Follows p t q := by
  induction n generalizing t with
  | zero => exact absurd h Sys.not_runs_hang
  | succ n ih =>
    obtain ⟨answer, u, rfl, hnext⟩ := Sys.runs_ask_bind.1 h
    cases answer with
    | ok answer =>
      obtain ⟨rfl, ⟨⟩⟩ := Sys.runs_pure.1 hnext
      exact .told hp (.stay _)
    | error e =>
      refine .untold hp ?_
      simp only at hnext
      split at hnext
      · exact ih hnext
      · split at hnext
        · obtain ⟨_, v, found, rfl, hprobe, hfound⟩ := Sys.runs_bind.1 hnext
          obtain ⟨answer, w, rfl, hanswer⟩ := Sys.runs_ask_bind.1 hprobe
          obtain rfl : w = [] := by cases answer <;> exact (Sys.runs_pure.1 hanswer).1
          refine .probed ?_
          cases found with
          | true =>
            obtain ⟨rfl, ⟨⟩⟩ := Sys.runs_pure.1 hfound
            exact .stay _
          | false =>
            obtain ⟨_, w, lost, rfl, hlost, hend⟩ := Sys.runs_bind.1 hfound
            obtain ⟨rfl, ⟨⟩⟩ := Sys.runs_pure.1 hend
            obtain ⟨_, _, rfl, hmarked⟩ := Sys.runs_ask_bind.1 hlost
            obtain ⟨rfl, rfl⟩ := Sys.runs_pure.1 hmarked
            exact .lost hp (.stay _)
        · obtain ⟨rfl, ⟨⟩⟩ := Sys.runs_pure.1 hnext
          exact .stay _

end Process

namespace Job

open Process (FollowsAll Continues)

variable {j k : Job} {ps qs : List Process} {t : List Event} {r : Except Failure Bool}

theorem followsAll_pollAll (h : Runs (pollAll ps) t (r, qs)) : FollowsAll ps t qs := by
  induction ps generalizing t r qs with
  | nil =>
    obtain ⟨rfl, ⟨⟩⟩ := Sys.runs_pure.1 h
    exact .nil
  | cons p ps ih =>
    obtain ⟨-, qs', rfl, hrest⟩ | ⟨hp, ⟨f, q, -, rfl, hpoll⟩ | ⟨u, v, _, q, _, qs', rfl, -, rfl, hpoll, hrest⟩⟩ :=
      pollAll_cases h
    · exact .cons (.stay p) (ih hrest)
    · exact (Process.follows_poll hp hpoll).first ps
    · exact .cons (Process.follows_poll hp hpoll) (ih hrest)

theorem followsAll_poll (h : Runs j.poll t (r, k)) : FollowsAll j.processes t k.processes := by
  obtain ⟨u, v, ⟨r', ps⟩, rfl, hps, hend⟩ := Sys.runs_bind.1 h
  obtain ⟨rfl, ⟨⟩⟩ := Sys.runs_pure.1 hend
  rw [List.append_nil]
  exact followsAll_pollAll hps

theorem continues_markRunning (j : Job) : List.Forall₂ Continues j.processes j.markRunning.processes := by
  refine List.forall₂_map_right_iff.2 (List.forall₂_same.2 fun p _ ↦ ?_)
  split
  · next hstopped =>
    exact Continues.of_open (Process.continues_refl _) (Process.isCompleted_of_isStopped hstopped) rfl
  · exact p.continues_refl

end Job

namespace JobTable

open Process (FollowsAll Continues)

variable {js ks : List Job} {t u : JobTable} {trace : List Event}
  {r : Except Failure (List (JobId × JobStatus))}

def Continue (js ks : List Job) : Prop :=
  List.Forall₂ (fun j k ↦ List.Forall₂ Continues j.processes k.processes) js ks

theorem continue_refl (js : List Job) : Continue js js :=
  List.forall₂_same.2 fun _ _ ↦ List.forall₂_same.2 fun p _ ↦ p.continues_refl

theorem follows_reapJobs (h : Runs (reapJobs js) trace (r, ks)) :
    FollowsAll (js.flatMap (·.processes)) trace (ks.flatMap (·.processes)) ∧ Continue js ks := by
  induction js generalizing trace r ks with
  | nil =>
    obtain ⟨rfl, ⟨⟩⟩ := Sys.runs_pure.1 h
    exact ⟨.nil, .nil⟩
  | cons j js ih =>
    have hnext {k : Job} {v : List Event} {polled : Except Failure Bool} (hj : Runs j.poll v (polled, k))
        {w : List Event} {ls : List Job}
        (hrest : FollowsAll (js.flatMap (·.processes)) w (ls.flatMap (·.processes)) ∧ Continue js ls) :
        FollowsAll (j.processes ++ js.flatMap (·.processes)) (v ++ w)
          (k.processes ++ ls.flatMap (·.processes)) ∧
        List.Forall₂ Continues j.processes k.processes ∧ Continue js ls :=
      have hfollows := Job.followsAll_poll hj
      ⟨hfollows.append hrest.1, hfollows.continues, hrest.2⟩
    obtain ⟨f, k, -, rfl, hj⟩ | ⟨v, w, k, r', ls, rfl, hrest, ⟨-, rfl, hj⟩ | ⟨-, rfl, hj⟩⟩ := reapJobs_cases h
    · obtain ⟨hfollows, hk, hjs⟩ := hnext hj ⟨Process.followsAll_refl _, continue_refl js⟩
      rw [List.append_nil] at hfollows
      exact ⟨hfollows, .cons hk hjs⟩
    · obtain ⟨hfollows, hk, hjs⟩ := hnext hj (ih hrest)
      exact ⟨hfollows, .cons hk hjs⟩
    · obtain ⟨hfollows, hk, hjs⟩ := hnext hj (ih hrest)
      exact ⟨hfollows, .cons hk hjs⟩

/-- The replies of a kernel in which no process of the table that has not completed has changed: it is
alive, or no child of the shell, but still there. Of all else the kernel may say what it likes. -/
def Unmoved (t : JobTable) : Event → Prop
  | ⟨.wait pid _, r⟩ =>
    pid ∈ tracked t.jobs → (∃ child, r = .ok (child, .stillAlive)) ∨ r = .error .noChild
  | ⟨.kill pid none, r⟩ => pid ∈ tracked t.jobs → r ≠ .error .noProcess
  | _ => True

theorem delivers_exists {p : Process} (hp : p.pid ∈ tracked t.jobs) :
    p.exists.Delivers t.Unmoved (· = true) := by
  refine ⟨⟨.ok (), fun _ ↦ by simp⟩, fun r hr ↦ ?_⟩
  cases r with
  | ok _ => rfl
  | error e =>
    have he : e ≠ .noProcess := fun he ↦ hr hp (congrArg Except.error he)
    exact decide_eq_true he

theorem delivers_poll {p : Process} (hp : p.pid ∈ tracked t.jobs) (n : Nat) :
    (p.poll (n + 1)).Delivers t.Unmoved (· = (.ok false, p)) := by
  refine ⟨⟨.ok (p.pid, .stillAlive), fun _ ↦ .inl ⟨_, rfl⟩⟩, fun r hr ↦ ?_⟩
  obtain ⟨child, rfl⟩ | rfl := hr hp
  · exact rfl
  · have hgone : (p.exists >>= fun found ↦ if found then pure (.ok false, p)
        else p.markLost >>= fun lost ↦ pure (.ok true, lost) : Sys (Except Failure Bool × Process)).Delivers
        t.Unmoved (· = (.ok false, p)) := by
      refine (delivers_exists hp).bind fun found hfound ↦ ?_
      subst hfound
      exact rfl
    exact hgone

theorem delivers_pollAll {ps : List Process} (hps : Process.unfinished ps ⊆ tracked t.jobs) :
    (Job.pollAll ps).Delivers t.Unmoved (· = (.ok false, ps)) := by
  induction ps with
  | nil => exact rfl
  | cons p ps ih =>
    rw [Process.unfinished_cons] at hps
    rw [Job.pollAll]
    split
    · next hp =>
      rw [if_pos hp] at hps
      refine (ih hps).bind fun polled hpolled ↦ ?_
      subst hpolled
      exact rfl
    · next hp =>
      rw [if_neg hp] at hps
      obtain ⟨hpid, hps⟩ := List.cons_subset.1 hps
      refine (delivers_poll hpid _).bind fun polled hpolled ↦ ?_
      subst hpolled
      refine (ih hps).bind fun polled hpolled ↦ ?_
      subst hpolled
      exact rfl

theorem delivers_reapJobs {js : List Job} (hjs : js ⊆ t.jobs) :
    (reapJobs js).Delivers t.Unmoved (· = (.ok [], js)) := by
  induction js with
  | nil => exact rfl
  | cons j js ih =>
    obtain ⟨hj, hjs⟩ := List.cons_subset.1 hjs
    refine Sys.Delivers.bind (P := (· = (.ok false, j))) ?_ fun polled hpolled ↦ ?_
    · refine (delivers_pollAll (unfinished_subset_tracked hj)).bind fun polled hpolled ↦ ?_
      subst hpolled
      exact rfl
    · subst hpolled
      refine (ih hjs).bind fun polled hpolled ↦ ?_
      subst hpolled
      exact rfl

theorem delivers_reap (t : JobTable) : t.reap.Delivers t.Unmoved (· = (.ok [], t)) := by
  refine (delivers_reapJobs (List.Subset.refl t.jobs)).bind fun polled hpolled ↦ ?_
  subst hpolled
  exact rfl

/-- Polls a table again and again, and tells what each poll has told. -/
def polls : Nat → JobTable → Sys (List (Except Failure (List (JobId × JobStatus))) × JobTable)
  | 0, t => pure ([], t)
  | n + 1, t => do
    let (r, t) ← t.reap
    let (rs, t) ← polls n t
    pure (r :: rs, t)

theorem delivers_polls (t : JobTable) (n : Nat) :
    (polls n t).Delivers t.Unmoved (· = (List.replicate n (.ok []), t)) := by
  induction n with
  | zero => exact rfl
  | succ n ih =>
    refine (delivers_reap t).bind fun polled hpolled ↦ ?_
    subst hpolled
    refine ih.bind fun polled hpolled ↦ ?_
    subst hpolled
    exact rfl

/-- The end of a process is final. Whatever the kernel reports, a poll of a table and a wait for some
processes ask about one process after another, wait only for those that have not completed, and leave
those that have as they are; so does marking a job as running. Where nothing has happened to the others,
each of any number of polls is sure to tell of no change, and leaves the table as it is. -/
theorem ends_are_final :
    (∀ (t u : JobTable) trace r, Runs t.reap trace (r, u) →
        FollowsAll (t.jobs.flatMap (·.processes)) trace (u.jobs.flatMap (·.processes)) ∧
          Continue t.jobs u.jobs) ∧
      (∀ untraced ps trace r qs, Runs (Process.awaitAll untraced ps) trace (r, qs) →
        FollowsAll ps trace qs ∧ List.Forall₂ Continues ps qs) ∧
      (∀ j : Job, List.Forall₂ Continues j.processes j.markRunning.processes) ∧
      ∀ (t : JobTable) n, (polls n t).Delivers t.Unmoved (· = (List.replicate n (.ok []), t)) := by
  refine ⟨fun t u trace r h ↦ follows_reapJobs (reap_cases h).1, fun _ _ _ _ _ h ↦ ?_,
    Job.continues_markRunning, delivers_polls⟩
  have hfollows := Process.followsAll_awaitAll h
  exact ⟨hfollows, hfollows.continues⟩

theorem ends_are_final_of_exited :
    let t : JobTable := ⟨[⟨1, none, "a | b", [⟨11, "a", .exited 3⟩, ⟨12, "b", .running⟩], false, false⟩], some 1⟩
    ∃ flags r u, Runs t.reap [⟨.wait 12 flags, .ok (12, .killed .term false)⟩] (r, u) ∧
      u.jobs.flatMap (·.processes) = [⟨11, "a", .exited 3⟩, ⟨12, "b", .signaled .term⟩] ∧
      Continue t.jobs u.jobs ∧ ∃ qs, Runs (Process.awaitAll false (u.jobs.flatMap (·.processes))) [] (.ok (), qs) ∧
        List.Forall₂ Continues (u.jobs.flatMap (·.processes)) qs := by
  intro t
  have hreap : Runs t.reap [⟨.wait 12 _, .ok (12, .killed .term false)⟩] (.ok [(1, .signaled .term)], _) :=
    .call (.done _)
  have hwait : Runs (Process.awaitAll false [⟨11, "a", .exited 3⟩, ⟨12, "b", .signaled .term⟩]) [] (.ok (), _) :=
    .done _
  exact ⟨_, _, _, hreap, rfl, (ends_are_final.1 _ _ _ _ hreap).2, _, hwait,
    (ends_are_final.2.1 _ _ _ _ _ hwait).2⟩

end JobTable

end JobShell

import Mathlib.Data.List.Forall2
import JobShell.Job.Table
import JobShell.Proofs.Job.Awaiting
import JobShell.Proofs.Sys.Calls

namespace JobShell

open Sys (Runs Only)

def Process.origin (p : Process) : Int × String := (p.pid, p.text)

def Job.origin (j : Job) : JobId × Option Int × String × List (Int × String) :=
  (j.id, j.group, j.name, j.processes.map Process.origin)

theorem ids_of_origins {js ks : List Job} (h : ks.map Job.origin = js.map Job.origin) :
    ks.map (·.id) = js.map (·.id) := by
  have hids := congrArg (List.map Prod.fst) h
  rwa [List.map_map, List.map_map] at hids

theorem ids_sublist_of_origins {js ks : List Job}
    (h : (ks.map Job.origin).Sublist (js.map Job.origin)) :
    (ks.map (·.id)).Sublist (js.map (·.id)) := by
  have hids := h.map Prod.fst
  rwa [List.map_map, List.map_map] at hids

def Call.isInquiry : Call → Prop
  | .wait _ _ | .kill _ none | .log _ _ _ => True
  | _ => False

def Call.isAsking (c : Call) : Prop := c.isInquiry ∨ c = .hang

namespace Process

variable {p q : Process} {t : List Event}

theorem origin_update (p : Process) (report : WaitReport) :
    (p.update report).1.origin = p.origin := by
  unfold update
  split <;> rfl

theorem update_of_unchanged {report : WaitReport} (h : (p.update report).2 = false) :
    (p.update report).1 = p := by
  unfold update at h ⊢
  split at h
  · next status _ =>
    have hs : status = p.status := by simpa using h
    simp [hs]
  · rfl

/-- All that a poll makes of a process: it records a report, or finds nothing, or the process is gone, or a
wait fails. -/
theorem poll_cases {n : Nat} {r : Except Failure Bool} (h : Runs (p.poll n) t (r, q)) :
    (∃ report, r = .ok (p.update report).2 ∧ q = (p.update report).1) ∨ (r = .ok false ∧ q = p) ∨
      (r = .ok true ∧ q = { p with status := .exited 0 }) ∨
      ∃ flags e, (⟨.wait p.pid flags, .error e⟩ : Event) ∈ t ∧ e ≠ .interrupted ∧ e ≠ .noChild ∧
        r = .error (.system e) ∧ q = p := by
  induction n generalizing t with
  | zero => exact absurd h Sys.not_runs_hang
  | succ n ih =>
    obtain ⟨answer, u, rfl, hnext⟩ := Sys.runs_ask_bind.1 h
    clear h
    cases answer with
    | ok answer =>
      obtain ⟨-, ⟨⟩⟩ := Sys.runs_pure.1 hnext
      exact .inl ⟨answer.2, rfl, rfl⟩
    | error e =>
      simp only at hnext
      split at hnext
      · obtain h | h | h | ⟨flags, e', hmem, hfails⟩ := ih hnext
        · exact .inl h
        · exact .inr (.inl h)
        · exact .inr (.inr (.inl h))
        · exact .inr (.inr (.inr ⟨flags, e', List.mem_cons_of_mem _ hmem, hfails⟩))
      -- a child that is gone is asked for once more, by a signal that does nothing
      · next hinterrupted =>
        split at hnext
        · obtain ⟨_, v, found, rfl, -, hfound⟩ := Sys.runs_bind.1 hnext
          cases found with
          | true =>
            obtain ⟨-, ⟨⟩⟩ := Sys.runs_pure.1 hfound
            exact .inr (.inl ⟨rfl, rfl⟩)
          | false =>
            obtain ⟨_, w, lost, rfl, hlost, hend⟩ := Sys.runs_bind.1 hfound
            obtain ⟨-, ⟨⟩⟩ := Sys.runs_pure.1 hend
            obtain ⟨_, _, -, hmarked⟩ := Sys.runs_ask_bind.1 hlost
            obtain ⟨-, rfl⟩ := Sys.runs_pure.1 hmarked
            exact .inr (.inr (.inl ⟨rfl, rfl⟩))
        · next hgone =>
          obtain ⟨-, ⟨⟩⟩ := Sys.runs_pure.1 hnext
          exact .inr (.inr (.inr ⟨_, e, List.mem_cons_self, hinterrupted, hgone, rfl, rfl⟩))

theorem runs_poll {n : Nat} {r : Except Failure Bool} (h : Runs (p.poll n) t (r, q)) :
    q.origin = p.origin ∧ (r ≠ .ok true → q = p) := by
  obtain ⟨report, rfl, rfl⟩ | ⟨-, rfl⟩ | ⟨rfl, rfl⟩ | ⟨-, -, -, -, -, -, rfl⟩ := poll_cases h
  · refine ⟨origin_update p report, fun hr ↦ update_of_unchanged (Bool.eq_false_iff.2 fun hc ↦ ?_)⟩
    exact hr (congrArg Except.ok hc)
  · exact ⟨rfl, fun _ ↦ rfl⟩
  · exact ⟨rfl, fun hr ↦ absurd rfl hr⟩
  · exact ⟨rfl, fun _ ↦ rfl⟩

theorem ok_of_poll {n : Nat} {r : Except Failure Bool} (h : Runs (p.poll n) t (r, q))
    (ho : Orderly t) : ∃ changed, r = .ok changed := by
  obtain ⟨_, rfl, -⟩ | ⟨rfl, -⟩ | ⟨rfl, -⟩ | ⟨flags, e, hmem, hinterrupted, hgone, -⟩ := poll_cases h
  · exact ⟨_, rfl⟩
  · exact ⟨_, rfl⟩
  · exact ⟨_, rfl⟩
  · rcases ho _ flags e hmem with he | he
    · exact absurd he hinterrupted
    · exact absurd he hgone

theorem every_poll (n : Nat) (p : Process) : (p.poll n).Every Call.isAsking := by
  induction n with
  | zero => exact Sys.every_hang (.inr rfl)
  | succ n ih =>
    refine (Sys.every_ask (.inl trivial)).bind fun answer ↦ ?_
    cases answer with
    | ok answer => exact Sys.every_pure _
    | error e =>
      simp only
      split
      · exact ih
      · split
        · refine ((Sys.every_ask (.inl trivial)).bind fun answer ↦ ?_).bind fun found ↦ ?_
          · cases answer <;> exact Sys.every_pure _
          · split
            · exact Sys.every_pure _
            · exact ((Sys.every_ask (.inl trivial)).bind fun _ ↦ Sys.every_pure _).bind fun _ ↦
                Sys.every_pure _
        · exact Sys.every_pure _

end Process

namespace Job

variable {j k : Job} {ps qs : List Process} {t : List Event} {r : Except Failure Bool}

theorem pollAll_cases {p : Process} (h : Runs (pollAll (p :: ps)) t (r, qs)) :
    (p.isCompleted ∧ ∃ qs', qs = p :: qs' ∧ Runs (pollAll ps) t (r, qs')) ∨
      p.isCompleted = false ∧
        ((∃ f q, r = .error f ∧ qs = q :: ps ∧ Runs (p.poll Sys.patience) t (.error f, q)) ∨
          ∃ u v changed q r' qs', t = u ++ v ∧ r = r'.map (changed || ·) ∧ qs = q :: qs' ∧
            Runs (p.poll Sys.patience) u (.ok changed, q) ∧ Runs (pollAll ps) v (r', qs')) := by
  rw [pollAll] at h
  split at h
  · next hp =>
    obtain ⟨u, v, ⟨r', qs'⟩, rfl, hrest, hend⟩ := Sys.runs_bind.1 h
    obtain ⟨rfl, ⟨⟩⟩ := Sys.runs_pure.1 hend
    rw [List.append_nil]
    exact .inl ⟨hp, qs', rfl, hrest⟩
  · next hp =>
    refine .inr ⟨Bool.eq_false_iff.2 hp, ?_⟩
    obtain ⟨u, v, ⟨polled, q⟩, rfl, hpoll, hnext⟩ := Sys.runs_bind.1 h
    cases polled with
    | error f =>
      obtain ⟨rfl, ⟨⟩⟩ := Sys.runs_pure.1 hnext
      rw [List.append_nil]
      exact .inl ⟨f, q, rfl, rfl, hpoll⟩
    | ok changed =>
      obtain ⟨u', v', ⟨r', qs'⟩, rfl, hrest, hend⟩ := Sys.runs_bind.1 hnext
      obtain ⟨rfl, ⟨⟩⟩ := Sys.runs_pure.1 hend
      exact .inr ⟨u, u', changed, q, r', qs', by rw [List.append_nil], rfl, rfl, hpoll, hrest⟩

theorem runs_pollAll (h : Runs (pollAll ps) t (r, qs)) :
    qs.map Process.origin = ps.map Process.origin ∧ (r = .ok false → qs = ps) := by
  induction ps generalizing t r qs with
  | nil =>
    obtain ⟨-, ⟨⟩⟩ := Sys.runs_pure.1 h
    exact ⟨rfl, fun _ ↦ rfl⟩
  | cons p ps ih =>
    obtain ⟨-, qs', rfl, hrest⟩ | ⟨-, ⟨f, q, rfl, rfl, hp⟩ | ⟨_, _, changed, q, r', qs', -, rfl, rfl, hp, hrest⟩⟩ :=
      pollAll_cases h
    · obtain ⟨horigin, hsame⟩ := ih hrest
      exact ⟨by rw [List.map_cons, List.map_cons, horigin], fun hr ↦ by rw [hsame hr]⟩
    · exact ⟨by rw [List.map_cons, List.map_cons, (Process.runs_poll hp).1], fun hr ↦ nomatch hr⟩
    · obtain ⟨hq, hunchanged⟩ := Process.runs_poll hp
      obtain ⟨horigin, hsame⟩ := ih hrest
      refine ⟨by rw [List.map_cons, List.map_cons, horigin, hq], fun hr ↦ ?_⟩
      cases r' with
      | error f => cases hr
      | ok later =>
        obtain ⟨rfl, rfl⟩ : changed = false ∧ later = false := by
          simpa [Except.map] using hr
        rw [hunchanged (by simp), hsame rfl]

theorem ok_of_pollAll (h : Runs (pollAll ps) t (r, qs)) (ho : Orderly t) :
    ∃ changed, r = .ok changed := by
  induction ps generalizing t r qs with
  | nil =>
    obtain ⟨-, ⟨⟩⟩ := Sys.runs_pure.1 h
    exact ⟨_, rfl⟩
  | cons p ps ih =>
    obtain ⟨-, qs', -, hrest⟩ | ⟨-, ⟨f, q, -, -, hp⟩ | ⟨u, v, changed, q, r', qs', rfl, rfl, -, -, hrest⟩⟩ :=
      pollAll_cases h
    · exact ih hrest ho
    · obtain ⟨_, ⟨⟩⟩ := Process.ok_of_poll hp ho
    · obtain ⟨later, rfl⟩ := ih hrest (ho.mono (List.subset_append_right u v))
      exact ⟨_, rfl⟩

theorem pollAll_of_completed (h : ps.all Process.isCompleted) : pollAll ps = pure (.ok false, ps) := by
  induction ps with
  | nil => rfl
  | cons p ps ih =>
    obtain ⟨hp, hps⟩ := Bool.and_eq_true_iff.1 h
    rw [pollAll, if_pos hp, ih hps]
    rfl

theorem runs_poll (h : Runs j.poll t (r, k)) :
    (∃ ps, k = { j with processes := ps } ∧ ps.map Process.origin = j.processes.map Process.origin) ∧
      (r = .ok false → k = j) ∧ (j.isCompleted → r = .ok false) := by
  obtain ⟨u, v, ⟨r', ps⟩, rfl, hps, h⟩ := Sys.runs_bind.1 h
  obtain ⟨-, ⟨⟩⟩ := Sys.runs_pure.1 h
  obtain ⟨horigin, hsame⟩ := runs_pollAll hps
  refine ⟨⟨ps, rfl, horigin⟩, fun hr ↦ by rw [hsame hr], fun hj ↦ ?_⟩
  rw [pollAll_of_completed hj] at hps
  exact congrArg Prod.fst (Sys.runs_pure.1 hps).2

theorem ok_of_poll (h : Runs j.poll t (r, k)) (ho : Orderly t) :
    ∃ changed, r = .ok changed := by
  obtain ⟨u, v, ⟨r', ps⟩, rfl, hps, hend⟩ := Sys.runs_bind.1 h
  obtain ⟨-, ⟨⟩⟩ := Sys.runs_pure.1 hend
  exact ok_of_pollAll hps (ho.mono (List.subset_append_left u v))

theorem every_pollAll (ps : List Process) : (pollAll ps).Every Call.isAsking := by
  induction ps with
  | nil => exact Sys.every_pure _
  | cons p ps ih =>
    rw [pollAll]
    split
    · exact ih.bind fun _ ↦ Sys.every_pure _
    · refine (p.every_poll _).bind fun ⟨r, q⟩ ↦ ?_
      cases r with
      | error f => exact Sys.every_pure _
      | ok changed => exact ih.bind fun _ ↦ Sys.every_pure _

theorem origin_markRunning (j : Job) : j.markRunning.origin = j.origin := by
  have hprocesses : (j.processes.map fun p ↦ if p.isStopped then { p with status := .running } else p).map
      Process.origin = j.processes.map Process.origin := by
    rw [List.map_map]
    refine List.map_congr_left fun p _ ↦ ?_
    rw [Function.comp_apply]
    split <;> rfl
  rw [Job.origin, Job.origin, markRunning, hprocesses]

/-- The same job before and after a poll: nothing has changed, or the job had not completed and is to
be shown again. -/
def Polled (j k : Job) : Prop :=
  k = j ∨ j.isCompleted = false ∧ k.origin = j.origin ∧ k.foreground = j.foreground ∧
    k.notified = false

theorem polled_refl (js : List Job) : List.Forall₂ Polled js js :=
  List.forall₂_same.2 fun _ _ ↦ .inl rfl

theorem Polled.origin_eq (h : Polled j k) : k.origin = j.origin := by
  obtain rfl | ⟨-, h, -⟩ := h
  · rfl
  · exact h

theorem origins_of_polled {js ks : List Job} (h : List.Forall₂ Polled js ks) :
    ks.map Job.origin = js.map Job.origin := by
  induction h with
  | nil => rfl
  | cons hjk _ ih => rw [List.map_cons, List.map_cons, ih, hjk.origin_eq]

theorem exists_of_polled {js ks : List Job} (h : List.Forall₂ Polled js ks) (hk : k ∈ ks) :
    ∃ j ∈ js, Polled j k := by
  induction h with
  | nil => cases hk
  | @cons j _ _ _ hjk _ ih =>
    rcases List.mem_cons.1 hk with rfl | hk
    · exact ⟨j, List.mem_cons_self, hjk⟩
    · obtain ⟨i, hi, hik⟩ := ih hk
      exact ⟨i, List.mem_cons_of_mem j hi, hik⟩

end Job

namespace JobTable

variable {js ks : List Job} {t u : JobTable} {trace : List Event}
  {r : Except Failure (List (JobId × JobStatus))}

theorem reapJobs_cases {j : Job} (h : Runs (reapJobs (j :: js)) trace (r, ks)) :
    (∃ f k, r = .error f ∧ ks = k :: js ∧ Runs j.poll trace (.error f, k)) ∨
      ∃ u v k r' ks', trace = u ++ v ∧ Runs (reapJobs js) v (r', ks') ∧
        ((r = r' ∧ ks = j :: ks' ∧ Runs j.poll u (.ok false, j)) ∨
          r = r'.map ((k.id, k.status) :: ·) ∧ ks = { k with notified := false } :: ks' ∧
            Runs j.poll u (.ok true, k)) := by
  obtain ⟨u, v, ⟨polled, k⟩, rfl, hj, h⟩ := Sys.runs_bind.1 h
  cases polled with
  | error f =>
    obtain ⟨rfl, ⟨⟩⟩ := Sys.runs_pure.1 h
    rw [List.append_nil]
    exact .inl ⟨f, k, rfl, rfl, hj⟩
  | ok changed =>
    obtain ⟨w, x, ⟨r', ks'⟩, rfl, hrest, hend⟩ := Sys.runs_bind.1 h
    obtain ⟨rfl, hresult⟩ := Sys.runs_pure.1 hend
    obtain ⟨rfl, rfl⟩ := Prod.mk.inj hresult
    rw [List.append_nil]
    refine .inr ⟨u, w, k, r', ks', rfl, hrest, ?_⟩
    cases changed with
    | false =>
      obtain rfl := (Job.runs_poll hj).2.1 rfl
      exact .inl ⟨rfl, rfl, hj⟩
    | true => exact .inr ⟨rfl, rfl, hj⟩

theorem runs_reapJobs (h : Runs (reapJobs js) trace (r, ks)) :
    ks.map Job.origin = js.map Job.origin ∧
      ∀ changes, r = .ok changes → List.Forall₂ Job.Polled js ks := by
  induction js generalizing trace r ks with
  | nil =>
    obtain ⟨-, ⟨⟩⟩ := Sys.runs_pure.1 h
    exact ⟨rfl, fun _ _ ↦ .nil⟩
  | cons j js ih =>
    have horigin {polled : Except Failure Bool} {k : Job} {u : List Event} (hj : Runs j.poll u (polled, k)) :
        k.origin = j.origin := by
      obtain ⟨⟨ps, rfl, hps⟩, -⟩ := Job.runs_poll hj
      simp only [Job.origin, hps]
    obtain ⟨f, k, rfl, rfl, hj⟩ | ⟨u, v, k, r', ks', -, hrest, ⟨rfl, rfl, -⟩ | ⟨rfl, rfl, hj⟩⟩ := reapJobs_cases h
    · exact ⟨by rw [List.map_cons, List.map_cons, horigin hj], fun _ hr ↦ nomatch hr⟩
    · obtain ⟨horigins, hpolled⟩ := ih hrest
      exact ⟨by rw [List.map_cons, List.map_cons, horigins],
        fun changes hc ↦ .cons (.inl rfl) (hpolled changes hc)⟩
    · obtain ⟨horigins, hpolled⟩ := ih hrest
      have hk := horigin hj
      obtain ⟨⟨ps, rfl, -⟩, -, hcompleted⟩ := Job.runs_poll hj
      have hopen : j.isCompleted = false := by
        by_contra hj'
        cases hcompleted (by simpa using hj')
      refine ⟨?_, fun changes hc ↦ .cons (.inr ⟨hopen, hk, rfl, rfl⟩) ?_⟩
      · rw [List.map_cons, List.map_cons, horigins]
        exact congrArg (· :: _) hk
      · cases r' with
        | error f => cases hc
        | ok later => exact hpolled later rfl

/-- A poll of a table is one of its jobs. It focuses the last of those listed as stopped. -/
theorem reap_cases (h : Runs t.reap trace (r, u)) :
    Runs (reapJobs t.jobs) trace (r, u.jobs) ∧
      ((∃ f, r = .error f ∧ u.focus = t.focus) ∨
        ∃ changes, r = .ok changes ∧ u.focus = (lastStopped? changes <|> t.focus)) := by
  obtain ⟨w, v, ⟨r', ks⟩, rfl, hjs, h⟩ := Sys.runs_bind.1 h
  cases r' with
  | error f =>
    obtain ⟨rfl, ⟨⟩⟩ := Sys.runs_pure.1 h
    rw [List.append_nil]
    exact ⟨hjs, .inl ⟨f, rfl, rfl⟩⟩
  | ok changed =>
    obtain ⟨rfl, ⟨⟩⟩ := Sys.runs_pure.1 h
    rw [List.append_nil]
    exact ⟨hjs, .inr ⟨changed, rfl, rfl⟩⟩

theorem runs_reap (h : Runs t.reap trace (r, u)) :
    u.jobs.map Job.origin = t.jobs.map Job.origin ∧
      ∀ changes, r = .ok changes → List.Forall₂ Job.Polled t.jobs u.jobs :=
  runs_reapJobs (reap_cases h).1

theorem every_reapJobs (js : List Job) : (reapJobs js).Every Call.isAsking := by
  induction js with
  | nil => exact Sys.every_pure _
  | cons j js ih =>
    refine ((Job.every_pollAll j.processes).bind fun _ ↦ Sys.every_pure _).bind fun ⟨r, k⟩ ↦ ?_
    cases r with
    | error f => exact Sys.every_pure _
    | ok changed => exact ih.bind fun _ ↦ Sys.every_pure _

theorem every_reap (t : JobTable) : t.reap.Every Call.isAsking := by
  refine (every_reapJobs t.jobs).bind fun ⟨r, js⟩ ↦ ?_
  cases r <;> exact Sys.every_pure _

theorem only_reap (t : JobTable) : Only Call.isInquiry t.reap := by
  intro trace a h e he
  obtain hinquiry | hhang := t.every_reap.only trace a h e he
  · exact hinquiry
  · obtain ⟨c, r⟩ := e
    obtain rfl : c = .hang := hhang
    exact r.elim

end JobTable

end JobShell

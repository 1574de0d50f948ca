import JobShell.Proofs.Job.Focus

namespace JobShell

open Sys (Runs)

namespace Process

variable {p q : Process} {t : List Event}

theorem status_ne_of_update {report : WaitReport} (h : (p.update report).2 = true) :
    (p.update report).1.status ≠ p.status := by
  unfold update at h ⊢
  split at h
  · exact of_decide_eq_true h
  · cases h

theorem status_ne_of_poll {n : Nat} (hp : p.isCompleted = false) (h : Runs (p.poll n) t (.ok true, q)) :
    q.status ≠ p.status := by
  obtain ⟨report, hr, rfl⟩ | ⟨⟨⟩, -⟩ | ⟨-, rfl⟩ | ⟨_, _, -, -, -, ⟨⟩, -⟩ := poll_cases h
  · exact status_ne_of_update (Except.ok.inj hr).symm
  · -- what has not completed has not exited
    intro hexited
    rw [isCompleted, ← hexited] at hp
    cases hp

end Process

namespace Job

variable {j k : Job} {ps qs : List Process} {t : List Event}

def Changed (j k : Job) : Prop := k.processes.map (·.status) ≠ j.processes.map (·.status)

instance (j k : Job) : Decidable (Changed j k) :=
  inferInstanceAs (Decidable (k.processes.map (·.status) ≠ j.processes.map (·.status)))

theorem statuses_ne_of_pollAll (h : Runs (pollAll ps) t (.ok true, qs)) :
    qs.map (·.status) ≠ ps.map (·.status) := by
  induction ps generalizing t qs with
  | nil =>
    obtain ⟨-, hend⟩ := Sys.runs_pure.1 h
    cases hend
  | cons p ps ih =>
    intro hsame
    obtain ⟨-, qs', rfl, hrest⟩ | ⟨hp, ⟨_, _, ⟨⟩, -⟩ | ⟨_, _, changed, q, r', qs', -, hr, rfl, hpoll, hrest⟩⟩ :=
      pollAll_cases h
    · exact ih hrest (List.cons.inj hsame).2
    · obtain ⟨hq, hqs⟩ := List.cons.inj hsame
      cases changed with
      | true => exact Process.status_ne_of_poll hp hpoll hq
      | false =>
        obtain rfl : r' = .ok true := by
          cases r' with
          | error f => cases hr
          | ok later => exact hr.symm
        exact ih hrest hqs

theorem changed_of_poll (h : Runs j.poll t (.ok true, k)) : j.Changed k := by
  obtain ⟨u, v, ⟨r', ps⟩, rfl, hps, hend⟩ := Sys.runs_bind.1 h
  obtain ⟨-, ⟨⟩⟩ := Sys.runs_pure.1 hend
  exact statuses_ne_of_pollAll hps

/-- The same job before and after a poll: it is to be shown again if it has changed, and is what it was
otherwise. -/
structure Reported (j k : Job) : Prop where
  notified : j.Changed k → k.notified = false
  same : ¬ j.Changed k → k = j

theorem reported_refl (j : Job) : j.Reported j := ⟨fun hchanged ↦ absurd rfl hchanged, fun _ ↦ rfl⟩

theorem Changed.reported (h : j.Changed k) :
    j.Changed { k with notified := false } ∧ j.Reported { k with notified := false } :=
  ⟨h, fun _ ↦ rfl, absurd h⟩

end Job

namespace JobTable

variable {js ks : List Job} {t u : JobTable} {trace : List Event} {f : Failure}
  {r : Except Failure (List (JobId × JobStatus))} {listed : List (JobId × JobStatus)}

/-- The jobs that have changed, in their order, each before and after that. -/
def changes (js ks : List Job) : List (Job × Job) := (js.zip ks).filter fun e ↦ e.1.Changed e.2

def listing (es : List (Job × Job)) : List (JobId × JobStatus) := es.map fun e ↦ (e.2.id, e.2.status)

theorem reapJobs_reports (h : Runs (reapJobs js) trace (.ok listed, ks)) :
    List.Forall₂ Job.Reported js ks ∧ listed = listing (changes js ks) := by
  induction js generalizing trace listed ks with
  | nil =>
    obtain ⟨-, ⟨⟩⟩ := Sys.runs_pure.1 h
    exact ⟨.nil, rfl⟩
  | cons j js ih =>
    obtain ⟨_, _, ⟨⟩, -⟩ | ⟨_, _, k, r', ks', -, hrest, ⟨rfl, rfl, hj⟩ | ⟨hr, rfl, hj⟩⟩ := reapJobs_cases h
    · -- the job is left as it is, and not listed
      obtain ⟨hothers, hlisted⟩ := ih hrest
      have hsame : ¬ j.Changed j := fun hchanged ↦ hchanged rfl
      refine ⟨.cons j.reported_refl hothers, hlisted.trans ?_⟩
      rw [changes, changes, List.zip_cons_cons, List.filter_cons_of_neg (by simpa using hsame)]
    · cases r' with
      | error f => cases hr
      | ok later =>
        cases hr
        obtain ⟨hothers, hlisted⟩ := ih hrest
        obtain ⟨hchanged, hreported⟩ := (Job.changed_of_poll hj).reported
        refine ⟨.cons hreported hothers, ?_⟩
        rw [changes, List.zip_cons_cons, List.filter_cons_of_pos (by simpa using hchanged), listing,
          List.map_cons, hlisted]
        rfl

theorem reapJobs_fails (h : Runs (reapJobs js) trace (.error f, ks)) :
    ∃ before j after done ps, js = before ++ j :: after ∧
      ks = done ++ { j with processes := ps } :: after ∧ List.Forall₂ Job.Reported before done := by
  induction js generalizing trace ks with
  | nil =>
    obtain ⟨-, hend⟩ := Sys.runs_pure.1 h
    cases hend
  | cons j js ih =>
    obtain ⟨_, k, -, rfl, hj⟩ | ⟨_, _, k, r', ks', -, hrest, ⟨rfl, rfl, -⟩ | ⟨hr, rfl, hj⟩⟩ := reapJobs_cases h
    · -- the poll fails at this job
      obtain ⟨⟨ps, rfl, -⟩, -⟩ := Job.runs_poll hj
      exact ⟨[], j, js, [], ps, rfl, rfl, .nil⟩
    · obtain ⟨before, i, after, done, ps, rfl, rfl, hothers⟩ := ih hrest
      exact ⟨j :: before, i, after, j :: done, ps, rfl, rfl, .cons j.reported_refl hothers⟩
    · obtain rfl : r' = .error f := by
        cases r' with
        | error e => exact hr.symm
        | ok later => cases hr
      obtain ⟨before, i, after, done, ps, rfl, rfl, hothers⟩ := ih hrest
      exact ⟨j :: before, i, after, _ :: done, ps, rfl, rfl,
        .cons (Job.changed_of_poll hj).reported.2 hothers⟩

theorem ok_of_reapJobs (h : Runs (reapJobs js) trace (r, ks)) (ho : Orderly trace) :
    ∃ listed, r = .ok listed := by
  induction js generalizing trace r ks with
  | nil =>
    obtain ⟨-, ⟨⟩⟩ := Sys.runs_pure.1 h
    exact ⟨_, rfl⟩
  | cons j js ih =>
    obtain ⟨_, k, -, -, hj⟩ | ⟨u, v, k, r', ks', rfl, hrest, hchanged⟩ := reapJobs_cases h
    · obtain ⟨_, ⟨⟩⟩ := Job.ok_of_poll hj ho
    · obtain ⟨later, rfl⟩ := ih hrest (ho.mono (List.subset_append_right u v))
      obtain ⟨rfl, -⟩ | ⟨rfl, -⟩ := hchanged
      · exact ⟨later, rfl⟩
      · exact ⟨_, rfl⟩

def lastOf (kind : Job × Job → Prop) [DecidablePred kind] (es : List (Job × Job)) : Option JobId :=
  (es.filter kind).getLast?.map (·.2.id)

theorem lastStopped?_listing (es : List (Job × Job)) :
    lastStopped? (listing es) = lastOf (·.2.status = .stopped) es := by
  rw [lastStopped?, listing, List.filter_map, List.getLast?_map, Option.map_map]
  rfl

/-- A poll whose waits fail only when they are interrupted, or children are gone, meets no failure. One
that meets none leaves each job that has changed to be shown again, and focuses the last of them that is
stopped then, hence the last that stopped unless one of them had been stopped before. One that fails has
left all jobs before the one at which it fails so, but has not marked that one, and has focused none. -/
theorem reap_keeps_books (h : Runs t.reap trace (r, u)) :
    (Orderly trace → ∃ listed, r = .ok listed) ∧
      (∀ listed, r = .ok listed → List.Forall₂ Job.Reported t.jobs u.jobs ∧
        u.focus = (lastOf (·.2.status = .stopped) (changes t.jobs u.jobs) <|> t.focus) ∧
        ((∀ e ∈ changes t.jobs u.jobs, e.1.status = .stopped → e.2.status ≠ .stopped) →
          u.focus = (lastOf (fun e ↦ e.1.status ≠ .stopped ∧ e.2.status = .stopped)
            (changes t.jobs u.jobs) <|> t.focus))) ∧
      ∀ f, r = .error f → u.focus = t.focus ∧
        ∃ before j after done ps, t.jobs = before ++ j :: after ∧
          u.jobs = done ++ { j with processes := ps } :: after ∧
          List.Forall₂ Job.Reported before done := by
  have hjobs := (reap_cases h).1
  refine ⟨ok_of_reapJobs hjobs, ?_, ?_⟩
  · rintro listed rfl
    obtain ⟨hreported, rfl⟩ := reapJobs_reports hjobs
    have hfocus := (focus_of_runs_reap h).2
    rw [lastStopped?_listing] at hfocus
    refine ⟨hreported, hfocus, fun hstopped ↦ ?_⟩
    have hfilter : (changes t.jobs u.jobs).filter (·.2.status = .stopped) =
        (changes t.jobs u.jobs).filter fun e ↦ e.1.status ≠ .stopped ∧ e.2.status = .stopped := by
      refine List.filter_congr fun e he ↦ decide_eq_decide.2 ?_
      exact ⟨fun hnow ↦ ⟨fun hbefore ↦ hstopped e he hbefore hnow, hnow⟩, And.right⟩
    rw [hfocus, lastOf, lastOf, hfilter]
  · rintro f rfl
    exact ⟨focus_of_runs_reap_error h, reapJobs_fails hjobs⟩

theorem reap_keeps_books_stopped :
    let flags : WaitFlags := { noHang := true, untraced := true, continued := true }
    let t : JobTable := ⟨[⟨1, none, "a", [⟨11, "a", .running⟩], true, false⟩,
      ⟨2, none, "b", [⟨12, "b", .running⟩], true, false⟩], some 2⟩
    let trace : List Event := [⟨.wait 11 flags, .ok (11, .stopped .tstp)⟩, ⟨.wait 12 flags, .ok (12, .stillAlive)⟩]
    ∃ r u, Runs t.reap trace (r, u) ∧ Orderly trace ∧ (∃ listed, r = .ok listed) ∧
      List.Forall₂ Job.Reported t.jobs u.jobs ∧ u.jobs.map (·.notified) = [false, true] ∧ u.focus = some 1 := by
  intro flags t trace
  have hreap : Runs t.reap trace (.ok [(1, .stopped)], _) := .call (.call (.done _))
  have ho : Orderly trace := by
    intro pid flags e hmem
    simp [trace] at hmem
  obtain ⟨hok, hbooks, -⟩ := reap_keeps_books hreap
  obtain ⟨hreported, hfocus, -⟩ := hbooks _ rfl
  exact ⟨_, _, hreap, ho, hok ho, hreported, rfl, hfocus⟩

/-- One job stops, and of another one process ends. The wait for its other process fails, so that the
second job is not shown again and the first is not focused. -/
theorem reap_loses_books :
    let t : JobTable := ⟨[⟨1, none, "a", [⟨11, "a", .running⟩], true, false⟩,
      ⟨2, none, "b | c", [⟨12, "b", .running⟩, ⟨13, "c", .running⟩], true, false⟩], some 2⟩
    ∃ trace f u, Runs t.reap trace (.error f, u) ∧
      (∃ e ∈ t.jobs.zip u.jobs, e.1.Changed e.2 ∧ e.2.notified = true) ∧
      lastOf (fun e ↦ e.1.status ≠ .stopped ∧ e.2.status = .stopped) (changes t.jobs u.jobs) = some 1 ∧
      u.focus = some 2 := by
  intro t
  have hreap : Runs t.reap
      [⟨.wait 11 _, .ok (11, .stopped .tstp)⟩, ⟨.wait 12 _, .ok (12, .exited 0)⟩, ⟨.wait 13 _, .error .invalid⟩]
      (.error (.system .invalid), _) := .call (.call (.call (.done _)))
  refine ⟨_, _, _, hreap, ⟨_, List.mem_cons_of_mem _ List.mem_cons_self, ?_, rfl⟩, rfl, rfl⟩
  decide

/-- A poll that meets no failure lists the jobs that have changed, in their order and each once, and marks
exactly them to be shown. These are the jobs whose status has changed, unless one of them has kept its
status, in which other processes have had their share. -/
theorem reap_lists_changes (h : Runs t.reap trace (.ok listed, u)) :
    listed = listing (changes t.jobs u.jobs) ∧ List.Forall₂ Job.Reported t.jobs u.jobs ∧
      ((t.jobs.map (·.id)).Nodup → (listed.map (·.1)).Nodup) ∧
      (∀ e ∈ t.jobs.zip u.jobs, e.1.status ≠ e.2.status → e ∈ changes t.jobs u.jobs) ∧
      ((∀ e ∈ changes t.jobs u.jobs, e.1.status ≠ e.2.status) →
        listed = listing ((t.jobs.zip u.jobs).filter fun e ↦ e.1.status ≠ e.2.status) ∧
        List.Forall₂ (fun j k ↦ (j.status ≠ k.status → k.notified = false) ∧
          (j.status = k.status → k = j)) t.jobs u.jobs) := by
  obtain ⟨hreported, hlisted⟩ := reapJobs_reports (reap_cases h).1
  obtain ⟨hlength, hzip⟩ := List.forall₂_iff_zip.1 hreported
  have hchanged (e : Job × Job) (he : e ∈ t.jobs.zip u.jobs) (hstatus : e.1.status ≠ e.2.status) :
      e.1.Changed e.2 := by
    by_contra hsame
    exact hstatus (congrArg Job.status ((hzip he).same hsame)).symm
  refine ⟨hlisted, hreported, fun hids ↦ hids.sublist (focus_of_runs_reap h).1, ?_, ?_⟩
  · intro e he hstatus
    exact List.mem_filter.2 ⟨he, decide_eq_true (hchanged e he hstatus)⟩
  · intro hstatuses
    have hiff (e : Job × Job) (he : e ∈ t.jobs.zip u.jobs) :
        e.1.Changed e.2 ↔ e.1.status ≠ e.2.status :=
      ⟨fun hc ↦ hstatuses e (List.mem_filter.2 ⟨he, decide_eq_true hc⟩), hchanged e he⟩
    constructor
    · rw [hlisted, changes]
      exact congrArg listing (List.filter_congr fun e he ↦ decide_eq_decide.2 (hiff e he))
    · refine List.forall₂_iff_zip.2 ⟨hlength, fun {j k} he ↦ ⟨fun hstatus ↦ ?_, fun hstatus ↦ ?_⟩⟩
      · exact (hzip he).notified ((hiff _ he).2 hstatus)
      · exact (hzip he).same fun hc ↦ (hiff _ he).1 hc hstatus

theorem reap_lists_changes_stopped :
    let t : JobTable := ⟨[⟨1, none, "a | b", [⟨11, "a", .exited 0⟩, ⟨12, "b", .running⟩], true, false⟩,
      ⟨2, none, "c", [⟨13, "c", .running⟩], true, false⟩], some 2⟩
    ∃ trace listed u, Runs t.reap trace (.ok listed, u) ∧ (t.jobs.map (·.id)).Nodup ∧
      (∀ e ∈ changes t.jobs u.jobs, e.1.status ≠ e.2.status) ∧ (listed.map (·.1)).Nodup ∧
      listed = listing ((t.jobs.zip u.jobs).filter fun e ↦ e.1.status ≠ e.2.status) ∧
      listed = [(1, .stopped)] ∧ u.jobs.map (·.notified) = [false, true] := by
  intro t
  have hreap : Runs t.reap [⟨.wait 12 _, .ok (12, .stopped .tstp)⟩, ⟨.wait 13 _, .ok (13, .stillAlive)⟩]
      (.ok [(1, .stopped)], _) := .call (.call (.done _))
  obtain ⟨-, -, hnodup, -, hexact⟩ := reap_lists_changes hreap
  refine ⟨_, _, _, hreap, by decide, ?_, hnodup (by decide), (hexact ?_).1, rfl, rfl⟩ <;> decide

/-- Of a stopped job, which has been shown, one process is killed. The job is listed although it is
stopped as before, and is to be shown again. -/
theorem reap_lists_unchanged :
    let t : JobTable :=
      ⟨[⟨1, none, "a | b", [⟨11, "a", .stopped .tstp⟩, ⟨12, "b", .stopped .tstp⟩], true, false⟩], some 1⟩
    ∃ trace listed u, Runs t.reap trace (.ok listed, u) ∧ listed = [(1, .stopped)] ∧
      t.jobs.map (·.status) = u.jobs.map (·.status) ∧ u.jobs.map (·.notified) = [false] := by
  intro t
  have hreap : Runs t.reap [⟨.wait 11 _, .ok (11, .stillAlive)⟩, ⟨.wait 12 _, .ok (12, .killed .kill false)⟩]
      (.ok [(1, .stopped)], _) := .call (.call (.done _))
  exact ⟨_, _, _, hreap, rfl, rfl, rfl⟩

end JobTable

end JobShell

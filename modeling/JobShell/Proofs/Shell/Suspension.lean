import JobShell.Proofs.Job.Finality
import JobShell.Proofs.Job.Registration
import JobShell.Proofs.Shell.Custody

namespace JobShell

open Sys (Runs)

namespace Process

variable {p q : Process} {ps qs : List Process} {t : List Event} {untraced : Bool}

/-- What becomes of a process that is waited for without fail. -/
def Settles (untraced : Bool) (p q : Process) : Prop :=
  p.Continues q ∧ (q.isCompleted ∨ untraced ∧ q.isStopped)

theorem settles_of_awaitFor {n : Nat} (h : Runs (p.awaitFor untraced n) t (.ok (), q)) :
    p.Settles untraced q :=
  ⟨(follows_awaitFor h).continues, isCompleted_or_isStopped ((runs_awaitFor h).2.1 rfl)⟩

theorem settles_of_awaitAll (h : Runs (awaitAll untraced ps) t (.ok (), qs)) :
    List.Forall₂ (Settles untraced) ps qs := by
  induction ps generalizing t qs with
  | nil =>
    obtain ⟨-, ⟨⟩⟩ := Sys.runs_pure.1 h
    exact .nil
  | cons p ps ih =>
    obtain ⟨_, _, ⟨⟩, -⟩ | ⟨u, v, q, qs', -, rfl, hp, hrest⟩ := awaitAll_cases h
    exact .cons (settles_of_awaitFor hp) (ih hrest)

/-- A wait that fails ends at the process that it fails at. -/
theorem settles_before_failure {f : Failure} (h : Runs (awaitAll untraced ps) t (.error f, qs)) :
    ∃ before p after done q, ps = before ++ p :: after ∧ qs = done ++ q :: after ∧
      List.Forall₂ (Settles untraced) before done ∧ p.Continues q := by
  induction ps generalizing t qs with
  | nil => obtain ⟨-, ⟨⟩⟩ := Sys.runs_pure.1 h
  | cons p ps ih =>
    obtain ⟨_, q, -, rfl, hp⟩ | ⟨u, v, q, qs', -, rfl, hp, hrest⟩ := awaitAll_cases h
    · exact ⟨[], p, ps, [], q, rfl, rfl, .nil, (follows_awaitFor hp).continues⟩
    · obtain ⟨before, p', after, done, q', rfl, rfl, hbefore, hfailed⟩ := ih hrest
      exact ⟨p :: before, p', after, q :: done, q', rfl, rfl, .cons (settles_of_awaitFor hp) hbefore,
        hfailed⟩

theorem done_of_settles (h : List.Forall₂ (Settles untraced) ps qs) :
    ∀ q ∈ qs, q.isCompleted ∨ untraced ∧ q.isStopped := by
  induction h with
  | nil => exact List.forall_mem_nil _
  | cons hp _ ih => exact List.forall_mem_cons.2 ⟨hp.2, ih⟩

end Process

theorem Job.status_eq_stopped {j : Job} {untraced : Bool} (hstopped : j.processes.any (·.isStopped))
    (hall : ∀ p ∈ j.processes, p.isCompleted ∨ untraced ∧ p.isStopped) : j.status = .stopped := by
  have hcompleted : ¬ j.isCompleted := by
    intro hcompleted
    obtain ⟨p, hp, hpstopped⟩ := List.any_eq_true.1 hstopped
    exact absurd (List.all_eq_true.1 hcompleted p hp) (by simp [Process.isCompleted_of_isStopped hpstopped])
  have hj : j.isStopped := by
    refine Bool.and_eq_true_iff.2 ⟨hstopped, List.all_eq_true.2 fun p hp ↦ ?_⟩
    exact Bool.or_eq_true_iff.2 ((hall p hp).imp_right And.right)
  rw [status, if_neg hcompleted, if_pos hj]

namespace Shell

variable {s s' : Shell} {t : List Event}

theorem sparesJobs_pipeTo (rest : Pipeline) : Within SparesJobs (pipeTo rest) := by
  rw [pipeTo]
  split
  · exact within_pure _
  · refine (sparesJobs_system _).bind fun answer ↦ ?_
    cases answer <;> exact within_pure _

theorem sparesJobs_flushBeforeFork : Within SparesJobs flushBeforeFork :=
  within_flush.bind fun _ ↦ within_logFailure _ _ _

theorem sparesJobs_forkStage (c : Command) (st : Stage) (p : Redirect.Prepared) (next : Option Int) :
    Within SparesJobs (forkStage c st p next) := by
  refine (sparesJobs_system _).bind fun answer ↦ ?_
  match answer with
  | .error e => exact within_pure _
  | .ok (.parent pid) => exact within_pure _
  | .ok .child => exact (sparesJobs_system _).bind fun _ ↦ final_runChild.within

theorem sparesJobs_enroll (spawned : Spawned) (c : Command) (jobControl : Bool) (pid : Int) :
    Within SparesJobs (enroll spawned c jobControl pid) := by
  rw [enroll]
  split
  · exact (sparesJobs_system _).bind fun _ ↦ (within_logFailure _ _ _).bind fun _ ↦ within_pure _
  · exact within_pure _

theorem sparesJobs_spawnStages (foreground jobControl : Bool) (spawned : Spawned) (input : Option Int)
    (p : Pipeline) : Within SparesJobs (spawnStages foreground jobControl spawned input p) := by
  have hgive {α : Type} (x : Sys Unit) (a : α) : Within SparesJobs (do system x; pure a : Act α) :=
    (sparesJobs_system x).bind fun _ ↦ within_pure a
  induction p generalizing spawned input with
  | nil => exact hgive _ _
  | cons c rest ih =>
    refine (sparesJobs_pipeTo rest).bind fun piped ↦ ?_
    cases piped with
    | error f => exact hgive _ _
    | ok ends =>
      refine (sparesJobs_system _).bind fun prepared ↦ ?_
      cases prepared with
      | error f => exact hgive _ _
      | ok prepared =>
        refine sparesJobs_flushBeforeFork.bind fun _ ↦
          (sparesJobs_forkStage _ _ _ _).bind fun answer ↦ ?_
        cases answer with
        | error f => exact (sparesJobs_system _).bind fun _ ↦ hgive _ _
        | ok pid =>
          exact (sparesJobs_enroll _ _ _ _).bind fun spawned ↦ (sparesJobs_system _).bind fun _ ↦
            (sparesJobs_system _).bind fun _ ↦ (sparesJobs_system _).bind fun _ ↦ ih _ _

theorem sparesJobs_spawnPipeline (p : Pipeline) (foreground : Bool) :
    Within SparesJobs (spawnPipeline p foreground).run := by
  refine within_try_bind (within_doing within_get) fun s ↦
    within_try_bind (within_doing (sparesJobs_spawnStages _ _ _ _ p)) fun ⟨r, spawned⟩ ↦ ?_
  cases r with
  | ok _ => exact within_pure _
  | error f =>
    exact within_try_bind (within_doing ((sparesJobs_system _).bind fun _ ↦ within_logFailure _ _ _))
      fun _ ↦ within_pure _

/-- The bound of work after which there is no job that was not there before and the last status is as it was,
whatever it calls. -/
structure DropsJobs (s : Shell) (_ : List Event) (s' : Shell) : Prop where
  ids : (s'.jobs.jobs.map (·.id)).Sublist (s.jobs.jobs.map (·.id))
  lastStatus : s'.lastStatus = s.lastStatus

instance : Lenient DropsJobs where
  admits _ hjobs hstatus := ⟨by rw [hjobs], hstatus⟩
  trans h h' := ⟨h'.ids.trans h.ids, h'.lastStatus.trans h.lastStatus⟩

theorem dropsJobs_system {α : Type} (x : Sys α) : Within DropsJobs (system x) :=
  within_effect fun _ _ _ _ ↦ ⟨List.Sublist.refl _, rfl⟩

theorem dropsJobs_runInShell (b : Builtin) (c : Command) : Within DropsJobs (runInShell b c) := by
  refine (dropsJobs_system _).bind fun prepared ↦ ?_
  cases prepared with
  | error f => exact within_pure _
  | ok p =>
    refine (dropsJobs_system _).bind fun ⟨saved?, saved⟩ ↦ Within.ensuring ?_ ?_
    · cases saved? with
      | error f => exact within_pure _
      | ok _ =>
        refine (dropsJobs_system _).bind fun applied ↦ ?_
        cases applied with
        | error f => exact (within_report f).bind fun _ ↦ within_pure _
        | ok _ =>
          have hbuiltin : Within DropsJobs (runBuiltin b c.arguments) :=
            (addsNoJob_runBuiltin b c.arguments).mono fun _ _ _ h ↦ ⟨h.ids, h.lastStatus⟩
          exact hbuiltin.map _
    · exact (within_flush.bind fun _ ↦ (within_logFailure _ _ _).bind fun _ ↦ dropsJobs_system _).bind
        fun _ ↦ dropsJobs_system _

/-- What a launch leaves. Each job that it has added has stopped, is made up of all that was forked, and
has the status that the launch comes back with; if it has succeeded and added none, all that was forked has
ended. -/
structure LeavesNoneHalfway (s : Shell) (t : List Event) (r : Except Failure ExitStatus) (s' : Shell) :
    Prop where
  added : ∀ j ∈ s'.jobs.jobs, j.id ∉ s.jobs.jobs.map (·.id) →
    j.status = .stopped ∧ r = .ok j.exitStatus ∧ j.processes.map (·.pid) = forked t
  ended : (∀ j ∈ s'.jobs.jobs, j.id ∈ s.jobs.jobs.map (·.id)) → (∃ status, r = .ok status) →
    ∀ pid ∈ forked t, Ended t pid

theorem leavesNoneHalfway_of_error {f : Failure} (hjobs : s'.jobs = s.jobs) :
    LeavesNoneHalfway s t (.error f) s' where
  added _ hj hnew := absurd (List.mem_map_of_mem (hjobs ▸ hj)) hnew
  ended _ := nofun

theorem leavesNoneHalfway_startAndFollow {p : Pipeline} {r : Except Failure ExitStatus}
    (h : Yields (do
      match ← (spawnPipeline p true).run with
      | .error f => pure (.error f)
      | .ok spawned => followPipeline p spawned) s t r s') : LeavesNoneHalfway s t r s' := by
  obtain ⟨u, v, started, s₁, rfl, hspawn, hnext⟩ := yields_bind.1 h
  have hjobs : s₁.jobs = s.jobs := (sparesJobs_spawnPipeline p true _ _ _ _ hspawn).jobs
  obtain ⟨spawned, rfl, hspawns⟩ | ⟨⟨f, rfl⟩, -⟩ := yields_spawnPipeline hspawn
  · have hforked : forked (u ++ v) = spawned.processes.map (·.pid) := by
      rw [forked_append, quiet_followPipeline _ _ _ _ _ _ hnext, List.append_nil, hspawns.forked_eq]
    obtain ⟨w, waited, ps, hwv, hruns, hcases⟩ := followPipeline_cases hnext
    obtain ⟨hawaited, -⟩ := Process.runs_awaitAll hruns
    rw [hjobs] at hcases
    obtain ⟨f, -, rfl, hjobs'⟩ | ⟨rfl, rfl, ⟨hstopped, hjobs'⟩ | ⟨hnone, hjobs'⟩⟩ := hcases
    · exact leavesNoneHalfway_of_error hjobs'
    · -- the processes make up the job that is added
      have hadded : s'.jobs.jobs = s.jobs.jobs ++ [.start s.jobs.nextId spawned.group p.text p.connector ps] :=
        congrArg JobTable.jobs hjobs'
      refine ⟨fun j hj hnew ↦ ?_, fun hold ↦ ?_⟩
      · rw [hadded] at hj
        rcases List.mem_append.1 hj with hj | hj
        · exact absurd (List.mem_map_of_mem hj) hnew
        · obtain rfl := List.mem_singleton.1 hj
          refine ⟨?_, rfl, (Process.pids_of_awaited hawaited).trans hforked.symm⟩
          exact Job.status_eq_stopped hstopped (Process.done_of_settles (Process.settles_of_awaitAll hruns))
      · have hmem := hadded ▸ List.mem_append_right s.jobs.jobs (List.mem_singleton_self _)
        exact absurd (hold _ hmem) s.jobs.nextId_not_mem
    · refine ⟨fun j hj hnew ↦ absurd (List.mem_map_of_mem (hjobs' ▸ hj)) hnew, fun _ _ pid hpid ↦ ?_⟩
      rw [hforked] at hpid
      obtain ⟨q, hq, rfl⟩ := List.mem_map.1 hpid
      have hdone := Process.done_of_settles (Process.settles_of_awaitAll hruns)
      exact (Process.ended_of_unstopped hawaited hspawns.running hdone hnone q hq).mono
        fun e he ↦ List.mem_append_right u (hwv he)
  · obtain ⟨rfl, rfl, rfl⟩ := yields_pure.1 hnext
    exact leavesNoneHalfway_of_error hjobs

theorem leavesNoneHalfway_launchForeground {p : Pipeline} {r : Except Failure ExitStatus}
    (h : Yields (launchForeground p) s t r s') : LeavesNoneHalfway s t r s' := by
  unfold launchForeground at h
  simp only at h
  split at h
  · split at h
    · -- a builtin is all of the pipeline
      refine ⟨fun j hj hnew ↦ ?_, fun _ _ pid hpid ↦ ?_⟩
      · have hdrops : DropsJobs s t s' := dropsJobs_runInShell _ _ _ _ _ _ h
        exact absurd (hdrops.ids.subset (List.mem_map_of_mem hj)) hnew
      · rw [quiet_runInShell _ _ _ _ _ _ h] at hpid
        cases hpid
    · exact leavesNoneHalfway_startAndFollow h
  · exact leavesNoneHalfway_startAndFollow h

/-- No wait and no launch leaves a pipeline half-way. Whoever is waited for without fail has completed, or
has stopped if that is enough; where a wait fails, this is so of all before the process that it has failed
at, and those after it are as they were. A launch in the foreground adds no job but of processes that have
stopped or completed, one of them stopped; what it comes back with is then the status of the job. If it
succeeds and adds none, all that it has forked has ended. -/
theorem launch_leaves_none_halfway :
    (∀ untraced ps t qs, Runs (Process.awaitAll untraced ps) t (.ok (), qs) →
        List.Forall₂ (Process.Settles untraced) ps qs) ∧
      (∀ untraced ps t f qs, Runs (Process.awaitAll untraced ps) t (.error f, qs) →
        ∃ before p after done q, ps = before ++ p :: after ∧ qs = done ++ q :: after ∧
          List.Forall₂ (Process.Settles untraced) before done ∧ p.Continues q) ∧
      ∀ p s t r s', Yields (launchForeground p) s t r s' → LeavesNoneHalfway s t r s' :=
  ⟨fun _ _ _ _ ↦ Process.settles_of_awaitAll, fun _ _ _ _ _ ↦ Process.settles_before_failure,
    fun _ _ _ _ _ ↦ leavesNoneHalfway_launchForeground⟩

theorem launch_leaves_none_halfway_of_stopped :
    let s : Shell := { history := ⟨0, [], 0⟩, config := .interactive 0, isInteractive := true }
    let a : Command := ⟨.piped, ["a"], []⟩
    let b : Command := ⟨.single, ["b"], []⟩
    let ps : List Process := [⟨11, a.text, .running⟩, ⟨12, b.text, .running⟩]
    let qs : List Process := [⟨11, a.text, .exited 0⟩, ⟨12, b.text, .stopped .tstp⟩]
    let j : Job := ⟨1, some 11, Pipeline.text [a, b], qs, false, true⟩
    let t : List Event := [⟨.pipe, .ok (3, 4)⟩, ⟨.fork, .ok (.parent 11)⟩, ⟨.setGroup 11 11, .ok ()⟩,
      ⟨.close 4, .ok ()⟩, ⟨.fork, .ok (.parent 12)⟩, ⟨.setGroup 12 11, .ok ()⟩, ⟨.close 3, .ok ()⟩,
      ⟨.ownGroup, 7⟩, ⟨.setTerminalGroup Sys.stdin 11, .ok ()⟩,
      ⟨.wait 11 { untraced := true }, .ok (11, .exited 0)⟩,
      ⟨.wait 12 { untraced := true }, .ok (12, .stopped .tstp)⟩, ⟨.setTerminalGroup Sys.stdin 7, .ok ()⟩,
      ⟨.log .info "psh::shell" ("job [" ++ Decimal.text 1 ++ "] stopped"), ()⟩]
    ∃ s' r, Yields (launchForeground [a, b]) s t r s' ∧
      s'.jobs.jobs = [j] ∧ j.status = .stopped ∧ r = .ok j.exitStatus ∧
      List.Forall₂ (Process.Settles true) ps qs ∧
      ∃ before p after done q, ps = before ++ p :: after ∧ ps = done ++ q :: after ∧
        List.Forall₂ (Process.Settles true) before done ∧ p.Continues q := by
  intro s a b ps qs j t
  have h : Yields (launchForeground [a, b]) s t (.ok (.ofSignal .tstp))
      { s with jobs := ⟨[j], some 1⟩ } :=
    .call (.call (.call (.call (.call (.call (.call (.call (.call (.call (.call (.call (.call (.done _)))))))))))))
  have hwait : Runs (Process.awaitAll true ps) [⟨.wait 11 { untraced := true }, .ok (11, .exited 0)⟩,
      ⟨.wait 12 { untraced := true }, .ok (12, .stopped .tstp)⟩] (.ok (), qs) := .call (.call (.done _))
  have hfails : Runs (Process.awaitAll true ps) [⟨.wait 11 { untraced := true }, .error .invalid⟩]
      (.error (.system .invalid), ps) := .call (.done _)
  obtain ⟨hstatus, hr, -⟩ :=
    (launch_leaves_none_halfway.2.2 _ _ _ _ _ h).added j (List.mem_singleton_self _) List.not_mem_nil
  exact ⟨_, _, h, rfl, hstatus, hr, launch_leaves_none_halfway.1 _ _ _ _ hwait,
    launch_leaves_none_halfway.2.1 _ _ _ _ _ hfails⟩

end Shell

end JobShell

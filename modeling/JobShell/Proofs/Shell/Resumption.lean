import JobShell.Proofs.Job.Signalling
import JobShell.Proofs.Shell.Custody

namespace JobShell

open Sys (Runs)

theorem map_eq_self_iff {α : Type} {f : α → α} {as : List α} : as.map f = as ↔ ∀ a ∈ as, f a = a := by
  simpa using List.map_eq_map_iff (f := f) (g := id) (l := as)

theorem Event.not_refuses_of_isInquiry {e : Event} {s : Signal} (h : e.call.isInquiry) : ¬ e.refuses s := by
  unfold refuses
  split
  · exact absurd h id
  · exact id

theorem Event.not_refuses_of_isLending {e : Event} {s : Signal} (h : e.call.isLending) : ¬ e.refuses s := by
  unfold refuses
  split
  · exact absurd h id
  · exact id

def Job.resumed (foreground : Bool) (j : Job) : Job := { j with foreground }.markRunning

theorem Job.resumed_eq_iff {foreground : Bool} {j : Job} :
    j.resumed foreground = j ↔
      j.foreground = foreground ∧ j.notified = false ∧ ∀ p ∈ j.processes, p.isStopped = false := by
  have hprocess (p : Process) :
      (if p.isStopped then { p with status := .running } else p) = p ↔ p.isStopped = false := by
    cases hp : p.isStopped with
    | false => simp
    | true =>
      refine iff_of_false (fun h ↦ ?_) nofun
      rw [if_pos rfl] at h
      rw [← h] at hp
      cases hp
  have hprocesses : (j.resumed foreground).processes = j.processes ↔ ∀ p ∈ j.processes, p.isStopped = false :=
    map_eq_self_iff.trans (forall₂_congr fun p _ ↦ hprocess p)
  rw [← hprocesses]
  constructor
  · intro h
    exact ⟨(congrArg Job.foreground h).symm, (congrArg Job.notified h).symm, congrArg Job.processes h⟩
  · rintro ⟨rfl, hnotified, hsame⟩
    calc j.resumed j.foreground
        = { j with processes := (j.resumed j.foreground).processes, notified := false } := rfl
      _ = j := by rw [hsame, ← hnotified]

namespace JobTable

variable {t : JobTable} {id : JobId}

theorem modify_eq_iff {f : Job → Job} : t.modify id f = t ↔ ∀ j ∈ t.jobs, j.id = id → f j = j := by
  have hjobs : t.modify id f = t ↔ (t.jobs.map fun j ↦ if j.id = id then f j else j) = t.jobs :=
    ⟨fun h ↦ congrArg JobTable.jobs h, fun h ↦ congrArg (JobTable.mk · t.focus) h⟩
  rw [hjobs, map_eq_self_iff]
  refine forall₂_congr fun j _ ↦ ?_
  by_cases hj : j.id = id <;> simp [hj]

theorem get?_modify (t : JobTable) (id : JobId) {f : Job → Job} (hf : ∀ j, (f j).id = j.id) :
    (t.modify id f).get? id = (t.get? id).map f := by
  have hids : ((fun j : Job ↦ j.id == id) ∘ fun j ↦ if j.id = id then f j else j) = fun j ↦ j.id == id := by
    funext j
    by_cases hj : j.id = id <;> simp [hj, hf]
  rw [get?, modify, List.find?_map, hids]
  refine Option.map_congr fun j hj ↦ if_pos ?_
  simpa using List.find?_some hj

end JobTable

namespace Shell

variable {s s' : Shell} {t : List Event} {id : JobId}

theorem yields_jobOf {r : Except Failure Job} (h : Yields (jobOf id).run s t r s') :
    t = [] ∧ s' = s ∧ ((s.jobs.get? id = none ∧ ∃ f, r = .error f) ∨
      ∃ j, s.jobs.get? id = some j ∧ r = .ok j) := by
  obtain ⟨_, v, _, s₁, rfl, hget, hfound⟩ := yields_doing_bind.1 h
  obtain ⟨rfl, rfl, rfl⟩ := yields_pure.1 hget
  split at hfound
  · next j hj =>
    obtain ⟨rfl, rfl, rfl⟩ := yields_pure.1 hfound
    exact ⟨rfl, rfl, .inr ⟨j, hj, rfl⟩⟩
  · next hnone =>
    obtain ⟨rfl, rfl, rfl⟩ := yields_pure.1 hfound
    exact ⟨rfl, rfl, .inl ⟨hnone, _, rfl⟩⟩

theorem yields_signalJob {signal : Signal} {r : Except Failure Unit}
    (h : Yields (signalJob id signal).run s t r s') : Runs (s.jobs.signal id signal) t r ∧ s' = s :=
  yields_system.1 (yields_get_bind.1 h)

theorem not_refuses_of_waitForJob {untraced : Bool} {signal : Signal} {r : Except Failure Unit}
    (h : Yields (waitForJob id untraced).run s t r s') : ∀ e ∈ t, ¬ e.refuses signal := by
  obtain ⟨_, -, hjob⟩ | ⟨_, v, j, s₁, rfl, hjob, hwork⟩ := yields_try_bind h
  · obtain ⟨rfl, -⟩ := yields_jobOf hjob
    exact List.forall_mem_nil _
  · obtain ⟨rfl, -⟩ := yields_jobOf hjob
    obtain ⟨u, w, _, s₂, rfl, hwait, hend⟩ := yields_bind.1 hwork
    obtain ⟨_, x, _, s₃, rfl, hmodify, hlast⟩ := yields_bind.1 hend
    obtain ⟨rfl, -⟩ := yields_modify.1 hmodify
    obtain ⟨rfl, -⟩ := yields_pure.1 hlast
    rw [List.nil_append, List.append_nil, List.append_nil]
    exact fun e he ↦ Event.not_refuses_of_isInquiry (Process.inquires_awaitAll _ _ _ _ (yields_system.1 hwait).1 e he)

theorem yields_resumeJob {live jobControl : Bool} {r : Except Failure Unit}
    (h : Yields (resumeJob id live jobControl).run s t r s') (hrefused : ∃ e ∈ t, e.refuses .cont) :
    (∃ f, r = .error f) ∧ s' = s := by
  obtain ⟨e, he, hrefuses⟩ := hrefused
  rw [resumeJob] at h
  split at h
  · obtain ⟨f, rfl, hsignal⟩ | ⟨u, v, _, s₁, rfl, hsignal, hwait⟩ := yields_try_bind h
    · exact ⟨⟨f, rfl⟩, (yields_signalJob hsignal).2⟩
    · obtain ⟨hsent, rfl⟩ := yields_signalJob hsignal
      rcases List.mem_append.1 he with he | he
      · obtain ⟨_, ⟨⟩⟩ := (JobTable.signal_fails_iff hsent).2 (.inr ⟨e, he, hrefuses⟩)
      · exact absurd hrefuses (not_refuses_of_waitForJob hwait e he)
  · exact absurd hrefuses (not_refuses_of_waitForJob h e he)

theorem yields_putInBackground {f : Failure} (h : Yields (putInBackground id).run s t (.error f) s') :
    (s.jobs.get? id = none ∧ t = [] ∧ s' = s) ∨
      (s.jobs.get? id).isSome ∧ (∃ e ∈ t, e.refuses .cont) ∧
        s' = { s with jobs := s.jobs.modify id (Job.resumed false) } := by
  obtain ⟨_, -, hjob⟩ | ⟨_, v, j, s₁, rfl, hjob, hwork⟩ := yields_try_bind h
  · obtain ⟨rfl, rfl, ⟨hnone, -⟩ | ⟨_, -, ⟨⟩⟩⟩ := yields_jobOf hjob
    exact .inl ⟨hnone, rfl, rfl⟩
  · obtain ⟨rfl, rfl, ⟨-, _, ⟨⟩⟩ | ⟨_, hj, ⟨⟩⟩⟩ := yields_jobOf hjob
    obtain ⟨_, w, _, s₂, rfl, hmark, hsignal⟩ := yields_doing_bind.1 hwork
    obtain ⟨rfl, rfl⟩ := yields_modify.1 hmark
    refine .inr ⟨hj ▸ rfl, ?_⟩
    obtain ⟨f', -, hfails⟩ | ⟨_, _, _, s₃, rfl, -, hlast⟩ := yields_try_bind hsignal
    · obtain ⟨hruns, rfl⟩ := yields_signalJob hfails
      have hget := s₁.jobs.get?_modify id (f := Job.resumed false) fun _ ↦ rfl
      rcases (JobTable.signal_fails_iff hruns).1 ⟨f', rfl⟩ with hnone | hrefused
      · exact absurd (hget.symm.trans hnone) (by simp [hj])
      · exact ⟨hrefused, rfl⟩
    · obtain ⟨_, -, ⟨⟩⟩ := yields_map.1 hlast

theorem yields_lentResumeJob {group : Option Int} {live jobControl : Bool} {r : Except Failure Unit}
    (h : Yields (withTerminal group (resumeJob id live jobControl).run) s t r s')
    (hrefused : ∃ e ∈ t, e.refuses .cont) : (∃ f, r = .error f) ∧ s' = s := by
  obtain ⟨u, -, hwork, hlending⟩ := yields_withTerminal h
  obtain ⟨e, he, hrefuses⟩ := hrefused
  refine yields_resumeJob hwork ⟨e, (hlending e he).resolve_right fun hlends ↦ ?_, hrefuses⟩
  exact Event.not_refuses_of_isLending hlends hrefuses

theorem eq_nil_of_settleForeground {r : Except Failure ExitStatus}
    (h : Yields (do
      let j ← jobOf id
      doing <| modify fun s ↦
        { s with jobs := if j.isCompleted then (s.jobs.remove id).2 else s.jobs.setCurrent id }
      pure j.exitStatus : Try ExitStatus).run s t r s') : t = [] := by
  obtain ⟨_, -, hjob⟩ | ⟨_, _, j, s₁, rfl, hjob, hrest⟩ := yields_try_bind h
  · exact (yields_jobOf hjob).1
  · obtain ⟨rfl, -⟩ := yields_jobOf hjob
    obtain ⟨_, _, _, s₂, rfl, hmodify, hend⟩ := yields_doing_bind.1 hrest
    obtain ⟨rfl, -⟩ := yields_modify.1 hmodify
    exact (yields_pure.1 hend).1

theorem yields_putInForeground {r : Except Failure ExitStatus}
    (h : Yields (putInForeground id).run s t r s') :
    (s.jobs.get? id = none ∧ t = [] ∧ s' = s) ∨
      (s.jobs.get? id).isSome ∧ ((∃ e ∈ t, e.refuses .cont) →
        (∃ f, r = .error f) ∧ s' = { s with jobs := s.jobs.modify id (Job.resumed true) }) := by
  obtain ⟨_, v₁, _, s₁, rfl, hget, h₁⟩ := yields_doing_bind.1 h
  obtain ⟨rfl, rfl, rfl⟩ := yields_pure.1 hget
  obtain ⟨_, -, hjob⟩ | ⟨_, v₂, j, s₂, rfl, hjob, h₂⟩ := yields_try_bind h₁
  · obtain ⟨rfl, rfl, ⟨hnone, -⟩ | ⟨_, -, ⟨⟩⟩⟩ := yields_jobOf hjob
    exact .inl ⟨hnone, rfl, rfl⟩
  · obtain ⟨rfl, rfl, ⟨-, _, ⟨⟩⟩ | ⟨_, hj, ⟨⟩⟩⟩ := yields_jobOf hjob
    refine .inr ⟨hj ▸ rfl, fun hrefused ↦ ?_⟩
    obtain ⟨_, v₃, _, s₃, rfl, hmark, h₃⟩ := yields_doing_bind.1 h₂
    obtain ⟨rfl, rfl⟩ := yields_modify.1 hmark
    obtain ⟨_, -, hmarked⟩ | ⟨_, v₄, k, s₃, rfl, hmarked, h₄⟩ := yields_try_bind h₃
    · obtain ⟨rfl, -⟩ := yields_jobOf hmarked
      exact absurd hrefused (by simp)
    · obtain ⟨rfl, rfl, -⟩ := yields_jobOf hmarked
      obtain ⟨f, rfl, hlent⟩ | ⟨u, v₅, _, s₄, rfl, hlent, h₅⟩ := yields_try_bind h₄
      · exact ⟨⟨f, rfl⟩, (yields_lentResumeJob hlent hrefused).2⟩
      · obtain rfl := eq_nil_of_settleForeground h₅
        obtain ⟨⟨_, ⟨⟩⟩, -⟩ := yields_lentResumeJob hlent (by simpa using hrefused)

/-- Where a job is to be continued and there is none of that number, nothing is called and nothing changes.
Otherwise the job is marked first: if the signal that continues it cannot be sent, to continue it fails, the
marks stay, and nothing else of the shell has changed. In the background there is no other failure. The
marks change the table unless the job bears them already and none of its processes is stopped. -/
theorem failed_continue_leaves_marks (id : JobId) (s s' : Shell) (t : List Event) :
    (∀ f, Yields (putInBackground id).run s t (.error f) s' →
      (s.jobs.get? id = none ∧ t = [] ∧ s' = s) ∨
        (s.jobs.get? id).isSome ∧ (∃ e ∈ t, e.refuses .cont) ∧
          s' = { s with jobs := s.jobs.modify id (Job.resumed false) }) ∧
      (∀ r, Yields (putInForeground id).run s t r s' →
        (s.jobs.get? id = none ∧ t = [] ∧ s' = s) ∨
          (s.jobs.get? id).isSome ∧ ((∃ e ∈ t, e.refuses .cont) →
            (∃ f, r = .error f) ∧ s' = { s with jobs := s.jobs.modify id (Job.resumed true) })) ∧
      ∀ foreground, s.jobs.modify id (Job.resumed foreground) = s.jobs ↔
        ∀ j ∈ s.jobs.jobs, j.id = id →
          j.foreground = foreground ∧ j.notified = false ∧ ∀ p ∈ j.processes, p.isStopped = false := by
  refine ⟨fun _ ↦ yields_putInBackground, fun _ ↦ yields_putInForeground, fun foreground ↦ ?_⟩
  exact JobTable.modify_eq_iff.trans (forall₃_congr fun j _ _ ↦ Job.resumed_eq_iff)

theorem failed_continue_leaves_marks_of_gone :
    let j : Job := ⟨1, none, "a", [⟨11, "a", .stopped .stop⟩], true, true⟩
    let s : Shell :=
      { history := ⟨0, [], 0⟩, config := .script, isInteractive := false, jobs := ⟨[j], some 1⟩ }
    let t : List Event := [⟨.kill 11 (some .cont), .error .noProcess⟩]
    ∃ s₁ s₂, Yields (putInBackground 1).run s t (.error (.system .noProcess)) s₁ ∧
      Yields (putInForeground 1).run s t (.error (.system .noProcess)) s₂ ∧ (∃ e ∈ t, e.refuses .cont) ∧
      s₁.jobs = ⟨[⟨1, none, "a", [⟨11, "a", .running⟩], false, false⟩], some 1⟩ ∧
      s₂.jobs = ⟨[⟨1, none, "a", [⟨11, "a", .running⟩], false, true⟩], some 1⟩ ∧
      s.jobs.modify 1 (Job.resumed false) ≠ s.jobs := by
  intro j s t
  have hbackground : Yields (putInBackground 1).run s t (.error (.system .noProcess)) _ := .call (.done _)
  have hforeground : Yields (putInForeground 1).run s t (.error (.system .noProcess)) _ := .call (.done _)
  have hrefused : ∃ e ∈ t, e.refuses .cont := ⟨_, List.mem_singleton_self _, rfl⟩
  obtain ⟨-, -, hs₁⟩ := ((failed_continue_leaves_marks 1 s _ t).1 _ hbackground).resolve_left nofun
  obtain ⟨-, hmarked⟩ := ((failed_continue_leaves_marks 1 s _ t).2.1 _ hforeground).resolve_left nofun
  refine ⟨_, _, hbackground, hforeground, hrefused, congrArg Shell.jobs hs₁,
    congrArg Shell.jobs (hmarked hrefused).2, fun hsame ↦ ?_⟩
  exact absurd (((failed_continue_leaves_marks 1 s s t).2.2 false).1 hsame j (List.mem_singleton_self _) rfl).1 nofun

/-- The table is not always as it was before. -/
theorem failed_continue_changes_jobs :
    ¬ ∀ (id : JobId) (s s' : Shell) (t : List Event) (f : Failure),
      Yields (putInBackground id).run s t (.error f) s' → s'.jobs = s.jobs := by
  intro hall
  let j : Job := ⟨1, none, "a", [⟨11, "a", .stopped .stop⟩], false, false⟩
  let s : Shell :=
    { history := ⟨0, [], 0⟩, config := .script, isInteractive := false, jobs := ⟨[j], some 1⟩ }
  have h : Yields (putInBackground 1).run s [⟨.kill 11 (some .cont), .error .noProcess⟩]
      (.error (.system .noProcess)) _ := .call (.done _)
  have hjobs := hall _ _ _ _ _ h
  revert hjobs
  decide

end Shell

end JobShell

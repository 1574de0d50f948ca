import Mathlib.Data.List.Nodup
import JobShell.Proofs.Job.Collecting
import JobShell.Proofs.Sys.Progress
import JobShell.Proofs.Shell.Work
import JobShell.Shell.JobControl

namespace JobShell

open Sys (Runs Leads)

variable {α β : Type} {pid : Int}

/-- Whatever replies it gets, the program polls a child before it comes to an end, and again where it is
interrupted. -/
inductive WillPoll (pid : Int) : Sys α → Prop
  | poll {next : Reply (.wait pid polling) → Sys α} : WillPoll pid (next (.error .interrupted)) →
      WillPoll pid (.call (.wait pid polling) next)
  | later {c : Call} {next : Reply c → Sys α} : (∀ r, Orderly [⟨c, r⟩] → WillPoll pid (next r)) →
      WillPoll pid (.call c next)

theorem not_willPoll_done {a : α} : ¬ WillPoll pid (.done a) := nofun

theorem WillPoll.bind {x : Sys α} (h : WillPoll pid x) (f : α → Sys β) : WillPoll pid (x >>= f) := by
  induction h with
  | poll _ ih => exact .poll ih
  | later _ ih => exact .later ih

theorem WillPoll.after {x : Sys α} {f : α → Sys β}
    (h : ∀ t a, Runs x t a → Orderly t → WillPoll pid (f a)) : WillPoll pid (x >>= f) := by
  induction x with
  | done a => exact h [] a (.done a) nofun
  | call c next ih =>
    refine .later fun r hr ↦ ih r fun t a hruns ho ↦ h (⟨c, r⟩ :: t) a (.call hruns) ?_
    intro pid flags e hmem
    rcases List.mem_cons.1 hmem with heq | hmem
    · exact hr pid flags e (heq ▸ List.mem_cons_self)
    · exact ho pid flags e hmem

theorem Children.Answers.orderly {w w' : Children} {c : Call} {r : Reply c} (h : w.Answers c r w') :
    Orderly [⟨c, r⟩] := by
  intro pid flags e hmem
  have heq := List.mem_singleton.1 hmem
  cases h with
  | wait htold =>
    cases htold <;> cases heq
    · exact .inl rfl
    · exact .inr rfl
  | notice | probe | log => cases heq

theorem WillPoll.answered {w w' : Children} {c : Call} {next : Reply c → Sys α} {r : Reply c}
    (h : WillPoll pid (.call c next)) (hanswer : w.Answers c r w') (hthere : w'.changes pid ≠ none) :
    WillPoll pid (next r) := by
  cases h with
  | poll hnext =>
    cases hanswer with
    | wait htold =>
    cases htold with
    | change => exact absurd (Function.update_self _ _ _) hthere
    | alive child hnone => exact absurd hnone hthere
    | interrupted => exact hnext
    | gone hnone => exact absurd hnone hthere
  | later hnext => exact hnext r hanswer.orderly

theorem Process.willPoll_poll (n : Nat) (p : Process) : WillPoll p.pid (p.poll n) := by
  induction n with
  | zero => exact .later fun r ↦ r.elim
  | succ n ih => exact .poll ih

namespace Job

open Process (unfinished)

theorem willPoll_pollAll {ps : List Process} (h : pid ∈ unfinished ps) : WillPoll pid (pollAll ps) := by
  induction ps with
  | nil => cases h
  | cons p ps ih =>
    rw [Process.unfinished_cons] at h
    rw [pollAll]
    split
    · next hp =>
      rw [if_pos hp] at h
      exact (ih h).bind _
    · next hp =>
      rw [if_neg hp] at h
      rcases List.mem_cons.1 h with rfl | h
      · exact (Process.willPoll_poll _ p).bind _
      · refine .after fun t polled hruns ho ↦ ?_
        obtain ⟨r, q⟩ := polled
        obtain ⟨changed, rfl⟩ := Process.ok_of_poll hruns ho
        exact (ih h).bind _

end Job

namespace JobTable

theorem willPoll_reapJobs {js : List Job} (h : pid ∈ tracked js) : WillPoll pid (reapJobs js) := by
  induction js with
  | nil => cases h
  | cons j js ih =>
    rw [tracked_cons] at h
    rcases List.mem_append.1 h with h | h
    · exact ((Job.willPoll_pollAll h).bind _).bind _
    · refine .after fun t polled hruns ho ↦ ?_
      obtain ⟨r, k⟩ := polled
      obtain ⟨changed, rfl⟩ := Job.ok_of_poll hruns ho
      exact (ih h).bind _

theorem willPoll_reap {t : JobTable} (h : pid ∈ tracked t.jobs) : WillPoll pid t.reap :=
  (willPoll_reapJobs h).bind _

end JobTable

namespace Shell

open Children (Carries Returns)
open JobTable (tracked Records)

variable {s s' : Shell} {t : List Event}

def noteReaped (r : Except Failure (List (JobId × JobStatus))) : Act Unit :=
  match r with
  | .ok _ => pure ()
  | .error f => log .error "psh::shell" ("failed to reap jobs: " ++ f.message)

theorem reapJobs_eq (h : s.isSubshell = false) : reapJobs.run.run s = .call (.takeNotice .chld)
    fun noticed ↦ (if noticed then reapTable >>= noteReaped else pure ()).run.run s := by
  have hreap : reapJobs.run.run s = (if s.isSubshell then pure () else
      ask (.takeNotice .chld) >>= fun noticed ↦
        if noticed then reapTable >>= noteReaped else pure () : Act Unit).run.run s := rfl
  rw [hreap, h]
  rfl

theorem reapTable_bind (f : Except Failure (List (JobId × JobStatus)) → Act α) (s : Shell) :
    (reapTable >>= f).run.run s = s.jobs.reap >>= fun x ↦ (f x.1).run.run { s with jobs := x.2 } := by
  have hget : (reapTable >>= f).run.run s =
    ((system s.jobs.reap >>= fun x ↦ setJobs x.2 >>= fun _ ↦ pure x.1) >>= f).run.run s := rfl
  rw [hget, bind_assoc, run_system_bind]
  rfl

theorem every_noteReaped (r : Except Failure (List (JobId × JobStatus))) (s : Shell) :
    ((noteReaped r).run.run s).Every Call.isAsking := by
  cases r with
  | ok _ => trivial
  | error f => exact ⟨.inl trivial, fun _ ↦ trivial⟩

theorem runs_noteReaped {r : Except Failure (List (JobId × JobStatus))} {x : Except Defect Unit}
    (h : Runs ((noteReaped r).run.run s) t (x, s')) : s' = s := by
  cases r with
  | ok _ =>
    obtain ⟨-, ⟨⟩⟩ := Sys.runs_pure.1 h
    rfl
  | error f =>
    obtain ⟨_, _, -, hend⟩ := Sys.runs_call.1 h
    obtain ⟨-, ⟨⟩⟩ := Sys.runs_pure.1 hend
    rfl

/-- A shell collects what has become of its jobs: after taking notice, or at once. What is left when it
has done so is a shell. -/
inductive Reaping (s : Shell) : Sys Shell → Prop
  | jobs : Reaping s (Prod.snd <$> reapJobs.run.run s)
  | table : Reaping s (Prod.snd <$> reapTable.run.run s)

theorem runs_reapTable_bind {f : Except Failure (List (JobId × JobStatus)) → Act α} {x : Except Defect α}
    (hf : ∀ r s t x s', Runs ((f r).run.run s) t (x, s') → s' = s)
    (h : Runs ((reapTable >>= f).run.run s) t (x, s')) :
    s'.isSubshell = s.isSubshell ∧ (tracked s'.jobs.jobs).Sublist (tracked s.jobs.jobs) := by
  rw [reapTable_bind] at h
  obtain ⟨_, _, ⟨r, jobs⟩, -, hreap, hend⟩ := Sys.runs_bind.1 h
  obtain rfl := hf _ _ _ _ _ hend
  exact ⟨rfl, JobTable.runs_reap_tracked hreap⟩

theorem Reaping.runs {x : Sys Shell} (hx : Reaping s x) (hown : s.isSubshell = false) (h : Runs x t s') :
    s'.isSubshell = s.isSubshell ∧ (tracked s'.jobs.jobs).Sublist (tracked s.jobs.jobs) := by
  cases hx with
  | jobs =>
    obtain ⟨⟨r, _⟩, hruns, rfl⟩ := Sys.runs_map.1 h
    rw [reapJobs_eq hown] at hruns
    obtain ⟨noticed, u, -, hnext⟩ := Sys.runs_call.1 hruns
    cases noticed with
    | true => exact runs_reapTable_bind (fun _ _ _ _ _ h ↦ runs_noteReaped h) hnext
    | false =>
      obtain ⟨-, ⟨⟩⟩ := Sys.runs_pure.1 hnext
      exact ⟨rfl, List.Sublist.refl _⟩
  | table =>
    obtain ⟨⟨r, _⟩, hruns, rfl⟩ := Sys.runs_map.1 h
    rw [← bind_pure reapTable] at hruns
    refine runs_reapTable_bind (fun r s t x s' h ↦ ?_) hruns
    obtain ⟨-, ⟨⟩⟩ := Sys.runs_pure.1 h
    rfl

theorem not_isAsking_takeNotice : ¬ (Call.takeNotice .chld).isAsking := by
  rintro (h | h)
  · exact h
  · cases h

theorem Reaping.willPoll {x : Sys Shell} {next : Bool → Sys Shell} (hx : Reaping s x)
    (hown : s.isSubshell = false) (h : Leads x t (.call (.takeNotice .chld) next)) :
    ∀ pid ∈ tracked s.jobs.jobs, WillPoll pid (next true) := by
  cases hx with
  | jobs =>
    rw [reapJobs_eq hown] at h
    intro pid hpid
    obtain ⟨-, heq⟩ | ⟨noticed, u, -, hleads⟩ := Sys.leads_call h
    · obtain ⟨-, heq⟩ := Sys.call.inj heq
      obtain rfl := eq_of_heq heq
      have hreap : WillPoll pid ((reapTable >>= noteReaped).run.run s) := by
        rw [reapTable_bind]
        exact (JobTable.willPoll_reap hpid).bind _
      exact hreap.bind _
    · refine absurd hleads (Sys.not_leads (P := Call.isAsking) (Sys.Every.map ?_ _) not_isAsking_takeNotice)
      cases noticed with
      | true =>
        simp only [if_true]
        rw [reapTable_bind]
        exact s.jobs.every_reap.bind fun _ ↦ every_noteReaped _ _
      | false => trivial
  | table =>
    refine absurd h (Sys.not_leads ?_ not_isAsking_takeNotice)
    rw [← bind_pure reapTable, reapTable_bind]
    exact (s.jobs.every_reap.bind fun _ ↦ Sys.every_pure _).map _

/-- A shell with its children: those of no job yet, and what it has still to do of a poll, if one is under
way. -/
structure Scene where
  shell : Shell
  children : Children
  unregistered : List Int := []
  rest : Option (Sys Shell) := none

namespace Scene

/-- One thing that happens. A shell does not reap between forking a child and registering its job. -/
inductive Step : Scene → Scene → Prop
  | drift {s : Shell} {w w' : Children} {new : List Int} {rest : Option (Sys Shell)} :
      w.Drifts w' → Step ⟨s, w, new, rest⟩ ⟨s, w', new, rest⟩
  | fork {s : Shell} {w : Children} {new : List Int} {pid : Int} :
      pid ∉ tracked s.jobs.jobs ++ new → w.changes pid = none →
        Step ⟨s, w, new, none⟩ ⟨s, w, new ++ [pid], none⟩
  | register {s : Shell} {w : Children} {new : List Int} (group : Option Int) (name : String)
      (connector : Connector) (ps : List Process) : (Process.unfinished ps).Sublist new →
        Step ⟨s, w, new, none⟩
          ⟨{ s with jobs := (s.jobs.register group name connector ps).2 }, w, [], none⟩
  | reap {s : Shell} {w : Children} {x : Sys Shell} :
      Reaping s x → Step ⟨s, w, [], none⟩ ⟨s, w, [], some x⟩
  | call {s : Shell} {w w' : Children} {c : Call} {next : Reply c → Sys Shell} {r : Reply c} :
      w.Answers c r w' → Step ⟨s, w, [], some (.call c next)⟩ ⟨s, w', [], some (next r)⟩
  | reaped {s s' : Shell} {w : Children} :
      Step ⟨s, w, [], some (.done s')⟩ ⟨s', w, [], none⟩

/-- What may come of a shell that has no jobs yet, and is no other's child. -/
inductive Reaches : Scene → Prop
  | start {s : Shell} (w : Children) : s.jobs.jobs = [] → s.isSubshell = false → Reaches ⟨s, w, [], none⟩
  | step {σ σ' : Scene} : Reaches σ → Step σ σ' → Reaches σ'

def Heeds (σ : Scene) (pid : Int) : Prop :=
  σ.children.noticed ∨ ∃ x, σ.rest = some x ∧ WillPoll pid x

structure Watchful (σ : Scene) : Prop where
  own : σ.shell.isSubshell = false
  distinct : (tracked σ.shell.jobs.jobs ++ σ.unregistered).Nodup
  heeded : ∀ pid ∈ tracked σ.shell.jobs.jobs ++ σ.unregistered, ∀ c,
    σ.children.changes pid = some c → c.announced → σ.Heeds pid
  reaping : ∀ y, σ.rest = some y → ∃ x t, Reaping σ.shell x ∧ Leads x t y

variable {σ σ' : Scene}

theorem Watchful.drift {w : Children} (h : Watchful σ) (hdrift : σ.children.Drifts w) :
    Watchful { σ with children := w } := by
  refine ⟨h.own, h.distinct, fun pid hpid c hc hannounced ↦ ?_, h.reaping⟩
  cases hdrift with
  | @change other d hnone hnew =>
    by_cases hpid' : pid = other
    · obtain rfl : d = c := by simpa [hpid'] using hc
      rw [hnew] at hannounced
      cases hannounced
    · have hbefore : σ.children.changes pid = some c := (Function.update_of_ne hpid' _ _).symm.trans hc
      exact h.heeded pid hpid c hbefore hannounced
  | deliver pids => exact .inl rfl

theorem Watchful.answered {s : Shell} {w w' : Children} {c : Call} {next : Reply c → Sys Shell}
    {r : Reply c} (h : Watchful ⟨s, w, [], some (.call c next)⟩) (hanswer : w.Answers c r w') :
    Watchful ⟨s, w', [], some (next r)⟩ := by
  refine ⟨h.own, h.distinct, fun pid hpid d hd hannounced ↦ ?_, fun y hy ↦ ?_⟩
  · obtain hnoticed | ⟨_, ⟨⟩, hwill⟩ := h.heeded pid hpid d (hanswer.before hd) hannounced
    · cases hanswer with
      | notice =>
        -- the note is taken, and all children are polled now
        obtain ⟨x, t, hx, hleads⟩ := h.reaping _ rfl
        have hnoticed : w.noticed = true := hnoticed
        have hpid : pid ∈ tracked s.jobs.jobs := by simpa using hpid
        refine .inr ⟨_, rfl, ?_⟩
        rw [hnoticed]
        exact hx.willPoll h.own hleads pid hpid
      | wait htold => exact .inl (htold.noticed.trans hnoticed)
      | probe => exact .inl hnoticed
      | log => exact .inl hnoticed
    · refine .inr ⟨_, rfl, hwill.answered hanswer ?_⟩
      rw [hd]
      exact Option.some_ne_none d
  · obtain rfl : next r = y := Option.some.inj hy
    obtain ⟨x, t, hx, hleads⟩ := h.reaping _ rfl
    exact ⟨x, _, hx, hleads.snoc r⟩

theorem tracked_register (jobs : JobTable) (group : Option Int) (name : String) (connector : Connector)
    (ps : List Process) : tracked (jobs.register group name connector ps).2.jobs =
      tracked jobs.jobs ++ Process.unfinished ps := by
  simp [JobTable.tracked, JobTable.register, JobTable.add, Job.start, Process.unfinished]

theorem Watchful.step (h : Watchful σ) (hstep : Step σ σ') : Watchful σ' := by
  cases hstep with
  | drift hdrift => exact h.drift hdrift
  | @fork s w new pid hfresh hnone =>
    refine ⟨h.own, ?_, fun other hother c hc hannounced ↦ ?_, nofun⟩
    · simp only
      rw [← List.append_assoc, ← List.concat_eq_append]
      exact List.Nodup.concat hfresh h.distinct
    · simp only at hother hc
      rw [← List.append_assoc] at hother
      rcases List.mem_append.1 hother with hother | hother
      · exact h.heeded other hother c hc hannounced
      · obtain rfl := List.mem_singleton.1 hother
        rw [hnone] at hc
        cases hc
  | @register s w new group name connector ps hps =>
    have hsub : (tracked (s.jobs.register group name connector ps).2.jobs ++ []).Sublist
        (tracked s.jobs.jobs ++ new) := by
      rw [List.append_nil, tracked_register]
      exact (List.Sublist.refl _).append hps
    exact ⟨h.own, h.distinct.sublist hsub, fun pid hpid ↦ h.heeded pid (hsub.subset hpid), nofun⟩
  -- a poll that begins takes all unnoticed changes upon itself
  | @reap s w x hx =>
    refine ⟨h.own, h.distinct, fun pid hpid c hc hannounced ↦ ?_, fun y hy ↦ ?_⟩
    · obtain hnoticed | ⟨_, ⟨⟩, -⟩ := h.heeded pid hpid c hc hannounced
      exact .inl hnoticed
    · obtain rfl : x = y := Option.some.inj hy
      exact ⟨x, [], hx, .refl x⟩
  | call hanswer => exact h.answered hanswer
  | @reaped s s' w =>
    obtain ⟨x, t, hx, hleads⟩ := h.reaping _ rfl
    obtain ⟨hsame, hfewer⟩ := hx.runs h.own hleads.runs
    have hsub := hfewer.append (List.Sublist.refl ([] : List Int))
    refine ⟨hsame.trans h.own, h.distinct.sublist hsub, fun pid hpid c hc hannounced ↦ ?_, nofun⟩
    obtain hnoticed | ⟨_, ⟨⟩, hwill⟩ := h.heeded pid (hsub.subset hpid) c hc hannounced
    · exact .inl hnoticed
    · exact absurd hwill not_willPoll_done

theorem watchful_of_reaches (h : Reaches σ) : Watchful σ := by
  induction h with
  | start w hjobs hown =>
    have hnone {pid : Int} : pid ∉ tracked ([] : List Job) ++ [] := by simp [JobTable.tracked, Process.unfinished]
    refine ⟨hown, ?_, fun pid hpid ↦ ?_, fun y hy ↦ ?_⟩
    · simp [hjobs, JobTable.tracked, Process.unfinished]
    · simp only [hjobs] at hpid
      exact absurd hpid hnone
    · cases hy
  | step _ hstep ih => exact ih.step hstep

end Scene

/-- A call of a shell that takes notice comes back, and has recorded what it was to notice. -/
theorem carries_reapJobs {w w' : Children} {r : Except Defect Unit} (hown : s.isSubshell = false)
    (hdistinct : (tracked s.jobs.jobs).Nodup) (h : Carries w (reapJobs.run.run s) (r, s') w') :
    r = .ok () ∧ (Records w s.jobs.jobs s'.jobs.jobs ∨ w.noticed = false ∧ s' = s) := by
  rw [reapJobs_eq hown] at h
  obtain ⟨w₁, noticed, w₂, hdrifted, hanswer, hrest⟩ := Children.carries_call h
  cases hanswer with
  | notice =>
  cases hnoticed : w₁.noticed with
  | false =>
    rw [hnoticed] at hrest
    obtain ⟨⟨⟩, -⟩ := Children.carries_pure hrest
    have hbefore : w.noticed = false := by
      by_contra hbefore
      simp [hdrifted.noticed (by simpa using hbefore)] at hnoticed
    exact ⟨rfl, .inr ⟨hbefore, rfl⟩⟩
  | true =>
    simp only [hnoticed, if_true] at hrest
    rw [reapTable_bind] at hrest
    obtain ⟨⟨r', u⟩, w₃, hreap, hend⟩ := Children.carries_bind hrest
    obtain ⟨⟨changed, rfl⟩, hrecords⟩ := JobTable.carries_reap hdistinct hreap
    obtain ⟨⟨⟩, -⟩ := Children.carries_pure hend
    -- what was there before notice was taken is there after it
    exact ⟨rfl, .inl (hrecords.of_kept hdrifted.kept)⟩

theorem returns_reapJobs (hown : s.isSubshell = false) : Returns (reapJobs.run.run s) := by
  have hnoted (r : Except Failure (List (JobId × JobStatus))) (u : Shell) :
      Returns ((noteReaped r).run.run u) := by
    cases r with
    | ok _ => exact Children.returns_pure _
    | error f => exact fun w ↦ ⟨_, w, .call (.log _ _ _) (.done w _)⟩
  have hpolled : Returns ((reapTable >>= noteReaped).run.run s) := by
    rw [reapTable_bind]
    exact s.jobs.returns_reap.bind fun _ ↦ hnoted _ _
  have hrest (noticed : Bool) :
      Returns ((if noticed then reapTable >>= noteReaped else pure () : Act Unit).run.run s) := by
    cases noticed with
    | true => exact hpolled
    | false => exact Children.returns_pure _
  rw [reapJobs_eq hown]
  intro w
  obtain ⟨a, w', hlast⟩ := hrest w.noticed { w with noticed := false }
  exact ⟨a, w', .call .notice hlast⟩

/-- The process is the same, and has recorded what the signal of its last change was for. -/
def Heard (w : Children) (p q : Process) : Prop :=
  q.pid = p.pid ∧ (p.isCompleted = false →
    ∀ c, w.changes p.pid = some c → c.announced → q.status = c.status)

/-- Between a shell and its children no change is lost: one whose signal has arrived is noted, or will be
polled by the poll under way, if its child belongs to a job and has not completed; and where no poll is
under way, the next that takes notice can come back, and then has recorded each of them. -/
theorem no_change_unheeded {σ : Scene} (h : σ.Reaches) :
    (∀ pid ∈ tracked σ.shell.jobs.jobs, ∀ c, σ.children.changes pid = some c → c.announced →
      σ.children.noticed ∨ ∃ x, σ.rest = some x ∧ WillPoll pid x) ∧
    (σ.rest = none → σ.unregistered = [] →
      (∃ s' w', Carries σ.children (reapJobs.run.run σ.shell) (.ok (), s') w') ∧
        ∀ r s' w', Carries σ.children (reapJobs.run.run σ.shell) (r, s') w' → r = .ok () ∧
          List.Forall₂ (fun j k ↦ List.Forall₂ (Heard σ.children) j.processes k.processes)
            σ.shell.jobs.jobs s'.jobs.jobs) := by
  have hwatchful := Scene.watchful_of_reaches h
  refine ⟨fun pid hpid ↦ hwatchful.heeded pid (List.mem_append_left _ hpid), ?_⟩
  intro hidle hregistered
  have hdistinct : (tracked σ.shell.jobs.jobs).Nodup :=
    hwatchful.distinct.sublist (List.sublist_append_left _ _)
  constructor
  · obtain ⟨⟨r, s'⟩, w', hcarries⟩ := returns_reapJobs hwatchful.own σ.children
    obtain ⟨rfl, -⟩ := carries_reapJobs hwatchful.own hdistinct hcarries
    exact ⟨s', w', hcarries⟩
  intro r s' w' hcarries
  obtain ⟨hr, hrecords | ⟨hunnoticed, rfl⟩⟩ := carries_reapJobs hwatchful.own hdistinct hcarries
  · refine ⟨hr, hrecords.imp fun j k hjk ↦ hjk.imp fun p q hpq ↦ ⟨hpq.1, fun hp c hc _ ↦ ?_⟩⟩
    exact hpq.2 hp c.status ⟨c, hc, rfl⟩
  · refine ⟨hr, List.forall₂_same.2 fun j hj ↦ List.forall₂_same.2 fun p hp ↦ ⟨rfl, ?_⟩⟩
    intro hopen c hc hannounced
    have hpid : p.pid ∈ tracked σ.shell.jobs.jobs :=
      JobTable.unfinished_subset_tracked hj (Process.mem_unfinished hp hopen)
    -- nothing was noted, so that no signal has arrived
    obtain hnoticed | ⟨x, hx, -⟩ := hwatchful.heeded _ (List.mem_append_left _ hpid) c hc hannounced
    · rw [hunnoticed] at hnoticed
      cases hnoticed
    · rw [hidle] at hx
      cases hx

theorem no_change_unheeded_exited :
    ∃ σ s' w', Scene.Reaches σ ∧ σ.rest = none ∧ σ.unregistered = [] ∧
      (∃ c, σ.children.changes 11 = some c ∧ c.announced ∧ c.status = .exited 0 ∧
        (σ.children.noticed ∨ ∃ x, σ.rest = some x ∧ WillPoll 11 x)) ∧
      Carries σ.children (reapJobs.run.run σ.shell) (.ok (), s') w' ∧
      List.Forall₂ (fun j k ↦ List.Forall₂ (Heard σ.children) j.processes k.processes)
        σ.shell.jobs.jobs s'.jobs.jobs := by
  let s : Shell := { history := ⟨0, [], 0⟩, config := .script, isInteractive := false }
  let ps : List Process := [⟨11, "a", .running⟩]
  let s₁ : Shell := { s with jobs := (s.jobs.register none "a" .background ps).2 }
  have hfresh : (11 : Int) ∉ tracked s.jobs.jobs ++ [] := by decide
  have hnone : ({} : Children).changes 11 = none := rfl
  have hregistered : Scene.Reaches ⟨s₁, {}, [], none⟩ :=
    ((Scene.Reaches.start {} rfl rfl).step (.fork hfresh hnone)).step
      (.register none "a" .background ps (List.Sublist.refl _))
  let exited : Change := ⟨.exited 0, .exited 0, rfl, false⟩
  let w : Children := {
    noticed := true
    changes := fun pid ↦ if pid ∈ [(11 : Int)]
      then (Function.update ({} : Children).changes 11 (some exited) pid).map fun c ↦ { c with announced := true }
      else Function.update ({} : Children).changes 11 (some exited) pid }
  have harrived : Scene.Reaches ⟨s₁, w, [], none⟩ :=
    (hregistered.step (.drift (.change exited hnone rfl))).step (.drift (.deliver [11]))
  have hcarries : Carries w (reapJobs.run.run s₁) (.ok (), _) _ :=
    .call .notice (.call (.wait (.change (c := { exited with announced := true }) rfl)) (.done _ _))
  obtain ⟨hheeded, hrecorded⟩ := no_change_unheeded harrived
  exact ⟨_, _, _, harrived, rfl, rfl, ⟨_, rfl, rfl, rfl, hheeded 11 (by decide) _ rfl rfl⟩, hcarries,
    ((hrecorded rfl rfl).2 _ _ _ hcarries).2⟩

end Shell

end JobShell

import JobShell.Proofs.Job.Awaiting
import JobShell.Proofs.Redirect.Calls
import JobShell.Proofs.Shell.Work
import JobShell.Shell.Launch

namespace JobShell

open Sys (Runs)

def Event.forked? : Event → Option Int
  | ⟨.fork, .ok (.parent pid)⟩ => some pid
  | _ => none

def forked (t : List Event) : List Int := t.filterMap Event.forked?

theorem forked_append (t u : List Event) : forked (t ++ u) = forked t ++ forked u :=
  List.filterMap_append

theorem forked_eq_nil {t : List Event} (h : ∀ e ∈ t, e.call ≠ .fork) : forked t = [] := by
  refine List.filterMap_eq_nil_iff.2 fun e he ↦ ?_
  unfold Event.forked?
  split
  · exact absurd rfl (h _ he)
  · rfl

def Call.isLending : Call → Prop
  | .ownGroup | .setTerminalGroup _ _ | .log _ _ _ => True
  | _ => False

namespace Shell

variable {α β : Type} {s s' : Shell} {t : List Event}

/-- A process belongs to a job of the shell. -/
def Keeps (s : Shell) (pid : Int) : Prop := ∃ j ∈ s.jobs.jobs, ∃ p ∈ j.processes, p.pid = pid

theorem keeps_of_register {jobs : JobTable} {group : Option Int} {name : String}
    {connector : Connector} {ps : List Process} {p : Process}
    (h : s.jobs = (jobs.register group name connector ps).2) (hp : p ∈ ps) : s.Keeps p.pid := by
  have hlast : Job.start jobs.nextId group name connector ps ∈ s.jobs.jobs := by
    rw [h]
    exact List.mem_append_right _ (List.mem_singleton_self _)
  exact ⟨_, hlast, p, hp, rfl⟩

def Quiet (x : Act α) : Prop := ∀ s t a s', Yields x s t a s' → forked t = []

theorem quiet_pure (a : α) : Quiet (pure a) := by
  intro s t b s' h
  obtain ⟨rfl, -, -⟩ := yields_pure.1 h
  rfl

theorem Quiet.next {x : Act α} {f : α → Act β} {b : β} (hx : Quiet x) (h : Yields (x >>= f) s t b s') :
    ∃ u v a s₁, Yields x s u a s₁ ∧ Yields (f a) s₁ v b s' ∧ forked t = forked v := by
  obtain ⟨u, v, a, s₁, rfl, hu, hv⟩ := yields_bind.1 h
  refine ⟨u, v, a, s₁, hu, hv, ?_⟩
  rw [forked_append, hx s u a s₁ hu, List.nil_append]

theorem Quiet.ensuring {x : Act α} {after : Act Unit} (hx : Quiet x) (hafter : Quiet after) :
    Quiet (ensuring x after) := by
  intro s t a s' h
  obtain ⟨u, v, s₁, rfl, hu, hv⟩ := yields_ensuring h
  rw [forked_append, hx s u a s₁ hu, hafter s₁ v () s' hv]
  rfl

theorem Quiet.bind {x : Act α} {f : α → Act β} (hx : Quiet x) (hf : ∀ a, Quiet (f a)) :
    Quiet (x >>= f) := by
  intro s t b s' h
  obtain ⟨u, v, a, s₁, -, hv, ht⟩ := hx.next h
  exact ht.trans (hf a s₁ v b s' hv)

def Obeys (C : {γ : Type} → Sys γ → Prop) (x : Act α) : Prop := ∀ s, C (x.run.run s)

section Obeys

variable {C : {γ : Type} → Sys γ → Prop} (hC : Sys.Closed C)

include hC

theorem obeys_pure (a : α) : Obeys C (pure a) := fun _ ↦ hC.pure _

theorem obeys_throw (d : Defect) : Obeys C (throw d : Act α) := fun _ ↦ hC.pure _

theorem obeys_get : Obeys C get := fun _ ↦ hC.pure _

theorem obeys_modify (f : Shell → Shell) : Obeys C (modify f) := fun _ ↦ hC.pure _

theorem obeys_system {x : Sys α} (hx : C x) : Obeys C (system x) :=
  fun _ ↦ hC.bind (hC.bind hx fun _ ↦ hC.pure _) fun _ ↦ hC.pure _

theorem obeys_bind {x : Act α} {f : α → Act β} (hx : Obeys C x) (hf : ∀ a, Obeys C (f a)) :
    Obeys C (x >>= f) := by
  intro s
  refine hC.bind (hx s) fun ⟨r, s₁⟩ ↦ ?_
  cases r with
  | error d => exact hC.pure _
  | ok a => exact hf a s₁

theorem obeys_when {c : Prop} {_ : Decidable c} {y : Act Unit} {rest : Act β} (hy : Obeys C y)
    (hrest : Obeys C rest) : Obeys C (if c then y >>= fun _ ↦ rest else rest) := by
  split
  · exact obeys_bind hC hy fun _ ↦ hrest
  · exact hrest

theorem obeys_wrote (r : Except Errno Unit × LineBuffer) : Obeys C (wrote r) :=
  obeys_bind hC (obeys_modify hC _) fun _ ↦ obeys_pure hC _

variable (hwrite : ∀ fd bytes, C (Sys.writeAll fd bytes))

include hwrite

theorem obeys_flush : Obeys C flush :=
  obeys_bind hC (obeys_get hC) fun s ↦
    obeys_bind hC (obeys_system hC (LineBuffer.closed_flush _ s.output hC hwrite)) (obeys_wrote hC)

theorem obeys_print (pieces : List String) : Obeys C (print pieces) :=
  obeys_bind hC (obeys_get hC) fun s ↦
    obeys_bind hC (obeys_system hC (LineBuffer.closed_writeEach _ s.output hC hwrite pieces)) (obeys_wrote hC)

theorem obeys_giveUp (d : Defect) : Obeys C (giveUp d : Act α) := by
  refine obeys_bind hC (obeys_get hC) fun s ↦ ?_
  split
  · exact obeys_bind hC (obeys_system hC (hwrite _ _)) fun _ ↦ obeys_throw hC d
  · exact obeys_throw hC d

end Obeys

def Calls (P : Call → Prop) (x : Act α) : Prop := ∀ s, (x.run.run s).Every P

variable {P Q : Call → Prop}

theorem calls_pure (a : α) : Calls P (pure a) := obeys_pure Sys.closed_every a

theorem calls_get : Calls P get := obeys_get Sys.closed_every

theorem calls_modify (f : Shell → Shell) : Calls P (modify f) := obeys_modify Sys.closed_every f

theorem calls_system {x : Sys α} (hx : x.Every P) : Calls P (system x) := obeys_system Sys.closed_every hx

theorem calls_ask {c : Call} (hc : P c) : Calls P (ask c) := calls_system (Sys.every_ask hc)

theorem Calls.bind {x : Act α} {f : α → Act β} (hx : Calls P x) (hf : ∀ a, Calls P (f a)) :
    Calls P (x >>= f) := obeys_bind Sys.closed_every hx hf

theorem Calls.mono {x : Act α} (hx : Calls P x) (hPQ : ∀ c, P c → Q c) : Calls Q x :=
  fun s ↦ (hx s).mono hPQ

theorem Calls.still {x : Act α} (hx : Calls Call.isStill x) : Still x := fun s ↦ (hx s).only

theorem Calls.quiet {x : Act α} (hx : Calls (· ≠ .fork) x) : Quiet x :=
  fun s t _ _ h ↦ forked_eq_nil ((hx s).only t _ h)

theorem quiet_system {x : Sys α} (hx : x.Every Call.isPlain) : Quiet (system x) :=
  (calls_system (hx.mono Call.ne_fork_of_isPlain)).quiet

theorem Still.quiet {x : Act α} (hx : Still x) : Quiet x :=
  fun s t _ _ h ↦ forked_eq_nil fun e he ↦
    Call.ne_fork_of_isPlain _ (Call.isPlain_of_isStill _ (hx s t _ h e he))

theorem every_releaseAll (fds : List (Option Int)) : (releaseAll fds).Every Call.isPlain :=
  Redirect.every_forM Redirect.every_dropEach fds

theorem quiet_releaseAll (fds : List (Option Int)) : Quiet (system (releaseAll fds)) :=
  quiet_system (every_releaseAll fds)

theorem calls_logFailure (target what : String) (r : Except Failure Unit) :
    Calls Call.isStill (logFailure target what r) := by
  cases r with
  | ok _ => exact calls_pure _
  | error f => exact calls_ask trivial

theorem calls_flush : Calls Call.isStill flush := obeys_flush Sys.closed_every Sys.every_writeAll

theorem calls_flushBeforeFork : Calls Call.isStill flushBeforeFork :=
  calls_flush.bind fun _ ↦ calls_logFailure _ _ _

theorem calls_pipeTo (rest : Pipeline) : Calls (· ≠ .fork) (pipeTo rest) := by
  rw [pipeTo]
  split
  · exact calls_pure _
  · refine (calls_ask (by simp)).bind fun answer ↦ ?_
    cases answer <;> exact calls_pure _

theorem calls_enroll (spawned : Spawned) (c : Command) (jobControl : Bool) (pid : Int) :
    Calls Call.isStill (enroll spawned c jobControl pid) := by
  rw [enroll]
  split
  · exact (calls_ask trivial).bind fun _ ↦ (calls_logFailure _ _ _).bind fun _ ↦ calls_pure _
  · exact calls_pure _

theorem not_yields_leave {code : Int} {a : α} : ¬ Yields (leave code) s t a s' :=
  fun h ↦ final_leave code s t _ h

theorem not_yields_carryOut {c : Command} {p : Redirect.Prepared} {a : α} :
    ¬ Yields (carryOut c p) s t a s' := by
  intro h
  obtain ⟨_, _, applied, _, -, -, h⟩ := yields_bind.1 h
  cases applied with
  | error f =>
    obtain ⟨_, _, _, _, -, -, h⟩ := yields_bind.1 h
    exact not_yields_leave h
  | ok _ =>
    simp only at h
    split at h
    · obtain ⟨_, _, status, _, -, -, h⟩ := yields_bind.1 h
      obtain ⟨_, _, _, _, -, -, h⟩ := yields_bind.1 h
      exact not_yields_leave h
    · obtain ⟨_, _, f, _, -, -, h⟩ := yields_bind.1 h
      obtain ⟨_, _, _, _, -, -, h⟩ := yields_bind.1 h
      exact not_yields_leave h

theorem final_runChild {c : Command} {st : Stage} {p : Redirect.Prepared} :
    Final (runChild c st p : Act α) := by
  intro s t r h
  obtain ⟨_, _, ⟨made, s₁⟩, -, hwork, h⟩ := Sys.runs_bind.1 h
  cases made with
  | ok b =>
    obtain ⟨_, _, _, _, -, -, hout⟩ := yields_bind.1 hwork
    exact not_yields_carryOut hout
  | error d =>
    exact steady_flush.final (fun _ ↦ final_leave brokenCode) _ _ _ h

theorem yields_forkStage {c : Command} {st : Stage} {p : Redirect.Prepared} {next : Option Int}
    {r : Except Failure Int} (h : Yields (forkStage c st p next) s t r s') :
    (∃ pid, r = .ok pid ∧ forked t = [pid]) ∨ (∃ f, r = .error f) ∧ forked t = [] := by
  obtain ⟨u, v, answer, s₁, rfl, hfork, hnext⟩ := yields_bind.1 h
  obtain rfl := Sys.runs_ask.1 (yields_system.1 hfork).1
  match answer with
  | .error e =>
    obtain ⟨rfl, rfl, -⟩ := yields_pure.1 hnext
    exact .inr ⟨⟨_, rfl⟩, rfl⟩
  | .ok (.parent pid) =>
    obtain ⟨rfl, rfl, -⟩ := yields_pure.1 hnext
    exact .inl ⟨pid, rfl, rfl⟩
  | .ok .child =>
    obtain ⟨_, _, _, _, -, -, hchild⟩ := yields_bind.1 hnext
    exact (final_runChild _ _ _ hchild).elim

theorem processes_enroll {spawned spawned' : Spawned} {c : Command} {jobControl : Bool} {pid : Int}
    (h : Yields (enroll spawned c jobControl pid) s t spawned' s') :
    spawned'.processes = spawned.processes ++ [⟨pid, c.text, .running⟩] := by
  rw [enroll] at h
  cases jobControl with
  | false =>
    obtain ⟨-, rfl, -⟩ := yields_pure.1 h
    rfl
  | true =>
    obtain ⟨_, _, answer, _, -, -, hlog⟩ := yields_bind.1 h
    obtain ⟨_, _, _, _, -, -, hend⟩ := yields_bind.1 hlog
    obtain ⟨-, rfl, -⟩ := yields_pure.1 hend
    rfl

/-- The processes that are spawned are those that are forked, and all of them run as far as is known. -/
structure Spawns (t : List Event) (before after : Spawned) : Prop where
  pids : after.processes.map (·.pid) = before.processes.map (·.pid) ++ forked t
  fresh : (∀ p ∈ before.processes, p.status = .running) → ∀ p ∈ after.processes, p.status = .running

theorem Spawns.forked_eq {after : Spawned} (h : Spawns t {} after) :
    forked t = after.processes.map (·.pid) := h.pids.symm

theorem Spawns.started {after : Spawned} (h : Spawns t {} after) : ∀ p ∈ after.processes, p.status = .running :=
  h.fresh fun _ hp ↦ absurd hp List.not_mem_nil

theorem Spawns.running {after : Spawned} (h : Spawns t {} after) : ∀ p ∈ after.processes, p.isCompleted = false := by
  intro p hp
  rw [Process.isCompleted, h.started p hp]

theorem Spawns.of_quiet {spawned : Spawned} (h : forked t = []) : Spawns t spawned spawned :=
  ⟨by rw [h, List.append_nil], id⟩

theorem Spawns.of_enrolled {u : List Event} {before between after : Spawned} {pid : Int} {text : String}
    (h : Spawns u between after)
    (henrolled : between.processes = before.processes ++ [⟨pid, text, .running⟩])
    (ht : forked t = pid :: forked u) : Spawns t before after where
  pids := by rw [h.pids, henrolled, ht]; simp
  fresh := by
    intro hbefore
    refine h.fresh fun p hp ↦ ?_
    rw [henrolled] at hp
    rcases List.mem_append.1 hp with hp | hp
    · exact hbefore p hp
    · obtain rfl : p = ⟨pid, text, .running⟩ := by simpa using hp
      rfl

theorem Spawns.of_given_up {x : Act Unit} {v : List Event} {spawned spawned' : Spawned} {f : Failure}
    {r : Except Failure Unit} {n : Nat} (hx : Quiet x)
    (h : Yields (x >>= fun _ ↦ pure (.error f, spawned)) s v (r, spawned') s') (ht : forked t = forked v) :
    Spawns t spawned spawned' ∧ (r = .ok () → (forked t).length = n) := by
  obtain ⟨_, _, _, _, -, hend, hv⟩ := hx.next h
  obtain ⟨rfl, heq, -⟩ := yields_pure.1 hend
  cases heq
  exact ⟨.of_quiet (ht.trans hv), by rintro ⟨⟩⟩

/-- The processes spawned are those forked; where no stage fails to be started, there is one for each. -/
theorem yields_spawnStages {foreground jobControl : Bool} {spawned spawned' : Spawned}
    {input : Option Int} {p : Pipeline} {r : Except Failure Unit}
    (h : Yields (spawnStages foreground jobControl spawned input p) s t (r, spawned') s') :
    Spawns t spawned spawned' ∧ (r = .ok () → (forked t).length = p.length) := by
  induction p generalizing spawned input s t with
  | nil =>
    obtain ⟨_, _, _, _, -, hend, hv⟩ := (quiet_releaseAll [input]).next h
    obtain ⟨rfl, heq, -⟩ := yields_pure.1 hend
    cases heq
    exact ⟨.of_quiet hv, fun _ ↦ congrArg List.length hv⟩
  | cons c rest ih =>
    obtain ⟨_, v₁, piped, s₁, -, h₁, ht₁⟩ := (calls_pipeTo rest).quiet.next h
    cases piped with
    | error f => exact Spawns.of_given_up (quiet_releaseAll [input]) h₁ ht₁
    | ok ends =>
      obtain ⟨_, v₂, prepared, s₂, -, h₂, ht₂⟩ := (quiet_system (Redirect.every_prepare _)).next h₁
      cases prepared with
      | error f => exact Spawns.of_given_up (quiet_releaseAll _) h₂ (ht₁.trans ht₂)
      | ok prepared =>
        have hrelease := quiet_system (Redirect.every_release prepared)
        obtain ⟨_, v₃, _, s₃, -, h₃, ht₃⟩ := calls_flushBeforeFork.still.quiet.next h₂
        have ht := ht₁.trans (ht₂.trans ht₃)
        obtain ⟨u, v₄, answer, s₄, rfl, hfork, h₄⟩ := yields_bind.1 h₃
        rw [forked_append] at ht
        -- all but the fork itself is quiet, so that it alone counts for the children
        obtain ⟨pid, rfl, hu⟩ | ⟨⟨f, rfl⟩, hu⟩ := yields_forkStage hfork
        · obtain ⟨_, v₅, between, s₅, henroll, h₅, ht₅⟩ := (calls_enroll _ _ _ _).still.quiet.next h₄
          obtain ⟨_, v₆, _, s₆, -, h₆, ht₆⟩ := (quiet_releaseAll _).next h₅
          obtain ⟨_, v₇, _, s₇, -, h₇, ht₇⟩ := hrelease.next h₆
          obtain ⟨_, v₈, _, s₈, -, h₈, ht₈⟩ := (quiet_releaseAll _).next h₇
          have hone : forked t = pid :: forked v₈ := by
            rw [ht, hu, ht₅, ht₆, ht₇, ht₈]
            rfl
          obtain ⟨hspawns, hlength⟩ := ih h₈
          exact ⟨hspawns.of_enrolled (processes_enroll henroll) hone, fun hr ↦ by
            rw [hone, List.length_cons, hlength hr, List.length_cons]⟩
        · obtain ⟨_, v₅, _, s₅, -, h₅, ht₅⟩ := hrelease.next h₄
          rw [hu, List.nil_append] at ht
          exact Spawns.of_given_up (quiet_releaseAll _) h₅ (ht.trans ht₅)

/-- A process has been waited for to its end, or belongs to a job. -/
def Accounted (t : List Event) (s : Shell) (pid : Int) : Prop := Ended t pid ∨ s.Keeps pid

/-- Either the stages have been started, or those that were have been waited for. -/
theorem yields_spawnPipeline {p : Pipeline} {foreground : Bool} {r : Except Failure Spawned}
    (h : Yields (spawnPipeline p foreground).run s t r s') :
    (∃ spawned, r = .ok spawned ∧ Spawns t {} spawned) ∨
      (∃ f, r = .error f) ∧ (Orderly t → ∀ pid ∈ forked t, Ended t pid) := by
  obtain ⟨_, v₁, _, s₁, rfl, hget, h₁⟩ := yields_doing_bind.1 h
  obtain ⟨rfl, rfl, rfl⟩ := yields_pure.1 hget
  obtain ⟨u, v₂, ⟨started, spawned⟩, s₂, rfl, hstages, h₂⟩ := yields_doing_bind.1 h₁
  obtain ⟨hspawns, -⟩ := yields_spawnStages hstages
  rw [List.nil_append]
  cases started with
  | ok _ =>
    obtain ⟨rfl, rfl, rfl⟩ := yields_pure.1 h₂
    rw [List.append_nil]
    refine .inl ⟨_, rfl, ?_⟩
    split
    · exact hspawns
    · exact ⟨hspawns.pids, hspawns.fresh⟩
  | error f =>
    obtain ⟨v₃, v₄, _, s₃, rfl, hcleanup, h₃⟩ := yields_doing_bind.1 h₂
    obtain ⟨rfl, rfl, rfl⟩ := yields_pure.1 h₃
    obtain ⟨w, x, ⟨waited, ps⟩, s₄, rfl, hwait, hlog⟩ := yields_bind.1 hcleanup
    obtain ⟨hawaited, hsettled⟩ := Process.runs_awaitAll (yields_system.1 hwait).1
    have hquiet : forked (w ++ x) = [] := by
      rw [forked_append, (still_system (Process.only_awaitAll _ _)).quiet _ _ _ _ hwait,
        (still_logFailure _ _ _).quiet _ _ _ _ hlog]
      rfl
    have hw : w ⊆ u ++ (w ++ x ++ []) := fun e he ↦ by simp [he]
    refine .inr ⟨⟨f, rfl⟩, fun ho pid hpid ↦ ?_⟩
    rw [List.append_nil, forked_append, hquiet, List.append_nil] at hpid
    rw [hspawns.forked_eq] at hpid
    obtain ⟨q, hq, rfl⟩ := List.mem_map.1 hpid
    have hcompleted : ∀ q ∈ ps, q.isCompleted := by
      intro q hq
      simpa [Process.settled] using (hsettled (ho.mono hw)).2 q hq
    exact (Process.ended_of_awaited hawaited hspawns.running hcompleted q hq).mono hw

theorem yields_logFailure {target what : String} {r : Except Failure Unit}
    (h : Yields (logFailure target what r) s t () s') : s' = s ∧ ∀ e ∈ t, e.call.isLending := by
  cases r with
  | ok _ =>
    obtain ⟨rfl, -, rfl⟩ := yields_pure.1 h
    exact ⟨rfl, List.forall_mem_nil _⟩
  | error f =>
    obtain ⟨rfl, rfl⟩ := yields_ask h
    exact ⟨rfl, List.forall_mem_singleton.2 trivial⟩

theorem yields_withTerminal {group : Option Int} {x : Act α} {a : α}
    (h : Yields (withTerminal group x) s t a s') :
    ∃ u, u ⊆ t ∧ Yields x s u a s' ∧ ∀ e ∈ t, e ∈ u ∨ e.call.isLending := by
  cases group with
  | none => exact ⟨t, List.Subset.refl t, h, fun e he ↦ .inl he⟩
  | some g =>
    obtain ⟨_, v₁, own, s₁, rfl, hown, h₁⟩ := yields_bind.1 h
    obtain ⟨rfl, rfl⟩ := yields_ask hown
    obtain ⟨_, v₂, given, s₂, rfl, hgiven, h₂⟩ := yields_bind.1 h₁
    obtain ⟨rfl, rfl⟩ := yields_ask hgiven
    obtain ⟨u₃, v₃, _, s₃, rfl, hlog, h₃⟩ := yields_bind.1 h₂
    obtain ⟨rfl, hu₃⟩ := yields_logFailure hlog
    obtain ⟨u, v₄, s₄, rfl, hx, hafter⟩ := yields_ensuring h₃
    obtain ⟨_, v₅, taken, s₅, rfl, htaken, hlast⟩ := yields_bind.1 hafter
    obtain ⟨rfl, rfl⟩ := yields_ask htaken
    obtain ⟨rfl, hv₅⟩ := yields_logFailure hlast
    refine ⟨u, fun e he ↦ by simp [he], hx, fun e he ↦ ?_⟩
    simp only [List.mem_append, List.mem_singleton] at he
    obtain rfl | rfl | he | he | rfl | he := he
    · exact .inr trivial
    · exact .inr trivial
    · exact .inr (hu₃ e he)
    · exact .inl he
    · exact .inr trivial
    · exact .inr (hv₅ e he)

theorem quiet_followPipeline (p : Pipeline) (spawned : Spawned) : Quiet (followPipeline p spawned) := by
  refine Still.quiet (still_get.bind fun s ↦
    (Still.withTerminal _ (still_system (Process.only_awaitAll _ _))).bind fun ⟨waited, ps⟩ ↦ ?_)
  cases waited with
  | error f => exact still_pure _
  | ok _ =>
    simp only
    split
    · exact still_get.bind fun s ↦ (still_modify _).bind fun _ ↦ (still_log _ _ _).bind fun _ ↦
        still_pure _
    · exact still_pure _

theorem followPipeline_cases {p : Pipeline} {spawned : Spawned} {r : Except Failure ExitStatus}
    (h : Yields (followPipeline p spawned) s t r s') :
    ∃ u waited ps, u ⊆ t ∧ Runs (Process.awaitAll s.isInteractive spawned.processes) u (waited, ps) ∧
      ((∃ f, waited = .error f ∧ r = .error f ∧ s'.jobs = s.jobs) ∨
        waited = .ok () ∧ r = .ok ((ps.getLast?.bind (·.exitStatus?)).getD .success) ∧
          ((ps.any (·.isStopped) ∧ s'.jobs = (s.jobs.register spawned.group p.text p.connector ps).2) ∨
            ps.any (·.isStopped) = false ∧ s'.jobs = s.jobs)) := by
  rw [followPipeline, yields_get_bind] at h
  obtain ⟨u, v, ⟨waited, ps⟩, s₁, rfl, hwait, h₁⟩ := yields_bind.1 h
  obtain ⟨w, hwu, hwork, -⟩ := yields_withTerminal hwait
  obtain ⟨hruns, rfl⟩ := yields_system.1 hwork
  refine ⟨w, waited, ps, fun e he ↦ List.mem_append_left v (hwu he), hruns, ?_⟩
  cases waited with
  | error f =>
    obtain ⟨-, rfl, rfl⟩ := yields_pure.1 h₁
    exact .inl ⟨f, rfl, rfl, rfl⟩
  | ok _ =>
    simp only at h₁
    split at h₁
    · next hstopped =>
      rw [yields_get_bind] at h₁
      obtain ⟨u₁, v₁, _, s₂, rfl, hset, h₂⟩ := yields_bind.1 h₁
      obtain ⟨-, rfl⟩ := yields_modify.1 hset
      obtain ⟨u₂, v₂, _, s₃, rfl, hlog, hend⟩ := yields_bind.1 h₂
      obtain ⟨-, rfl⟩ := yields_system.1 hlog
      obtain ⟨-, rfl, rfl⟩ := yields_pure.1 hend
      exact .inr ⟨rfl, rfl, .inl ⟨hstopped, rfl⟩⟩
    · next hnone =>
      obtain ⟨-, rfl, rfl⟩ := yields_pure.1 h₁
      exact .inr ⟨rfl, rfl, .inr ⟨by simpa using hnone, rfl⟩⟩

theorem yields_followPipeline {p : Pipeline} {spawned : Spawned} {r : Except Failure ExitStatus}
    (h : Yields (followPipeline p spawned) s t r s') (ho : Orderly t)
    (hrunning : ∀ q ∈ spawned.processes, q.isCompleted = false) :
    ∀ q ∈ spawned.processes, Accounted t s' q.pid := by
  obtain ⟨u, waited, ps, hut, hruns, hnext⟩ := followPipeline_cases h
  obtain ⟨hawaited, hsettled⟩ := Process.runs_awaitAll hruns
  obtain ⟨rfl, hps⟩ := hsettled (ho.mono hut)
  obtain ⟨_, ⟨⟩, -⟩ | ⟨-, -, ⟨-, hjobs⟩ | ⟨hnone, -⟩⟩ := hnext
  · -- a process has stopped, and all of them make up a job
    intro q hq
    have hpid := List.mem_map_of_mem (f := (·.pid)) hq
    rw [← Process.pids_of_awaited hawaited] at hpid
    obtain ⟨x, hx, hpid⟩ := List.mem_map.1 hpid
    exact .inr (hpid ▸ keeps_of_register hjobs hx)
  · have hdone : ∀ q ∈ ps, q.isCompleted ∨ s.isInteractive ∧ q.isStopped :=
      fun q hq ↦ Process.isCompleted_or_isStopped (hps q hq)
    exact fun q hq ↦ .inl ((Process.ended_of_unstopped hawaited hrunning hdone hnone q hq).mono hut)

theorem not_yields_giveUp {d : Defect} {a : α} : ¬ Yields (giveUp d) s t a s' := by
  intro h
  rw [giveUp, yields_get_bind] at h
  split at h
  · obtain ⟨_, v, _, s₁, -, -, h⟩ := yields_bind.1 h
    obtain ⟨-, ⟨⟩⟩ := Sys.runs_pure.1 h
  · obtain ⟨-, ⟨⟩⟩ := Sys.runs_pure.1 h

theorem yields_complain {text : String} (h : Yields (complain text) s t () s') : s' = s := by
  obtain ⟨u, v, ⟨r, left⟩, s₁, rfl, hwrite, hend⟩ := yields_bind.1 h
  obtain ⟨-, rfl⟩ := yields_system.1 hwrite
  cases r with
  | ok _ => exact (yields_pure.1 hend).2.2
  | error e =>
    simp only at hend
    split at hend
    · exact (yields_pure.1 hend).2.2
    · exact (not_yields_giveUp hend).elim

theorem quiet_runInShell (b : Builtin) (c : Command) : Quiet (runInShell b c) := by
  refine (quiet_system (Redirect.every_prepare _)).bind fun prepared ↦ ?_
  cases prepared with
  | error f => exact quiet_pure _
  | ok p =>
    refine (quiet_system (Redirect.every_saveFrom _ _)).bind fun ⟨saved?, saved⟩ ↦ ?_
    refine Quiet.ensuring ?_ ?_
    · cases saved? with
      | error f => exact quiet_pure _
      | ok _ =>
        refine (quiet_system (Redirect.every_apply p)).bind fun applied ↦ ?_
        cases applied with
        | error f => exact (still_report f).quiet.bind fun _ ↦ quiet_pure _
        | ok _ => exact ((still_runBuiltin b _).map _).quiet
    · refine Quiet.bind ?_ fun _ ↦ quiet_system (Redirect.every_release p)
      exact still_flush.quiet.bind fun _ ↦ (still_logFailure _ _ _).quiet.bind fun _ ↦
        quiet_system (Redirect.every_restore saved)

theorem accounted_startAndFollow {p : Pipeline} {r : Except Failure ExitStatus}
    (h : Yields (do
      match ← (spawnPipeline p true).run with
      | .error f => pure (.error f)
      | .ok spawned => followPipeline p spawned) s t r s') (ho : Orderly t) :
    ∀ pid ∈ forked t, Accounted t s' pid := by
  obtain ⟨u, v, started, s₁, rfl, hspawn, hnext⟩ := yields_bind.1 h
  obtain ⟨spawned, rfl, hspawns⟩ | ⟨⟨f, rfl⟩, hended⟩ := yields_spawnPipeline hspawn
  · intro pid hpid
    rw [forked_append, quiet_followPipeline _ _ _ _ _ _ hnext, List.append_nil,
      hspawns.forked_eq] at hpid
    obtain ⟨q, hq, rfl⟩ := List.mem_map.1 hpid
    have hv : v ⊆ u ++ v := List.subset_append_right u v
    exact (yields_followPipeline hnext (ho.mono hv) hspawns.running q hq).imp_left (·.mono hv)
  · obtain ⟨rfl, rfl, rfl⟩ := yields_pure.1 hnext
    rw [List.append_nil] at ho ⊢
    exact fun pid hpid ↦ .inl (hended ho pid hpid)

theorem accounted_launchForeground {p : Pipeline} {r : Except Failure ExitStatus}
    (h : Yields (launchForeground p) s t r s') (ho : Orderly t) :
    ∀ pid ∈ forked t, Accounted t s' pid := by
  unfold launchForeground at h
  simp only at h
  split at h
  · split at h
    · -- a builtin is all of the pipeline
      rw [quiet_runInShell _ _ _ _ _ _ h]
      exact fun pid hpid ↦ nomatch hpid
    · exact accounted_startAndFollow h ho
  · exact accounted_startAndFollow h ho

theorem accounted_launchBackground {p : Pipeline} {r : Except Failure JobId}
    (h : Yields (launchBackground p) s t r s') (ho : Orderly t) :
    ∀ pid ∈ forked t, Accounted t s' pid := by
  obtain ⟨u, v, started, s₁, rfl, hspawn, hnext⟩ := yields_bind.1 h
  obtain ⟨spawned, rfl, hspawns⟩ | ⟨⟨f, rfl⟩, hended⟩ := yields_spawnPipeline hspawn
  · simp only at hnext
    rw [yields_get_bind] at hnext
    obtain ⟨u₁, v₁, _, s₂, rfl, hset, h₁⟩ := yields_bind.1 hnext
    obtain ⟨rfl, rfl⟩ := yields_modify.1 hset
    have htold : forked v₁ = [] ∧ s'.jobs =
        (s₁.jobs.register spawned.group p.text p.connector spawned.processes).2 := by
      rw [yields_get_bind] at h₁
      split at h₁
      · split at h₁
        · obtain ⟨u₂, v₂, _, s₃, rfl, htell, hend⟩ := yields_bind.1 h₁
          obtain ⟨rfl, -, rfl⟩ := yields_pure.1 hend
          obtain rfl := yields_complain htell
          exact ⟨by rw [List.append_nil, (still_complain _).quiet _ _ _ _ htell], rfl⟩
        · obtain ⟨rfl, -, rfl⟩ := yields_pure.1 h₁
          exact ⟨rfl, rfl⟩
      · obtain ⟨rfl, -, rfl⟩ := yields_pure.1 h₁
        exact ⟨rfl, rfl⟩
    intro pid hpid
    rw [forked_append, List.nil_append, htold.1, List.append_nil, hspawns.forked_eq] at hpid
    obtain ⟨q, hq, rfl⟩ := List.mem_map.1 hpid
    exact .inr (keeps_of_register htold.2 hq)
  · obtain ⟨rfl, rfl, rfl⟩ := yields_pure.1 hnext
    rw [List.append_nil] at ho ⊢
    exact fun pid hpid ↦ .inl (hended ho pid hpid)

/-- When a launch comes back, each process that it has forked has been waited for to its end or belongs
to a job of the shell, wherever the launch has failed, unless the failure is that of a wait. -/
theorem launch_loses_no_child (ho : Orderly t) :
    (∀ p r, Yields (launchForeground p) s t r s' → ∀ pid ∈ forked t, Accounted t s' pid) ∧
      ∀ p r, Yields (launchBackground p) s t r s' → ∀ pid ∈ forked t, Accounted t s' pid :=
  ⟨fun _ _ h ↦ accounted_launchForeground h ho, fun _ _ h ↦ accounted_launchBackground h ho⟩

theorem launch_loses_no_child_unforked :
    let s : Shell := { history := ⟨0, [], 0⟩, config := .script, isInteractive := false }
    let t : List Event := [⟨.pipe, .ok (3, 4)⟩, ⟨.fork, .ok (.parent 11)⟩, ⟨.close 4, .ok ()⟩,
      ⟨.fork, .error .tryAgain⟩, ⟨.close 3, .ok ()⟩, ⟨.wait 11 {}, .error .interrupted⟩,
      ⟨.wait 11 {}, .ok (11, .exited 0)⟩]
    Orderly t ∧
      Yields (launchForeground [⟨.piped, ["a"], []⟩, ⟨.single, ["b"], []⟩]) s t
        (.error (.forkFailed .tryAgain)) s ∧
      forked t = [11] ∧ Accounted t s 11 := by
  intro s t
  have ho : Orderly t := by
    intro pid flags e he
    have hwait : (pid = 11 ∧ flags = {}) ∧ e = .interrupted := by simpa [t] using he
    exact .inl hwait.2
  have h : Yields (launchForeground [⟨.piped, ["a"], []⟩, ⟨.single, ["b"], []⟩]) s t
      (.error (.forkFailed .tryAgain)) s :=
    .call (.call (.call (.call (.call (.call (.call (.done _)))))))
  exact ⟨ho, h, rfl, (launch_loses_no_child ho).1 _ _ h 11 (List.mem_singleton_self _)⟩

/-- The wait for the first stage fails, which leaves the second to itself. -/
theorem launch_loses_child :
    ¬ ∀ (p : Pipeline) (s s' : Shell) (t : List Event) (r : Except Failure ExitStatus),
      Yields (launchForeground p) s t r s' → ∀ pid ∈ forked t, Accounted t s' pid := by
  intro hall
  let s : Shell := { history := ⟨0, [], 0⟩, config := .script, isInteractive := false }
  let t : List Event := [⟨.pipe, .ok (3, 4)⟩, ⟨.fork, .ok (.parent 11)⟩, ⟨.close 4, .ok ()⟩,
    ⟨.fork, .ok (.parent 12)⟩, ⟨.close 3, .ok ()⟩, ⟨.wait 11 {}, .error .invalid⟩]
  have h : Yields (launchForeground [⟨.piped, ["a"], []⟩, ⟨.single, ["b"], []⟩]) s t
      (.error (.system .invalid)) s :=
    .call (.call (.call (.call (.call (.call (.done _))))))
  have h12 : (12 : Int) ∈ forked t := by decide
  rcases hall _ _ _ _ _ h 12 h12 with ⟨flags, reply, hmem, -⟩ | ⟨j, hj, -⟩
  · simp [t] at hmem
  · cases hj

end Shell

end JobShell

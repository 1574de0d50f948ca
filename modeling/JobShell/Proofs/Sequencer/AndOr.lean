import JobShell.Proofs.Sequencer.Cutting
import JobShell.Sequencer

namespace JobShell.Sequencer

/-- An and-or list: `x && p` and `x || p` associate to the left. -/
inductive AndOr
  | pipeline (p : Pipeline)
  | andThen (x : AndOr) (p : Pipeline)
  | orElse (x : AndOr) (p : Pipeline)

/-- The and-or lists of these pipelines, of which `x`, with `k` after it, has been read. It goes on
behind `&&` and `||`, and ends at any other connector. -/
def andOrsFrom (x : AndOr) (k : Connector) : List Pipeline → List AndOr
  | [] => [x]
  | p :: ps =>
    match k with
    | .and => andOrsFrom (x.andThen p) p.connector ps
    | .or => andOrsFrom (x.orElse p) p.connector ps
    | _ => x :: andOrsFrom (.pipeline p) p.connector ps

def andOrs : List Pipeline → List AndOr
  | [] => []
  | p :: ps => andOrsFrom (.pipeline p) p.connector ps

section Evaluation

variable {m : Type → Type} [Monad m] (l : Launcher m)

def AndOr.eval : AndOr → m ExitStatus
  | pipeline p => launch l p
  | andThen x p => do
    let status ← x.eval
    if status.isSuccess then launch l p else pure status
  | orElse x p => do
    let status ← x.eval
    if status.isSuccess then pure status else launch l p

def evalAll : ExitStatus → List AndOr → m ExitStatus
  | status, [] => pure status
  | _, x :: xs => do
    let status ← x.eval l
    evalAll status xs

theorem runFrom_cons (k : Connector) (status : ExitStatus) (p : Pipeline) (ps : List Pipeline) :
    runFrom l k status (p :: ps) =
      (if admits k status then launch l p else pure status) >>= fun status ↦
        runFrom l p.connector status ps := by
  rw [runFrom]
  split <;> rfl

variable [LawfulMonad m]

/-- The connector and the status are all that the rest of a list needs to know of the and-or list
under way. -/
theorem evalAll_andOrsFrom (x : AndOr) (k : Connector) (ps : List Pipeline) (status : ExitStatus) :
    evalAll l status (andOrsFrom x k ps) = x.eval l >>= fun status ↦ runFrom l k status ps := by
  induction ps generalizing x k status with
  | nil => simp only [andOrsFrom, evalAll, runFrom]
  | cons p ps ih =>
    cases k with
    | and =>
      simp only [andOrsFrom, ih, AndOr.eval, bind_assoc, runFrom_cons]
      rfl
    | or =>
      simp only [andOrsFrom, ih, AndOr.eval, bind_assoc, runFrom_cons]
      refine bind_congr fun status ↦ ?_
      cases hst : status.isSuccess <;> simp [admits, hst]
    | _ => simp only [andOrsFrom, evalAll, ih, AndOr.eval, runFrom_cons, admits, if_true]

theorem run_eq_evalAll (list : CommandList) :
    run l list = evalAll l .success (andOrs list.pipelines) := by
  unfold run
  cases list.pipelines with
  | nil => rfl
  | cons p ps => exact (evalAll_andOrsFrom l (.pipeline p) p.connector ps .success).symm

end Evaluation

inductive Mode
  | foreground
  | background
  deriving DecidableEq, Repr

structure Launch where
  mode : Mode
  pipeline : Pipeline
  deriving DecidableEq, Repr

def recorded {m : Type → Type} [Monad m] (l : Launcher m) : Launcher (StateT (List Launch) m) where
  foreground p := do
    modify (· ++ [⟨.foreground, p⟩])
    l.foreground p
  background p := do
    modify (· ++ [⟨.background, p⟩])
    l.background p
  report f := l.report f

variable {σ : Type} (l : Launcher (StateM σ))

/-- Launching a pipeline from one state of the launcher to another: the call and the status. -/
inductive Starts (p : Pipeline) (s : σ) : Launch → ExitStatus → σ → Prop
  | foreground {status : ExitStatus} {t : σ} :
      p.connector ≠ .background → (l.foreground p).run s = (.ok status, t) →
      Starts p s ⟨.foreground, p⟩ status t
  | background {job : Nat} {t : σ} :
      p.connector = .background → (l.background p).run s = (.ok job, t) →
      Starts p s ⟨.background, p⟩ (.ofCode 0) t
  | foregroundFailed {f : Failure} {t u : σ} :
      p.connector ≠ .background → (l.foreground p).run s = (.error f, t) →
      (l.report f).run t = ((), u) → Starts p s ⟨.foreground, p⟩ (.ofCode 1) u
  | backgroundFailed {f : Failure} {t u : σ} :
      p.connector = .background → (l.background p).run s = (.error f, t) →
      (l.report f).run t = ((), u) → Starts p s ⟨.background, p⟩ (.ofCode 1) u

/-- Running an and-or list: the calls in their order, and the status. -/
inductive AndOr.Runs : AndOr → σ → List Launch → ExitStatus → σ → Prop
  | pipeline {p : Pipeline} {s t : σ} {call : Launch} {status : ExitStatus} :
      Starts l p s call status t → Runs (.pipeline p) s [call] status t
  | andThen {x : AndOr} {p : Pipeline} {s t u : σ} {calls : List Launch} {call : Launch}
      {status status' : ExitStatus} :
      Runs x s calls status t → status.isSuccess → Starts l p t call status' u →
      Runs (x.andThen p) s (calls ++ [call]) status' u
  | andSkip {x : AndOr} {p : Pipeline} {s t : σ} {calls : List Launch} {status : ExitStatus} :
      Runs x s calls status t → ¬status.isSuccess → Runs (x.andThen p) s calls status t
  | orElse {x : AndOr} {p : Pipeline} {s t u : σ} {calls : List Launch} {call : Launch}
      {status status' : ExitStatus} :
      Runs x s calls status t → ¬status.isSuccess → Starts l p t call status' u →
      Runs (x.orElse p) s (calls ++ [call]) status' u
  | orSkip {x : AndOr} {p : Pipeline} {s t : σ} {calls : List Launch} {status : ExitStatus} :
      Runs x s calls status t → status.isSuccess → Runs (x.orElse p) s calls status t

/-- Running and-or lists one after another; the status is that of the last. -/
inductive RunsAll : ExitStatus → List AndOr → σ → List Launch → ExitStatus → σ → Prop
  | nil {status : ExitStatus} {s : σ} : RunsAll status [] s [] status s
  | cons {x : AndOr} {xs : List AndOr} {s t u : σ} {calls calls' : List Launch}
      {before status status' : ExitStatus} :
      x.Runs l s calls status t → RunsAll status xs t calls' status' u →
      RunsAll before (x :: xs) s (calls ++ calls') status' u

variable {l}

def runNoting {α : Type} (x : StateT (List Launch) (StateM σ) α) (s : σ) (calls : List Launch) :
    α × List Launch × σ :=
  let r := (x.run calls).run s
  (r.1.1, r.1.2, r.2)

@[simp] theorem runNoting_pure {α : Type} (a : α) (s : σ) (calls : List Launch) :
    runNoting (pure a) s calls = (a, calls, s) := rfl

theorem runNoting_bind {α β : Type} (x : StateT (List Launch) (StateM σ) α)
    (f : α → StateT (List Launch) (StateM σ) β) (s : σ) (calls : List Launch) :
    runNoting (x >>= f) s calls =
      runNoting (f (runNoting x s calls).1) (runNoting x s calls).2.2 (runNoting x s calls).2.1 := rfl

theorem runNoting_foreground (p : Pipeline) (s : σ) (calls : List Launch) :
    runNoting ((recorded l).foreground p) s calls =
      (((l.foreground p).run s).1, calls ++ [⟨.foreground, p⟩], ((l.foreground p).run s).2) := rfl

theorem runNoting_background (p : Pipeline) (s : σ) (calls : List Launch) :
    runNoting ((recorded l).background p) s calls =
      (((l.background p).run s).1, calls ++ [⟨.background, p⟩], ((l.background p).run s).2) := rfl

theorem runNoting_report (f : Failure) (s : σ) (calls : List Launch) :
    runNoting ((recorded l).report f) s calls = ((), calls, ((l.report f).run s).2) := rfl

theorem Starts.runNoting {p : Pipeline} {s t : σ} {call : Launch} {status : ExitStatus}
    (h : Starts l p s call status t) (calls : List Launch) :
    runNoting (launch (recorded l) p) s calls = (status, calls ++ [call], t) := by
  cases h with
  | foreground hp hl =>
    simp only [launch, hp, if_false, runNoting_bind, runNoting_foreground, hl, runNoting_pure]
  | background hp hl =>
    simp only [launch, hp, if_true, runNoting_bind, runNoting_background, hl, runNoting_pure]
    rfl
  | foregroundFailed hp hl hr =>
    simp only [launch, hp, if_false, runNoting_bind, runNoting_foreground, hl, runNoting_report, hr,
      runNoting_pure]
    rfl
  | backgroundFailed hp hl hr =>
    simp only [launch, hp, if_true, runNoting_bind, runNoting_background, hl, runNoting_report, hr,
      runNoting_pure]
    rfl

variable (l) in
theorem exists_starts (p : Pipeline) (s : σ) : ∃ call status t, Starts l p s call status t := by
  by_cases hp : p.connector = .background
  · cases hl : (l.background p).run s with
    | mk r t =>
      cases r with
      | ok job => exact ⟨_, _, _, .background hp hl⟩
      | error f => exact ⟨_, _, _, .backgroundFailed hp hl rfl⟩
  · cases hl : (l.foreground p).run s with
    | mk r t =>
      cases r with
      | ok status => exact ⟨_, _, _, .foreground hp hl⟩
      | error f => exact ⟨_, _, _, .foregroundFailed hp hl rfl⟩

theorem AndOr.Runs.runNoting {x : AndOr} {s t : σ} {calls : List Launch} {status : ExitStatus}
    (h : x.Runs l s calls status t) (before : List Launch) :
    runNoting (x.eval (recorded l)) s before = (status, before ++ calls, t) := by
  induction h generalizing before with
  | pipeline hp => exact hp.runNoting before
  | andThen _ hst hp ih =>
    rw [AndOr.eval, runNoting_bind, ih, if_pos hst, hp.runNoting, List.append_assoc]
  | andSkip _ hst ih =>
    rw [AndOr.eval, runNoting_bind, ih, if_neg hst, runNoting_pure]
  | orElse _ hst hp ih =>
    rw [AndOr.eval, runNoting_bind, ih, if_neg hst, hp.runNoting, List.append_assoc]
  | orSkip _ hst ih =>
    rw [AndOr.eval, runNoting_bind, ih, if_pos hst, runNoting_pure]

variable (l) in
theorem AndOr.exists_runs (x : AndOr) (s : σ) : ∃ calls status t, x.Runs l s calls status t := by
  induction x with
  | pipeline p =>
    obtain ⟨call, status, t, h⟩ := exists_starts l p s
    exact ⟨_, _, _, .pipeline h⟩
  | andThen x p ih =>
    obtain ⟨calls, status, t, h⟩ := ih
    by_cases hst : status.isSuccess
    · obtain ⟨call, status', u, hp⟩ := exists_starts l p t
      exact ⟨_, _, _, h.andThen hst hp⟩
    · exact ⟨_, _, _, h.andSkip hst⟩
  | orElse x p ih =>
    obtain ⟨calls, status, t, h⟩ := ih
    by_cases hst : status.isSuccess
    · exact ⟨_, _, _, h.orSkip hst⟩
    · obtain ⟨call, status', u, hp⟩ := exists_starts l p t
      exact ⟨_, _, _, h.orElse hst hp⟩

theorem RunsAll.runNoting {xs : List AndOr} {s t : σ} {calls : List Launch}
    {before status : ExitStatus} (h : RunsAll l before xs s calls status t) (past : List Launch) :
    runNoting (evalAll (recorded l) before xs) s past = (status, past ++ calls, t) := by
  induction h generalizing past with
  | nil => simp only [evalAll, runNoting_pure, List.append_nil]
  | cons hx _ ih => rw [evalAll, runNoting_bind, hx.runNoting, ih, List.append_assoc]

variable (l) in
theorem exists_runsAll (xs : List AndOr) (before : ExitStatus) (s : σ) :
    ∃ calls status t, RunsAll l before xs s calls status t := by
  induction xs generalizing before s with
  | nil => exact ⟨_, _, _, .nil⟩
  | cons x xs ih =>
    obtain ⟨calls, status, t, hx⟩ := x.exists_runs l s
    obtain ⟨calls', status', u, hxs⟩ := ih status t
    exact ⟨_, _, _, .cons hx hxs⟩

theorem run_iff_runsAll_pipelines (l : Launcher (StateM σ)) (list : CommandList) (s t : σ)
    (calls : List Launch) (status : ExitStatus) :
    ((run (recorded l) list).run []).run s = ((status, calls), t) ↔
      RunsAll l .success (andOrs list.pipelines) s calls status t := by
  rw [run_eq_evalAll]
  constructor
  · intro h
    obtain ⟨calls', status', t', hr⟩ := exists_runsAll l (andOrs list.pipelines) .success s
    have he := hr.runNoting []
    simp only [runNoting, h, List.nil_append, Prod.mk.injEq] at he
    obtain ⟨rfl, rfl, rfl⟩ := he
    exact hr
  · intro h
    have he := h.runNoting []
    simp only [runNoting, List.nil_append, Prod.mk.injEq] at he
    obtain ⟨hstatus, hcalls, ht⟩ := he
    exact Prod.ext (Prod.ext hstatus hcalls) ht

/-- A list that can be built falls into whole pipelines. However it is cut into such pieces, running it makes the
calls, in order and in kind, that the and-or lists of the pieces make one after another, and gives the status of the
last one, whatever the launcher answers. -/
theorem run_iff_runsAll {cs : List Command} {list : CommandList} (h : CommandList.build cs = .ok list) :
    (∃ ps : List Pipeline, ps.flatten = cs ∧ ∀ p ∈ ps, p.Whole) ∧
      ∀ ps : List Pipeline, ps.flatten = cs → (∀ p ∈ ps, p.Whole) →
        ∀ {σ : Type} (l : Launcher (StateM σ)) (s t : σ) (calls : List Launch) (status : ExitStatus),
          ((run (recorded l) list).run []).run s = ((status, calls), t) ↔
            RunsAll l .success (andOrs ps) s calls status t := by
  refine ⟨⟨list.pipelines, (CommandList.pipelines_eq_iff h _).1 rfl⟩, ?_⟩
  intro ps hflatten hwhole σ l s t calls status
  obtain rfl := (CommandList.pipelines_eq_iff h ps).2 ⟨hflatten, hwhole⟩
  exact run_iff_runsAll_pipelines l list s t calls status

theorem run_iff_runsAll_skipping :
    let c (k : Connector) (word : String) : Command := ⟨k, [word], []⟩
    let cs := [c .piped "a", c .and "b", c .or "c", c .sequential "d", c .background "e"]
    let ps : List Pipeline := [[c .piped "a", c .and "b"], [c .or "c"], [c .sequential "d"], [c .background "e"]]
    let l : Launcher (StateM Nat) :=
      { foreground := fun p ↦ do
          modify (· + 1)
          pure (if p.length = 2 then .error (.forkFailed .tryAgain) else .ok (.ofCode 7))
        background := fun _ ↦ do
          modify (· + 1)
          pure (.ok 1)
        report := fun _ ↦ modify (· + 10) }
    CommandList.build cs = .ok ⟨cs⟩ ∧ ps.flatten = cs ∧ (∀ p ∈ ps, p.Whole) ∧
      RunsAll l .success (andOrs ps) 0
        [⟨.foreground, [c .piped "a", c .and "b"]⟩, ⟨.foreground, [c .sequential "d"]⟩,
          ⟨.background, [c .background "e"]⟩] (.ofCode 0) 13 := by
  intro c cs ps l
  have h : CommandList.build cs = .ok ⟨cs⟩ := rfl
  have hwhole : ∀ p ∈ ps, p.Whole := ((CommandList.pipelines_eq_iff h ps).1 rfl).2
  exact ⟨h, rfl, hwhole, ((run_iff_runsAll h).2 ps rfl hwhole l 0 13 _ _).1 rfl⟩

theorem runFrom_congr {m : Type → Type} [Monad m] {x y : Launcher m} {ps : List Pipeline}
    (hforeground : ∀ p ∈ ps, x.foreground p = y.foreground p)
    (hbackground : ∀ p ∈ ps, x.background p = y.background p) (hreport : x.report = y.report)
    (previous : Connector) (status : ExitStatus) :
    runFrom x previous status ps = runFrom y previous status ps := by
  induction ps generalizing previous status with
  | nil => rfl
  | cons p ps ih =>
    obtain ⟨hp, hps⟩ := List.forall_mem_cons.1 hforeground
    obtain ⟨hp', hps'⟩ := List.forall_mem_cons.1 hbackground
    have hlaunch : launch x p = launch y p := by
      rw [launch, launch, hp, hp', hreport]
    simp only [runFrom_cons, hlaunch, ih hps hps']

theorem Starts.pipeline_eq {σ : Type} {l : Launcher (StateM σ)} {p : Pipeline} {s t : σ} {call : Launch}
    {status : ExitStatus} (h : Starts l p s call status t) : call.pipeline = p := by
  cases h <;> rfl

theorem runNoting_runFrom {σ : Type} (l : Launcher (StateM σ)) (ps : List Pipeline) (previous : Connector)
    (status : ExitStatus) (s : σ) (past : List Launch) :
    ∃ status' calls t, runNoting (runFrom (recorded l) previous status ps) s past = (status', past ++ calls, t) ∧
      ∀ call ∈ calls, call.pipeline ∈ ps := by
  induction ps generalizing previous status s past with
  | nil => exact ⟨status, [], s, by rw [List.append_nil]; rfl, List.forall_mem_nil _⟩
  | cons p ps ih =>
    rw [runFrom_cons, runNoting_bind]
    split
    · obtain ⟨call, status₁, s₁, hstarts⟩ := exists_starts l p s
      obtain ⟨status', calls, t, hruns, hcalls⟩ := ih p.connector status₁ s₁ (past ++ [call])
      refine ⟨status', call :: calls, t, ?_, List.forall_mem_cons.2 ⟨?_, fun c hc ↦ ?_⟩⟩
      · rw [hstarts.runNoting, hruns, List.append_assoc, List.singleton_append]
      · rw [hstarts.pipeline_eq]
        exact List.mem_cons_self
      · exact List.mem_cons_of_mem p (hcalls c hc)
    · obtain ⟨status', calls, t, hruns, hcalls⟩ := ih p.connector status s past
      exact ⟨status', calls, t, hruns, fun c hc ↦ List.mem_cons_of_mem p (hcalls c hc)⟩

/-- A list that can be built falls into whole pipelines in one way only, and it is cut so: none of the pieces is
empty, and together they are the list. So each has a last command, whose connector is that of the piece and not a
pipe. Only whole pipelines are launched: those are the calls that a launcher gets, and whatever it would do about
any others, in whatever kind of work, makes no difference. -/
theorem run_launches_whole_pipelines {cs : List Command} {list : CommandList}
    (h : CommandList.build cs = .ok list) :
    (∀ ps : List Pipeline, ps = list.pipelines ↔ ps.flatten = cs ∧ ∀ p ∈ ps, p.Whole) ∧
      (∀ p ∈ list.pipelines, p ≠ [] ∧
        ∃ c, p[p.length - 1]? = some c ∧ p.connector = c.connector ∧ c.connector ≠ .piped) ∧
      (∀ (σ : Type) (l : Launcher (StateM σ)) (s : σ),
        ∀ call ∈ (((run (recorded l) list).run []).run s).1.2, call.pipeline ∈ list.pipelines ∧ call.pipeline.Whole) ∧
      ∀ (m : Type → Type) [Monad m] (x y : Launcher m), x.report = y.report →
        (∀ p, p.Whole → x.foreground p = y.foreground p ∧ x.background p = y.background p) →
          run x list = run y list := by
  have hwhole := ((CommandList.pipelines_eq_iff h _).1 rfl).2
  refine ⟨CommandList.pipelines_eq_iff h, fun p hp ↦ ⟨?_, (hwhole p hp).exists_last⟩, ?_, ?_⟩
  · obtain ⟨before, last, rfl, -⟩ := hwhole p hp
    exact List.append_ne_nil_of_right_ne_nil before (List.cons_ne_nil last [])
  · intro σ l s call hcall
    obtain ⟨status, calls, t, hruns, hcalls⟩ := runNoting_runFrom l list.pipelines .sequential .success s []
    have hmem : call ∈ calls := by
      have heq : (((run (recorded l) list).run []).run s).1.2 = calls := congrArg (·.2.1) hruns
      exact heq ▸ hcall
    exact ⟨hcalls call hmem, hwhole _ (hcalls call hmem)⟩
  · intro m _ x y hreport hagree
    exact runFrom_congr (fun p hp ↦ (hagree p (hwhole p hp)).1) (fun p hp ↦ (hagree p (hwhole p hp)).2) hreport
      .sequential .success

theorem run_launches_whole_pipelines_of_pipes :
    let c (k : Connector) (word : String) : Command := ⟨k, [word], []⟩
    let cs := [c .piped "a", c .piped "b", c .and "c", c .background "d", c .single "e"]
    CommandList.build cs = .ok ⟨cs⟩ ∧
      CommandList.pipelines ⟨cs⟩ =
        [[c .piped "a", c .piped "b", c .and "c"], [c .background "d"], [c .single "e"]] ∧
      ∀ p ∈ CommandList.pipelines ⟨cs⟩, p.Whole := by
  intro c cs
  have h : CommandList.build cs = .ok ⟨cs⟩ := rfl
  exact ⟨h, rfl, (((run_launches_whole_pipelines h).1 _).1 rfl).2⟩

end JobShell.Sequencer

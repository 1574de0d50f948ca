import JobShell.Proofs.Sequencer.AndOr
import JobShell.Proofs.Shell.Leaving
import JobShell.Proofs.Shell.Resumption
import JobShell.Proofs.Shell.Suspension
import JobShell.Session

namespace JobShell

open Sys (Runs)

namespace Shell

open Builtin

variable {α β : Type} {s s' : Shell} {t : List Event}

def Gives (P : α → Prop) (x : Act α) : Prop := ∀ s t a s', Yields x s t a s' → P a

section Gives

variable {P : α → Prop} {Q : β → Prop}

theorem gives_pure {a : α} (ha : P a) : Gives P (pure a) := by
  intro s t b s' h
  obtain ⟨-, rfl, -⟩ := yields_pure.1 h
  exact ha

theorem Gives.bind {x : Act α} {f : α → Act β} (hx : Gives P x) (hf : ∀ a, P a → Gives Q (f a)) :
    Gives Q (x >>= f) := by
  intro s t b s' h
  obtain ⟨u, v, a, s₁, -, ha, hb⟩ := yields_bind.1 h
  exact hf a (hx s u a s₁ ha) s₁ v b s' hb

theorem gives_after {x : Act α} {f : α → Act β} (hf : ∀ a, Gives Q (f a)) : Gives Q (x >>= f) :=
  Gives.bind (P := fun _ ↦ True) (fun _ _ _ _ _ ↦ trivial) fun a _ ↦ hf a

theorem Gives.ensuring {x : Act α} {after : Act Unit} (hx : Gives P x) : Gives P (ensuring x after) := by
  intro s t a s' h
  obtain ⟨u, v, s₁, -, hmade, -⟩ := yields_ensuring h
  exact hx s u a s₁ hmade

end Gives

def Coded (r : Except Failure ExitStatus) : Prop := ∀ status, r = .ok status → status.HasCode

theorem coded_ok {status : ExitStatus} (h : status.HasCode) : Coded (.ok status) := by
  rintro _ ⟨⟩
  exact h

theorem coded_error (f : Failure) : Coded (.error f) := by
  rintro _ ⟨⟩

theorem hasCode_builtinStatus (r : Except Failure Unit) : (builtinStatus r).HasCode := by
  unfold builtinStatus
  split <;> exact ExitStatus.hasCode_ofCode _

theorem gives_runBuiltin (b : Builtin) (words : List String) : Gives ExitStatus.HasCode (runBuiltin b words) := by
  refine gives_after fun r ↦ ?_
  cases r with
  | ok _ => exact gives_pure (hasCode_builtinStatus _)
  | error f =>
    simp only
    split
    · exact gives_pure (hasCode_builtinStatus _)
    · exact gives_after fun _ ↦ gives_pure (hasCode_builtinStatus _)

theorem gives_runInShell (b : Builtin) (c : Command) : Gives Coded (runInShell b c) := by
  refine gives_after fun prepared ↦ ?_
  cases prepared with
  | error f => exact gives_pure (coded_error f)
  | ok p =>
    refine gives_after fun ⟨saved?, saved⟩ ↦ Gives.ensuring ?_
    cases saved? with
    | error f => exact gives_pure (coded_error f)
    | ok _ =>
      refine gives_after fun applied ↦ ?_
      cases applied with
      | error f => exact gives_after fun _ ↦ gives_pure (coded_ok (ExitStatus.hasCode_ofCode 1))
      | ok _ =>
        rw [← bind_pure_comp]
        exact (gives_runBuiltin b c.arguments).bind fun _ h ↦ gives_pure (coded_ok h)

/-- The status has a code, the one that the last of these processes stands for. -/
structure StatusOf (qs : List Process) (status : ExitStatus) : Prop where
  hasCode : status.HasCode
  last : ∀ q, qs.getLast? = some q → ∃ code, q.status.code? = some code ∧ status.code? = some code

/-- The processes have been waited for, each without fail, and the status is that of the last. -/
def Awaits (t : List Event) (ps : List Process) (status : ExitStatus) : Prop :=
  ∃ untraced u qs, u ⊆ t ∧ Runs (Process.awaitAll untraced ps) u (.ok (), qs) ∧ StatusOf qs status

theorem Awaits.hasCode {ps : List Process} {status : ExitStatus} (h : Awaits t ps status) : status.HasCode :=
  let ⟨_, _, _, _, _, hstatus⟩ := h
  hstatus.hasCode

/-- What a launch comes back with: all that it has forked was running, and has been waited for. -/
def AwaitsForked (t : List Event) (status : ExitStatus) : Prop :=
  ∃ ps, ps.map (·.pid) = forked t ∧ (∀ p ∈ ps, p.status = .running) ∧ Awaits t ps status

theorem statusOf_awaited {untraced : Bool} {ps qs : List Process}
    (h : Runs (Process.awaitAll untraced ps) t (.ok (), qs)) :
    StatusOf qs ((qs.getLast?.bind (·.exitStatus?)).getD .success) := by
  refine ⟨Process.hasCode_last qs, fun q hq ↦ ?_⟩
  have hdone := Process.done_of_settles (Process.settles_of_awaitAll h) q (List.mem_of_getLast? hq)
  obtain ⟨code, hcode⟩ := Process.exists_code (hdone.imp_right And.right)
  exact ⟨code, hcode, Process.code?_last hq hcode⟩

theorem awaits_startAndFollow {p : Pipeline} {status : ExitStatus}
    (h : Yields (do
      match ← (spawnPipeline p true).run with
      | .error f => pure (.error f)
      | .ok spawned => followPipeline p spawned) s t (.ok status) s') : AwaitsForked t status := by
  obtain ⟨u, v, started, s₁, rfl, hspawn, hnext⟩ := yields_bind.1 h
  obtain ⟨spawned, rfl, hspawns⟩ | ⟨⟨f, rfl⟩, -⟩ := yields_spawnPipeline hspawn
  · have hforked : forked (u ++ v) = spawned.processes.map (·.pid) := by
      rw [forked_append, quiet_followPipeline _ _ _ _ _ _ hnext, List.append_nil, hspawns.forked_eq]
    obtain ⟨w, waited, qs, hwv, hruns, ⟨f, -, ⟨⟩, -⟩ | ⟨rfl, ⟨⟩, -⟩⟩ := followPipeline_cases hnext
    refine ⟨spawned.processes, hforked.symm, hspawns.started, s₁.isInteractive, w, qs, ?_, hruns,
      statusOf_awaited hruns⟩
    exact fun e he ↦ List.mem_append_right u (hwv he)
  · obtain ⟨-, ⟨⟩, -⟩ := yields_pure.1 hnext

def loneBuiltin? : Pipeline → Option Builtin
  | [c] => Builtin.ofName? c.program
  | _ => none

theorem launchForeground_lone {c : Command} {b : Builtin} (h : Builtin.ofName? c.program = some b) :
    launchForeground [c] = runInShell b c := by
  simp only [launchForeground, h]

theorem awaits_launchForeground {p : Pipeline} {status : ExitStatus}
    (h : Yields (launchForeground p) s t (.ok status) s') (hp : loneBuiltin? p = none) : AwaitsForked t status := by
  unfold launchForeground at h
  simp only at h
  split at h
  · split at h
    · next hb => exact absurd (hb.symm.trans hp) nofun
    · exact awaits_startAndFollow h
  · exact awaits_startAndFollow h

theorem gives_launchForeground (p : Pipeline) : Gives Coded (launchForeground p) := by
  rintro s t r s' h status rfl
  cases hp : loneBuiltin? p with
  | none =>
    obtain ⟨_, -, -, hawaits⟩ := awaits_launchForeground h hp
    exact hawaits.hasCode
  | some b =>
    unfold loneBuiltin? at hp
    split at hp
    · next c =>
      rw [launchForeground_lone hp] at h
      exact gives_runInShell b c _ _ _ _ h _ rfl
    · cases hp

theorem gives_launch (p : Pipeline) : Gives ExitStatus.HasCode (Sequencer.launch launcher p) := by
  rw [Sequencer.launch]
  split
  · refine gives_after fun r ↦ ?_
    cases r with
    | ok _ => exact gives_pure (ExitStatus.hasCode_ofCode 0)
    | error f => exact gives_after fun _ ↦ gives_pure (ExitStatus.hasCode_ofCode 1)
  · refine (gives_launchForeground p).bind fun r hr ↦ ?_
    cases r with
    | ok status => exact gives_pure (hr status rfl)
    | error f => exact gives_after fun _ ↦ gives_pure (ExitStatus.hasCode_ofCode 1)

theorem gives_runFrom {previous : Connector} {status : ExitStatus} (hstatus : status.HasCode) (ps : List Pipeline) :
    Gives ExitStatus.HasCode (Sequencer.runFrom launcher previous status ps) := by
  induction ps generalizing previous status with
  | nil => exact gives_pure hstatus
  | cons p ps ih =>
    rw [Sequencer.runFrom_cons]
    refine Gives.bind (P := ExitStatus.HasCode) ?_ fun _ h ↦ ih h
    split
    · exact gives_launch p
    · exact gives_pure hstatus

theorem gives_sequence (l : CommandList) : Gives ExitStatus.HasCode (Sequencer.run launcher l) :=
  gives_runFrom (ExitStatus.hasCode_ofCode 0) l.pipelines

variable {id : JobId}

theorem succeeds_waitForJob {untraced : Bool} (h : Succeeds (waitForJob id untraced) s t () s') :
    ∃ j qs, s.jobs.get? id = some j ∧ Runs (Process.awaitAll untraced j.processes) t (.ok (), qs) ∧
      s'.jobs.get? id = some { j with processes := qs } := by
  obtain ⟨_, v, j, s₁, rfl, hjob, hwork⟩ := succeeds_bind.1 h
  obtain ⟨rfl, rfl, ⟨-, _, ⟨⟩⟩ | ⟨_, hj, ⟨⟩⟩⟩ := yields_jobOf hjob
  obtain ⟨u, w, ⟨r, qs⟩, s₂, rfl, hwait, hend⟩ := yields_bind.1 hwork
  obtain ⟨hruns, rfl⟩ := yields_system.1 hwait
  obtain ⟨_, x, _, s₃, rfl, hmodify, hlast⟩ := yields_bind.1 hend
  obtain ⟨rfl, rfl⟩ := yields_modify.1 hmodify
  obtain ⟨rfl, rfl, rfl⟩ := yields_pure.1 hlast
  rw [List.nil_append, List.append_nil, List.append_nil]
  have hget := s₂.jobs.get?_modify id (f := fun j ↦ { j with processes := qs }) fun _ ↦ rfl
  rw [hj, Option.map_some] at hget
  exact ⟨j, qs, hj, hruns, hget⟩

theorem succeeds_resumeJob {live jobControl : Bool} (h : Succeeds (resumeJob id live jobControl) s t () s') :
    ∃ j u qs, s.jobs.get? id = some j ∧ u ⊆ t ∧ Runs (Process.awaitAll jobControl j.processes) u (.ok (), qs) ∧
      s'.jobs.get? id = some { j with processes := qs } := by
  rw [resumeJob] at h
  split at h
  · obtain ⟨u, v, _, s₁, rfl, hsignal, hwait⟩ := succeeds_bind.1 h
    obtain ⟨-, rfl⟩ := yields_signalJob hsignal
    obtain ⟨j, qs, hj, hruns, hleft⟩ := succeeds_waitForJob hwait
    exact ⟨j, v, qs, hj, List.subset_append_right u v, hruns, hleft⟩
  · obtain ⟨j, qs, hj, hruns, hleft⟩ := succeeds_waitForJob h
    exact ⟨j, t, qs, hj, List.Subset.refl t, hruns, hleft⟩

theorem awaits_putInForeground {status : ExitStatus} (h : Succeeds (putInForeground id) s t status s') :
    ∃ j, s.jobs.get? id = some j ∧ Awaits t (j.resumed true).processes status := by
  obtain ⟨_, v₁, _, s₁, rfl, hget, h₁⟩ := succeeds_bind.1 h
  obtain ⟨rfl, rfl, rfl⟩ := yields_pure.1 (succeeds_doing.1 hget)
  obtain ⟨_, v₂, j, s₂, rfl, hjob, h₂⟩ := succeeds_bind.1 h₁
  obtain ⟨rfl, rfl, ⟨-, _, ⟨⟩⟩ | ⟨_, hj, ⟨⟩⟩⟩ := yields_jobOf hjob
  obtain ⟨_, v₃, _, s₃, rfl, hmark, h₃⟩ := succeeds_bind.1 h₂
  obtain ⟨rfl, rfl⟩ := yields_modify.1 (succeeds_doing.1 hmark)
  obtain ⟨_, v₄, k, s₄, rfl, hmarked, h₄⟩ := succeeds_bind.1 h₃
  obtain ⟨rfl, rfl, ⟨-, _, ⟨⟩⟩ | ⟨_, hk, ⟨⟩⟩⟩ := yields_jobOf hmarked
  obtain ⟨u, v₅, _, s₅, rfl, hlent, h₅⟩ := succeeds_bind.1 h₄
  obtain ⟨w, hwu, hresume, -⟩ := yields_withTerminal hlent
  obtain ⟨k', x, qs, hk', hxw, hruns, hleft⟩ := succeeds_resumeJob hresume
  -- the job that is waited for is the one that has been marked
  have hmarkedJob := s₂.jobs.get?_modify id (f := Job.resumed true) fun _ ↦ rfl
  rw [hj, Option.map_some] at hmarkedJob
  obtain rfl : k' = j.resumed true := Option.some_inj.1 (hk'.symm.trans hmarkedJob)
  obtain ⟨_, v₆, l, s₆, rfl, hsettled, h₆⟩ := succeeds_bind.1 h₅
  obtain ⟨rfl, rfl, ⟨-, _, ⟨⟩⟩ | ⟨_, hl, ⟨⟩⟩⟩ := yields_jobOf hsettled
  obtain ⟨_, v₇, _, s₇, rfl, -, h₇⟩ := succeeds_bind.1 h₆
  obtain ⟨-, rfl, -⟩ := succeeds_pure.1 h₇
  obtain rfl := Option.some_inj.1 (hl.symm.trans hleft)
  refine ⟨j, hj, s₂.isInteractive, x, qs, fun e he ↦ by simp [hwu (hxw he)], hruns, ?_⟩
  exact statusOf_awaited hruns

/-- The result is no failure without words, which stands for a status. -/
def Outspoken (r : Except Failure α) : Prop := ∀ code, r ≠ .error (silent code)

theorem outspoken_ok (a : α) : Outspoken (.ok a) := by
  rintro _ ⟨⟩

theorem outspoken_error {f : Failure} (h : ∀ code, f ≠ silent code) : Outspoken (.error f : Except Failure α) :=
  fun code hr ↦ h code (Except.error.inj hr)

theorem outspoken_system (e : Errno) : Outspoken (.error (.system e) : Except Failure α) :=
  outspoken_error (by rintro _ ⟨⟩)

theorem outspoken_noSuchJob (job : String) : Outspoken (.error (.noSuchJob job) : Except Failure α) :=
  outspoken_error (by rintro _ ⟨⟩)

theorem outspoken_builtin {text : String} {code : Int} (h : text ≠ "") :
    Outspoken (.error (.builtin text code) : Except Failure α) :=
  outspoken_error fun _ hf ↦ h (Failure.builtin.inj hf).1

theorem gives_try_bind {x : Try α} {f : α → Try β} (hx : Gives Outspoken x.run)
    (hf : ∀ a, Gives Outspoken (f a).run) : Gives Outspoken (x >>= f).run := by
  refine Gives.bind hx fun r hr ↦ ?_
  cases r with
  | error f => exact gives_pure (outspoken_error fun code h ↦ hr code (congrArg Except.error h))
  | ok a => exact hf a

theorem gives_doing (x : Act α) : Gives Outspoken (doing x).run := by
  intro s t r s' h
  obtain ⟨a, -, rfl⟩ := yields_map.1 h
  exact outspoken_ok a

theorem outspoken_awaitFor {untraced : Bool} {n : Nat} {p q : Process} {r : Except Failure Unit}
    (h : Runs (p.awaitFor untraced n) t (r, q)) : Outspoken r := by
  induction n generalizing p t with
  | zero => exact absurd h Sys.not_runs_hang
  | succ n ih =>
    obtain ⟨-, -, rfl, -⟩ | ⟨-, flags, reply, u, rfl, ⟨answer, -, hnext⟩ | ⟨-, hnext⟩ |
      ⟨-, level, target, text, v, rfl, hnext⟩ | ⟨e, -, -, -, -, rfl, -⟩⟩ := Process.awaitFor_cases h
    · exact outspoken_ok ()
    · exact ih hnext
    · exact ih hnext
    · exact ih hnext
    · exact outspoken_system e

theorem outspoken_awaitAll {untraced : Bool} {ps qs : List Process} {r : Except Failure Unit}
    (h : Runs (Process.awaitAll untraced ps) t (r, qs)) : Outspoken r := by
  induction ps generalizing t qs with
  | nil =>
    obtain ⟨-, ⟨⟩⟩ := Sys.runs_pure.1 h
    exact outspoken_ok ()
  | cons p ps ih =>
    obtain ⟨f, q, rfl, -, hp⟩ | ⟨u, v, q, qs', -, -, -, hrest⟩ := Process.awaitAll_cases h
    · exact outspoken_awaitFor hp
    · exact ih hrest

theorem outspoken_signal {table : JobTable} {signal : Signal} {r : Except Failure Unit}
    (h : Runs (table.signal id signal) t r) : Outspoken r := by
  rw [JobTable.signal] at h
  split at h
  · obtain ⟨-, rfl⟩ := Sys.runs_pure.1 h
    exact outspoken_noSuchJob _
  · split at h
    · obtain ⟨answer, rest, rfl, hnext⟩ := Sys.runs_ask_bind.1 h
      cases answer with
      | error e =>
        obtain ⟨-, rfl⟩ := Sys.runs_pure.1 hnext
        exact outspoken_system e
      | ok _ =>
        obtain ⟨-, rfl⟩ := Sys.runs_pure.1 hnext
        exact outspoken_ok ()
    · obtain ⟨rfl, -⟩ | ⟨_, _, _, e, -, rfl, -⟩ := JobTable.runs_signalEach h
      · exact outspoken_ok ()
      · exact outspoken_system e

theorem gives_jobOf (id : JobId) : Gives Outspoken (jobOf id).run := by
  refine gives_try_bind (gives_doing _) fun s ↦ ?_
  split
  · exact gives_pure (outspoken_ok _)
  · exact gives_pure (outspoken_noSuchJob _)

theorem gives_waitForJob (id : JobId) (untraced : Bool) : Gives Outspoken (waitForJob id untraced).run := by
  refine gives_try_bind (gives_jobOf id) fun j ↦ ?_
  have hwait : Gives (fun waited : Except Failure Unit × List Process ↦ Outspoken waited.1)
      (system (Process.awaitAll untraced j.processes)) :=
    fun _ _ _ _ h ↦ outspoken_awaitAll (yields_system.1 h).1
  exact hwait.bind fun _ hr ↦ gives_after fun _ ↦ gives_pure hr

theorem gives_resumeJob (id : JobId) (live jobControl : Bool) :
    Gives Outspoken (resumeJob id live jobControl).run := by
  rw [resumeJob]
  split
  · refine gives_try_bind (fun _ _ _ _ h ↦ ?_) fun _ ↦ gives_waitForJob id jobControl
    exact outspoken_signal (yields_signalJob h).1
  · exact gives_waitForJob id jobControl

theorem gives_putInForeground (id : JobId) : Gives Outspoken (putInForeground id).run := by
  refine gives_try_bind (gives_doing _) fun s ↦ gives_try_bind (gives_jobOf id) fun _ ↦
    gives_try_bind (gives_doing _) fun _ ↦ gives_try_bind (gives_jobOf id) fun j ↦
      gives_try_bind (fun _ _ _ _ h ↦ ?_) fun _ ↦ gives_try_bind (gives_jobOf id) fun j ↦
        gives_try_bind (gives_doing _) fun _ ↦ gives_pure (outspoken_ok _)
  obtain ⟨_, -, hresume, -⟩ := yields_withTerminal h
  exact gives_resumeJob _ _ _ _ _ _ _ hresume

theorem gives_named (b : Builtin) (word : Option String) : Gives Outspoken (named b word).run := by
  refine gives_try_bind (gives_doing _) fun s ↦ ?_
  simp only
  split
  · exact gives_pure (outspoken_ok _)
  · exact gives_pure (outspoken_noSuchJob _)

theorem gives_streamFailure (x : Act (Except StreamFault Unit)) : Gives Outspoken (streamFailure <$> x) := by
  intro s t r s' h
  obtain ⟨made, -, rfl⟩ := yields_map.1 h
  cases made with
  | ok _ => exact outspoken_ok ()
  | error f => exact outspoken_error (by rintro _ ⟨⟩)

/-- What comes of passing a status on: there is none, and the failure says why, or a job has been put in the
foreground, and its status is that of the builtin. -/
def Relayed (t : List Event) (r : Except Failure Unit) (s' : Shell) : Prop :=
  (∃ f, r = .error f) ∧ Outspoken r ∨
    ∃ id u v s₁ status, t = u ++ v ∧ Succeeds (putInForeground id) s₁ v status s' ∧
      (builtinStatus r).code? = status.code?

/-- The work passes on the status of a job that it puts in the foreground. -/
def Relays (x : Try Unit) : Prop := ∀ s t r s', Yields x.run s t r s' → Relayed t r s'

theorem relays_bind {x : Try α} {f : α → Try Unit} (hx : Gives Outspoken x.run) (hf : ∀ a, Relays (f a)) :
    Relays (x >>= f) := by
  intro s t r s' h
  obtain ⟨e, rfl, hfails⟩ | ⟨u, v, a, s₁, rfl, -, hnext⟩ := yields_try_bind h
  · exact .inl ⟨⟨e, rfl⟩, outspoken_error fun code he ↦ hx _ _ _ _ hfails code (congrArg Except.error he)⟩
  · obtain hfailed | ⟨id, w, x, s₂, status, rfl, hjob, hcode⟩ := hf a _ _ _ _ hnext
    · exact .inl hfailed
    · exact .inr ⟨id, u ++ w, x, s₂, status, (List.append_assoc u w x).symm, hjob, hcode⟩

theorem relays_when {c : Prop} {_ : Decidable c} {y : Try α} {rest : Try Unit} (hy : Gives Outspoken y.run)
    (hrest : Relays rest) : Relays (if c then y >>= fun _ ↦ rest else rest) := by
  split
  · exact relays_bind hy fun _ ↦ hrest
  · exact hrest

theorem relays_resume (id : JobId) : Relays (do
    let status ← putInForeground id
    match status.code? with
    | some code => if code = 0 then pure () else throw (silent code)
    | none => throw (silent 1)) := by
  intro s t r s' h
  obtain ⟨e, rfl, hfails⟩ | ⟨u, v, status, s₁, rfl, hjob, hend⟩ := yields_try_bind h
  · refine .inl ⟨⟨e, rfl⟩, outspoken_error fun code he ↦ ?_⟩
    exact gives_putInForeground id _ _ _ _ hfails code (congrArg Except.error he)
  · obtain ⟨j, -, hawaits⟩ := awaits_putInForeground hjob
    obtain ⟨code, hcode⟩ := hawaits.hasCode
    obtain ⟨hnonneg, hlt⟩ := ExitStatus.byte_of_code? hcode
    simp only [hcode] at hend
    have hr : v = [] ∧ s' = s₁ ∧ (builtinStatus r).code? = some code := by
      split at hend
      · next hzero =>
        obtain ⟨rfl, rfl, rfl⟩ := yields_pure.1 hend
        exact ⟨rfl, rfl, hzero ▸ ExitStatus.code?_ofCode 0⟩
      · obtain ⟨rfl, rfl, rfl⟩ := yields_pure.1 hend
        refine ⟨rfl, rfl, (ExitStatus.code?_ofCode code).trans (congrArg some ?_)⟩
        exact Int.emod_eq_of_lt hnonneg hlt
    obtain ⟨rfl, rfl, hr⟩ := hr
    exact .inr ⟨id, [], u, s, status, List.append_nil u, hjob, hr.trans hcode.symm⟩

theorem relays_fgBuiltin (words : List String) : Relays (fgBuiltin words) := by
  unfold fgBuiltin
  simp only
  refine relays_when (gives_pure (outspoken_builtin (by decide))) (relays_bind (gives_doing _) fun s ↦
    relays_when (gives_pure (outspoken_builtin (by decide))) (relays_bind (gives_named _ _) fun id ↦
      relays_bind (gives_doing _) fun s ↦ ?_))
  split
  · exact relays_resume id
  · exact relays_bind (gives_streamFailure _) fun _ ↦ relays_bind (gives_doing _) fun s ↦
      relays_when (gives_streamFailure _) (relays_resume id)

def KeepsCode (s : Shell) (_ : List Event) (s' : Shell) : Prop := s.lastStatus.HasCode → s'.lastStatus.HasCode

instance : Lenient KeepsCode where
  admits _ _ hstatus h := hstatus ▸ h
  trans h h' hcode := h' (h hcode)

theorem keepsCode_change {f : Shell → Shell} (hf : ∀ s, (f s).lastStatus = s.lastStatus) :
    Within KeepsCode (modify f) :=
  within_change fun s h ↦ (hf s).symm ▸ h

theorem keepsCode_system (x : Sys α) : Within KeepsCode (system x) := within_effect fun _ _ _ _ h ↦ h

theorem Within.keepsCode {R : Shell → List Event → Shell → Prop} {x : Act α} (hx : Within R x)
    (hR : ∀ {s t s'}, R s t s' → s'.lastStatus = s.lastStatus) : Within KeepsCode x :=
  hx.mono fun _ _ _ h hcode ↦ (hR h).symm ▸ hcode

theorem keepsCode_setJobs (jobs : JobTable) : Within KeepsCode (setJobs jobs) := keepsCode_change fun _ ↦ rfl

theorem keepsCode_reapJobs : Within KeepsCode reapJobs := by
  refine within_get.bind fun s ↦ ?_
  split
  · exact within_pure _
  · refine (keepsCode_system _).bind fun noticed ↦ ?_
    split
    · refine (addsNoJob_reapTable.keepsCode AddsNoJob.lastStatus).bind fun r ↦ ?_
      cases r with
      | ok _ => exact within_pure _
      | error f => exact within_log _ _ _
    · exact within_pure _

theorem within_showJobs {R : Shell → List Event → Shell → Prop} [Lenient R] (js : List Job) :
    Within R (JobTable.notifyJobs print js) := by
  induction js with
  | nil => exact within_pure _
  | cons j js ih =>
    rw [JobTable.notifyJobs_cons]
    refine Within.bind ?_ fun shown ↦ ?_
    · split
      · exact within_print _
      · exact within_pure _
    · cases shown with
      | error f => exact within_pure _
      | ok _ => exact ih.bind fun _ ↦ within_pure _

theorem keepsCode_notifyJobs : Within KeepsCode notifyJobs := by
  refine keepsCode_reapJobs.bind fun _ ↦ within_get.bind fun s ↦ Within.bind ?_ fun ⟨r, jobs⟩ ↦
    (keepsCode_setJobs jobs).bind fun _ ↦ within_logFailure _ _ _
  refine (within_showJobs s.jobs.jobs).bind fun ⟨r, js⟩ ↦ ?_
  cases r <;> exact within_pure _

theorem keepsCode_followPipeline (p : Pipeline) (spawned : Spawned) : Within KeepsCode (followPipeline p spawned) := by
  refine within_get.bind fun s ↦ (Within.withTerminal _ (keepsCode_system _)).bind fun ⟨waited, ps⟩ ↦ ?_
  cases waited with
  | error f => exact within_pure _
  | ok _ =>
    simp only
    split
    · exact within_get.bind fun _ ↦ (keepsCode_setJobs _).bind fun _ ↦ (within_log _ _ _).bind fun _ ↦ within_pure _
    · exact within_pure _

theorem keepsCode_startAndFollow (p : Pipeline) : Within KeepsCode (do
    match ← (spawnPipeline p true).run with
    | .error f => pure (.error f)
    | .ok spawned => followPipeline p spawned) := by
  refine ((sparesJobs_spawnPipeline p true).keepsCode SparesJobs.lastStatus).bind fun r ↦ ?_
  cases r with
  | error f => exact within_pure _
  | ok spawned => exact keepsCode_followPipeline p spawned

theorem keepsCode_launchForeground (p : Pipeline) : Within KeepsCode (launchForeground p) := by
  unfold launchForeground
  simp only
  split
  · split
    · exact (dropsJobs_runInShell _ _).keepsCode DropsJobs.lastStatus
    · exact keepsCode_startAndFollow _
  · exact keepsCode_startAndFollow p

theorem keepsCode_launchBackground (p : Pipeline) : Within KeepsCode (launchBackground p) := by
  refine ((sparesJobs_spawnPipeline p false).keepsCode SparesJobs.lastStatus).bind fun r ↦ ?_
  cases r with
  | error f => exact within_pure _
  | ok spawned =>
    refine within_get.bind fun _ ↦ (keepsCode_setJobs _).bind fun _ ↦ within_get.bind fun s ↦ ?_
    split
    · split
      · exact (within_complain _).bind fun _ ↦ within_pure _
      · exact within_pure _
    · exact within_pure _

theorem keepsCode_launch (p : Pipeline) : Within KeepsCode (Sequencer.launch launcher p) := by
  have hreport (f : Failure) : Within KeepsCode (do launcher.report f; pure .failure : Act ExitStatus) :=
    ((within_log _ _ _).bind fun _ ↦ within_report f).bind fun _ ↦ within_pure _
  rw [Sequencer.launch]
  split
  · refine (keepsCode_launchBackground p).bind fun r ↦ ?_
    cases r with
    | ok _ => exact within_pure _
    | error f => exact hreport f
  · refine (keepsCode_launchForeground p).bind fun r ↦ ?_
    cases r with
    | ok _ => exact within_pure _
    | error f => exact hreport f

theorem keepsCode_runFrom (previous : Connector) (status : ExitStatus) (ps : List Pipeline) :
    Within KeepsCode (Sequencer.runFrom launcher previous status ps) := by
  induction ps generalizing previous status with
  | nil => exact within_pure _
  | cons p ps ih =>
    rw [Sequencer.runFrom_cons]
    refine Within.bind ?_ fun _ ↦ ih _ _
    split
    · exact keepsCode_launch p
    · exact within_pure _

theorem keepsCode_execute (l : CommandList) : Within KeepsCode (execute l) := by
  intro s t r s' h
  obtain ⟨d, rfl, hrun⟩ | ⟨u, v, status, s₁, rfl, hrun, hset⟩ := runs_act_bind h
  · exact keepsCode_runFrom _ _ l.pipelines _ _ _ _ hrun
  · obtain ⟨-, ⟨⟩⟩ := Sys.runs_pure.1 hset
    exact fun _ ↦ gives_sequence l _ _ _ _ hrun

theorem keepsCode_reportMalformed (f : Failure) : Within KeepsCode (reportMalformed f) :=
  (within_report f).bind fun _ ↦ within_change fun _ _ ↦ ExitStatus.hasCode_ofCode _

theorem keepsCode_takePlace (stage : Stage) : Within KeepsCode (takePlace stage) := by
  have hreset (signals : List Signal) : Within KeepsCode (signals.forM fun signal ↦ do
      let _ ← ask (.setDisposition signal .default)) := by
    induction signals with
    | nil => exact within_pure _
    | cons signal signals ih => exact ((keepsCode_system _).bind fun _ ↦ within_pure _).bind fun _ ↦ ih
  exact (keepsCode_system _).bind fun _ ↦ (hreset _).bind fun _ ↦ Within.bind (keepsCode_change fun _ ↦ rfl) fun _ ↦
    (keepsCode_system _).bind fun _ ↦ keepsCode_system _

section Reading

variable {R : Shell → List Event → Shell → Prop} [Lenient R]

theorem within_noteAnswer (w : Parser.Waiting) (a : Parser.Answer) : Within R (noteAnswer w a) := by
  unfold noteAnswer
  split
  · exact within_log _ _ _
  · exact within_pure _

theorem within_parseOn {σ : Type} {read : σ → Act (Parser.Answer × σ)} (hread : ∀ x, Within R (read x))
    (homes : HomeDirs) (n : Nat) (p : Parser.Progress) (line : String) (x : σ) :
    Within R (parseOn read homes n p line x) := by
  induction n generalizing p line x with
  | zero => exact within_system Sys.only_hang
  | succ n ih =>
    unfold parseOn
    match p with
    | .finished (.ok cs) => exact within_pure _
    | .finished (.error f) => exact within_pure _
    | .waiting w =>
      exact (hread x).bind fun ⟨a, y⟩ ↦ (within_noteAnswer _ a).bind fun _ ↦ ih _ _ _

theorem within_parseCommand {σ : Type} {read : σ → Act (Parser.Answer × σ)} (hread : ∀ x, Within R (read x))
    (line : String) (x : σ) : Within R (parseCommand read line x) :=
  (within_ask .environment trivial).bind fun _ ↦ within_parseOn hread _ _ _ line x

end Reading

theorem keepsCode_runLines (n : Nat) (source : Script.Source) : Within KeepsCode (runLines n source) := by
  induction n generalizing source with
  | zero => exact keepsCode_system _
  | succ n ih =>
    rw [runLines]
    refine (keepsCode_system _).bind fun ⟨line?, source⟩ ↦ ?_
    match line? with
    | none => exact within_pure _
    | some (.error f) => exact within_pure _
    | some (.ok line) =>
      refine keepsCode_reapJobs.bind fun _ ↦ Within.bind (keepsCode_change fun _ ↦ rfl) fun _ ↦
        (within_parseCommand (fun _ ↦ keepsCode_system _) line source).bind fun ⟨parsed, _, source⟩ ↦ ?_
      match parsed with
      | .ok (some l) => exact (keepsCode_execute l).bind fun _ ↦ ih source
      | .ok none => exact ih source
      | .error (.defect d) => exact within_giveUp d
      | .error (.failure f) =>
        simp only
        split
        · exact (keepsCode_reportMalformed f).bind fun _ ↦ within_pure _
        · exact within_pure _

theorem keepsCode_runFile (path : String) : Within KeepsCode (runFile path) := by
  refine (keepsCode_system _).bind fun opened ↦ ?_
  cases opened with
  | error f => exact within_pure _
  | ok fd => exact (keepsCode_runLines _ _).ensuring (keepsCode_system _)

theorem keepsCode_readLine (shown : String) (ahead : Typed) : Within KeepsCode (readLine shown ahead) := by
  refine (within_print _).bind fun printed ↦ ?_
  cases printed with
  | error f => exact within_pure _
  | ok _ =>
    refine within_flush.bind fun flushed ↦ ?_
    cases flushed with
    | error f => exact within_pure _
    | ok _ =>
      refine (keepsCode_system _).bind fun ⟨r, ahead⟩ ↦ ?_
      match r with
      | .error f => exact within_pure _
      | .ok none => exact within_pure _
      | .ok (some line) =>
        simp only
        split
        · exact within_pure _
        · exact within_giveUp _

theorem keepsCode_typedAnswer (ahead : Typed) : Within KeepsCode (typedAnswer ahead) := by
  refine (keepsCode_readLine _ ahead).bind fun ⟨r, ahead⟩ ↦ ?_
  match r with
  | .error f => exact within_pure _
  | .ok none => exact within_pure _
  | .ok (some line) => exact within_pure _

theorem keepsCode_prompt : Within KeepsCode prompt :=
  (keepsCode_system _).bind fun _ ↦ (keepsCode_system _).bind fun _ ↦ within_get.bind fun _ ↦ within_pure _

theorem keepsCode_runParsed (parsed : Except Parser.Fault (Option CommandList)) (ahead : Typed) :
    Within KeepsCode (do
      match parsed with
      | .ok (some l) => execute l
      | .ok none => pure ()
      | .error (.defect d) => giveUp d
      | .error (.failure f) =>
        if f.isMalformed then reportMalformed f
        else do
          log .error "psh::shell" ("failed to read command: " ++ f.message)
          report f
      pure ahead : Act Typed) := by
  match parsed with
  | .ok (some l) => exact (keepsCode_execute l).bind fun _ ↦ within_pure _
  | .ok none => exact within_pure _
  | .error (.defect d) => exact (within_giveUp d).bind fun _ ↦ within_pure _
  | .error (.failure f) =>
    simp only
    split
    · exact (keepsCode_reportMalformed f).bind fun _ ↦ within_pure _
    · exact (within_log _ _ _).bind fun _ ↦ (within_report f).bind fun _ ↦ within_pure _

theorem keepsCode_runTyped (line : String) (ahead : Typed) : Within KeepsCode (runTyped line ahead) := by
  refine (within_parseCommand keepsCode_typedAnswer line ahead).bind fun ⟨parsed, whole, ahead⟩ ↦
    within_get.bind fun s ↦ ?_
  simp only
  split
  · exact Within.bind (keepsCode_change fun _ ↦ rfl) fun _ ↦ keepsCode_runParsed parsed ahead
  · exact keepsCode_runParsed parsed ahead

theorem keepsCode_converse (n : Nat) (ahead : Typed) : Within KeepsCode (converse n ahead) := by
  induction n generalizing ahead with
  | zero => exact keepsCode_system _
  | succ n ih =>
    refine keepsCode_notifyJobs.bind fun _ ↦ keepsCode_prompt.bind fun shown ↦
      (keepsCode_readLine shown ahead).bind fun ⟨r, ahead⟩ ↦ ?_
    match r with
    | .error f => exact (within_logFailure _ _ _).bind fun _ ↦ ih ahead
    | .ok none => exact within_pure _
    | .ok (some line) => exact (keepsCode_runTyped line ahead).bind fun ahead ↦ ih ahead

theorem keepsCode_runStdin : Within KeepsCode runStdin := by
  refine (keepsCode_system _).bind fun isTerminal ↦ ?_
  split
  · exact keepsCode_converse _ _
  · refine (keepsCode_runLines _ _).bind fun r ↦ ?_
    cases r with
    | ok _ => exact within_logFailure _ _ _
    | error f => exact (within_report f).bind fun _ ↦ within_logFailure _ _ _

theorem keepsCode_loadHistory : Within KeepsCode loadHistory.run := by
  refine within_try_bind (within_doing (keepsCode_system _)) fun environment ↦
    within_try_bind (within_doing (keepsCode_change fun _ ↦ rfl)) fun _ ↦
      within_try_bind (keepsCode_system _) fun bytes? ↦ ?_
  cases bytes? with
  | none => exact within_pure _
  | some bytes =>
    have hwarn (lines : List String) : Within KeepsCode (lines.forM fun line ↦
        log .warn "rustyline" ("bad escaped line: " ++ line)) := by
      induction lines with
      | nil => exact within_pure _
      | cons line lines ih => exact (within_log _ _ _).bind fun _ ↦ ih
    refine within_try_bind (within_doing within_get) fun s ↦
      within_try_bind (within_doing (keepsCode_change fun _ ↦ rfl)) fun _ ↦
        within_try_bind (within_doing (hwarn _)) fun _ ↦ ?_
    split
    · exact within_pure _
    · exact within_pure _

theorem keepsCode_seedVariable (name value : String) : Within KeepsCode (seedVariable name value) := by
  refine (keepsCode_system _).bind fun environment ↦ ?_
  split
  · exact keepsCode_system _
  · exact within_pure _

theorem keepsCode_seedVariables : Within KeepsCode seedVariables := by
  refine (keepsCode_system _).bind fun directory ↦ ?_
  cases directory with
  | ok directory => exact (keepsCode_seedVariable _ _).bind fun _ ↦ keepsCode_seedVariable _ _
  | error e => exact (within_log _ _ _).bind fun _ ↦ keepsCode_seedVariable _ _

theorem keepsCode_takeTerminal : Within KeepsCode takeTerminal.run := by
  refine within_try_bind (keepsCode_system _) fun _ ↦ within_try_bind (keepsCode_system _) fun _ ↦
    within_try_bind (within_doing (keepsCode_system _)) fun pid ↦
      within_try_bind (within_doing (keepsCode_system _)) fun group ↦ within_when ?_ ?_
  · exact (keepsCode_system _).map _
  · exact within_doing ((keepsCode_system _).bind fun _ ↦ within_logFailure _ _ _)

theorem keepsCode_startJobControl : Within KeepsCode startJobControl := by
  refine keepsCode_takeTerminal.bind fun r ↦ ?_
  cases r with
  | ok _ => exact within_pure _
  | error f => exact (within_log _ _ _).bind fun _ ↦ keepsCode_change fun _ ↦ rfl

theorem keepsCode_start : Within KeepsCode start.run := by
  have hlast : Within KeepsCode (do
      doing seedVariables
      doing (log .info "psh::shell" "psh started up") : Try Unit).run :=
    within_try_bind (within_doing keepsCode_seedVariables) fun _ ↦ within_doing (within_log _ _ _)
  exact within_try_bind (within_doing within_get) fun s ↦
    within_when (within_doing keepsCode_startJobControl) (within_try_bind ((keepsCode_system _).map _) fun _ ↦
      within_when keepsCode_loadHistory hlast)

theorem keepsCode_bringUp (config : ShellConfig) : Within KeepsCode (bringUp config).run := by
  refine within_try_bind (within_doing (keepsCode_system _)) fun isTerminal ↦
    within_try_bind (within_doing (within_change fun s _ ↦ ?_)) fun _ ↦ keepsCode_start
  exact ExitStatus.hasCode_ofCode 0

theorem keepsCode_catching {x : Act Session.Told} (hx : Within KeepsCode x) :
    Within KeepsCode (Session.catching x) := by
  refine Within.bind (keepsCode_change fun _ ↦ rfl) fun _ ↦ Within.ensuring ?_ ?_
  · exact hx.bind fun _ ↦ within_get.bind fun _ ↦ within_pure _
  · exact keepsCode_change fun _ ↦ rfl

theorem keepsCode_perform (a : Session.Action) : Within KeepsCode (Session.perform a) := by
  cases a with
  | script text => exact (keepsCode_runLines _ _).bind fun _ ↦ within_pure _
  | file path => exact (keepsCode_runFile path).bind fun _ ↦ within_pure _
  | builtin name words =>
    rw [Session.perform]
    split
    · exact within_pure _
    · next b _ =>
      have hrun := (addsNoJob_runBuiltin b words).keepsCode AddsNoJob.lastStatus
      exact keepsCode_catching (hrun.bind fun _ ↦ within_pure _)
  | call name words =>
    rw [Session.perform]
    split
    · exact within_pure _
    · next b _ =>
      have hcall := (addsNoJob_call b words).keepsCode AddsNoJob.lastStatus
      exact keepsCode_catching (hcall.bind fun _ ↦ within_pure _)
  | spawn name children grouped foreground =>
    refine (keepsCode_system _).bind fun r ↦ ?_
    cases r with
    | error f => exact within_pure _
    | ok ps => exact within_get.bind fun _ ↦ (keepsCode_setJobs _).bind fun _ ↦ within_pure _
  | await id untilStopped =>
    refine within_get.bind fun s ↦ ?_
    split
    · exact within_pure _
    · exact (keepsCode_system _).bind fun _ ↦ within_pure _
  | foreground id =>
    have hput := (addsNoJob_putInForeground id).keepsCode AddsNoJob.lastStatus
    exact hput.bind fun _ ↦ within_pure _
  | background id =>
    have hput := (addsNoJob_putInBackground id).keepsCode AddsNoJob.lastStatus
    exact hput.bind fun _ ↦ within_pure _
  | reapJobs => exact keepsCode_reapJobs.bind fun _ ↦ within_pure _
  | notifyJobs => exact keepsCode_notifyJobs.bind fun _ ↦ within_pure _
  | exit code => exact within_exit _
  | table a => exact within_get.bind fun _ ↦ (keepsCode_system _).bind fun _ ↦
      (keepsCode_setJobs _).bind fun _ ↦ within_pure _

/-- The parts of what a shell does: how it comes up, what a session asks of it, and what it does one after another as
it reads and runs commands. -/
inductive Work : {α : Type} → Act α → Prop
  | bringUp (config : ShellConfig) : Work (bringUp config).run
  | perform (a : Session.Action) : Work (Session.perform a)
  | runStdin : Work runStdin
  | runSource (source : Script.Source) : Work (runSource source)
  | notifyJobs : Work notifyJobs
  | reapJobs : Work reapJobs
  | discard : Work (modify fun s ↦ { s with jobs := s.jobs.discardCompleted })
  | prompt : Work prompt
  | readLine (shown : String) (ahead : Typed) : Work (readLine shown ahead)
  | runTyped (line : String) (ahead : Typed) : Work (runTyped line ahead)
  | parseCommand (line : String) (source : Script.Source) :
      Work (parseCommand (fun source ↦ system source.answer) line source)
  | parseTyped (line : String) (ahead : Typed) : Work (parseCommand typedAnswer line ahead)
  | reportMalformed (f : Failure) : Work (reportMalformed f)
  | execute (l : CommandList) : Work (execute l)
  | launchForeground (p : Pipeline) : Work (launchForeground p)
  | launchBackground (p : Pipeline) : Work (launchBackground p)
  | takePlace (stage : Stage) : Work (takePlace stage)
  | runBuiltin (b : Builtin) (words : List String) : Work (runBuiltin b words)

theorem Work.keepsCode {x : Act α} (h : Work x) : Within KeepsCode x := by
  cases h with
  | bringUp config => exact keepsCode_bringUp config
  | perform a => exact keepsCode_perform a
  | runStdin => exact keepsCode_runStdin
  | runSource source => exact keepsCode_runLines _ source
  | notifyJobs => exact keepsCode_notifyJobs
  | reapJobs => exact keepsCode_reapJobs
  | discard => exact keepsCode_change fun _ ↦ rfl
  | prompt => exact keepsCode_prompt
  | readLine shown ahead => exact keepsCode_readLine shown ahead
  | runTyped line ahead => exact keepsCode_runTyped line ahead
  | parseCommand line source => exact within_parseCommand (fun _ ↦ keepsCode_system _) line source
  | parseTyped line ahead => exact within_parseCommand keepsCode_typedAnswer line ahead
  | reportMalformed f => exact keepsCode_reportMalformed f
  | execute l => exact keepsCode_execute l
  | launchForeground p => exact keepsCode_launchForeground p
  | launchBackground p => exact keepsCode_launchBackground p
  | takePlace stage => exact keepsCode_takePlace stage
  | runBuiltin b words => exact (addsNoJob_runBuiltin b words).keepsCode AddsNoJob.lastStatus

/-- A shell as it can be met: just made, or after some work of one that lives, also if a defect has cut the work
short. -/
inductive Lives : Shell → Prop
  | made (config : ShellConfig) (isTerminal tellsOfDefects : Bool) :
      Lives { make config isTerminal with tellsOfDefects }
  | goesOn {α : Type} {x : Act α} {s s' : Shell} {t : List Event} {r : Except Defect α} :
      Lives s → Work x → Runs (x.run.run s) t (r, s') → Lives s'

theorem Lives.hasCode (h : Lives s) : s.lastStatus.HasCode := by
  induction h with
  | made config isTerminal tellsOfDefects => exact ExitStatus.hasCode_ofCode 0
  | goesOn _ hwork hruns ih => exact hwork.keepsCode _ _ _ _ hruns ih

/-- Statuses agree wherever they are made, packed and read again. A code is packed into a word as its low byte, and
read from it as that; a status is a success if that is zero. What a shell leaves with is a byte, whatever the status.
To leave with a code is to leave with its low byte, for good, if the word that tells of it can be printed; the builtin
does the same, unless it refuses: an interactive shell with stopped jobs is to be asked twice. The status of a job, of
a launch, and of a job that has been put in the foreground, by `fg` too, have the code that the last process stands
for. So the last status of a shell always has a code. -/
theorem exit_statuses_agree :
    (∀ n : Int32, (ExitStatus.ofCode n.toInt).raw = (ExitStatus.pack n).toInt ∧
        (ExitStatus.ofCode n.toInt).code? = some (n.toInt % 256) ∧
        ((ExitStatus.ofCode n.toInt).isSuccess ↔ 256 ∣ n.toInt)) ∧
      (∀ w : Int32, (⟨w.toInt⟩ : ExitStatus).code? = (ExitStatus.unpack? w).map Int32.toInt ∧
        lowByte w.toInt = (ExitStatus.byteOf w).toInt) ∧
      (∀ status, 0 ≤ exitCode status ∧ exitCode status < 256) ∧
      (∀ (n : Int32) s, LeavesWith (exit (some (.ofCode n.toInt)) : Act Unit) s (n.toInt % 256) fun r _ ↦
        s.config.displaysMessages ∧ ∃ f, r = .error (.unprintable "stdout" f)) ∧
      (∀ word n s, Decimal.int32? word = some n → LeavesWith (exitBuiltin [word]).run s (n % 256) fun r s' ↦
        (s.refusesExit ∧ r = .ok (.error (refusal "There are stopped jobs.")) ∧
          s' = { s with warnedOfStoppedJobs := true }) ∨
        s.config.displaysMessages ∧ ∃ f, r = .error (.unprintable "stdout" f)) ∧
      (∀ (j : Job) q code, j.processes.getLast? = some q → q.status.code? = some code →
        j.exitStatus.code? = some code) ∧
      (∀ p s t status s', Yields (launchForeground p) s t (.ok status) s' →
        loneBuiltin? p = none → AwaitsForked t status) ∧
      (∀ id s t status s', Succeeds (putInForeground id) s t status s' →
        ∃ j, s.jobs.get? id = some j ∧ Awaits t (j.resumed true).processes status) ∧
      (∀ words, Relays (fgBuiltin words)) ∧
      ∀ s, Lives s → ∃ code, s.lastStatus.code? = some code := by
  refine ⟨fun n ↦ ⟨ExitStatus.raw_ofCode n, ExitStatus.code?_ofCode _, ExitStatus.isSuccess_iff_dvd _⟩,
    fun w ↦ ⟨ExitStatus.code?_word w, ExitStatus.lowByte_word w⟩, byte_exitCode,
    fun n s ↦ leavesWith_exit n.toInt s, fun word n s hn ↦ leavesWith_exitBuiltin hn s,
    fun j q code ↦ Job.code?_exitStatus, fun p s t status s' ↦ awaits_launchForeground,
    fun id s t status s' ↦ awaits_putInForeground, relays_fgBuiltin, fun s ↦ Lives.hasCode⟩

theorem exit_statuses_agree_of_stopped :
    let s : Shell := make (.interactive 0) true
    let c : Command := ⟨.single, ["a"], []⟩
    let q : Process := ⟨11, c.text, .stopped .tstp⟩
    let j : Job := ⟨1, some 11, Pipeline.text [c], [q], false, true⟩
    let t : List Event := [⟨.fork, .ok (.parent 11)⟩, ⟨.setGroup 11 11, .ok ()⟩, ⟨.ownGroup, 7⟩,
      ⟨.setTerminalGroup Sys.stdin 11, .ok ()⟩, ⟨.wait 11 { untraced := true }, .ok (11, .stopped .tstp)⟩,
      ⟨.setTerminalGroup Sys.stdin 7, .ok ()⟩,
      ⟨.log .info "psh::shell" ("job [" ++ Decimal.text 1 ++ "] stopped"), ()⟩]
    let u : List Event := [⟨.ownGroup, 7⟩, ⟨.setTerminalGroup Sys.stdin 11, .ok ()⟩,
      ⟨.kill (-11) (some .cont), .ok ()⟩, ⟨.wait 11 { untraced := true }, .ok (11, .exited 3)⟩,
      ⟨.setTerminalGroup Sys.stdin 7, .ok ()⟩]
    ∃ s₁ s₂ status r, Yields (launchForeground [c]) s t (.ok status) s₁ ∧ s₁.jobs.jobs = [j] ∧
      AwaitsForked t status ∧ status.code? = some (128 + 20) ∧
      j.exitStatus.code? = some (128 + 20) ∧ (∃ code, s₁.lastStatus.code? = some code) ∧
      Yields (fgBuiltin []).run { s₁ with captured := some "" } u r s₂ ∧ Relayed u r s₂ ∧
      (builtinStatus r).code? = some 3 ∧
      ∃ v next, Sys.Leads ((exitBuiltin ["259"]).run.run.run (make .script false)) v (.call (.exit 3) next) ∧
        (3 : Int) = 259 % 256 := by
  intro s c q j t u
  have h : Yields (launchForeground [c]) s t (.ok (.ofSignal .tstp)) { s with jobs := ⟨[j], some 1⟩ } :=
    .call (.call (.call (.call (.call (.call (.call (.done _)))))))
  have hfg : Yields (fgBuiltin []).run { s with jobs := ⟨[j], some 1⟩, captured := some "" } u (.error (silent 3)) _ :=
    .call (.call (.call (.call (.call (.done _)))))
  have hword : Decimal.int32? "259" = some 259 := by decide
  have hexit : ∃ next, Sys.Leads ((exitBuiltin ["259"]).run.run.run (make .script false))
      [⟨.log .info "psh::shell" "psh has shut down", ()⟩] (.call (.exit 3) next) := by
    rw [run_exitBuiltin hword]
    exact ⟨_, .call (.refl _)⟩
  obtain ⟨next, hexit⟩ := hexit
  obtain ⟨-, -, -, -, hleaves, hjob, hlaunch, -, hrelays, hlast⟩ := exit_statuses_agree
  exact ⟨_, _, _, _, h, rfl, hlaunch _ _ _ _ _ h rfl, rfl, hjob j q _ rfl rfl,
    hlast _ ((Lives.made _ _ false).goesOn (.launchForeground _) h), hfg, hrelays _ _ _ _ _ hfg, rfl, _, next, hexit,
    (hleaves _ _ _ hword).code _ _ _ hexit⟩

/-- A shell with a stopped job does not leave at the first word. -/
theorem exit_stays_with_stopped_job :
    ¬ ∀ (word : String) (n : Int) (s : Shell), Decimal.int32? word = some n →
      LeavesWith (exitBuiltin [word]).run s (n % 256) fun _ _ ↦ False := by
  intro hall
  let j : Job := ⟨1, none, "a", [⟨11, "a", .stopped .stop⟩], false, false⟩
  let s : Shell := { make (.interactive 0) true with jobs := ⟨[j], some 1⟩ }
  have hword : Decimal.int32? "3" = some 3 := by decide
  have hrefuses : Runs ((exitBuiltin ["3"]).run.run.run s) []
      (.ok (.error (refusal "There are stopped jobs.")), { s with warnedOfStoppedJobs := true }) := by
    rw [run_exitBuiltin hword]
    exact .done _
  exact (hall "3" 3 s hword).otherwise _ _ _ hrefuses

end Shell

end JobShell

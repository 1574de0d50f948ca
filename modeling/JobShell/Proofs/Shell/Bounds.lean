import JobShell.Proofs.Job.Polling
import JobShell.Proofs.Kernel.Basic
import JobShell.Shell.Start

namespace JobShell

open Sys (Runs Only)

theorem Sys.every_writing {P : Call → Prop} (hwrite : ∀ fd bytes, P (.write fd bytes)) (hhang : P .hang) (fd : Int)
    (bytes : ByteArray) : (Sys.writeAll fd bytes).Every P := by
  unfold Sys.writeAll
  generalize Sys.patience = n
  induction n generalizing bytes with
  | zero => exact Sys.every_hang hhang
  | succ n ih =>
    rw [Sys.writeLoop]
    split
    · exact Sys.every_pure _
    · refine (Sys.every_ask (hwrite fd bytes)).bind fun answer ↦ ?_
      cases answer with
      | ok count => exact ih _
      | error e =>
        simp only
        split
        · exact ih _
        · exact Sys.every_pure _

theorem Sys.every_writeAll (fd : Int) (bytes : ByteArray) : (Sys.writeAll fd bytes).Every Call.isStill :=
  Sys.every_writing (fun _ _ ↦ trivial) trivial fd bytes

theorem Sys.only_writeAll (fd : Int) (bytes : ByteArray) : Only Call.isStill (Sys.writeAll fd bytes) :=
  (Sys.every_writeAll fd bytes).only

namespace LineBuffer

variable (fd : Int) (b : LineBuffer) (bytes : ByteArray)

section Closed

variable {C : {α : Type} → Sys α → Prop} (hC : Sys.Closed C) (hwrite : ∀ fd bytes, C (Sys.writeAll fd bytes))

include hC hwrite

theorem closed_writeDirectly : C (writeDirectly fd bytes) := by
  refine hC.bind (hwrite fd bytes) fun ⟨r, left⟩ ↦ ?_
  cases r <;> exact hC.pure _

theorem closed_flush : C (b.flush fd) := by
  refine hC.bind (hwrite fd b.held) fun ⟨r, left⟩ ↦ ?_
  cases r <;> exact hC.pure _

theorem closed_hold : C (b.hold fd bytes) := by
  have hput (b : LineBuffer) : C (if capacity ≤ bytes.size then writeDirectly fd bytes >>= fun r ↦ pure (r, b)
      else pure (.ok (), ⟨b.held ++ bytes⟩)) := by
    split
    · exact hC.bind (closed_writeDirectly fd bytes hC hwrite) fun _ ↦ hC.pure _
    · exact hC.pure _
  rw [hold]
  simp only
  split
  · exact hC.pure _
  · split
    · refine hC.bind (closed_flush fd b hC hwrite) fun ⟨r, b'⟩ ↦ ?_
      cases r with
      | error e => exact hC.pure _
      | ok _ => exact hput b'
    · exact hput b

theorem closed_writeLines : C (b.writeLines fd bytes) := by
  rw [writeLines]
  split
  · exact hC.bind (closed_writeDirectly fd bytes hC hwrite) fun _ ↦ hC.pure _
  · refine hC.bind (closed_hold fd b bytes hC hwrite) fun ⟨r, b'⟩ ↦ ?_
    cases r with
    | error e => exact hC.pure _
    | ok _ => exact closed_flush fd b' hC hwrite

theorem closed_holdRest (r : Except Errno Unit) :
    C (match r with
      | .ok _ => b.hold fd bytes
      | .error e => pure (.error e, b)) := by
  cases r with
  | error e => exact hC.pure _
  | ok _ => exact closed_hold fd b bytes hC hwrite

theorem closed_write : C (b.write fd bytes) := by
  have hrest (r : Except Errno Unit × LineBuffer) := closed_holdRest fd r.2 (completeLines bytes).2 hC hwrite r.1
  rw [write]
  simp only
  split
  · exact hC.bind (closed_writeLines fd b _ hC hwrite) hrest
  · split
    · exact hC.bind (closed_flush fd b hC hwrite) hrest
    · exact hC.bind (hC.pure (Except.ok (), b)) hrest

theorem closed_writeEach (pieces : List String) : C (b.writeEach fd pieces) := by
  induction pieces generalizing b with
  | nil => exact hC.pure _
  | cons piece pieces ih =>
    refine hC.bind (closed_write fd b _ hC hwrite) fun ⟨r, b'⟩ ↦ ?_
    cases r with
    | error e => exact hC.pure _
    | ok _ => exact ih b'

end Closed

theorem every_flush : (b.flush fd).Every Call.isStill := closed_flush fd b Sys.closed_every Sys.every_writeAll

theorem only_flush : Only Call.isStill (b.flush fd) := (every_flush fd b).only

theorem only_writeEach (pieces : List String) : Only Call.isStill (b.writeEach fd pieces) :=
  closed_writeEach fd b Sys.closed_only Sys.only_writeAll pieces

end LineBuffer

theorem Call.isStill_of_isInquiry (c : Call) (h : c.isInquiry) : c.isStill := by
  cases c <;> trivial

namespace Process

theorem inquires_awaitFor (untraced : Bool) (n : Nat) (p : Process) :
    Only Call.isInquiry (p.awaitFor untraced n) := by
  induction n generalizing p with
  | zero => exact Sys.only_hang
  | succ n ih =>
    rw [awaitFor]
    split
    · exact Sys.only_pure _
    · refine (Sys.only_ask trivial).bind fun answer ↦ ?_
      cases answer with
      | ok answer => exact ih _
      | error e =>
        simp only
        split
        · exact ih _
        · split
          · exact ((Sys.only_ask trivial).bind fun _ ↦ Sys.only_pure _).bind fun _ ↦ ih _
          · exact Sys.only_pure _

theorem inquires_awaitAll (untraced : Bool) (ps : List Process) :
    Only Call.isInquiry (awaitAll untraced ps) := by
  induction ps with
  | nil => exact Sys.only_pure _
  | cons p ps ih =>
    refine (inquires_awaitFor untraced _ p).bind fun ⟨r, q⟩ ↦ ?_
    cases r with
    | error f => exact Sys.only_pure _
    | ok _ => exact ih.bind fun _ ↦ Sys.only_pure _

theorem only_awaitAll (untraced : Bool) (ps : List Process) : Only Call.isStill (awaitAll untraced ps) :=
  (inquires_awaitAll untraced ps).mono Call.isStill_of_isInquiry

end Process

namespace JobTable

section Closed

variable {C : {α : Type} → Sys α → Prop} (hC : Sys.Closed C) (hkill : ∀ pid s, C (Sys.ask (.kill pid s)))

include hC hkill

theorem closed_signalEach (s : Signal) (ps : List Process) : C (signalEach s ps) := by
  induction ps with
  | nil => exact hC.pure _
  | cons p ps ih =>
    refine hC.bind (hkill p.pid (some s)) fun answer ↦ ?_
    cases answer with
    | error e => exact hC.pure _
    | ok _ => exact ih

theorem closed_signal (t : JobTable) (id : JobId) (s : Signal) : C (t.signal id s) := by
  rw [signal]
  split
  · exact hC.pure _
  · split
    · refine hC.bind (hkill _ _) fun answer ↦ ?_
      cases answer <;> exact hC.pure _
    · exact closed_signalEach hC hkill s _

end Closed

theorem only_signal (t : JobTable) (id : JobId) (s : Signal) : Only Call.isStill (t.signal id s) :=
  closed_signal Sys.closed_only (fun _ _ ↦ Sys.only_ask trivial) t id s

end JobTable

namespace Shell

variable {α β : Type} {R : Shell → List Event → Shell → Prop}

/-- A bound admits every run of the work, whether it comes back with a result or a defect cuts it short. -/
def Within (R : Shell → List Event → Shell → Prop) (x : Act α) : Prop :=
  ∀ s t r s', Runs (x.run.run s) t (r, s') → R s t s'

/-- A bound that admits still calls as long as the jobs and the last status stay as they are, and what is done one
after another. -/
class Lenient (R : Shell → List Event → Shell → Prop) : Prop where
  admits {s s' : Shell} {t : List Event} :
    (∀ e ∈ t, e.call.isStill) → s'.jobs = s.jobs → s'.lastStatus = s.lastStatus → R s t s'
  trans {s s₁ s' : Shell} {t u : List Event} : R s t s₁ → R s₁ u s' → R s (t ++ u) s'

theorem Within.mono {R' : Shell → List Event → Shell → Prop} {x : Act α} (hx : Within R x)
    (hR : ∀ s t s', R s t s' → R' s t s') : Within R' x :=
  fun s t r s' h ↦ hR s t s' (hx s t r s' h)

def Steady (x : Act α) : Prop := ∀ s t d s', ¬ Runs (x.run.run s) t (.error d, s')

def Final (x : Act α) : Prop := ∀ s t r, ¬ Runs (x.run.run s) t r

theorem Final.within {x : Act α} (hx : Final x) : Within R x := fun s t r s' h ↦ absurd h (hx s t (r, s'))

/-- A change of the shell is admitted if the bound allows it where nothing is called. -/
theorem within_change {f : Shell → Shell} (hf : ∀ s, R s [] (f s)) : Within R (modify f) := by
  intro s t r s' h
  obtain ⟨rfl, ⟨⟩⟩ := Sys.runs_pure.1 h
  exact hf s

theorem within_effect {x : Sys α} (hx : ∀ s t a, Runs x t a → R s t s) : Within R (system x) := by
  intro s t r s' h
  obtain ⟨_, v, _, rfl, h, hend⟩ := Sys.runs_bind.1 h
  obtain ⟨u, w, a, rfl, hmade, hpure⟩ := Sys.runs_bind.1 h
  obtain ⟨rfl, rfl⟩ := Sys.runs_pure.1 hpure
  obtain ⟨rfl, ⟨⟩⟩ := Sys.runs_pure.1 hend
  rw [List.append_nil, List.append_nil]
  exact hx s u a hmade

section Lenient

variable [Lenient R]

theorem Lenient.refl (s : Shell) : R s [] s := admits (List.forall_mem_nil _) rfl rfl

theorem within_pure (a : α) : Within R (pure a) := by
  intro s t r s' h
  obtain ⟨rfl, ⟨⟩⟩ := Sys.runs_pure.1 h
  exact Lenient.refl s

theorem within_throw (d : Defect) : Within R (throw d : Act α) := by
  intro s t r s' h
  obtain ⟨rfl, ⟨⟩⟩ := Sys.runs_pure.1 h
  exact Lenient.refl s

theorem Within.bind {x : Act α} {f : α → Act β} (hx : Within R x) (hf : ∀ a, Within R (f a)) :
    Within R (x >>= f) := by
  intro s t r s' h
  obtain ⟨u, v, ⟨made, s₁⟩, rfl, hmade, h⟩ := Sys.runs_bind.1 h
  have hu := hx s u made s₁ hmade
  cases made with
  | error d =>
    obtain ⟨rfl, ⟨⟩⟩ := Sys.runs_pure.1 h
    rwa [List.append_nil]
  | ok a => exact Lenient.trans hu (hf a s₁ v r s' h)

theorem within_get : Within R get := by
  intro s t r s' h
  obtain ⟨rfl, ⟨⟩⟩ := Sys.runs_pure.1 h
  exact Lenient.refl s

theorem within_modify {f : Shell → Shell} (hjobs : ∀ s, (f s).jobs = s.jobs)
    (hstatus : ∀ s, (f s).lastStatus = s.lastStatus) : Within R (modify f) :=
  within_change fun s ↦ Lenient.admits (List.forall_mem_nil _) (hjobs s) (hstatus s)

theorem within_system {x : Sys α} (hx : Only Call.isStill x) : Within R (system x) :=
  within_effect fun _ t a h ↦ Lenient.admits (hx t a h) rfl rfl

theorem within_ask (c : Call) (hc : c.isStill) : Within R (ask c) := within_system (Sys.only_ask hc)

theorem Within.map {x : Act α} (hx : Within R x) (f : α → β) : Within R (f <$> x) := by
  rw [← bind_pure_comp]
  exact hx.bind fun _ ↦ within_pure _

theorem Within.ensuring {x : Act α} {after : Act Unit} (hx : Within R x) (hafter : Within R after) :
    Within R (ensuring x after) := by
  refine Within.bind (fun s t r s' h ↦ ?_) fun r ↦ hafter.bind fun _ s t r' s' h ↦ ?_
  · obtain ⟨u, v, ⟨made, s₁⟩, rfl, hmade, hend⟩ := Sys.runs_bind.1 h
    obtain ⟨rfl, ⟨⟩⟩ := Sys.runs_pure.1 hend
    rw [List.append_nil]
    exact hx s u made s' hmade
  · obtain ⟨rfl, ⟨⟩⟩ := Sys.runs_pure.1 h
    exact Lenient.refl s

theorem within_try_bind {x : Try α} {f : α → Try β} (hx : Within R x.run)
    (hf : ∀ a, Within R (f a).run) : Within R (x >>= f).run := by
  refine hx.bind fun r ↦ ?_
  cases r with
  | error f => exact within_pure _
  | ok a => exact hf a

theorem within_when {c : Prop} {_ : Decidable c} {y : Try α} {rest : Try β} (hy : Within R y.run)
    (hrest : Within R rest.run) : Within R (if c then y >>= fun _ ↦ rest else rest).run := by
  split
  · exact within_try_bind hy fun _ ↦ hrest
  · exact hrest

theorem within_unless {c : Prop} {_ : Decidable c} {f : Failure} {rest : Try β}
    (hrest : Within R rest.run) : Within R (if c then throw f >>= fun _ : PUnit ↦ rest else rest).run :=
  within_when (within_pure _) hrest

theorem within_doing {x : Act α} (hx : Within R x) : Within R (doing x).run := hx.map _

theorem within_mapM {f : α → Try β} (hf : ∀ a, Within R (f a).run) (as : List α) :
    Within R (as.mapM f).run := by
  induction as with
  | nil => exact within_pure _
  | cons a as ih =>
    rw [List.mapM_cons]
    exact within_try_bind (hf a) fun _ ↦ within_try_bind ih fun _ ↦ within_pure _

theorem within_forM {f : α → Try Unit} (hf : ∀ a, Within R (f a).run) (as : List α) :
    Within R (as.forM f).run := by
  induction as with
  | nil => exact within_pure _
  | cons a as ih => exact within_try_bind (hf a) fun _ ↦ ih

theorem within_log (level : LogLevel) (target text : String) : Within R (log level target text) :=
  within_ask _ trivial

theorem within_logFailure (target what : String) (r : Except Failure Unit) :
    Within R (logFailure target what r) := by
  cases r with
  | ok _ => exact within_pure _
  | error f => exact within_log _ _ _

theorem within_giveUp (d : Defect) : Within R (giveUp d : Act α) := by
  refine within_get.bind fun s ↦ ?_
  split
  · exact (within_system (Sys.only_writeAll _ _)).bind fun _ ↦ within_throw d
  · exact within_throw d

theorem within_complain (text : String) : Within R (complain text) := by
  refine (within_system (Sys.only_writeAll _ _)).bind fun ⟨r, left⟩ ↦ ?_
  cases r with
  | ok _ => exact within_pure _
  | error e =>
    simp only
    split
    · exact within_pure _
    · exact within_giveUp _

theorem within_report (f : Failure) : Within R (report f) := within_complain _

theorem within_wrote (r : Except Errno Unit × LineBuffer) : Within R (wrote r) :=
  Within.bind (within_modify (fun _ ↦ rfl) fun _ ↦ rfl) fun _ ↦ within_pure _

theorem within_flush : Within R flush :=
  within_get.bind fun _ ↦ (within_system (LineBuffer.only_flush _ _)).bind within_wrote

theorem within_print (pieces : List String) : Within R (print pieces) :=
  within_get.bind fun _ ↦ (within_system (LineBuffer.only_writeEach _ _ _)).bind within_wrote

theorem within_say (pieces : List String) : Within R (say pieces) := by
  refine within_get.bind fun s ↦ ?_
  cases s.captured with
  | none => exact within_print pieces
  | some said => exact Within.bind (within_modify (fun _ ↦ rfl) fun _ ↦ rfl) fun _ ↦ within_pure _

theorem Within.withTerminal {x : Act α} (group : Option Int) (hx : Within R x) :
    Within R (withTerminal group x) := by
  cases group with
  | none => exact hx
  | some g =>
    refine (within_ask .ownGroup trivial).bind fun own ↦
      (within_ask (.setTerminalGroup Sys.stdin g) trivial).bind fun given ↦
        (within_logFailure _ _ _).bind fun _ ↦ hx.ensuring ?_
    exact (within_ask (.setTerminalGroup Sys.stdin own) trivial).bind fun taken ↦ within_logFailure _ _ _

end Lenient

theorem steady_pure (a : α) : Steady (pure a) := by
  intro s t d s' h
  obtain ⟨-, ⟨⟩⟩ := Sys.runs_pure.1 h

theorem steady_get : Steady get := by
  intro s t d s' h
  obtain ⟨-, ⟨⟩⟩ := Sys.runs_pure.1 h

theorem steady_modify (f : Shell → Shell) : Steady (modify f) := by
  intro s t d s' h
  obtain ⟨-, ⟨⟩⟩ := Sys.runs_pure.1 h

theorem steady_system (x : Sys α) : Steady (system x) := by
  intro s t d s' h
  obtain ⟨u, v, a, rfl, hx, hend⟩ := Sys.runs_bind.1 h
  obtain ⟨-, ⟨⟩⟩ := Sys.runs_pure.1 hend

theorem Steady.bind {x : Act α} {f : α → Act β} (hx : Steady x) (hf : ∀ a, Steady (f a)) :
    Steady (x >>= f) := by
  intro s t d s' h
  obtain ⟨u, v, ⟨r, s₁⟩, rfl, hr, hnext⟩ := Sys.runs_bind.1 h
  cases r with
  | error d' => exact hx s u d' s₁ hr
  | ok a => exact hf a s₁ v d s' hnext

theorem final_leave (code : Int) : Final (leave code : Act α) := by
  intro s t r h
  obtain ⟨u, v, a, rfl, hx, -⟩ := Sys.runs_bind.1 h
  obtain ⟨_, _, _, rfl, hx, -⟩ := Sys.runs_bind.1 hx
  exact Sys.not_runs_exit hx

theorem Steady.final {x : Act α} {f : α → Act β} (hx : Steady x) (hf : ∀ a, Final (f a)) :
    Final (x >>= f) := by
  intro s t r h
  obtain ⟨u, v, ⟨a, s₁⟩, rfl, ha, hnext⟩ := Sys.runs_bind.1 h
  cases a with
  | error d => exact hx s u d s₁ ha
  | ok a => exact hf a s₁ v r hnext

theorem final_when {c : Prop} {_ : Decidable c} {y : Act α} {rest : Act β} (hy : Steady y)
    (hrest : Final rest) : Final (if c then y >>= fun _ ↦ rest else rest) := by
  split
  · exact hy.final fun _ ↦ hrest
  · exact hrest

theorem steady_flush : Steady flush :=
  steady_get.bind fun _ ↦ (steady_system _).bind fun _ ↦ (steady_modify _).bind fun _ ↦ steady_pure _

theorem steady_saveHistory (path : String) : Steady (saveHistory path) := by
  refine steady_get.bind fun s ↦ ?_
  split
  · exact steady_pure _
  · refine (steady_system _).bind fun r ↦ ?_
    split
    · exact (steady_modify _).bind fun _ ↦ steady_pure _
    · exact steady_pure _

theorem final_shutDown (status : Option ExitStatus) : Final (shutDown status : Act α) := by
  refine steady_get.final fun s ↦ ?_
  have hleave : Final (do
      log .info "psh::shell" "psh has shut down"
      let _ ← flush
      leave (exitCode (status.getD s.lastStatus)) : Act α) :=
    (steady_system _).final fun _ ↦ steady_flush.final fun _ ↦ final_leave _
  simp only
  refine final_when (steady_system _) ?_
  split
  · split
    · exact hleave
    · refine (steady_saveHistory _).final fun r ↦ ?_
      cases r with
      | ok _ => exact hleave
      | error f => exact (steady_system _).final fun _ ↦ hleave
  · exact hleave

/-- The bound of work that leaves the jobs and the last status as they are, whatever it calls. -/
structure SparesJobs (s : Shell) (_ : List Event) (s' : Shell) : Prop where
  jobs : s'.jobs = s.jobs
  lastStatus : s'.lastStatus = s.lastStatus

instance : Lenient SparesJobs where
  admits _ hjobs hstatus := ⟨hjobs, hstatus⟩
  trans h h' := ⟨h'.jobs.trans h.jobs, h'.lastStatus.trans h.lastStatus⟩

theorem sparesJobs_system (x : Sys α) : Within SparesJobs (system x) :=
  within_effect fun _ _ _ _ ↦ ⟨rfl, rfl⟩

theorem within_exit [Lenient R] (status : Option ExitStatus) : Within R (exit status : Act α) := by
  refine within_get.bind fun s ↦ ?_
  simp only
  split
  · refine (within_print _).bind fun r ↦ ?_
    cases r with
    | ok _ => exact (final_shutDown status).within
    | error f => exact (within_giveUp _).bind fun _ ↦ (final_shutDown status).within
  · exact (final_shutDown status).within

end Shell

end JobShell

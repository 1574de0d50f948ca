import JobShell.Proofs.Job.Codes
import JobShell.Proofs.Shell.Custody
import JobShell.Proofs.Sys.Progress

namespace JobShell

open Sys (Leads Runs)

namespace Sys

variable {α β : Type} {n : Nat}

def Patient (n : Nat) (x : Sys α) : Prop := ∀ t next, Leads x t (call .hang next) → n ≤ t.length

theorem patient_pure (a : α) : Patient n (pure a : Sys α) := by
  intro t next h
  obtain ⟨-, ⟨⟩⟩ := leads_done h

theorem patient_call {c : Call} {next : Reply c → Sys α} (hc : c ≠ .hang)
    (h : ∀ r, Patient (n - 1) (next r)) : Patient n (call c next) := by
  intro t hang hleads
  obtain ⟨-, heq⟩ | ⟨r, u, rfl, hu⟩ := leads_call hleads
  · exact absurd (Sys.call.inj heq).1.symm hc
  · exact Nat.le_add_of_sub_le (h r u hang hu)

theorem patient_ask {c : Call} (hc : c ≠ .hang) : Patient n (ask c) := patient_call hc fun r ↦ patient_pure r

theorem Patient.bind {x : Sys α} {f : α → Sys β} (hx : Patient n x) (hf : ∀ a, Patient n (f a)) :
    Patient n (x >>= f) := by
  intro t next h
  obtain ⟨next', hleads⟩ | ⟨u, v, a, rfl, -, hleads⟩ := leads_bind_cases h
  · exact hx t next' hleads
  · rw [List.length_append]
    exact Nat.le_trans (hf a v next hleads) (Nat.le_add_left _ _)

theorem closed_patient : Closed (Patient n) := ⟨patient_pure, Patient.bind⟩

theorem patient_writeAll (fd : Int) (bytes : ByteArray) : Patient patience (writeAll fd bytes) := by
  unfold writeAll
  generalize patience = n
  induction n generalizing bytes with
  | zero => exact fun t next _ ↦ Nat.zero_le _
  | succ n ih =>
    rw [writeLoop]
    split
    · exact patient_pure _
    · refine patient_call (by rintro ⟨⟩) fun answer ↦ ?_
      cases answer with
      | ok count => exact ih _
      | error e =>
        change Patient n (if e = .interrupted then writeLoop fd n bytes else pure (.error e, bytes))
        split
        · exact ih _
        · exact patient_pure _

def LeavesOnly (code : Int) (x : Sys α) : Prop := ∀ t k next, Leads x t (call (.exit k) next) → k = code

theorem leavesOnly_pure {code : Int} (a : α) : LeavesOnly code (pure a : Sys α) := by
  intro t k next h
  obtain ⟨-, ⟨⟩⟩ := leads_done h

theorem LeavesOnly.bind {code : Int} {x : Sys α} {f : α → Sys β} (hx : LeavesOnly code x)
    (hf : ∀ a, LeavesOnly code (f a)) : LeavesOnly code (x >>= f) := by
  intro t k next h
  obtain ⟨next', hleads⟩ | ⟨u, v, a, rfl, -, hleads⟩ := leads_bind_cases h
  · exact hx t k next' hleads
  · exact hf a v k next hleads

theorem closed_leavesOnly {code : Int} : Closed (LeavesOnly code) := ⟨leavesOnly_pure, LeavesOnly.bind⟩

theorem Every.leavesOnly {code : Int} {x : Sys α} (hx : x.Every fun c ↦ ∀ k, c ≠ .exit k) : LeavesOnly code x :=
  fun _ k _ h ↦ absurd h (not_leads hx fun hne ↦ hne k rfl)

theorem leavesOnly_exit (code : Int) : LeavesOnly code (exit code : Sys α) := by
  intro t k next h
  obtain ⟨-, heq⟩ | ⟨r, -⟩ := leads_call h
  · exact (Call.exit.inj (Sys.call.inj heq).1)
  · exact r.elim

end Sys

namespace Shell

variable {α β : Type} {s s' : Shell} {t : List Event}

section Obeys

variable {C : {γ : Type} → Sys γ → Prop} (hC : Sys.Closed C)
  (hask : ∀ c : Call, c ≠ .hang → (∀ code, c ≠ .exit code) → C (Sys.ask c))
  (hwrite : ∀ fd bytes, C (Sys.writeAll fd bytes))

include hC hask

theorem obeys_log (level : LogLevel) (target text : String) : Obeys C (log level target text) :=
  obeys_system hC (hask _ nofun nofun)

theorem closed_hangUpAll (jobs : JobTable) : C jobs.hangUpAll := by
  have hlog (what : String) (r : Except Failure Unit) : C (JobTable.logFailure what r) := by
    cases r with
    | ok _ => exact hC.pure _
    | error f => exact hask _ nofun nofun
  have hsignal (id : JobId) (signal : Signal) : C (jobs.signal id signal) :=
    JobTable.closed_signal hC (fun _ _ ↦ hask _ nofun nofun) jobs id signal
  refine hC.forM (fun j ↦ ?_) _
  refine hC.bind (hask _ nofun nofun) fun _ ↦ hC.bind (hsignal j.id .hup) fun r ↦ hC.bind (hlog _ r) fun _ ↦ ?_
  split
  · exact hC.bind (hsignal j.id .cont) (hlog _)
  · exact hC.pure _

include hwrite

theorem closed_writeHistory (path text : String) : C (writeHistory path text) := by
  refine hC.bind (hask _ nofun nofun) fun mask ↦ hC.bind (hask _ nofun nofun) fun made ↦
    hC.bind (hask _ nofun nofun) fun _ ↦ ?_
  cases made with
  | error e => exact hC.pure _
  | ok fd =>
    refine hC.bind (hask _ nofun nofun) fun _ ↦ hC.bind (hwrite _ _) fun ⟨r, left⟩ ↦
      hC.bind (hC.bind (hask _ nofun nofun) fun _ ↦ hC.pure _) fun _ ↦ ?_
    cases r <;> exact hC.pure _

theorem obeys_saveHistory (path : String) : Obeys C (saveHistory path) := by
  refine obeys_bind hC (obeys_get hC) fun s ↦ ?_
  split
  · exact obeys_pure hC _
  · exact obeys_bind hC (obeys_system hC (closed_writeHistory hC hask hwrite path _)) fun r ↦
      obeys_when hC (obeys_modify hC _) (obeys_pure hC r)

variable {status : ExitStatus} (hleave : ∀ β : Type, C (Sys.exit (exitCode status) : Sys β))

include hleave

theorem obeys_shutDown : Obeys C (shutDown (some status) : Act α) := by
  have hlast : Obeys C (do
      log .info "psh::shell" "psh has shut down"
      let _ ← flush
      leave (exitCode status) : Act α) :=
    obeys_bind hC (obeys_log hC hask _ _ _) fun _ ↦ obeys_bind hC (obeys_flush hC hwrite) fun _ ↦
      obeys_system hC (hleave α)
  refine obeys_bind hC (obeys_get hC) fun s ↦ ?_
  simp only
  refine obeys_when hC (obeys_system hC (closed_hangUpAll hC hask s.jobs)) ?_
  split
  · split
    · exact hlast
    · refine obeys_bind hC (obeys_saveHistory hC hask hwrite _) fun r ↦ ?_
      cases r with
      | ok _ => exact hlast
      | error f => exact obeys_bind hC (obeys_log hC hask _ _ _) fun _ ↦ hlast
  · exact hlast

/-- What holds of all that a shell does before it leaves, and of leaving with the code of the status, holds of
leaving with that status. -/
theorem obeys_exit : Obeys C (exit (some status) : Act α) := by
  have hshutDown : Obeys C (shutDown (some status) : Act α) := obeys_shutDown hC hask hwrite hleave
  refine obeys_bind hC (obeys_get hC) fun s ↦ ?_
  simp only
  split
  · refine obeys_bind hC (obeys_print hC hwrite _) fun r ↦ ?_
    cases r with
    | ok _ => exact hshutDown
    | error f => exact obeys_bind hC (obeys_giveUp hC hwrite _) fun _ ↦ hshutDown
  · exact hshutDown

end Obeys

/-- However the kernel replies, the work ends the process with this code, if it ends it; it hangs only after more calls
than it takes a loop never to end; and it comes back, with a result or a defect, in one of these ways only. -/
structure LeavesWith (x : Act α) (s : Shell) (code : Int) (otherwise : Except Defect α → Shell → Prop) : Prop where
  code : Sys.LeavesOnly code (x.run.run s)
  patient : Sys.Patient Sys.patience (x.run.run s)
  otherwise : ∀ t r s', Runs (x.run.run s) t (r, s') → otherwise r s'

theorem steady_print (pieces : List String) : Steady (print pieces) :=
  steady_get.bind fun _ ↦ (steady_system _).bind fun _ ↦ (steady_modify _).bind fun _ ↦ steady_pure _

theorem runs_get_bind {f : Shell → Act β} {r : Except Defect β} :
    Runs ((get >>= f).run.run s) t (r, s') ↔ Runs ((f s).run.run s) t (r, s') := Iff.rfl

theorem runs_act_bind {x : Act α} {f : α → Act β} {r : Except Defect β}
    (h : Runs ((x >>= f).run.run s) t (r, s')) :
    (∃ d, r = .error d ∧ Runs (x.run.run s) t (.error d, s')) ∨
      ∃ u v a s₁, t = u ++ v ∧ Yields x s u a s₁ ∧ Runs ((f a).run.run s₁) v (r, s') := by
  obtain ⟨u, v, ⟨made, s₁⟩, rfl, hx, hf⟩ := Sys.runs_bind.1 h
  cases made with
  | error d =>
    obtain ⟨rfl, ⟨⟩⟩ := Sys.runs_pure.1 hf
    rw [List.append_nil]
    exact .inl ⟨d, rfl, hx⟩
  | ok a => exact .inr ⟨u, v, a, s₁, rfl, hx, hf⟩

theorem runs_giveUp {d : Defect} {r : Except Defect α} (h : Runs ((giveUp d : Act α).run.run s) t (r, s')) :
    r = .error d := by
  rw [giveUp, runs_get_bind] at h
  split at h
  · obtain ⟨d', -, hwrite⟩ | ⟨_, _, _, s₁, -, -, hend⟩ := runs_act_bind h
    · exact absurd hwrite (steady_system _ _ _ _ _)
    · obtain ⟨-, ⟨⟩⟩ := Sys.runs_pure.1 hend
      rfl
  · obtain ⟨-, ⟨⟩⟩ := Sys.runs_pure.1 h
    rfl

theorem runs_exit {status : Option ExitStatus} {r : Except Defect α}
    (h : Runs ((exit status : Act α).run.run s) t (r, s')) :
    s.config.displaysMessages ∧ ∃ f, r = .error (.unprintable "stdout" f) := by
  rw [exit, runs_get_bind] at h
  simp only at h
  split at h
  · next hmessages =>
    refine ⟨hmessages, ?_⟩
    obtain ⟨d, -, hprint⟩ | ⟨_, _, printed, s₁, -, -, hnext⟩ := runs_act_bind h
    · exact absurd hprint (steady_print _ _ _ _ _)
    · cases printed with
      | ok _ => exact absurd hnext (final_shutDown status _ _ _)
      | error f =>
        obtain ⟨d, rfl, hgiven⟩ | ⟨_, _, _, s₂, -, hgiven, -⟩ := runs_act_bind hnext
        · exact ⟨f, congrArg Except.error (Except.error.inj (runs_giveUp hgiven))⟩
        · exact absurd hgiven not_yields_giveUp
  · exact absurd h (final_shutDown status _ _ _)

theorem leavesWith_exit (n : Int) (s : Shell) :
    LeavesWith (exit (some (.ofCode n)) : Act α) s (n % 256) fun r _ ↦
      s.config.displaysMessages ∧ ∃ f, r = .error (.unprintable "stdout" f) where
  code := obeys_exit Sys.closed_leavesOnly (fun _ _ hc ↦ (Sys.every_ask hc).leavesOnly)
    (fun fd bytes ↦ (Sys.every_writing (fun _ _ ↦ nofun) nofun fd bytes).leavesOnly)
    (fun _ ↦ exitCode_ofCode n ▸ Sys.leavesOnly_exit _) s
  patient := obeys_exit Sys.closed_patient (fun _ hc _ ↦ Sys.patient_ask hc) Sys.patient_writeAll
    (fun _ ↦ Sys.patient_call nofun nofun) s
  otherwise _ _ _ := runs_exit

/-- The shell refuses to leave: it has stopped jobs, and it has not said so yet. -/
def refusesExit (s : Shell) : Bool := s.isInteractive && !s.warnedOfStoppedJobs && s.jobs.hasStopped

theorem run_doing_bind {x : Act α} {f : α → Try β} {a : α} {s₁ : Shell} (hx : x.run.run s = pure (.ok a, s₁)) :
    (doing x >>= f).run.run.run s = (f a).run.run.run s₁ := by
  have hdoing : (doing x).run.run.run s = pure (.ok (.ok a), s₁) := by
    change ((x.run.run s >>= _) : Sys _) = _
    rw [hx]
    rfl
  change (((doing x).run.run.run s >>= _) : Sys _) = _
  rw [hdoing]
  rfl

variable {word : String} {n : Int}

theorem run_exitBuiltin (hn : Decimal.int32? word = some n) (s : Shell) :
    (exitBuiltin [word]).run.run.run s =
      if s.refusesExit then
        pure (.ok (.error (Builtin.refusal "There are stopped jobs.")), { s with warnedOfStoppedJobs := true })
      else (Except.ok <$> exit (some (.ofCode n)) : Act (Except Failure Unit)).run.run s := by
  have hread : exitBuiltin [word] = (do
      if !(← doing confirmExit) then throw (Builtin.refusal "There are stopped jobs.")
      doing (exit (some (.ofCode n))) : Try Unit) := by
    rw [exitBuiltin]
    simp only [hn]
    rfl
  have hconfirm : confirmExit.run.run s =
      pure (.ok !s.refusesExit, if s.refusesExit then { s with warnedOfStoppedJobs := true } else s) := by
    change (if s.refusesExit then _ else _ : Act Bool).run.run s = _
    cases s.refusesExit <;> rfl
  rw [hread, run_doing_bind hconfirm]
  cases s.refusesExit <;> rfl

theorem leavesWith_exitBuiltin (hn : Decimal.int32? word = some n) (s : Shell) :
    LeavesWith (exitBuiltin [word]).run s (n % 256) fun r s' ↦
      (s.refusesExit ∧ r = .ok (.error (Builtin.refusal "There are stopped jobs.")) ∧
        s' = { s with warnedOfStoppedJobs := true }) ∨
      s.config.displaysMessages ∧ ∃ f, r = .error (.unprintable "stdout" f) := by
  have hleaves := leavesWith_exit (α := Unit) n s
  have hclosed {C : {γ : Type} → Sys γ → Prop} (hC : Sys.Closed C)
      (h : C ((exit (some (.ofCode n)) : Act Unit).run.run s)) : C ((exitBuiltin [word]).run.run.run s) := by
    rw [run_exitBuiltin hn]
    split
    · exact hC.pure _
    · rw [← bind_pure_comp]
      exact hC.bind h fun ⟨r, s₁⟩ ↦ by cases r <;> exact hC.pure _
  refine ⟨hclosed Sys.closed_leavesOnly hleaves.code, hclosed Sys.closed_patient hleaves.patient, fun t r s' h ↦ ?_⟩
  rw [run_exitBuiltin hn] at h
  split at h
  · next hrefuses =>
    obtain ⟨-, ⟨⟩⟩ := Sys.runs_pure.1 h
    exact .inl ⟨hrefuses, rfl, rfl⟩
  · rw [← bind_pure_comp] at h
    obtain ⟨d, rfl, hexit⟩ | ⟨_, _, _, s₁, -, hexit, -⟩ := runs_act_bind h
    · obtain ⟨hmessages, f, hd⟩ := hleaves.otherwise _ _ _ hexit
      exact .inr ⟨hmessages, f, congrArg Except.error (Except.error.inj hd)⟩
    · obtain ⟨-, f, ⟨⟩⟩ := hleaves.otherwise _ _ _ hexit

end Shell

end JobShell

import JobShell.Proofs.Shell.Bounds
import JobShell.Proofs.Shell.Work
import JobShell.Shell.Builtin

namespace JobShell

open Sys (Runs Only)

namespace JobTable

theorem ids_modify (t : JobTable) (id : JobId) {f : Job → Job} (hf : ∀ j, (f j).id = j.id) :
    (t.modify id f).jobs.map (·.id) = t.jobs.map (·.id) := by
  rw [modify, List.map_map]
  refine List.map_congr_left fun j _ ↦ ?_
  rw [Function.comp_apply]
  split
  · exact hf j
  · rfl

theorem ids_remove (t : JobTable) (id : JobId) :
    ((t.remove id).2.jobs.map (·.id)).Sublist (t.jobs.map (·.id)) := by
  rw [remove]
  split
  · exact List.Sublist.refl _
  · exact List.eraseP_sublist.map _

theorem ids_foldl_markNotified (t : JobTable) (ids : List JobId) :
    (ids.foldl markNotified t).jobs.map (·.id) = t.jobs.map (·.id) := by
  induction ids generalizing t with
  | nil => rfl
  | cons id ids ih => exact (ih _).trans (t.ids_modify id fun _ ↦ rfl)

end JobTable

namespace Shell

open Builtin

variable {α β : Type}

def Still (x : Act α) : Prop := ∀ s, Only Call.isStill (x.run.run s)

def CallsStill (_ : Shell) (t : List Event) (_ : Shell) : Prop := ∀ e ∈ t, e.call.isStill

/-- The bound of builtins: still calls, no job that was not there before, and the last status as it was. -/
structure AddsNoJob (s : Shell) (t : List Event) (s' : Shell) : Prop where
  calls : ∀ e ∈ t, e.call.isStill
  ids : (s'.jobs.jobs.map (·.id)).Sublist (s.jobs.jobs.map (·.id))
  lastStatus : s'.lastStatus = s.lastStatus

instance : Lenient CallsStill where
  admits h _ _ := h
  trans h h' e he := (List.mem_append.1 he).elim (h e) (h' e)

instance : Lenient AddsNoJob where
  admits h hjobs hstatus := ⟨h, by rw [hjobs], hstatus⟩
  trans h h' := ⟨fun e he ↦ (List.mem_append.1 he).elim (h.calls e) (h'.calls e), h'.ids.trans h.ids,
    h'.lastStatus.trans h.lastStatus⟩

theorem addsNoJob_change {f : Shell → Shell}
    (hids : ∀ s, ((f s).jobs.jobs.map (·.id)).Sublist (s.jobs.jobs.map (·.id)))
    (hstatus : ∀ s, (f s).lastStatus = s.lastStatus) : Within AddsNoJob (modify f) :=
  within_change fun s ↦ ⟨List.forall_mem_nil _, hids s, hstatus s⟩

section Lenient

variable {R : Shell → List Event → Shell → Prop} [Lenient R]

theorem within_tell (pieces : List String) : Within R (tell pieces).run :=
  (within_say _).map _

theorem within_named (b : Builtin) (word : Option String) : Within R (named b word).run := by
  refine within_try_bind (within_doing within_get) fun s ↦ ?_
  simp only
  split
  · exact within_pure _
  · exact within_pure _

theorem within_jobOf (id : JobId) : Within R (jobOf id).run := by
  refine within_try_bind (within_doing within_get) fun s ↦ ?_
  split
  · exact within_pure _
  · exact within_pure _

theorem within_signalJob (id : JobId) (s : Signal) : Within R (signalJob id s).run :=
  within_get.bind fun shell ↦ within_system (shell.jobs.only_signal id s)

theorem within_confirmExit : Within R confirmExit := by
  intro s t r s' h
  have hend : t = [] ∧ s'.jobs = s.jobs ∧ s'.lastStatus = s.lastStatus := by
    change Runs ((if _ then _ else _ : Act Bool).run.run s) t (r, s') at h
    split at h
    · obtain ⟨rfl, ⟨⟩⟩ := Sys.runs_pure.1 h
      exact ⟨rfl, rfl, rfl⟩
    · obtain ⟨rfl, ⟨⟩⟩ := Sys.runs_pure.1 h
      exact ⟨rfl, rfl, rfl⟩
  obtain ⟨rfl, hjobs, hstatus⟩ := hend
  exact Lenient.admits (List.forall_mem_nil _) hjobs hstatus

theorem within_exitBuiltin (words : List String) : Within R (exitBuiltin words).run := by
  unfold exitBuiltin
  simp only
  refine within_unless (within_try_bind (within_doing within_confirmExit) fun _ ↦ within_unless ?_)
  split
  · exact within_doing (within_exit _)
  · split
    · exact within_doing (within_exit _)
    · exact within_try_bind (within_doing (within_complain _)) fun _ ↦ within_doing (within_exit _)

theorem within_listJob (style : Listing) (id : JobId) : Within R (listJob style id).run := by
  refine within_try_bind (within_doing within_get) fun s ↦ ?_
  split
  · exact within_pure _
  · exact within_forM within_tell _

theorem within_passOn (code? : Option Int) : Within R (match code? with
    | some code => if code = 0 then pure () else throw (silent code)
    | none => throw (silent 1) : Try Unit).run := by
  split
  · split
    · exact within_pure _
    · exact within_pure _
  · exact within_pure _

theorem within_eachReported {f : α → Try Unit} (hf : ∀ a, Within R (f a).run) (as : List α) :
    Within R (eachReported f as) := by
  induction as with
  | nil => exact within_pure _
  | cons a as ih =>
    refine (hf a).bind fun r ↦ ?_
    cases r with
    | ok _ => exact ih
    | error e => exact (within_report e).bind fun _ ↦ ih.bind fun _ ↦ within_pure _

theorem within_sendTo (signal : Signal) (target : String) : Within R (sendTo signal target).run := by
  rw [sendTo]
  split
  · refine within_try_bind (within_named _ _) fun id ↦ within_try_bind (within_signalJob id signal) fun _ ↦
      within_try_bind (within_doing within_get) fun s ↦ ?_
    simp only
    split
    · exact within_signalJob id .cont
    · exact within_pure _
  · split
    · exact within_pure _
    · refine within_try_bind (within_doing (within_ask _ trivial)) fun r ↦ ?_
      cases r <;> exact within_pure _

theorem within_killBuiltin (words : List String) : Within R (killBuiltin words).run := by
  refine within_try_bind (within_pure _) fun request ↦ ?_
  cases request with
  | list => exact within_forM (fun s ↦ within_tell _) _
  | send signal targets =>
    refine within_try_bind (within_doing (within_eachReported (within_sendTo signal) _)) fun done ↦ ?_
    split
    · exact within_pure _
    · exact within_pure _

end Lenient

theorem Steady.within {R : Shell → List Event → Shell → Prop} {x : Act α} (hx : Steady x)
    (h : ∀ s t a s', Yields x s t a s' → R s t s') : Within R x := by
  intro s t r s' hruns
  cases r with
  | error d => exact absurd hruns (hx s t d s')
  | ok a => exact h s t a s' hruns

theorem yields_reapTable {s s' : Shell} {t : List Event} {r : Except Failure (List (JobId × JobStatus))}
    (h : Yields reapTable s t r s') : Runs s.jobs.reap t (r, s'.jobs) ∧ s' = { s with jobs := s'.jobs } := by
  rw [reapTable, yields_get_bind] at h
  obtain ⟨u, v, ⟨r', jobs⟩, s₁, rfl, hreap, hnext⟩ := yields_bind.1 h
  obtain ⟨hreap, rfl⟩ := yields_system.1 hreap
  obtain ⟨_, w, _, s₂, rfl, hset, hend⟩ := yields_bind.1 hnext
  obtain ⟨rfl, rfl⟩ := yields_modify.1 hset
  obtain ⟨rfl, rfl, rfl⟩ := yields_pure.1 hend
  rw [List.append_nil, List.append_nil]
  exact ⟨hreap, rfl⟩

theorem addsNoJob_reapTable : Within AddsNoJob reapTable := by
  have hsteady : Steady reapTable :=
    steady_get.bind fun _ ↦ (steady_system _).bind fun _ ↦ (steady_modify _).bind fun _ ↦ steady_pure _
  refine hsteady.within fun s t r s' h ↦ ?_
  obtain ⟨hreap, hshell⟩ := yields_reapTable h
  have hids := ids_of_origins (JobTable.runs_reap hreap).1
  refine ⟨fun e he ↦ ?_, by rw [hids], by rw [hshell]⟩
  exact Call.isStill_of_isInquiry _ (s.jobs.only_reap _ _ hreap e he)

theorem addsNoJob_modifyJob (id : JobId) {f : Job → Job} (hf : ∀ j, (f j).id = j.id) :
    Within AddsNoJob (modifyJob id f) :=
  addsNoJob_change (fun s ↦ s.jobs.ids_modify id hf ▸ List.Sublist.refl _) fun _ ↦ rfl

theorem addsNoJob_waitForJob (id : JobId) (untraced : Bool) :
    Within AddsNoJob (waitForJob id untraced).run := by
  refine within_try_bind (within_jobOf id) fun j ↦ ?_
  exact (within_system (Process.only_awaitAll _ _)).bind fun _ ↦
    Within.bind (addsNoJob_modifyJob id fun _ ↦ rfl) fun _ ↦ within_pure _

theorem addsNoJob_resumeJob (id : JobId) (live jobControl : Bool) :
    Within AddsNoJob (resumeJob id live jobControl).run := by
  rw [resumeJob]
  split
  · exact within_try_bind (within_signalJob id .cont) fun _ ↦ addsNoJob_waitForJob id jobControl
  · exact addsNoJob_waitForJob id jobControl

theorem addsNoJob_putInForeground (id : JobId) : Within AddsNoJob (putInForeground id).run := by
  refine within_try_bind (within_doing within_get) fun s ↦ within_try_bind (within_jobOf id) fun _ ↦
    within_try_bind (within_doing (addsNoJob_modifyJob id fun _ ↦ rfl)) fun _ ↦
      within_try_bind (within_jobOf id) fun j ↦ ?_
  refine within_try_bind (Within.withTerminal _ (addsNoJob_resumeJob _ _ _)) fun _ ↦
    within_try_bind (within_jobOf id) fun j ↦
      within_try_bind (within_doing (addsNoJob_change (fun s ↦ ?_) fun _ ↦ rfl)) fun _ ↦ within_pure _
  split
  · exact s.jobs.ids_remove id
  · exact List.Sublist.refl _

theorem addsNoJob_putInBackground (id : JobId) : Within AddsNoJob (putInBackground id).run :=
  within_try_bind (within_jobOf id) fun _ ↦
    within_try_bind (within_doing (addsNoJob_modifyJob id fun _ ↦ rfl)) fun _ ↦
      within_try_bind (within_signalJob id .cont) fun _ ↦
        within_doing (addsNoJob_change (fun _ ↦ List.Sublist.refl _) fun _ ↦ rfl)

theorem addsNoJob_jobsBuiltin (words : List String) : Within AddsNoJob (jobsBuiltin words).run := by
  refine within_try_bind (within_pure _) fun ⟨style, specs⟩ ↦ ?_
  have hreap : Within AddsNoJob (attempt reapTable).run := addsNoJob_reapTable
  simp only
  refine within_try_bind (within_doing within_get) fun s ↦ within_when hreap ?_
  have hlist (ids : List JobId) : Within AddsNoJob (do
      ids.forM (listJob style)
      doing <| modify fun s ↦
        { s with jobs := (ids.foldl JobTable.markNotified s.jobs).removeReported } : Try Unit).run :=
    within_try_bind (within_forM (within_listJob style) ids) fun _ ↦ within_doing <|
      addsNoJob_change (fun s ↦ (List.filter_sublist.map _).trans (by rw [JobTable.ids_foldl_markNotified]))
        fun _ ↦ rfl
  split
  · exact within_try_bind (within_doing within_get) fun _ ↦ hlist _
  · refine within_try_bind (within_mapM (fun word ↦ within_named .jobs (some word)) specs) hlist

theorem addsNoJob_fgBuiltin (words : List String) : Within AddsNoJob (fgBuiltin words).run := by
  unfold fgBuiltin
  simp only
  refine within_unless (within_try_bind (within_doing within_get) fun s ↦ within_unless
    (within_try_bind (within_named _ _) fun id ↦ within_try_bind (within_doing within_get) fun s ↦ ?_))
  have hresume := within_try_bind (addsNoJob_putInForeground id) fun status ↦ within_passOn status.code?
  have hflush : Within AddsNoJob (attempt (streamFailure <$> flush)).run := within_flush.map _
  split
  · exact hresume
  · exact within_try_bind (within_tell _) fun _ ↦ within_try_bind (within_doing within_get) fun s ↦
      within_when hflush hresume

theorem addsNoJob_continueOne (word : Option String) : Within AddsNoJob (continueOne word).run := by
  refine within_try_bind (within_named _ _) fun id ↦ within_try_bind (within_doing within_get) fun s ↦ ?_
  split
  · exact within_pure _
  · split
    · exact within_doing (within_complain _)
    · exact within_try_bind (addsNoJob_putInBackground id) fun _ ↦ (within_say _).map _

theorem addsNoJob_bgBuiltin (words : List String) : Within AddsNoJob (bgBuiltin words).run := by
  unfold bgBuiltin
  simp only
  refine within_try_bind (within_doing within_get) fun s ↦ within_unless
    (within_try_bind (within_doing (within_eachReported addsNoJob_continueOne _)) fun done ↦ ?_)
  split
  · exact within_pure _
  · exact within_pure _

theorem addsNoJob_call (b : Builtin) (words : List String) : Within AddsNoJob (call b words).run := by
  cases b with
  | bg => exact addsNoJob_bgBuiltin words
  | exit => exact within_exitBuiltin words
  | fg => exact addsNoJob_fgBuiltin words
  | jobs => exact addsNoJob_jobsBuiltin words
  | kill => exact within_killBuiltin words

theorem addsNoJob_runBuiltin (b : Builtin) (words : List String) : Within AddsNoJob (runBuiltin b words) := by
  refine (addsNoJob_call b words).bind fun r ↦ ?_
  cases r with
  | ok _ => exact within_pure _
  | error f =>
    simp only
    split
    · exact within_pure _
    · exact (within_report f).bind fun _ ↦ within_pure _

theorem Within.still {x : Act α} (hx : Within CallsStill x) : Still x := fun s t ⟨r, s'⟩ h ↦ hx s t r s' h

theorem Still.within {x : Act α} (hx : Still x) : Within CallsStill x := fun s t r s' h ↦ hx s t (r, s') h

theorem still_pure (a : α) : Still (pure a) := (within_pure a).still

theorem Still.bind {x : Act α} {f : α → Act β} (hx : Still x) (hf : ∀ a, Still (f a)) :
    Still (x >>= f) :=
  (hx.within.bind fun a ↦ (hf a).within).still

theorem Still.map {x : Act α} (hx : Still x) (f : α → β) : Still (f <$> x) := (hx.within.map f).still

theorem still_get : Still get := within_get.still

theorem still_modify (f : Shell → Shell) : Still (modify f) :=
  (within_change fun _ ↦ List.forall_mem_nil _).still

theorem still_system {x : Sys α} (hx : Only Call.isStill x) : Still (system x) := (within_system hx).still

theorem still_log (level : LogLevel) (target text : String) : Still (log level target text) :=
  (within_log level target text).still

theorem still_logFailure (target what : String) (r : Except Failure Unit) :
    Still (logFailure target what r) :=
  (within_logFailure target what r).still

theorem still_complain (text : String) : Still (complain text) := (within_complain text).still

theorem still_report (f : Failure) : Still (report f) := (within_report f).still

theorem still_flush : Still flush := within_flush.still

theorem Still.withTerminal {x : Act α} (group : Option Int) (hx : Still x) :
    Still (withTerminal group x) :=
  (hx.within.withTerminal group).still

theorem still_runBuiltin (b : Builtin) (words : List String) : Still (runBuiltin b words) :=
  ((addsNoJob_runBuiltin b words).mono fun _ _ _ h ↦ h.calls).still

end Shell

end JobShell

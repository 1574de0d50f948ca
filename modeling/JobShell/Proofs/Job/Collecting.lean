import Mathlib.Logic.Function.Basic
import Mathlib.Logic.Relation
import JobShell.Proofs.Job.Awaiting
import JobShell.Proofs.Job.Polling

namespace JobShell

open Sys (Runs)

/-- A change of a child for which nobody has waited yet, and whether its signal has arrived. -/
structure Change where
  report : WaitReport
  status : ProcessStatus
  tells : Process.statusOf? report = some status
  announced : Bool := false

/-- What there is to learn of children: whether a signal has arrived since notice was taken, and the
change of each. -/
structure Children where
  noticed : Bool := false
  changes : Int → Option Change := fun _ ↦ none

/-- How a shell asks what has become of a child, without blocking. -/
def polling : WaitFlags := { noHang := true, untraced := true, continued := true }

namespace Children

variable {w w₁ w₂ w' : Children} {α β : Type}

/-- A child changes whose last change has been waited for, or signals arrive, one of them perhaps for
the changes of many children. -/
inductive Drifts (w : Children) : Children → Prop
  | change {pid : Int} (c : Change) : w.changes pid = none → c.announced = false →
      Drifts w { w with changes := Function.update w.changes pid (some c) }
  | deliver (pids : List Int) : Drifts w {
      noticed := true
      changes := fun pid ↦ if pid ∈ pids then (w.changes pid).map fun c ↦ { c with announced := true }
        else w.changes pid }

/-- A wait for a child is told of its change, if there is one, unless it is interrupted. -/
inductive Told (w : Children) (pid : Int) : Except Errno (Int × WaitReport) → Children → Prop
  | change {c : Change} : w.changes pid = some c →
      Told w pid (.ok (pid, c.report)) { w with changes := Function.update w.changes pid none }
  | alive (child : Int) : w.changes pid = none → Told w pid (.ok (child, .stillAlive)) w
  | interrupted : Told w pid (.error .interrupted) w
  | gone : w.changes pid = none → Told w pid (.error .noChild) w

inductive Answers (w : Children) : (c : Call) → Reply c → Children → Prop
  | notice : Answers w (.takeNotice .chld) w.noticed { w with noticed := false }
  | wait {pid : Int} {r : Except Errno (Int × WaitReport)} {w' : Children} : Told w pid r w' →
      Answers w (.wait pid polling) r w'
  | probe (pid : Int) (r : Except Errno Unit) : Answers w (.kill pid none) r w
  | log (level : LogLevel) (target text : String) : Answers w (.log level target text) () w

/-- A program comes to an end while its children go on. -/
inductive Carries : Children → Sys α → α → Children → Prop
  | done (w : Children) (a : α) : Carries w (.done a) a w
  | drift {w w₁ w' : Children} {x : Sys α} {a : α} : w.Drifts w₁ → Carries w₁ x a w' → Carries w x a w'
  | call {w w₁ w' : Children} {c : Call} {next : Reply c → Sys α} {r : Reply c} {a : α} :
      w.Answers c r w₁ → Carries w₁ (next r) a w' → Carries w (.call c next) a w'

abbrev Drifted : Children → Children → Prop := Relation.ReflTransGen Drifts

theorem Drifted.carries {x : Sys α} {a : α} (h : Drifted w w₁) (hx : Carries w₁ x a w') :
    Carries w x a w' := by
  induction h using Relation.ReflTransGen.head_induction_on with
  | refl => exact hx
  | head hdrift _ ih => exact .drift hdrift ih

theorem carries_pure {a b : α} (h : Carries w (pure a) b w') : b = a ∧ Drifted w w' := by
  generalize hx : (pure a : Sys α) = x at h
  induction h with
  | done w b =>
    cases hx
    exact ⟨rfl, .refl⟩
  | drift hdrift _ ih =>
    obtain ⟨rfl, hrest⟩ := ih hx
    exact ⟨rfl, .head hdrift hrest⟩
  | call => cases hx

theorem carries_call {c : Call} {next : Reply c → Sys α} {a : α} (h : Carries w (.call c next) a w') :
    ∃ w₁ r w₂, Drifted w w₁ ∧ w₁.Answers c r w₂ ∧ Carries w₂ (next r) a w' := by
  generalize hx : Sys.call c next = x at h
  induction h with
  | done => cases hx
  | drift hdrift _ ih =>
    obtain ⟨w₁, r, w₂, hdrifted, hanswer, hrest⟩ := ih hx
    exact ⟨w₁, r, w₂, .head hdrift hdrifted, hanswer, hrest⟩
  | call hanswer hrest =>
    cases hx
    exact ⟨_, _, _, .refl, hanswer, hrest⟩

theorem carries_bind {x : Sys α} {f : α → Sys β} {b : β} (h : Carries w (x >>= f) b w') :
    ∃ a w₁, Carries w x a w₁ ∧ Carries w₁ (f a) b w' := by
  induction x generalizing w with
  | done a => exact ⟨a, w, .done w a, h⟩
  | call c next ih =>
    obtain ⟨w₁, r, w₂, hdrifted, hanswer, hrest⟩ := carries_call h
    obtain ⟨a, w₃, hx, hf⟩ := ih r hrest
    exact ⟨a, w₃, hdrifted.carries (.call hanswer hx), hf⟩

/-- However things stand with its children when it starts, the program can come to an end. -/
def Returns (x : Sys α) : Prop := ∀ w, ∃ a w', Carries w x a w'

theorem returns_pure (a : α) : Returns (pure a) := fun w ↦ ⟨a, w, .done w a⟩

theorem Carries.bind {x : Sys α} {f : α → Sys β} {a : α} {b : β} (hx : Carries w x a w₁)
    (hf : Carries w₁ (f a) b w') : Carries w (x >>= f) b w' := by
  induction hx with
  | done w a => exact hf
  | drift hdrift _ ih => exact .drift hdrift (ih hf)
  | call hanswer _ ih => exact .call hanswer (ih hf)

theorem Returns.bind {x : Sys α} {f : α → Sys β} (hx : Returns x) (hf : ∀ a, Returns (f a)) :
    Returns (x >>= f) := by
  intro w
  obtain ⟨a, w₁, hfirst⟩ := hx w
  obtain ⟨b, w', hlast⟩ := hf a w₁
  exact ⟨b, w', hfirst.bind hlast⟩

theorem exists_told (w : Children) (pid : Int) : ∃ answer w', w.Told pid (.ok answer) w' := by
  cases h : w.changes pid with
  | some c => exact ⟨_, _, .change h⟩
  | none => exact ⟨_, _, .alive pid h⟩

def Pending (w : Children) (pid : Int) (status : ProcessStatus) : Prop :=
  ∃ c, w.changes pid = some c ∧ c.status = status

variable {pid : Int} {status : ProcessStatus}

theorem Drifts.pending (h : w.Drifts w') (hpending : w.Pending pid status) : w'.Pending pid status := by
  obtain ⟨c, hc, hstatus⟩ := hpending
  cases h with
  | @change other d hnone hannounced =>
    have hne : pid ≠ other := by
      rintro rfl
      rw [hnone] at hc
      cases hc
    exact ⟨c, (Function.update_of_ne hne _ _).trans hc, hstatus⟩
  | deliver pids =>
    by_cases hmem : pid ∈ pids
    · exact ⟨{ c with announced := true }, by simp [hmem, hc], hstatus⟩
    · exact ⟨c, by simp [hmem, hc], hstatus⟩

theorem Drifted.pending (h : Drifted w w') (hpending : w.Pending pid status) :
    w'.Pending pid status := by
  induction h with
  | refl => exact hpending
  | tail _ hdrift ih => exact hdrift.pending ih

theorem Drifted.noticed (h : Drifted w w') (hnoticed : w.noticed) : w'.noticed := by
  induction h with
  | refl => exact hnoticed
  | tail _ hdrift ih =>
    cases hdrift with
    | change => exact ih
    | deliver => rfl

def KeptBut (pids : List Int) (w w' : Children) : Prop :=
  ∀ pid status, pid ∉ pids → w.Pending pid status → w'.Pending pid status

theorem Drifted.kept (h : Drifted w w') : KeptBut [] w w' := fun _ _ _ hpending ↦ h.pending hpending

theorem KeptBut.trans {pids others : List Int} (h : KeptBut pids w w₁) (h' : KeptBut others w₁ w') :
    KeptBut (pids ++ others) w w' := by
  intro pid status hpid hpending
  rw [List.mem_append, not_or] at hpid
  exact h' pid status hpid.2 (h pid status hpid.1 hpending)

theorem not_pending (h : w.changes pid = none) : ¬ w.Pending pid status := by
  rintro ⟨c, hc, -⟩
  rw [h] at hc
  cases hc

theorem Told.noticed {r : Except Errno (Int × WaitReport)} (h : w.Told pid r w') :
    w'.noticed = w.noticed := by
  cases h <;> rfl

theorem Answers.before {c : Call} {r : Reply c} {d : Change} (h : w.Answers c r w')
    (hd : w'.changes pid = some d) : w.changes pid = some d := by
  cases h with
  | @wait other _ _ htold =>
    cases htold with
    | change =>
      by_cases hpid : pid = other
      · simp [hpid] at hd
      · exact (Function.update_of_ne hpid _ _).symm.trans hd
    | alive | interrupted | gone => exact hd
  | notice | probe | log => exact hd

theorem Told.keptBut {r : Except Errno (Int × WaitReport)} (h : w.Told pid r w') :
    KeptBut [pid] w w' := by
  cases h with
  | change hc =>
    rintro other status hother ⟨c, hchange, hstatus⟩
    have hne : other ≠ pid := by simpa using hother
    exact ⟨c, (Function.update_of_ne hne _ _).trans hchange, hstatus⟩
  | alive | interrupted | gone => exact fun _ _ _ hpending ↦ hpending

end Children

open Children

namespace Process

variable {w w' : Children} {p q : Process}

theorem status_update (p : Process) (c : Change) : (p.update c.report).1.status = c.status := by
  rw [update, c.tells]

def Recorded (w : Children) (p q : Process) : Prop :=
  q.pid = p.pid ∧ (p.isCompleted = false → ∀ status, w.Pending p.pid status → q.status = status)

theorem Recorded.of_kept {pids : List Int} {w₁ : Children} (h : Recorded w₁ p q)
    (hkept : KeptBut pids w w₁) (hpid : p.isCompleted = false → p.pid ∉ pids) : Recorded w p q :=
  ⟨h.1, fun hp status hpending ↦ h.2 hp status (hkept p.pid status (hpid hp) hpending)⟩

theorem recorded_of_none (hpid : q.pid = p.pid) (h : w.changes p.pid = none) : Recorded w p q :=
  ⟨hpid, fun _ _ hpending ↦ absurd hpending (not_pending h)⟩

theorem carries_exists {found : Bool} (h : Carries w p.exists found w') : KeptBut [] w w' := by
  obtain ⟨w₁, answer, w₂, hdrifted, hanswer, hrest⟩ := carries_call h
  cases hanswer
  have hlast : Drifted w₁ w' := by
    cases answer with
    | ok _ => exact (carries_pure hrest).2
    | error e => exact (carries_pure hrest).2
  exact hdrifted.kept.trans hlast.kept

theorem carries_markLost (h : Carries w p.markLost q w') : q.pid = p.pid ∧ KeptBut [] w w' := by
  obtain ⟨w₁, answer, w₂, hdrifted, hanswer, hrest⟩ := carries_call h
  cases hanswer
  obtain ⟨rfl, hlast⟩ := carries_pure hrest
  exact ⟨rfl, hdrifted.kept.trans hlast.kept⟩

theorem carries_poll {n : Nat} {r : Except Failure Bool}
    (h : Carries w (p.poll n) (r, q) w') :
    (∃ changed, r = .ok changed) ∧ Recorded w p q ∧ KeptBut [p.pid] w w' := by
  induction n generalizing w with
  | zero =>
    obtain ⟨_, r, -⟩ := carries_call h
    exact r.elim
  | succ n ih =>
    obtain ⟨w₁, answer, w₂, hdrifted, hanswer, hrest⟩ := carries_call h
    cases hanswer with
    | wait htold =>
    have hkept : KeptBut [p.pid] w w₂ := hdrifted.kept.trans htold.keptBut
    -- what the wait is told decides; changes may arrive before it and after it
    cases htold with
    | @change c hc =>
      obtain ⟨⟨⟩, hlast⟩ := carries_pure hrest
      refine ⟨⟨_, rfl⟩, ⟨pid_update p _, fun _ status hpending ↦ ?_⟩, hkept.trans hlast.kept⟩
      obtain ⟨d, hd, rfl⟩ := hdrifted.pending hpending
      obtain rfl : d = c := Option.some.inj (hd.symm.trans hc)
      exact status_update p d
    | alive child hnone =>
      obtain ⟨⟨⟩, hlast⟩ := carries_pure hrest
      exact ⟨⟨_, rfl⟩, (recorded_of_none rfl hnone).of_kept hdrifted.kept (by simp),
        hkept.trans hlast.kept⟩
    | interrupted =>
      obtain ⟨hr, hrecorded, hlater⟩ := ih hrest
      exact ⟨hr, hrecorded.of_kept hdrifted.kept (by simp), hdrifted.kept.trans hlater⟩
    | gone hnone =>
      have hgone : Carries w₁ (p.exists >>= fun found ↦ if found then pure (.ok false, p)
        else p.markLost >>= fun lost ↦ pure (.ok true, lost)) (r, q) w' := hrest
      obtain ⟨found, w₃, hprobe, hfound⟩ := carries_bind hgone
      have hnoted {x : Process} (hx : x.pid = p.pid) : Recorded w p x :=
        (recorded_of_none hx hnone).of_kept hdrifted.kept (by simp)
      have hprobed := hkept.trans (carries_exists hprobe)
      cases found with
      | true =>
        obtain ⟨⟨⟩, hlast⟩ := carries_pure hfound
        exact ⟨⟨_, rfl⟩, hnoted rfl, hprobed.trans hlast.kept⟩
      | false =>
        obtain ⟨lost, w₄, hlost, hend⟩ := carries_bind hfound
        obtain ⟨⟨⟩, hlast⟩ := carries_pure hend
        obtain ⟨hpid, hmarked⟩ := carries_markLost hlost
        exact ⟨⟨_, rfl⟩, hnoted hpid, hprobed.trans (hmarked.trans hlast.kept)⟩

theorem returns_poll (n : Nat) (p : Process) : Returns (p.poll (n + 1)) := by
  intro w
  obtain ⟨answer, w₁, htold⟩ := exists_told w p.pid
  exact ⟨_, w₁, .call (.wait htold) (.done w₁ _)⟩

def unfinished (ps : List Process) : List Int := (ps.filter (!·.isCompleted)).map (·.pid)

theorem unfinished_cons (p : Process) (ps : List Process) :
    unfinished (p :: ps) = if p.isCompleted then unfinished ps else p.pid :: unfinished ps := by
  cases hp : p.isCompleted <;> simp [unfinished, hp]

theorem mem_unfinished {ps : List Process} (hmem : p ∈ ps) (hp : p.isCompleted = false) :
    p.pid ∈ unfinished ps :=
  List.mem_map_of_mem (List.mem_filter.2 ⟨hmem, by simp [hp]⟩)

theorem forall₂_recorded_of_kept {ps qs : List Process} {pids : List Int} {w₁ : Children}
    (h : List.Forall₂ (Recorded w₁) ps qs) (hkept : KeptBut pids w w₁)
    (hapart : ∀ pid ∈ unfinished ps, pid ∉ pids) : List.Forall₂ (Recorded w) ps qs := by
  have hopen : ∀ p ∈ ps, p.isCompleted = false → p.pid ∉ pids := fun p hmem hp ↦
    hapart p.pid (mem_unfinished hmem hp)
  exact ((List.forall₂_and_left _ _).2 ⟨hopen, h⟩).imp fun p q ⟨hp, hrecorded⟩ ↦ hrecorded.of_kept hkept hp

end Process

namespace Job

open Process (Recorded unfinished)

variable {w w' : Children}

theorem carries_pollAll {ps qs : List Process} {r : Except Failure Bool} (hdistinct : (unfinished ps).Nodup)
    (h : Carries w (pollAll ps) (r, qs) w') :
    (∃ changed, r = .ok changed) ∧ List.Forall₂ (Recorded w) ps qs ∧ KeptBut (unfinished ps) w w' := by
  induction ps generalizing w w' r qs with
  | nil =>
    obtain ⟨⟨⟩, hlast⟩ := carries_pure h
    exact ⟨⟨_, rfl⟩, .nil, hlast.kept⟩
  | cons p ps ih =>
    rw [pollAll] at h
    split at h
    · next hp =>
      rw [Process.unfinished_cons, if_pos hp] at hdistinct ⊢
      obtain ⟨⟨r', qs'⟩, w₁, hrest, hend⟩ := carries_bind h
      obtain ⟨⟨⟩, hlast⟩ := carries_pure hend
      obtain ⟨hr, hrecorded, hkept⟩ := ih hdistinct hrest
      have hsame : Recorded w p p := ⟨rfl, fun hopen ↦ by simp [hp] at hopen⟩
      refine ⟨hr, .cons hsame hrecorded, ?_⟩
      simpa using hkept.trans hlast.kept
    · next hp =>
      rw [Process.unfinished_cons, if_neg hp] at hdistinct ⊢
      obtain ⟨hfresh, hdistinct⟩ := List.nodup_cons.1 hdistinct
      obtain ⟨⟨polled, q⟩, w₁, hpoll, hnext⟩ := carries_bind h
      obtain ⟨⟨changed, rfl⟩, hrecorded, hkept⟩ := Process.carries_poll hpoll
      obtain ⟨⟨r', qs'⟩, w₂, hrest, hend⟩ := carries_bind hnext
      obtain ⟨⟨⟩, hlast⟩ := carries_pure hend
      obtain ⟨⟨later, rfl⟩, hothers, hkept'⟩ := ih hdistinct hrest
      have hrecorded' : List.Forall₂ (Recorded w) ps qs' := by
        refine Process.forall₂_recorded_of_kept hothers hkept fun pid hpid hpolled ↦ ?_
        obtain rfl := List.mem_singleton.1 hpolled
        exact hfresh hpid
      exact ⟨⟨_, rfl⟩, .cons hrecorded hrecorded', by simpa using (hkept.trans hkept').trans hlast.kept⟩

theorem returns_pollAll (ps : List Process) : Returns (pollAll ps) := by
  induction ps with
  | nil => exact returns_pure _
  | cons p ps ih =>
    rw [pollAll]
    split
    · exact ih.bind fun _ ↦ returns_pure _
    · refine (Process.returns_poll _ p).bind fun polled ↦ ?_
      obtain ⟨r, q⟩ := polled
      cases r with
      | error f => exact returns_pure _
      | ok changed => exact ih.bind fun _ ↦ returns_pure _

theorem runs_pollAll_unfinished {ps qs : List Process} {t : List Event} {r : Except Failure Bool}
    (h : Runs (pollAll ps) t (r, qs)) : (unfinished qs).Sublist (unfinished ps) := by
  induction ps generalizing t r qs with
  | nil =>
    obtain ⟨-, ⟨⟩⟩ := Sys.runs_pure.1 h
    exact List.Sublist.refl _
  | cons p ps ih =>
    have hcons {q : Process} {qs' : List Process} {polled : Except Failure Bool} {u : List Event}
        (hp : p.isCompleted = false) (hpoll : Runs (p.poll Sys.patience) u (polled, q))
        (hqs : (unfinished qs').Sublist (unfinished ps)) :
        (unfinished (q :: qs')).Sublist (unfinished (p :: ps)) := by
      have hpid : q.pid = p.pid := congrArg Prod.fst (Process.runs_poll hpoll).1
      rw [Process.unfinished_cons, Process.unfinished_cons, hp, if_neg Bool.false_ne_true, hpid]
      split
      · exact hqs.cons _
      · exact hqs.cons_cons _
    obtain ⟨hp, qs', rfl, hrest⟩ | ⟨hp, ⟨_, q, -, rfl, hpoll⟩ | ⟨_, _, _, q, _, qs', -, -, rfl, hpoll, hrest⟩⟩ :=
      pollAll_cases h
    · rw [Process.unfinished_cons, Process.unfinished_cons, if_pos hp, if_pos hp]
      exact ih hrest
    · exact hcons hp hpoll (List.Sublist.refl _)
    · exact hcons hp hpoll (ih hrest)

theorem carries_poll {j k : Job} {r : Except Failure Bool} (hdistinct : (unfinished j.processes).Nodup)
    (h : Carries w (poll j) (r, k) w') :
    (∃ changed, r = .ok changed) ∧ List.Forall₂ (Recorded w) j.processes k.processes ∧
      KeptBut (unfinished j.processes) w w' := by
  obtain ⟨⟨polled, ps⟩, w₁, hpoll, hend⟩ := carries_bind h
  obtain ⟨⟨⟩, hlast⟩ := carries_pure hend
  obtain ⟨hr, hrecorded, hkept⟩ := carries_pollAll hdistinct hpoll
  exact ⟨hr, hrecorded, by simpa using hkept.trans hlast.kept⟩

end Job

namespace JobTable

open Process (Recorded unfinished)

variable {w w' : Children}

def tracked (js : List Job) : List Int := unfinished (js.flatMap (·.processes))

theorem tracked_cons (j : Job) (js : List Job) :
    tracked (j :: js) = unfinished j.processes ++ tracked js := by
  simp [tracked, unfinished]

theorem unfinished_subset_tracked {j : Job} {js : List Job} (hj : j ∈ js) :
    unfinished j.processes ⊆ tracked js := by
  intro pid hpid
  obtain ⟨p, hp, rfl⟩ := List.mem_map.1 hpid
  obtain ⟨hmem, hopen⟩ := List.mem_filter.1 hp
  exact List.mem_map_of_mem (List.mem_filter.2 ⟨List.mem_flatMap.2 ⟨j, hj, hmem⟩, hopen⟩)

def Records (w : Children) (js ks : List Job) : Prop :=
  List.Forall₂ (fun j k ↦ List.Forall₂ (Recorded w) j.processes k.processes) js ks

theorem Records.of_kept {js ks : List Job} {w₁ : Children} (h : Records w₁ js ks)
    (hkept : KeptBut [] w w₁) : Records w js ks :=
  h.imp fun _ _ hjk ↦ hjk.imp fun _ _ hpq ↦ hpq.of_kept hkept fun _ ↦ List.not_mem_nil

theorem carries_reapJobs {js ks : List Job} {r : Except Failure (List (JobId × JobStatus))}
    (hdistinct : (tracked js).Nodup) (h : Carries w (reapJobs js) (r, ks) w') :
    (∃ changed, r = .ok changed) ∧ Records w js ks ∧ KeptBut (tracked js) w w' := by
  induction js generalizing w w' r ks with
  | nil =>
    obtain ⟨⟨⟩, hlast⟩ := carries_pure h
    exact ⟨⟨_, rfl⟩, .nil, hlast.kept⟩
  | cons j js ih =>
    rw [tracked_cons] at hdistinct ⊢
    obtain ⟨hj, hjs, hapart⟩ := List.nodup_append.1 hdistinct
    obtain ⟨⟨polled, k⟩, w₁, hpoll, hnext⟩ := carries_bind h
    obtain ⟨⟨changed, rfl⟩, hrecorded, hkept⟩ := Job.carries_poll hj hpoll
    obtain ⟨⟨r', ks'⟩, w₂, hrest, hend⟩ := carries_bind hnext
    obtain ⟨hend, hlast⟩ := carries_pure hend
    obtain ⟨hr, rfl⟩ := Prod.mk.inj hend
    obtain ⟨⟨later, rfl⟩, hothers, hkept'⟩ := ih hjs hrest
    have hfresh : ∀ i ∈ js, ∀ pid ∈ unfinished i.processes, pid ∉ unfinished j.processes :=
      fun i hi pid hpid hpolled ↦ hapart pid hpolled pid (unfinished_subset_tracked hi hpid) rfl
    have hrecorded' : Records w js ks' :=
      ((List.forall₂_and_left _ _).2 ⟨hfresh, hothers⟩).imp fun _ _ ⟨hi, hrecorded⟩ ↦
        Process.forall₂_recorded_of_kept hrecorded hkept hi
    refine ⟨?_, .cons ?_ hrecorded', by simpa using (hkept.trans hkept').trans hlast.kept⟩
    · cases changed <;> exact ⟨_, hr⟩
    · cases changed <;> exact hrecorded

theorem returns_reapJobs (js : List Job) : Returns (reapJobs js) := by
  induction js with
  | nil => exact returns_pure _
  | cons j js ih =>
    have hpoll : Returns j.poll := (Job.returns_pollAll j.processes).bind fun _ ↦ returns_pure _
    refine hpoll.bind fun polled ↦ ?_
    obtain ⟨r, k⟩ := polled
    cases r with
    | error f => exact returns_pure _
    | ok changed => exact ih.bind fun _ ↦ returns_pure _

theorem returns_reap (t : JobTable) : Returns t.reap := by
  refine (returns_reapJobs t.jobs).bind fun polled ↦ ?_
  obtain ⟨r, js⟩ := polled
  cases r <;> exact returns_pure _

theorem runs_reapJobs_tracked {js ks : List Job} {t : List Event}
    {r : Except Failure (List (JobId × JobStatus))} (h : Runs (reapJobs js) t (r, ks)) :
    (tracked ks).Sublist (tracked js) := by
  induction js generalizing t r ks with
  | nil =>
    obtain ⟨-, ⟨⟩⟩ := Sys.runs_pure.1 h
    exact List.Sublist.refl _
  | cons j js ih =>
    have hpolled {polled : Except Failure Bool} {k : Job} {u : List Event} (hj : Runs j.poll u (polled, k)) :
        (unfinished k.processes).Sublist (unfinished j.processes) := by
      obtain ⟨_, _, ⟨polled', ps⟩, -, hps, hend⟩ := Sys.runs_bind.1 hj
      obtain ⟨-, ⟨⟩⟩ := Sys.runs_pure.1 hend
      exact Job.runs_pollAll_unfinished hps
    obtain ⟨_, k, -, rfl, hj⟩ | ⟨_, _, k, _, ks', -, hrest, ⟨-, rfl, -⟩ | ⟨-, rfl, hj⟩⟩ := reapJobs_cases h
    all_goals rw [tracked_cons, tracked_cons]
    · exact (hpolled hj).append (List.Sublist.refl _)
    · exact (List.Sublist.refl _).append (ih hrest)
    · exact (hpolled hj).append (ih hrest)

theorem runs_reap_tracked {t u : JobTable} {trace : List Event}
    {r : Except Failure (List (JobId × JobStatus))} (h : Runs t.reap trace (r, u)) :
    (tracked u.jobs).Sublist (tracked t.jobs) := runs_reapJobs_tracked (reap_cases h).1

/-- A poll of a table that lasts while children change records each change that was there before. -/
theorem carries_reap {t u : JobTable} {r : Except Failure (List (JobId × JobStatus))}
    (hdistinct : (tracked t.jobs).Nodup) (h : Carries w t.reap (r, u) w') :
    (∃ changed, r = .ok changed) ∧ Records w t.jobs u.jobs := by
  obtain ⟨⟨r', ks⟩, w₁, hjs, hend⟩ := carries_bind h
  obtain ⟨⟨changed, rfl⟩, hrecorded, -⟩ := carries_reapJobs hdistinct hjs
  obtain ⟨⟨⟩, -⟩ := carries_pure hend
  exact ⟨⟨_, rfl⟩, hrecorded⟩

end JobTable

end JobShell

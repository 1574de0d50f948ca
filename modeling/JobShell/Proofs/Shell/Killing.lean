import Mathlib.Data.Option.Basic
import JobShell.Proofs.Shell.Resumption
import JobShell.Proofs.Shell.Returning

namespace JobShell

open Sys (Runs)

theorem Sys.only_writes_writeLoop (fd : Int) (n : Nat) (bytes : ByteArray) :
    Sys.Only (fun c ↦ ∃ bytes, c = .write fd bytes) (Sys.writeLoop fd n bytes) := by
  induction n generalizing bytes with
  | zero => exact Sys.only_hang
  | succ n ih =>
    rw [Sys.writeLoop]
    split
    · exact Sys.only_pure _
    · refine (Sys.only_ask ⟨bytes, rfl⟩).bind fun answer ↦ ?_
      cases answer with
      | ok count => exact ih _
      | error e =>
        simp only
        split
        · exact ih _
        · exact Sys.only_pure _

/-- What a word stands for that `kill` is given: a job, or the process or group of that number. -/
inductive KillTarget
  | job (j : Job)
  | number (n : Int)

namespace KillTarget

def addressees : KillTarget → List Int
  | job j =>
    match j.group with
    | some g => [-g]
    | none => (JobTable.live j).map (·.pid)
  | number n => [n]

def isStopped : KillTarget → Bool
  | job j => j.isStopped
  | number _ => false

end KillTarget

def JobTable.killTarget? (t : JobTable) (word : String) : Option KillTarget :=
  if word.startsWith "%" then ((t.named? word).bind t.get?).map .job
  else (Decimal.int32? word).map .number

/-- A signal is sent to these numbers in order, up to the first that cannot be sent it. -/
inductive Sends (signal : Signal) : List Int → List Event → Bool → Prop
  | nothing : Sends signal [] [] true
  | sent {n : Int} {ns : List Int} {t : List Event} {all : Bool} :
      Sends signal ns t all → Sends signal (n :: ns) (⟨.kill n (some signal), .ok ()⟩ :: t) all
  | refused (n : Int) (ns : List Int) (e : Errno) :
      Sends signal (n :: ns) [⟨.kill n (some signal), .error e⟩] false

/-- What is done about one word: its target is sent the signal, and a stopped job that has been sent it is
continued, unless the signal does that itself or kills it. -/
inductive Attempt (signal : Signal) : Option KillTarget → List Event → Bool → Prop
  | unknown : Attempt signal none [] false
  | unsent {g : KillTarget} {t : List Event} :
      Sends signal g.addressees t false → Attempt signal (some g) t false
  | sent {g : KillTarget} {t : List Event} :
      Sends signal g.addressees t true → ¬ (g.isStopped ∧ signal ≠ .cont ∧ signal ≠ .kill) →
      Attempt signal (some g) t true
  | continued {g : KillTarget} {t u : List Event} {all : Bool} :
      Sends signal g.addressees t true → g.isStopped → signal ≠ .cont → signal ≠ .kill →
      Sends .cont g.addressees u all → Attempt signal (some g) (t ++ u) all

def Event.isKill : Event → Bool
  | ⟨.kill _ _, _⟩ => true
  | _ => false

def Event.isRefused (e : Event) : Prop := ∃ signal, e.refuses signal

theorem Event.isKill_of_isRefused {e : Event} (h : e.isRefused) : e.isKill := by
  obtain ⟨signal, h⟩ := h
  unfold refuses at h
  split at h
  · rfl
  · exact h.elim

variable {signal : Signal} {t : List Event} {all : Bool}

theorem Sends.isKill {ns : List Int} (h : Sends signal ns t all) : ∀ e ∈ t, e.isKill := by
  induction h with
  | nothing => exact List.forall_mem_nil _
  | sent _ ih => exact List.forall_mem_cons.2 ⟨rfl, ih⟩
  | refused n ns e => exact List.forall_mem_singleton.2 rfl

theorem Sends.all_eq_false_iff {ns : List Int} (h : Sends signal ns t all) :
    all = false ↔ ∃ e ∈ t, e.isRefused := by
  induction h with
  | nothing => exact iff_of_false nofun (by simp)
  | sent _ ih =>
    rw [ih, List.exists_mem_cons_iff]
    refine (or_iff_right ?_).symm
    rintro ⟨_, ⟨⟩⟩
  | refused n ns e => exact iff_of_true rfl ⟨_, List.mem_singleton_self _, signal, rfl⟩

theorem Attempt.isKill {g : Option KillTarget} (h : Attempt signal g t all) : ∀ e ∈ t, e.isKill := by
  cases h with
  | unknown => exact List.forall_mem_nil _
  | unsent h => exact h.isKill
  | sent h _ => exact h.isKill
  | continued h _ _ _ hcont => exact List.forall_mem_append.2 ⟨h.isKill, hcont.isKill⟩

theorem Attempt.all_eq_false_iff {g : Option KillTarget} (h : Attempt signal g t all) :
    all = false ↔ g = none ∨ ∃ e ∈ t, e.isRefused := by
  cases h with
  | unknown => exact iff_of_true rfl (.inl rfl)
  | unsent h => exact h.all_eq_false_iff.trans (or_iff_right nofun).symm
  | sent h _ => exact h.all_eq_false_iff.trans (or_iff_right nofun).symm
  | @continued g t u all h _ _ _ hcont =>
    have hsent : ¬ ∃ e ∈ t, e.isRefused := mt h.all_eq_false_iff.2 nofun
    rw [hcont.all_eq_false_iff, or_iff_right nofun]
    constructor
    · exact fun ⟨e, he, hrefused⟩ ↦ ⟨e, List.mem_append_right _ he, hrefused⟩
    · rintro ⟨e, he, hrefused⟩
      exact ⟨e, (List.mem_append.1 he).resolve_left fun he ↦ hsent ⟨e, he, hrefused⟩, hrefused⟩

/-- What is done for each of some words. -/
def Attempts (signal : Signal) (table : JobTable) : List String → List (List Event × Bool) → Prop :=
  List.Forall₂ fun word part ↦ Attempt signal (table.killTarget? word) part.1 part.2

theorem Attempts.all_eq_false_iff {table : JobTable} {words : List String} {parts : List (List Event × Bool)}
    (h : Attempts signal table words parts) :
    parts.all Prod.snd = false ↔
      (∃ word ∈ words, table.killTarget? word = none) ∨ ∃ e ∈ (parts.map Prod.fst).flatten, e.isRefused := by
  induction h with
  | nil => simp
  | @cons word part words parts hattempt _ ih =>
    have hfirst := hattempt.all_eq_false_iff
    rw [List.all_cons, Bool.and_eq_false_iff, hfirst, ih, List.exists_mem_cons_iff, List.map_cons, List.flatten_cons]
    simp only [List.mem_append, or_and_right, exists_or]
    exact or_or_or_comm ..

namespace JobTable

theorem exists_get?_of_named? {t : JobTable} {word : String} {id : JobId} (h : t.named? word = some id) :
    ∃ j, t.get? id = some j := by
  have hmem {j : Job} (hj : j ∈ t.jobs) : ∃ k, t.get? j.id = some k :=
    Option.isSome_iff_exists.1 (List.find?_isSome.2 ⟨j, hj, beq_self_eq_true j.id⟩)
  have hfound {o : Option Job} (ho : ∀ j ∈ o, j ∈ t.jobs) (h : o.map (·.id) = some id) :
      ∃ j, t.get? id = some j := by
    obtain ⟨j, hj, rfl⟩ := Option.map_eq_some_iff.1 h
    exact hmem (ho j hj)
  simp only [named?] at h
  generalize (if word.startsWith "%" then (word.drop 1).toString else word) = body at h
  split at h
  · rcases (Option.orElse_eq_some _ _ _).1 h with hfocus | ⟨-, hlast⟩
    · exact Option.isSome_iff_exists.1 (Option.filter_eq_some_iff.1 hfocus).2
    · exact hfound (fun _ ↦ List.mem_of_getLast?) hlast
  split at h
  · exact hfound (fun _ ↦ List.mem_of_find?_eq_some) h
  split at h
  · exact hfound (fun _ ↦ List.mem_of_find?_eq_some) h
  · cases h

theorem sends_of_signalEach {ps : List Process} {r : Except Failure Unit} (h : Runs (signalEach signal ps) t r) :
    Sends signal (ps.map (·.pid)) t r.isOk := by
  induction ps generalizing t with
  | nil =>
    obtain ⟨rfl, rfl⟩ := Sys.runs_pure.1 h
    exact .nothing
  | cons p ps ih =>
    obtain ⟨e, rfl, rfl⟩ | ⟨rest, rfl, hrest⟩ := signalEach_cases h
    · exact .refused _ _ e
    · exact .sent (ih hrest)

theorem sends_of_signal {table : JobTable} {id : JobId} {j : Job} (hj : table.get? id = some j)
    {r : Except Failure Unit} (h : Runs (table.signal id signal) t r) :
    Sends signal (KillTarget.job j).addressees t r.isOk := by
  rw [JobTable.signal, hj] at h
  rw [KillTarget.addressees]
  cases hg : j.group with
  | none =>
    simp only [hg] at h ⊢
    exact sends_of_signalEach h
  | some g =>
    simp only [hg] at h ⊢
    obtain ⟨answer, rest, rfl, hnext⟩ := Sys.runs_ask_bind.1 h
    cases answer with
    | error e =>
      obtain ⟨rfl, rfl⟩ := Sys.runs_pure.1 hnext
      exact .refused _ _ e
    | ok _ =>
      obtain ⟨rfl, rfl⟩ := Sys.runs_pure.1 hnext
      exact .sent .nothing

end JobTable

namespace Shell

open Builtin

variable {s s' : Shell}

theorem yields_named {b : Builtin} {word : String} {r : Except Failure JobId}
    (h : Yields (named b (some word)).run s t r s') :
    t = [] ∧ s' = s ∧ ((s.jobs.named? word = none ∧ ∃ f, r = .error f) ∨
      ∃ id, s.jobs.named? word = some id ∧ r = .ok id) := by
  obtain ⟨_, v, _, s₁, rfl, hget, hfound⟩ := yields_doing_bind.1 h
  obtain ⟨rfl, rfl, rfl⟩ := yields_pure.1 hget
  simp only at hfound
  split at hfound
  · next id hid =>
    obtain ⟨rfl, rfl, rfl⟩ := yields_pure.1 hfound
    exact ⟨rfl, rfl, .inr ⟨id, hid, rfl⟩⟩
  · next hnone =>
    obtain ⟨rfl, rfl, rfl⟩ := yields_pure.1 hfound
    exact ⟨rfl, rfl, .inl ⟨hnone, _, rfl⟩⟩

theorem yields_sendToJob {id : JobId} {j : Job} (hj : s.jobs.get? id = some j) {r : Except Failure Unit}
    (h : Yields (do
      signalJob id signal
      let stopped := ((← doing get).jobs.get? id).any (·.isStopped)
      if stopped && needsContinue signal then signalJob id .cont : Try Unit).run s t r s') :
    s' = s ∧ Attempt signal (some (.job j)) t r.isOk := by
  obtain ⟨f, rfl, hsignal⟩ | ⟨u, v, _, s₁, rfl, hsignal, hrest⟩ := yields_try_bind h
  · obtain ⟨hruns, rfl⟩ := yields_signalJob hsignal
    exact ⟨rfl, .unsent (JobTable.sends_of_signal hj hruns)⟩
  · obtain ⟨hruns, rfl⟩ := yields_signalJob hsignal
    have hsent : Sends signal (KillTarget.job j).addressees u true := JobTable.sends_of_signal hj hruns
    obtain ⟨_, w, _, s₂, rfl, hget, hfollow⟩ := yields_doing_bind.1 hrest
    obtain ⟨rfl, rfl, rfl⟩ := yields_pure.1 hget
    simp only [hj, Option.any_some, needsContinue, Bool.and_eq_true, decide_eq_true_eq] at hfollow
    split at hfollow
    · next hdue =>
      obtain ⟨hcont, rfl⟩ := yields_signalJob hfollow
      exact ⟨rfl, .continued hsent hdue.1 hdue.2.1 hdue.2.2 (JobTable.sends_of_signal hj hcont)⟩
    · next hdue =>
      obtain ⟨rfl, rfl, rfl⟩ := yields_pure.1 hfollow
      rw [List.nil_append, List.append_nil]
      exact ⟨rfl, .sent hsent hdue⟩

theorem yields_sendTo {word : String} {r : Except Failure Unit}
    (h : Yields (sendTo signal word).run s t r s') :
    s' = s ∧ Attempt signal (s.jobs.killTarget? word) t r.isOk := by
  rw [sendTo] at h
  rw [JobTable.killTarget?]
  split at h
  · next hmarked =>
    rw [if_pos hmarked]
    obtain ⟨f, rfl, hnamed⟩ | ⟨_, v, id, s₁, rfl, hnamed, hrest⟩ := yields_try_bind h
    · obtain ⟨rfl, rfl, ⟨hnone, -⟩ | ⟨_, -, ⟨⟩⟩⟩ := yields_named hnamed
      rw [hnone]
      exact ⟨rfl, .unknown⟩
    · obtain ⟨rfl, rfl, ⟨-, _, ⟨⟩⟩ | ⟨_, hid, ⟨⟩⟩⟩ := yields_named hnamed
      obtain ⟨j, hj⟩ := JobTable.exists_get?_of_named? hid
      rw [hid, Option.bind_some, hj]
      exact yields_sendToJob hj hrest
  · next hunmarked =>
    rw [if_neg hunmarked]
    split at h
    · next hnone =>
      obtain ⟨rfl, rfl, rfl⟩ := yields_pure.1 h
      rw [hnone]
      exact ⟨rfl, .unknown⟩
    · next n hn =>
      rw [hn]
      obtain ⟨u, v, answer, s₁, rfl, hkill, hend⟩ := yields_doing_bind.1 h
      obtain ⟨rfl, rfl⟩ := yields_ask hkill
      cases answer with
      | ok _ =>
        obtain ⟨rfl, rfl, rfl⟩ := yields_pure.1 hend
        exact ⟨rfl, .sent (.sent .nothing) fun hdue ↦ Bool.false_ne_true hdue.1⟩
      | error e =>
        obtain ⟨rfl, rfl, rfl⟩ := yields_pure.1 hend
        exact ⟨rfl, .unsent (.refused _ _ e)⟩

theorem yields_report {f : Failure} (h : Yields (report f) s t () s') :
    s' = s ∧ t.filter Event.isKill = [] := by
  refine ⟨yields_complain h, List.filter_eq_nil_iff.2 ?_⟩
  obtain ⟨u, v, ⟨r, left⟩, s₁, rfl, hwrite, hend⟩ := yields_bind.1 h
  obtain ⟨hwritten, rfl⟩ := yields_system.1 hwrite
  have hquiet : ∀ e ∈ u, ¬ e.isKill := by
    intro e he
    obtain ⟨bytes, hbytes⟩ := Sys.only_writes_writeLoop _ _ _ _ _ hwritten e he
    obtain ⟨call, reply⟩ := e
    obtain rfl : call = .write Sys.stderr bytes := hbytes
    exact nofun
  have hnothing : v = [] := by
    cases r with
    | ok _ => exact (yields_pure.1 hend).1
    | error e =>
      simp only at hend
      split at hend
      · exact (yields_pure.1 hend).1
      · exact (not_yields_giveUp hend).elim
  rw [hnothing, List.append_nil]
  exact hquiet

/-- What is done for each word does not depend on what has come of the others. -/
theorem yields_eachReported {targets : List String} {good : Bool}
    (h : Yields (eachReported (sendTo signal) targets) s t good s') :
    s' = s ∧ ∃ parts : List (List Event × Bool),
      Attempts signal s.jobs targets parts ∧
      t.filter Event.isKill = (parts.map Prod.fst).flatten ∧ good = parts.all Prod.snd := by
  induction targets generalizing t good with
  | nil =>
    obtain ⟨rfl, rfl, rfl⟩ := yields_pure.1 h
    exact ⟨rfl, [], .nil, rfl, rfl⟩
  | cons word targets ih =>
    obtain ⟨u, v, r, s₁, rfl, hsend, hrest⟩ := yields_bind.1 h
    obtain ⟨rfl, hattempt⟩ := yields_sendTo hsend
    have hkills : u.filter Event.isKill = u := List.filter_eq_self.2 hattempt.isKill
    cases r with
    | ok _ =>
      obtain ⟨rfl, parts, hparts, hlater, rfl⟩ := ih hrest
      refine ⟨rfl, (u, true) :: parts, .cons hattempt hparts, ?_, rfl⟩
      rw [List.filter_append, hkills, hlater]
      rfl
    | error e =>
      obtain ⟨w, x, _, s₂, rfl, hreport, hnext⟩ := yields_bind.1 hrest
      obtain ⟨rfl, hquiet⟩ := yields_report hreport
      obtain ⟨y, z, _, s₃, rfl, hothers, hend⟩ := yields_bind.1 hnext
      obtain ⟨rfl, rfl, rfl⟩ := yields_pure.1 hend
      obtain ⟨rfl, parts, hparts, hlater, -⟩ := ih hothers
      refine ⟨rfl, (u, false) :: parts, .cons hattempt hparts, ?_, rfl⟩
      rw [List.filter_append, List.filter_append, hkills, hquiet, List.append_nil, hlater]
      rfl

theorem Returns.sendTo (signal : Signal) (word : String) : Returns (Shell.sendTo signal word).run := by
  unfold Shell.sendTo
  split
  · refine (Returns.named _ _).try_bind fun id ↦ ?_
    refine (Returns.signalJob id signal).try_bind fun _ ↦ Returns.doing_get_bind fun s ↦ ?_
    simp only
    split
    · exact Returns.signalJob id .cont
    · exact .pure _
  split
  · exact .pure _
  · rename_i pid _
    have hkill : (Sys.ask (.kill pid (some signal))).Delivers Audible fun _ ↦ True :=
      ⟨⟨.ok (), trivial⟩, fun _ _ ↦ trivial⟩
    refine (Returns.doing (.system hkill)).try_bind fun answer ↦ ?_
    cases answer with
    | ok _ => exact .pure _
    | error e => exact .pure _

variable {words targets : List String}

theorem killBuiltin_eq (hread : KillRequest.read words = .ok (.send signal targets)) :
    killBuiltin words =
      (do if !(← doing (eachReported (sendTo signal) targets)) then throw (silent 1) : Try Unit) := by
  rw [killBuiltin, hread]
  rfl

theorem yields_killBuiltin (hread : KillRequest.read words = .ok (.send signal targets))
    {r : Except Failure Unit} :
    Yields (killBuiltin words).run s t r s' ↔
      ∃ good, Yields (eachReported (sendTo signal) targets) s t good s' ∧
        r = if good then .ok () else .error (silent 1) := by
  rw [killBuiltin_eq hread]
  constructor
  · intro h
    obtain ⟨u, v, good, s₁, rfl, heach, hend⟩ := yields_doing_bind.1 h
    cases good with
    | false =>
      obtain ⟨rfl, rfl, rfl⟩ := yields_pure.1 hend
      exact ⟨false, (List.append_nil u).symm ▸ heach, rfl⟩
    | true =>
      obtain ⟨rfl, rfl, rfl⟩ := yields_pure.1 hend
      exact ⟨true, (List.append_nil u).symm ▸ heach, rfl⟩
  · rintro ⟨good, heach, rfl⟩
    refine yields_doing_bind.2 ⟨t, [], good, s', (List.append_nil t).symm, heach, ?_⟩
    cases good <;> exact .done _

theorem succeeds_named {b : Builtin} {word : String} {id : JobId} (h : s.jobs.named? word = some id) :
    Succeeds (named b (some word)) s [] id s := by
  refine succeeds_get_bind.2 ?_
  simp only [h]
  exact .done _

theorem exists_yields_eachReported {α : Type} {f : α → Try Unit} {a : α} {as : List α} {e : Failure} {good : Bool}
    {u v : List Event} (ha : Yields (f a).run s u (.error e) s) (has : Yields (eachReported f as) s v good s) :
    ∃ w, Yields (eachReported f (a :: as)) s (u ++ (w ++ v)) false s ∧ w.filter Event.isKill = [] := by
  obtain ⟨w, _, hreport⟩ := (Returns.report e).exists_yields s
  refine ⟨w, yields_bind.2 ⟨u, _, _, s, rfl, ha, ?_⟩, (yields_report hreport).2⟩
  refine yields_bind.2 ⟨w, v, (), s, rfl, hreport, ?_⟩
  exact yields_bind.2 ⟨v, [], good, s, (List.append_nil v).symm, has, .done _⟩

def withStoppedJob : Shell :=
  { history := ⟨0, [], 0⟩, config := .script, isInteractive := false,
    jobs := ⟨[⟨1, none, "a", [⟨11, "a", .stopped .tstp⟩], true, false⟩], some 1⟩ }

theorem yields_eachReported_stopped (h : needsContinue signal) :
    Yields (eachReported (sendTo signal) ["%1"]) withStoppedJob
      [⟨.kill 11 (some signal), .ok ()⟩, ⟨.kill 11 (some .cont), .ok ()⟩] true withStoppedJob := by
  have hnamed : withStoppedJob.jobs.named? "%1" = some 1 := by decide +kernel
  have hcont : Succeeds (if true && needsContinue signal then signalJob 1 .cont else pure ()) withStoppedJob
      [⟨.kill 11 (some .cont), .ok ()⟩] () withStoppedJob := by
    rw [h]
    exact .call (.done _)
  have hsend : Succeeds (sendTo signal "%1") withStoppedJob
      [⟨.kill 11 (some signal), .ok ()⟩, ⟨.kill 11 (some .cont), .ok ()⟩] () withStoppedJob := by
    rw [sendTo, if_pos (by decide +kernel)]
    exact succeeds_bind.2 ⟨[], _, 1, _, rfl, succeeds_named hnamed, .call hcont⟩
  exact yields_bind.2 ⟨_, [], .ok (), _, (List.append_nil _).symm, hsend, .done _⟩

/-- For every signal and list of targets that it is asked for, `kill` leaves the shell as it is, and comes to a
result where its complaints are heard. It attempts each target in order, whatever has come of those before it:
a target is sent the signal, a job without a group process by process up to the first that cannot be sent it,
and a stopped job that has been sent another signal than those that continue and kill is continued. It fails
if a word stands for nothing, or some signal could not be sent, and only then. -/
theorem kill_treats_targets_apart (hread : KillRequest.read words = .ok (.send signal targets)) :
    Returns (killBuiltin words).run ∧
      ∀ s t r s', Yields (killBuiltin words).run s t r s' →
        s' = s ∧
        (∃ parts : List (List Event × Bool), Attempts signal s.jobs targets parts ∧
          t.filter Event.isKill = (parts.map Prod.fst).flatten) ∧
        (r = .ok () ∨ r = .error (silent 1)) ∧
        (r = .error (silent 1) ↔
          (∃ word ∈ targets, s.jobs.killTarget? word = none) ∨ ∃ e ∈ t, e.isRefused) := by
  constructor
  · rw [killBuiltin_eq hread]
    refine (Returns.doing (.eachReported (.sendTo signal) targets)).try_bind fun good ↦ ?_
    split <;> exact .pure _
  · intro s t r s' h
    obtain ⟨good, heach, rfl⟩ := (yields_killBuiltin hread).1 h
    obtain ⟨rfl, parts, hparts, hkills, rfl⟩ := yields_eachReported heach
    have hrefused : (∃ e ∈ t, e.isRefused) ↔ ∃ e ∈ (parts.map Prod.fst).flatten, e.isRefused := by
      rw [← hkills]
      simp only [List.mem_filter, and_assoc]
      exact exists_congr fun e ↦ and_congr_right fun _ ↦ ⟨fun h ↦ ⟨Event.isKill_of_isRefused h, h⟩, And.right⟩
    rw [hrefused, ← hparts.all_eq_false_iff]
    refine ⟨rfl, ⟨parts, hparts, hkills⟩, ?_⟩
    cases parts.all Prod.snd with
    | false => exact ⟨.inr rfl, iff_of_true rfl rfl⟩
    | true => exact ⟨.inl rfl, iff_of_false nofun nofun⟩

theorem kill_treats_targets_apart_after_failures :
    KillRequest.read ["-hup", "42", "b", "%1"] = .ok (.send .hup ["42", "b", "%1"]) ∧
      ∃ t parts, Yields (killBuiltin ["-hup", "42", "b", "%1"]).run withStoppedJob t (.error (silent 1)) withStoppedJob ∧
        Attempts .hup withStoppedJob.jobs ["42", "b", "%1"] parts ∧
        (parts.map Prod.fst).flatten = [⟨.kill 42 (some .hup), .error .noProcess⟩,
          ⟨.kill 11 (some .hup), .ok ()⟩, ⟨.kill 11 (some .cont), .ok ()⟩] := by
  have hread : KillRequest.read ["-hup", "42", "b", "%1"] = .ok (.send .hup ["42", "b", "%1"]) := by decide +kernel
  have hword : Yields (sendTo .hup "b").run withStoppedJob []
      (.error (refusal ("kill: " ++ "b" ++ ": arguments must be process or job IDs"))) withStoppedJob := by
    rw [sendTo, if_neg (Bool.eq_false_iff.1 (by decide +kernel)), show Decimal.int32? "b" = none by decide +kernel]
    exact .done _
  have hgone : Yields (sendTo .hup "42").run withStoppedJob [⟨.kill 42 (some .hup), .error .noProcess⟩]
      (.error (refusal ("kill: (" ++ Decimal.text 42 ++ ") - " ++ Errno.noProcess.description))) withStoppedJob := by
    rw [sendTo, if_neg (Bool.eq_false_iff.1 (by decide +kernel)), show Decimal.int32? "42" = some 42 by decide +kernel]
    exact .call (.done _)
  obtain ⟨v, hrest, hv⟩ := exists_yields_eachReported hword (yields_eachReported_stopped rfl)
  obtain ⟨u, hall, hu⟩ := exists_yields_eachReported hgone hrest
  have h := (yields_killBuiltin hread).2 ⟨false, hall, rfl⟩
  obtain ⟨-, ⟨parts, hparts, hkills⟩, -⟩ := (kill_treats_targets_apart hread).2 _ _ _ _ h
  refine ⟨hread, _, parts, h, hparts, hkills.symm.trans ?_⟩
  simp only [List.filter_append, hu, hv]
  rfl

/-- A job that has stopped is sent a signal that stops it, and is continued. -/
theorem kill_continues_stopped :
    ¬ ∀ (words targets : List String) (signal : Signal) (s s' : Shell) (t : List Event) (r : Except Failure Unit),
      KillRequest.read words = .ok (.send signal targets) → signal ∈ [.stop, .tstp, .ttin, .ttou] →
      Yields (killBuiltin words).run s t r s' → ∀ e ∈ t, ∀ n, e.call ≠ .kill n (some .cont) := by
  intro hall
  have hread : KillRequest.read ["-STOP", "%1"] = .ok (.send .stop ["%1"]) := by decide +kernel
  have h := (yields_killBuiltin hread).2 ⟨true, yields_eachReported_stopped rfl, rfl⟩
  exact hall _ _ _ _ _ _ _ hread (by decide) h _ (List.mem_cons_of_mem _ List.mem_cons_self) 11 rfl

end Shell

end JobShell

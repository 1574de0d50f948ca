import JobShell.Proofs.Job.Announcing
import JobShell.Proofs.Job.Registration
import JobShell.Proofs.Shell.Stillness

namespace JobShell

def Job.placed (foreground : Bool) (j : Job) : Job := { j with foreground }

theorem Job.origin_placed (foreground : Bool) (j : Job) : (j.placed foreground).origin = j.origin := rfl

namespace JobTable

theorem get?_eq_some {t : JobTable} {j : Job} (hids : (t.jobs.map (·.id)).Nodup) (hj : j ∈ t.jobs) :
    t.get? j.id = some j := by
  obtain ⟨i, hi⟩ := Option.isSome_iff_exists.1 (get?_isSome_iff.2 (List.mem_map_of_mem hj))
  have hmem : i ∈ t.jobs := List.mem_of_find?_eq_some hi
  have hid : i.id = j.id := by simpa using List.find?_some hi
  rw [hi, List.inj_on_of_nodup_map hids hmem hj hid]

theorem foldl_markNotified (t : JobTable) (ids : List JobId) :
    (ids.foldl markNotified t).jobs = t.jobs.map fun j ↦ if j.id ∈ ids then j.marked else j := by
  induction ids generalizing t with
  | nil => simp
  | cons id ids ih =>
    rw [List.foldl_cons, ih, markNotified, modify, List.map_map]
    refine List.map_congr_left fun j _ ↦ ?_
    by_cases hj : j.id = id
    · have hmem : j.id ∈ id :: ids := hj ▸ List.mem_cons_self
      rw [Function.comp_apply, if_pos hj, if_pos hmem]
      split <;> rfl
    · simp [hj]

theorem foldl_markNotified_ids (t : JobTable) :
    ((t.jobs.map (·.id)).foldl markNotified t).jobs = t.jobs.map Job.marked := by
  rw [foldl_markNotified]
  exact List.map_congr_left fun j hj ↦ if_pos (List.mem_map_of_mem hj)

theorem removeReported_of_marked {t : JobTable} {js : List Job} (h : t.jobs = js.map Job.marked) :
    t.removeReported.jobs = (js.filter (!·.isCompleted)).map Job.marked := by
  rw [removeReported, h, List.filter_map]
  rfl

theorem announces_of_completed {j : Job} (h : j.isCompleted) : announces j = !j.foreground := by
  have hstatus : j.status.isCompleted := by
    unfold Job.status
    rw [if_pos h]
    split <;> rfl
  unfold announces
  cases hs : j.status with
  | running | stopped =>
    rw [hs] at hstatus
    cases hstatus
  | signaled | done => rfl

end JobTable

namespace Shell

open Sys (Runs)

def lines (js : List Job) : String := String.join (js.map Job.line)

/-- One thing that happens to the jobs of a shell, with the text that it shows. -/
inductive Move
  | register (id : JobId)
  | poll
  | resume (id : JobId)
  | place (id : JobId) (foreground : Bool)
  | notify (text : String)
  | list (text : String)

namespace Move

def text : Move → String
  | notify text | list text => text
  | _ => ""

def showsJobs : Move → Bool
  | notify _ | list _ => true
  | _ => false

def isNotification : Move → Bool
  | notify _ => true
  | _ => false

def registered (moves : List Move) : List JobId :=
  moves.filterMap fun
    | register id => some id
    | _ => none

end Move

/-- How a move changes a shell, whatever the kernel reports. No poll fails, and no line. -/
inductive Makes (s : Shell) : Move → Shell → Prop
  | register (group : Option Int) (name : String) (connector : Connector)
      (processes : List Process) :
      Makes s (.register (s.jobs.register group name connector processes).1)
        { s with jobs := (s.jobs.register group name connector processes).2 }
  | poll {t : List Event} {changes : List (JobId × JobStatus)} {jobs : JobTable} :
      Runs s.jobs.reap t (.ok changes, jobs) → Makes s .poll { s with jobs }
  | resume (id : JobId) : Makes s (.resume id) { s with jobs := s.jobs.modify id Job.markRunning }
  | place (id : JobId) (foreground : Bool) :
      Makes s (.place id foreground)
        { s with jobs := s.jobs.modify id (Job.placed foreground) }
  | notify {t : List Event} {jobs : JobTable} {s' : Shell} {text : String} :
      Yields (s.jobs.notify print) s t (.ok (), jobs) s' → Printed s t s' text →
        Makes s (.notify text) { s' with jobs }
  | list {t : List Event} {s' : Shell} {text : String} :
      Succeeds (jobsBuiltin []) s t () s' → Said s t s' text → Makes s (.list text) s'

inductive Course : Shell → List Move → Shell → Prop
  | nil (s : Shell) : Course s [] s
  | cons {s s₁ s' : Shell} {m : Move} {ms : List Move} :
      Makes s m s₁ → Course s₁ ms s' → Course s (m :: ms) s'

/-- How a move that shows jobs handles them: `seen` are the jobs as it finds them, `shown` those that
get a line. -/
structure Handles (s : Shell) (m : Move) (s' : Shell) (seen shown : List Job) : Prop where
  polled : List.Forall₂ Job.Polled s.jobs.jobs seen
  text : m.text = lines shown
  sublist : shown.Sublist seen
  once : ∀ j ∈ seen, j.isCompleted →
    shown.count j = if m.isNotification && j.foreground then 0 else 1
  leaves : s'.jobs.jobs = (seen.filter (!·.isCompleted)).map Job.marked

structure Settled (t : JobTable) : Prop where
  nodup : (t.jobs.map (·.id)).Nodup
  pending : ∀ j ∈ t.jobs, j.isCompleted → j.notified = false

variable {s s' : Shell} {t : List Event}

theorem lines_cons (j : Job) (js : List Job) : lines (j :: js) = j.line ++ lines js := by
  simp [lines]

theorem yields_notifyJobs {js ks : List Job}
    (h : Yields (JobTable.notifyJobs print js) s t (.ok (), ks) s') :
    ks = js.map Job.marked ∧ Printed s t s' (lines (js.filter JobTable.isDue)) := by
  induction js generalizing s t ks with
  | nil =>
    obtain ⟨rfl, ⟨⟩, rfl⟩ := yields_pure.1 h
    exact ⟨rfl, .of_eq rfl rfl rfl⟩
  | cons j js ih =>
    rw [JobTable.notifyJobs_cons] at h
    obtain ⟨u, v, shown, s₁, rfl, hshown, hnext⟩ := yields_bind.1 h
    cases shown with
    | error f => obtain ⟨-, ⟨⟩, -⟩ := yields_pure.1 hnext
    | ok _ =>
      obtain ⟨v, w, ⟨r, ks'⟩, s₂, rfl, hrest, hend⟩ := yields_bind.1 hnext
      obtain ⟨rfl, ⟨⟩, rfl⟩ := yields_pure.1 hend
      obtain ⟨rfl, hprinted⟩ := ih hrest
      refine ⟨rfl, ?_⟩
      rw [List.append_nil]
      by_cases hj : JobTable.isDue j
      · rw [← JobTable.isDue, if_pos hj] at hshown
        rw [List.filter_cons_of_pos hj, lines_cons]
        exact (j.join_pieces ▸ (yields_print hshown).1).trans hprinted
      · rw [← JobTable.isDue, if_neg hj] at hshown
        obtain ⟨rfl, -, rfl⟩ := yields_pure.1 hshown
        rw [List.filter_cons_of_neg hj]
        exact hprinted

theorem succeeds_listJobs {js : List Job} (hjs : ∀ j ∈ js, s.jobs.get? j.id = some j)
    (h : Succeeds ((js.map (·.id)).forM (listJob .plain)) s t () s') :
    s'.jobs = s.jobs ∧ Said s t s' (lines js) := by
  induction js generalizing s t with
  | nil =>
    obtain ⟨rfl, -, rfl⟩ := succeeds_pure.1 h
    exact ⟨rfl, .of_eq rfl rfl rfl⟩
  | cons j js ih =>
    obtain ⟨u, v, _, s₁, rfl, hfirst, hrest⟩ := succeeds_bind.1 h
    rw [listJob, succeeds_get_bind, hjs j List.mem_cons_self] at hfirst
    obtain ⟨u, w, _, s₂, rfl, htell, hend⟩ := succeeds_bind.1 hfirst
    obtain ⟨rfl, -, rfl⟩ := succeeds_pure.1 hend
    obtain ⟨r, hsay, hr⟩ := yields_map.1 (succeeds_attempt.1 htell)
    cases r with
    | error f => cases hr
    | ok _ =>
      obtain ⟨hline, hjobs⟩ := yields_say hsay
      obtain ⟨hrest, hsaid⟩ := ih (fun k hk ↦ hjobs ▸ hjs k (List.mem_cons_of_mem j hk)) hrest
      rw [List.append_nil, lines_cons]
      exact ⟨hrest.trans hjobs, (j.join_pieces ▸ hline).trans hsaid⟩

theorem succeeds_reapTable {changes : List (JobId × JobStatus)}
    (h : Succeeds (attempt reapTable) s t changes s') :
    List.Forall₂ Job.Polled s.jobs.jobs s'.jobs.jobs ∧ Said s t s' "" := by
  obtain ⟨hreap, hs'⟩ := yields_reapTable (succeeds_attempt.1 h)
  refine ⟨(JobTable.runs_reap hreap).2 changes rfl, .of_eq (by rw [hs']) (by rw [hs']) ?_⟩
  refine taken_eq_empty fun e he fd bytes hwrite ↦ ?_
  have hinquiry := JobTable.only_reap s.jobs _ _ hreap e he
  rw [hwrite] at hinquiry
  exact hinquiry

theorem succeeds_jobsBuiltin (hids : (s.jobs.jobs.map (·.id)).Nodup)
    (h : Succeeds (jobsBuiltin []) s t () s') :
    ∃ seen, List.Forall₂ Job.Polled s.jobs.jobs seen ∧ Said s t s' (lines seen) ∧
      s'.jobs.jobs = (seen.filter (!·.isCompleted)).map Job.marked := by
  have hread : Listing.read [] = .ok (.plain, []) := rfl
  rw [jobsBuiltin] at h
  obtain ⟨_, v, ⟨style, specs⟩, s, rfl, hstyle, hpoll⟩ := succeeds_bind.1 h
  obtain ⟨rfl, hr, rfl⟩ := yields_pure.1 (succeeds_attempt.1 hstyle)
  rw [hread] at hr
  obtain ⟨rfl, rfl⟩ := Prod.mk.inj (Except.ok.inj hr)
  -- what follows the poll is the same whether or not there is one
  obtain ⟨u, w, s₁, rfl, hpolled, hnothing, hlist⟩ : ∃ u w s₁, v = u ++ w ∧
      List.Forall₂ Job.Polled s.jobs.jobs s₁.jobs.jobs ∧ Said s u s₁ "" ∧
      Succeeds ((s₁.jobs.jobs.map (·.id)).forM (listJob .plain) >>= fun _ ↦ doing (modify fun s ↦
        { s with jobs :=
          ((s₁.jobs.jobs.map (·.id)).foldl JobTable.markNotified s.jobs).removeReported })) s₁ w () s' := by
    simp only at hpoll
    rw [succeeds_get_bind] at hpoll
    split at hpoll
    · obtain ⟨u, w, changes, s₁, rfl, hreap, hlist⟩ := succeeds_bind.1 hpoll
      obtain ⟨hpolled, hnothing⟩ := succeeds_reapTable hreap
      exact ⟨u, w, s₁, rfl, hpolled, hnothing, hlist⟩
    · exact ⟨[], v, s, rfl, Job.polled_refl _, .of_eq rfl rfl rfl, hpoll⟩
  obtain ⟨v, w, _, s₂, rfl, hlines, hend⟩ := succeeds_bind.1 hlist
  obtain ⟨rfl, rfl⟩ := yields_modify.1 (succeeds_doing.1 hend)
  have hget : ∀ j ∈ s₁.jobs.jobs, s₁.jobs.get? j.id = some j :=
    fun j hj ↦ JobTable.get?_eq_some (ids_of_origins (Job.origins_of_polled hpolled) ▸ hids) hj
  obtain ⟨hjobs, hsaid⟩ := succeeds_listJobs hget hlines
  refine ⟨s₁.jobs.jobs, hpolled, ?_, ?_⟩
  · rw [List.append_nil, List.nil_append, ← String.empty_append (s := lines s₁.jobs.jobs)]
    exact hnothing.trans hsaid
  · rw [hjobs]
    exact JobTable.removeReported_of_marked (JobTable.foldl_markNotified_ids s₁.jobs)

theorem Settled.of_polled {u v : JobTable} (hu : Settled u)
    (h : List.Forall₂ Job.Polled u.jobs v.jobs) : Settled v := by
  refine ⟨ids_of_origins (Job.origins_of_polled h) ▸ hu.nodup, fun k hk hcompleted ↦ ?_⟩
  obtain ⟨j, hj, hjk⟩ := Job.exists_of_polled h hk
  obtain rfl | ⟨-, -, -, hnotified⟩ := hjk
  · exact hu.pending k hj hcompleted
  · exact hnotified

theorem handles_notify {jobs : JobTable} {text : String} (hs : Settled s.jobs)
    (h : Yields (s.jobs.notify print) s t (.ok (), jobs) s') (htext : Printed s t s' text) :
    ∃ shown, Handles s (.notify text) { s' with jobs } s.jobs.jobs shown := by
  obtain ⟨u, v, ⟨r, ks⟩, s₁, rfl, hshow, hend⟩ := yields_bind.1 h
  cases r with
  | error f => obtain ⟨-, ⟨⟩, -⟩ := yields_pure.1 hend
  | ok _ =>
    obtain ⟨rfl, ⟨⟩, rfl⟩ := yields_pure.1 hend
    obtain ⟨rfl, hprinted⟩ := yields_notifyJobs hshow
    refine ⟨_, Job.polled_refl _, htext.unique (by rwa [List.append_nil]), List.filter_sublist, ?_, ?_⟩
    · intro j hj hcompleted
      have hdue : JobTable.isDue j = !j.foreground := by
        rw [JobTable.isDue, hs.pending j hj hcompleted, JobTable.announces_of_completed hcompleted]
        rfl
      cases hforeground : j.foreground with
      | true =>
        refine List.count_eq_zero.2 fun hmem ↦ ?_
        have hshown := (List.mem_filter.1 hmem).2
        rw [hdue, hforeground] at hshown
        cases hshown
      | false =>
        rw [hforeground] at hdue
        rw [List.count_filter hdue]
        exact List.count_eq_one_of_mem hs.nodup.of_map hj
    · exact JobTable.removeReported_of_marked rfl

theorem handles_list {text : String} (hs : Settled s.jobs)
    (h : Succeeds (jobsBuiltin []) s t () s') (htext : Said s t s' text) :
    ∃ seen, Handles s (.list text) s' seen seen := by
  obtain ⟨seen, hpolled, hsaid, hjobs⟩ := succeeds_jobsBuiltin hs.nodup h
  refine ⟨seen, hpolled, htext.unique hsaid, List.Sublist.refl seen, fun j hj _ ↦ ?_, ?_⟩
  · have hids : (seen.map (·.id)).Nodup := ids_of_origins (Job.origins_of_polled hpolled) ▸ hs.nodup
    exact List.count_eq_one_of_mem hids.of_map hj
  · exact hjobs

variable {m : Move}

theorem Makes.handles (hs : Settled s.jobs) (h : Makes s m s') (hm : m.showsJobs) :
    ∃ seen shown, Handles s m s' seen shown := by
  cases h with
  | notify h htext =>
    obtain ⟨shown, hhandles⟩ := handles_notify hs h htext
    exact ⟨_, shown, hhandles⟩
  | list h htext =>
    obtain ⟨seen, hhandles⟩ := handles_list hs h htext
    exact ⟨seen, seen, hhandles⟩
  | _ => cases hm

theorem Makes.keeps (h : Makes s m s') (hm : m.showsJobs = false) :
    m.text = "" ∧ s.jobs.jobs.map Job.origin <+: s'.jobs.jobs.map Job.origin := by
  cases h with
  | register group name connector processes =>
    refine ⟨rfl, ?_⟩
    rw [JobTable.register, JobTable.add, List.map_append]
    exact List.prefix_append _ _
  | poll h => exact ⟨rfl, (JobTable.runs_reap h).1 ▸ List.prefix_refl _⟩
  | resume id =>
    exact ⟨rfl, (JobTable.origin_modify id Job.origin_markRunning).symm ▸ List.prefix_refl _⟩
  | place id foreground =>
    exact ⟨rfl, (JobTable.origin_modify id (Job.origin_placed foreground)).symm ▸ List.prefix_refl _⟩
  | notify | list => cases hm

theorem Settled.of_marked {u : JobTable} {js : List Job} (hids : (js.map (·.id)).Nodup)
    (hu : u.jobs = (js.filter (!·.isCompleted)).map Job.marked) : Settled u := by
  constructor
  · rw [hu, List.map_map]
    exact hids.sublist (List.filter_sublist.map _)
  · intro j hj hcompleted
    rw [hu] at hj
    obtain ⟨k, hk, rfl⟩ := List.mem_map.1 hj
    have hgoes : k.isCompleted = false := by simpa using (List.mem_filter.1 hk).2
    exact absurd (hgoes.symm.trans hcompleted) Bool.false_ne_true

theorem Settled.modify {u : JobTable} (hu : Settled u) (id : JobId) {f : Job → Job}
    (hf : ∀ j, (f j).origin = j.origin)
    (hpending : ∀ j, (j.isCompleted → j.notified = false) →
      (f j).isCompleted → (f j).notified = false) : Settled (u.modify id f) := by
  refine ⟨(ids_of_origins (JobTable.origin_modify id hf)).symm ▸ hu.nodup, fun k hk ↦ ?_⟩
  obtain ⟨j, hj, rfl⟩ := List.mem_map.1 hk
  split
  · exact hpending j (hu.pending j hj)
  · exact hu.pending j hj

theorem Settled.add {u : JobTable} (hu : Settled u) {j : Job} (hfree : j.id ∉ u.jobs.map (·.id))
    (hj : j.notified = false) : Settled (u.add j) := by
  constructor
  · rw [JobTable.add, List.map_append, List.map_singleton]
    exact List.nodup_append.2 ⟨hu.nodup, List.nodup_singleton _, by simpa using hfree⟩
  · intro k hk
    rcases List.mem_append.1 hk with hk | hk
    · exact hu.pending k hk
    · obtain rfl := List.mem_singleton.1 hk
      exact fun _ ↦ hj

/-- Every move keeps the table settled, whatever state a job is in. -/
theorem Makes.settled (hs : Settled s.jobs) (h : Makes s m s') : Settled s'.jobs := by
  cases hm : m.showsJobs with
  | true =>
    obtain ⟨seen, shown, hhandles⟩ := h.handles hs hm
    exact .of_marked (ids_of_origins (Job.origins_of_polled hhandles.polled) ▸ hs.nodup) hhandles.leaves
  | false =>
    cases h with
    | register group name connector processes => exact hs.add s.jobs.nextId_not_mem rfl
    | poll h => exact hs.of_polled ((JobTable.runs_reap h).2 _ rfl)
    | resume id => exact hs.modify id Job.origin_markRunning fun _ _ _ ↦ rfl
    | place id foreground => exact hs.modify id (Job.origin_placed foreground) fun _ hj ↦ hj
    | notify | list => cases hm

variable {moves : List Move}

theorem Course.settled (hs : Settled s.jobs) (h : Course s moves s') : Settled s'.jobs := by
  induction h with
  | nil => exact hs
  | cons hm _ ih => exact ih (hm.settled hs)

end Shell

end JobShell

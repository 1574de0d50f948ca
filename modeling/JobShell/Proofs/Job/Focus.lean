import JobShell.Proofs.Job.Registration

namespace JobShell.JobTable

open Sys (Runs)

/-- A job table as it is followed over time. `present` names the jobs that are in it, in their order: for
each, how many had been registered before it, and its number. `focused` names, by the same count, the job
that was focused last, whether or not it is still there; it names none if there was no such job. -/
structure Roll where
  registered : Nat := 0
  present : List (Nat × JobId) := []
  focused : Option Nat := none

namespace Roll

def enter (r : Roll) (id : JobId) : Roll :=
  ⟨r.registered + 1, r.present ++ [(r.registered, id)], some r.registered⟩

def keep (r : Roll) (t : JobTable) : Roll :=
  { r with present := r.present.filter fun e ↦ (t.get? e.2).isSome }

/-- The job that has this number now is focused; no job is, if none has it. -/
def focus (r : Roll) (id : JobId) : Roll :=
  { r with focused := (r.present.find? fun e ↦ e.2 = id).map (·.1) }

def focusLast (r : Roll) (js : List Job) : Roll :=
  match js.getLast? with
  | some j => r.focus j.id
  | none => r

end Roll

def listedStopped (changes : List (JobId × JobStatus)) (t : JobTable) : List Job :=
  t.jobs.filter fun j ↦ (j.id, .stopped) ∈ changes

/-- What uses of a table that was empty at first make of it, and the roll that tracks them. What the
kernel reports, and whether a writer fails, is left open. -/
inductive Tracks : Roll → JobTable → Prop
  | empty : Tracks {} {}
  | register {r : Roll} {t : JobTable} (group : Option Int) (name : String) (connector : Connector)
      (processes : List Process) : Tracks r t →
      Tracks (r.enter (t.register group name connector processes).1)
        (t.register group name connector processes).2
  | insert {r : Roll} {t u : JobTable} {j : Job} : Tracks r t → t.insert j = .ok u →
      Tracks (r.enter j.id) u
  | remove {r : Roll} {t : JobTable} (id : JobId) : Tracks r t → Tracks (r.keep (t.remove id).2) (t.remove id).2
  | setCurrent {r : Roll} {t : JobTable} (id : JobId) : Tracks r t → Tracks (r.focus id) (t.setCurrent id)
  | reap {r : Roll} {t u : JobTable} {trace : List Event} {changes : List (JobId × JobStatus)} :
      Tracks r t → Runs t.reap trace (.ok changes, u) → Tracks (r.focusLast (listedStopped changes u)) u
  | reapFails {r : Roll} {t u : JobTable} {trace : List Event} {f : Failure} :
      Tracks r t → Runs t.reap trace (.error f, u) → Tracks r u
  | notify {ε σ : Type} (emit : List String → ExceptT ε (StateT σ Sys) (Except StreamFault Unit))
      {r : Roll} {t u : JobTable} {s s' : σ} {trace : List Event} {shown : Except StreamFault Unit} :
      Tracks r t → Runs ((t.notify emit).run.run s) trace (.ok (shown, u), s') → Tracks (r.keep u) u
  | removeReported {r : Roll} {t : JobTable} : Tracks r t → Tracks (r.keep t.removeReported) t.removeReported
  | discardCompleted {r : Roll} {t : JobTable} : Tracks r t →
      Tracks (r.keep t.discardCompleted) t.discardCompleted
  | change {r : Roll} {t : JobTable} (id : JobId) {f : Job → Job} : Tracks r t →
      (∀ j, (f j).origin = j.origin) → Tracks r (t.modify id f)

variable {r : Roll} {t u : JobTable} {js : List Job} {trace : List Event}
  {changes : List (JobId × JobStatus)}

theorem sublist_of_runs_reapJobs {ks : List Job} (h : Runs (reapJobs js) trace (.ok changes, ks)) :
    (changes.map (·.1)).Sublist (js.map (·.id)) := by
  induction js generalizing trace changes ks with
  | nil =>
    obtain ⟨-, ⟨⟩⟩ := Sys.runs_pure.1 h
    exact List.Sublist.refl _
  | cons j js ih =>
    obtain ⟨_, _, ⟨⟩, -⟩ | ⟨_, _, k, r', ks', -, hrest, ⟨rfl, -⟩ | ⟨hr, -, hj⟩⟩ := reapJobs_cases h
    · exact (ih hrest).cons j.id
    · cases r' with
      | error f => cases hr
      | ok later =>
        cases hr
        obtain ⟨⟨ps, rfl, -⟩, -⟩ := Job.runs_poll hj
        exact (ih hrest).cons_cons j.id

theorem focus_of_runs_reap (h : Runs t.reap trace (.ok changes, u)) :
    (changes.map (·.1)).Sublist (t.jobs.map (·.id)) ∧ u.focus = (lastStopped? changes <|> t.focus) := by
  obtain ⟨hjs, ⟨_, ⟨⟩, -⟩ | ⟨_, ⟨⟩, hfocus⟩⟩ := reap_cases h
  exact ⟨sublist_of_runs_reapJobs hjs, hfocus⟩

theorem focus_of_runs_reap_error {f : Failure} (h : Runs t.reap trace (.error f, u)) :
    u.focus = t.focus := by
  obtain ⟨-, ⟨_, -, hfocus⟩ | ⟨_, ⟨⟩, -⟩⟩ := reap_cases h
  exact hfocus

theorem focus_of_notify {ε σ : Type}
    {emit : List String → ExceptT ε (StateT σ Sys) (Except StreamFault Unit)} {s s' : σ}
    {shown : Except StreamFault Unit}
    (h : Runs ((t.notify emit).run.run s) trace (.ok (shown, u), s')) : u.focus = t.focus := by
  obtain ⟨_, v, ⟨shown, s₁⟩, rfl, -, hnext⟩ := Sys.runs_bind.1 h
  match shown with
  | .error d => obtain ⟨-, ⟨⟩⟩ := Sys.runs_pure.1 hnext
  | .ok (.error f, ks) => obtain ⟨-, ⟨⟩⟩ := Sys.runs_pure.1 hnext; rfl
  | .ok (.ok _, ks) => obtain ⟨-, ⟨⟩⟩ := Sys.runs_pure.1 hnext; rfl

theorem filter_mem_of_sublist {α : Type} [DecidableEq α] {l m : List α} (h : l.Sublist m)
    (hm : m.Nodup) : m.filter (· ∈ l) = l := by
  induction h with
  | slnil => rfl
  | @cons l m a h ih =>
    obtain ⟨ha, hm⟩ := List.nodup_cons.1 hm
    have hnot : a ∉ l := fun hl ↦ ha (h.subset hl)
    rw [List.filter_cons_of_neg (by simpa using hnot), ih hm]
  | @cons_cons l m a h ih =>
    obtain ⟨ha, hm⟩ := List.nodup_cons.1 hm
    have hothers : m.filter (· ∈ a :: l) = m.filter (· ∈ l) := by
      refine List.filter_congr fun b hb ↦ ?_
      have hne : b ≠ a := fun hba ↦ ha (hba ▸ hb)
      simp [hne]
    rw [List.filter_cons_of_pos (by simp), hothers, ih hm]

theorem ids_listedStopped (hlisted : (changes.map (·.1)).Sublist (t.jobs.map (·.id)))
    (hids : (t.jobs.map (·.id)).Nodup) :
    (listedStopped changes t).map (·.id) = (changes.filter fun c ↦ c.2 = .stopped).map (·.1) := by
  have hstopped (id : JobId) : (id, JobStatus.stopped) ∈ changes ↔
      id ∈ (changes.filter fun c ↦ c.2 = .stopped).map (·.1) := by
    simp [List.mem_map, List.mem_filter]
  have hpicked : (listedStopped changes t).map (·.id) =
      (t.jobs.map (·.id)).filter fun id ↦ id ∈ (changes.filter fun c ↦ c.2 = .stopped).map (·.1) := by
    simp only [listedStopped, hstopped, List.filter_map]
    rfl
  rw [hpicked]
  exact filter_mem_of_sublist ((List.filter_sublist.map _).trans hlisted) hids

theorem lastStopped?_eq (hlisted : (changes.map (·.1)).Sublist (t.jobs.map (·.id)))
    (hids : (t.jobs.map (·.id)).Nodup) :
    lastStopped? changes = (listedStopped changes t).getLast?.map (·.id) := by
  rw [lastStopped?, ← List.getLast?_map, ← List.getLast?_map, ids_listedStopped hlisted hids]

/-- A roll and a table that agree: the same numbers, counted in their order, and one job focused. -/
structure Roll.Agrees (r : Roll) (t : JobTable) : Prop where
  ids : r.present.map (·.2) = t.jobs.map (·.id)
  nodup : (t.jobs.map (·.id)).Nodup
  counted : (r.present.map (·.1)).Pairwise (· < ·)
  earlier : ∀ e ∈ r.present, e.1 < r.registered
  focus : ∀ e ∈ r.present, r.focused = some e.1 ↔ t.focus = some e.2

namespace Roll.Agrees

theorem count_inj (h : r.Agrees t) {e f : Nat × JobId} (he : e ∈ r.present) (hf : f ∈ r.present)
    (heq : e.1 = f.1) : e = f :=
  List.inj_on_of_nodup_map (h.counted.imp Nat.ne_of_lt) he hf heq

theorem id_inj (h : r.Agrees t) {e f : Nat × JobId} (he : e ∈ r.present) (hf : f ∈ r.present)
    (heq : e.2 = f.2) : e = f :=
  List.inj_on_of_nodup_map (h.ids ▸ h.nodup) he hf heq

theorem mem_ids (h : r.Agrees t) {e : Nat × JobId} (he : e ∈ r.present) : e.2 ∈ t.jobs.map (·.id) :=
  h.ids ▸ List.mem_map_of_mem he

theorem enter (h : r.Agrees t) {j : Job} (hfree : j.id ∉ t.jobs.map (·.id)) :
    (r.enter j.id).Agrees (t.add j) where
  ids := by simp [Roll.enter, add, h.ids]
  nodup := by
    rw [add, List.map_append]
    exact List.nodup_append.2 ⟨h.nodup, List.nodup_singleton _, by
      rintro id hid _ hj rfl
      obtain rfl : id = j.id := by simpa using hj
      exact hfree hid⟩
  counted := by
    rw [Roll.enter, List.map_append]
    refine List.pairwise_append.2 ⟨h.counted, List.pairwise_singleton _ _, ?_⟩
    intro n hn m hm
    obtain ⟨e, he, rfl⟩ := List.mem_map.1 hn
    obtain rfl : m = r.registered := by simpa using hm
    exact h.earlier e he
  earlier := by
    intro e he
    rcases List.mem_append.1 he with he | he
    · exact Nat.lt_succ_of_lt (h.earlier e he)
    · obtain rfl : e = (r.registered, j.id) := by simpa using he
      exact Nat.lt_succ_self _
  focus := by
    intro e he
    rcases List.mem_append.1 he with he | he
    · have hcount : r.registered ≠ e.1 := (Nat.ne_of_lt (h.earlier e he)).symm
      have hid : j.id ≠ e.2 := fun hid ↦ hfree (hid ▸ h.mem_ids he)
      simp [Roll.enter, add, hcount, hid]
    · obtain rfl : e = (r.registered, j.id) := by simpa using he
      simp [Roll.enter, add]

theorem keep (h : r.Agrees t) (hsub : (u.jobs.map (·.id)).Sublist (t.jobs.map (·.id)))
    (hfocus : ∀ id ∈ u.jobs.map (·.id), t.focus = some id ↔ u.focus = some id) :
    (r.keep u).Agrees u where
  ids := by
    have hkept : (r.keep u).present.map (·.2) =
        (r.present.map (·.2)).filter fun id ↦ id ∈ u.jobs.map (·.id) := by
      rw [List.filter_map, Roll.keep]
      refine congrArg _ (List.filter_congr fun e _ ↦ ?_)
      rw [Function.comp_apply, Bool.eq_iff_iff, decide_eq_true_iff]
      exact get?_isSome_iff
    rw [hkept, h.ids]
    exact filter_mem_of_sublist hsub h.nodup
  nodup := h.nodup.sublist hsub
  counted := h.counted.sublist (List.filter_sublist.map _)
  earlier := fun e he ↦ h.earlier e (List.mem_of_mem_filter he)
  focus := by
    intro e he
    obtain ⟨he, hin⟩ := List.mem_filter.1 he
    exact (h.focus e he).trans (hfocus e.2 (get?_isSome_iff.1 hin))

theorem same (h : r.Agrees t) (hids : u.jobs.map (·.id) = t.jobs.map (·.id))
    (hfocus : u.focus = t.focus) : r.Agrees u where
  ids := h.ids.trans hids.symm
  nodup := hids ▸ h.nodup
  counted := h.counted
  earlier := h.earlier
  focus := hfocus ▸ h.focus

theorem focused (h : r.Agrees t) (id : JobId) : (r.focus id).Agrees { t with focus := some id } where
  ids := h.ids
  nodup := h.nodup
  counted := h.counted
  earlier := h.earlier
  focus := by
    intro e he
    constructor
    · intro hfound
      obtain ⟨f, hf, hcount⟩ := Option.map_eq_some_iff.1 hfound
      obtain rfl := h.count_inj (List.mem_of_find?_eq_some hf) he hcount
      have hid := List.find?_some hf
      rw [decide_eq_true_iff] at hid
      exact congrArg some hid.symm
    · intro hid
      obtain rfl : id = e.2 := Option.some.inj hid
      obtain ⟨f, hf⟩ := Option.isSome_iff_exists.1
        (List.find?_isSome.2 ⟨e, he, decide_eq_true_iff.2 rfl⟩ :
          (r.present.find? fun f ↦ f.2 = e.2).isSome)
      have hid := List.find?_some hf
      rw [decide_eq_true_iff] at hid
      obtain rfl := h.id_inj (List.mem_of_find?_eq_some hf) he hid
      exact Option.map_eq_some_iff.2 ⟨f, hf, rfl⟩

end Roll.Agrees

theorem Roll.Agrees.focusedLast (h : r.Agrees t) (js : List Job) :
    (r.focusLast js).Agrees { t with focus := js.getLast?.map (·.id) <|> t.focus } := by
  rw [Roll.focusLast]
  cases js.getLast? with
  | none => exact h
  | some j => exact h.focused j.id

theorem Roll.Agrees.remove (h : r.Agrees t) (id : JobId) :
    (r.keep (t.remove id).2).Agrees (t.remove id).2 := by
  refine h.keep (ids_sublist_of_origins (t.origin_remove id)) fun i hi ↦ ?_
  cases hget : t.get? id with
  | none => simp only [JobTable.remove, hget]
  | some j =>
    have herased : (t.remove id).2.jobs.map (·.id) = (t.jobs.map (·.id)).erase id := by
      rw [JobTable.remove, hget, List.erase_eq_eraseP', List.eraseP_map]
      rfl
    have hne : i ≠ id := (h.nodup.mem_erase_iff.1 (herased ▸ hi)).1
    simp only [JobTable.remove, hget]
    split
    · next hfocus => simp [hfocus, hne.symm]
    · rfl

theorem agrees_of_tracks (h : Tracks r t) : r.Agrees t := by
  induction h with
  | empty => exact ⟨rfl, List.nodup_nil, List.Pairwise.nil, by simp, by simp⟩
  | @register _ t group name connector processes _ ih =>
    exact ih.enter (j := .start t.nextId group name connector processes) t.nextId_not_mem
  | insert _ hinsert ih =>
    obtain ⟨hfree, rfl⟩ := insert_eq_ok_iff.1 hinsert
    exact ih.enter hfree
  | remove id _ ih => exact ih.remove id
  | setCurrent id _ ih => exact ih.focused id
  | @reap r t u _ changes _ hreap ih =>
    obtain ⟨hlisted, hfocus⟩ := focus_of_runs_reap hreap
    have hids : u.jobs.map (·.id) = t.jobs.map (·.id) := ids_of_origins (runs_reap hreap).1
    rw [← hids] at hlisted
    rw [lastStopped?_eq hlisted (hids ▸ ih.nodup)] at hfocus
    refine (ih.focusedLast (listedStopped changes u)).same hids hfocus
  | reapFails _ hreap ih =>
    exact ih.same (ids_of_origins (runs_reap hreap).1) (focus_of_runs_reap_error hreap)
  | notify emit _ hnotify ih =>
    exact ih.keep (ids_sublist_of_origins (origin_notify hnotify)) fun _ _ ↦ by
      rw [focus_of_notify hnotify]
  | removeReported _ ih => exact ih.keep (List.filter_sublist.map _) fun _ _ ↦ Iff.rfl
  | discardCompleted _ ih => exact ih.keep (List.filter_sublist.map _) fun _ _ ↦ Iff.rfl
  | change id _ hf ih => exact ih.same (ids_of_origins (origin_modify id hf)) rfl

theorem current?_eq_none_iff : t.current? = none ↔ t.jobs = [] := by
  constructor
  · intro h
    rw [current?, Option.orElse_eq_orElse, Option.orElse_eq_or, Option.or_eq_none_iff] at h
    exact List.getLast?_eq_none_iff.1 (Option.map_eq_none_iff.1 h.2)
  · intro h
    cases hfocus : t.focus <;> simp [current?, hfocus, h, get?]

/-- The current job is the one focused last, if it is there, and otherwise the last job. -/
theorem current?_of_agrees (h : r.Agrees t) :
    t.current? =
      ((r.present.find? fun e ↦ r.focused = some e.1) <|> r.present.getLast?).map (·.2) := by
  cases hfind : r.present.find? fun e ↦ r.focused = some e.1 with
  | some e =>
    have he := List.mem_of_find?_eq_some hfind
    have hfocused : r.focused = some e.1 := by simpa using List.find?_some hfind
    have hget : (t.get? e.2).isSome := get?_isSome_iff.2 (h.mem_ids he)
    rw [current?, (h.focus e he).1 hfocused, Option.filter_some, if_pos hget]
    rfl
  | none =>
    have hnone : (t.focus.filter fun id ↦ (t.get? id).isSome) = none := by
      refine Option.filter_eq_none_iff.2 fun id hid hget ↦ ?_
      rw [get?_isSome_iff, ← h.ids] at hget
      obtain ⟨e, he, rfl⟩ := List.mem_map.1 hget
      simpa [(h.focus e he).2 hid] using List.find?_eq_none.1 hfind e he
    rw [current?, hnone]
    change t.jobs.getLast?.map (·.id) = r.present.getLast?.map (·.2)
    rw [← List.getLast?_map, ← List.getLast?_map, h.ids]

/-- The jobs of a table are those that its roll has as present, in the order in which they were
registered. Some job is current unless there is none: the job that was focused last, which is told from
later ones of its number, and if it has left, or no job was focused, the last one that is there. -/
theorem current?_of_tracks (h : Tracks r t) :
    r.present.map (·.2) = t.jobs.map (·.id) ∧ (r.present.map (·.1)).Pairwise (· < ·) ∧
      (t.current? = none ↔ t.jobs = []) ∧
      t.current? =
        ((r.present.find? fun e ↦ r.focused = some e.1) <|> r.present.getLast?).map (·.2) :=
  ⟨(agrees_of_tracks h).ids, (agrees_of_tracks h).counted, current?_eq_none_iff,
    current?_of_agrees (agrees_of_tracks h)⟩

theorem current?_of_tracks_dropped :
    let b := Job.start 2 none "sleep 2" .background [⟨12, "sleep 2", .running⟩]
    let r : Roll := ⟨2, [(1, 2)], some 0⟩
    let t : JobTable := ⟨[b], some 1⟩
    Tracks r t ∧ (r.present.map (·.1)).Pairwise (· < ·) ∧ t.current? =
      ((r.present.find? fun e ↦ r.focused = some e.1) <|> r.present.getLast?).map (·.2) ∧
      t.current? = some 2 := by
  intro b r t
  have h : Tracks r t :=
    .discardCompleted (.setCurrent 1 (.register none "sleep 2" .background b.processes
      (.register none "true" .background [⟨11, "true", .exited 0⟩] .empty)))
  obtain ⟨-, hcounted, -, hcurrent⟩ := current?_of_tracks h
  exact ⟨h, hcounted, hcurrent, by decide⟩

end JobShell.JobTable

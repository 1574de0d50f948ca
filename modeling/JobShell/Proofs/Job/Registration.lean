import Mathlib.Data.List.Nodup
import Mathlib.Order.Bounds.Basic
import JobShell.Proofs.Job.Polling

namespace JobShell.JobTable

open Sys (Runs)

def latest : List Job → List Job
  | [] => []
  | j :: js => if js.any (·.id == j.id) then latest js else j :: latest js

/-- One use of a job table, with the job that it adds, if it adds one. What the kernel reports, and
whether a writer fails, is left open. -/
inductive Step (t : JobTable) : Option Job → JobTable → Prop
  | register (group : Option Int) (name : String) (connector : Connector)
      (processes : List Process) :
      Step t
        (some (.start (t.register group name connector processes).1 group name connector processes))
        (t.register group name connector processes).2
  | insert {j : Job} {u : JobTable} : t.insert j = .ok u → Step t (some j) u
  | remove (id : JobId) : Step t none (t.remove id).2
  | setCurrent (id : JobId) : Step t none (t.setCurrent id)
  | reap {trace : List Event} {r : Except Failure (List (JobId × JobStatus))} {u : JobTable} :
      Runs t.reap trace (r, u) → Step t none u
  | markNotified (id : JobId) : Step t none (t.markNotified id)
  | notify {ε σ : Type} (emit : List String → ExceptT ε (StateT σ Sys) (Except StreamFault Unit))
      {s s' : σ} {trace : List Event} {r : Except StreamFault Unit} {u : JobTable} :
      Runs ((t.notify emit).run.run s) trace (.ok (r, u), s') → Step t none u
  | removeReported : Step t none t.removeReported
  | discardCompleted : Step t none t.discardCompleted
  | change (id : JobId) {f : Job → Job} :
      (∀ j, (f j).origin = j.origin) → Step t none (t.modify id f)

/-- Uses of a table that was empty at first lead to it; the log holds the jobs as they were added. -/
inductive Reaches : List Job → JobTable → Prop
  | empty : Reaches [] {}
  | step {log : List Job} {t u : JobTable} {new : Option Job} :
      Reaches log t → Step t new u → Reaches (log ++ new.toList) u

theorem latest_concat (log : List Job) (j : Job) :
    latest (log ++ [j]) = (latest log).filter (·.id ≠ j.id) ++ [j] := by
  induction log with
  | nil => rfl
  | cons i log ih =>
    cases hlater : log.any (·.id == i.id) with
    | true => simp only [List.cons_append, latest, List.any_append, hlater, Bool.true_or, if_true, ih]
    | false =>
      by_cases hj : j.id = i.id
      · simp [latest, List.any_append, hlater, ih, hj]
      · have hkept : (i :: latest log).filter (·.id ≠ j.id) =
            i :: (latest log).filter (·.id ≠ j.id) :=
          List.filter_cons_of_pos (decide_eq_true (Ne.symm hj))
        have hany : (log ++ [j]).any (·.id == i.id) = false := by
          simpa [hlater] using hj
        simp only [List.cons_append, latest, hany, hlater, Bool.false_eq_true, if_false, ih, hkept]

theorem latest_subset (log : List Job) : latest log ⊆ log := by
  induction log with
  | nil => exact List.Subset.refl _
  | cons j log ih =>
    rw [latest]
    split
    · exact fun i hi ↦ List.mem_cons_of_mem j (ih hi)
    · exact List.cons_subset_cons j ih

theorem nodup_latest (log : List Job) : ((latest log).map (·.id)).Nodup := by
  induction log with
  | nil => exact List.nodup_nil
  | cons j log ih =>
    rw [latest]
    split
    · exact ih
    · next hlater =>
      refine List.nodup_cons.2 ⟨fun hj ↦ hlater ?_, ih⟩
      obtain ⟨i, hi, hid⟩ := List.mem_map.1 hj
      exact List.any_eq_true.2 ⟨i, latest_subset log hi, by simpa using hid⟩

variable {t u : JobTable} {log : List Job}

theorem get?_isSome_iff {id : JobId} : (t.get? id).isSome ↔ id ∈ t.jobs.map (·.id) := by
  simp [get?, List.find?_isSome]

theorem insert_eq_ok_iff {j : Job} :
    t.insert j = .ok u ↔ j.id ∉ t.jobs.map (·.id) ∧ u = t.add j := by
  rw [insert, ← get?_isSome_iff]
  split <;> simp [*, eq_comm]

theorem nextId_not_mem (t : JobTable) : t.nextId ∉ t.jobs.map (·.id) := leastUnused_not_mem 1 _

theorem isLeast_nextId (t : JobTable) : IsLeast {n | 0 < n ∧ ∀ j ∈ t.jobs, j.id ≠ n} t.nextId := by
  refine ⟨⟨le_leastUnused 1 _, fun j hj hid ↦ ?_⟩, fun n ⟨hpos, hfree⟩ ↦ ?_⟩
  · exact t.nextId_not_mem (List.mem_map.2 ⟨j, hj, hid⟩)
  · by_contra hlt
    obtain ⟨j, hj, hid⟩ := List.mem_map.1 (mem_of_lt_leastUnused hpos (not_le.1 hlt))
    exact hfree j hj hid

theorem nextId_le (t : JobTable) : t.nextId ≤ t.jobs.length + 1 := by
  have h := leastUnused_le 1 (t.jobs.map (·.id))
  rw [List.length_map, Nat.add_comm] at h
  exact h

theorem origin_modify (id : JobId) {f : Job → Job} (hf : ∀ j, (f j).origin = j.origin) :
    (t.modify id f).jobs.map Job.origin = t.jobs.map Job.origin := by
  rw [modify, List.map_map]
  refine List.map_congr_left fun j _ ↦ ?_
  rw [Function.comp_apply]
  split
  · exact hf j
  · rfl

theorem origin_notifyJobs {ε σ : Type}
    {emit : List String → ExceptT ε (StateT σ Sys) (Except StreamFault Unit)} {js ks : List Job}
    {s s' : σ} {trace : List Event} {r : Except StreamFault Unit}
    (h : Runs ((notifyJobs emit js).run.run s) trace (.ok (r, ks), s')) :
    ks.map Job.origin = js.map Job.origin := by
  induction js generalizing s trace r ks with
  | nil =>
    obtain ⟨-, ⟨⟩⟩ := Sys.runs_pure.1 h
    rfl
  | cons j js ih =>
    rw [notifyJobs_cons] at h
    obtain ⟨_, v, ⟨shown, s₁⟩, rfl, -, hnext⟩ := Sys.runs_bind.1 h
    match shown with
    | .error d => obtain ⟨-, ⟨⟩⟩ := Sys.runs_pure.1 hnext
    | .ok (.error f) =>
      obtain ⟨-, ⟨⟩⟩ := Sys.runs_pure.1 hnext
      rfl
    | .ok (.ok _) =>
      obtain ⟨_, w, ⟨rest, s₂⟩, rfl, hrest, hend⟩ := Sys.runs_bind.1 hnext
      match rest with
      | .error d => obtain ⟨-, ⟨⟩⟩ := Sys.runs_pure.1 hend
      | .ok (r', ks') =>
        obtain ⟨-, ⟨⟩⟩ := Sys.runs_pure.1 hend
        exact congrArg (_ :: ·) (ih hrest)

theorem origin_notify {ε σ : Type}
    {emit : List String → ExceptT ε (StateT σ Sys) (Except StreamFault Unit)}
    {s s' : σ} {trace : List Event} {r : Except StreamFault Unit}
    (h : Runs ((t.notify emit).run.run s) trace (.ok (r, u), s')) :
    (u.jobs.map Job.origin).Sublist (t.jobs.map Job.origin) := by
  obtain ⟨_, v, ⟨shown, s₁⟩, rfl, hjobs, hnext⟩ := Sys.runs_bind.1 h
  match shown with
  | .error d => obtain ⟨-, ⟨⟩⟩ := Sys.runs_pure.1 hnext
  | .ok (.error f, ks) =>
    obtain ⟨-, ⟨⟩⟩ := Sys.runs_pure.1 hnext
    rw [← origin_notifyJobs hjobs]
  | .ok (.ok _, ks) =>
    obtain ⟨-, ⟨⟩⟩ := Sys.runs_pure.1 hnext
    rw [← origin_notifyJobs hjobs]
    exact List.filter_sublist.map _

theorem origin_markNotified (t : JobTable) (id : JobId) :
    (t.markNotified id).jobs.map Job.origin = t.jobs.map Job.origin :=
  origin_modify id fun _ ↦ rfl

theorem origin_remove (t : JobTable) (id : JobId) :
    ((t.remove id).2.jobs.map Job.origin).Sublist (t.jobs.map Job.origin) := by
  unfold remove
  split
  · exact List.Sublist.refl _
  · exact List.eraseP_sublist.map _

/-- A use adds one job at the end, under a number that is free, or it drops jobs; those that stay
keep their order and what they are. -/
theorem Step.added_or_kept {new : Option Job} (h : Step t new u) :
    (∃ j, new = some j ∧ j.id ∉ t.jobs.map (·.id) ∧ u.jobs = t.jobs ++ [j]) ∨
      new = none ∧ (u.jobs.map Job.origin).Sublist (t.jobs.map Job.origin) := by
  cases h with
  | register group name connector processes => exact .inl ⟨_, rfl, t.nextId_not_mem, rfl⟩
  | insert h =>
    obtain ⟨hfree, rfl⟩ := insert_eq_ok_iff.1 h
    exact .inl ⟨_, rfl, hfree, rfl⟩
  | remove id => exact .inr ⟨rfl, t.origin_remove id⟩
  | setCurrent id => exact .inr ⟨rfl, List.Sublist.refl _⟩
  | reap h => exact .inr ⟨rfl, by rw [(runs_reap h).1]⟩
  | markNotified id => exact .inr ⟨rfl, by rw [t.origin_markNotified id]⟩
  | notify emit h => exact .inr ⟨rfl, origin_notify h⟩
  | removeReported => exact .inr ⟨rfl, List.filter_sublist.map _⟩
  | discardCompleted => exact .inr ⟨rfl, List.filter_sublist.map _⟩
  | change id hf => exact .inr ⟨rfl, by rw [origin_modify id hf]⟩

theorem Reaches.sublist_latest (h : Reaches log t) :
    (t.jobs.map Job.origin).Sublist ((latest log).map Job.origin) := by
  induction h with
  | empty => exact List.Sublist.refl _
  | @step log t u new _ hstep ih =>
    obtain ⟨j, rfl, hfree, hjobs⟩ | ⟨rfl, hkept⟩ := hstep.added_or_kept
    · -- the jobs that were there have other numbers, so that the log loses none of them
      have hother : ∀ o ∈ t.jobs.map Job.origin, decide (o.1 ≠ j.id) := by
        intro o ho
        obtain ⟨i, hi, rfl⟩ := List.mem_map.1 ho
        exact decide_eq_true fun hid ↦ hfree (List.mem_map.2 ⟨i, hi, hid⟩)
      have hlog : ((latest log).filter (·.id ≠ j.id)).map Job.origin =
          ((latest log).map Job.origin).filter fun o ↦ decide (o.1 ≠ j.id) := by
        rw [List.filter_map]
        rfl
      rw [hjobs, Option.toList_some, latest_concat, List.map_append, List.map_append, hlog]
      refine List.Sublist.append ?_ (List.Sublist.refl _)
      rw [← List.filter_eq_self.2 hother]
      exact ih.filter _
    · rw [Option.toList_none, List.append_nil]
      exact hkept.trans ih

theorem Reaches.nodup_ids (h : Reaches log t) : (t.jobs.map (·.id)).Nodup :=
  (nodup_latest log).sublist (ids_sublist_of_origins h.sublist_latest)

/-- The jobs of a table have different numbers, and they are what was registered last under these
numbers, in that order. The check that a new number is free never fails, and the least positive number
that no job has is found among as many as there are jobs, and one. -/
theorem registered_in_order (h : Reaches log t) :
    (t.jobs.map (·.id)).Nodup ∧
      (t.jobs.map Job.origin).Sublist ((latest log).map Job.origin) ∧
      ∀ group name connector processes id u,
        t.register group name connector processes = (id, u) →
          t.insert (.start id group name connector processes) = .ok u ∧
          IsLeast {n | 0 < n ∧ ∀ j ∈ t.jobs, j.id ≠ n} id ∧ id ≤ t.jobs.length + 1 := by
  refine ⟨h.nodup_ids, h.sublist_latest, ?_⟩
  rintro group name connector processes id u ⟨⟩
  exact ⟨insert_eq_ok_iff.2 ⟨t.nextId_not_mem, rfl⟩, t.isLeast_nextId, t.nextId_le⟩

theorem registered_in_order_of_reused :
    let a := Job.start 1 none "sleep 1" .background [⟨11, "sleep 1", .running⟩]
    let b := Job.start 2 none "sleep 2" .background [⟨12, "sleep 2", .running⟩]
    let c := Job.start 1 none "sleep 3" .background [⟨13, "sleep 3", .running⟩]
    let t : JobTable := ⟨[b, c], some 1⟩
    Reaches [a, b, c] t ∧ (t.jobs.map (·.id)).Nodup ∧
      (t.jobs.map Job.origin).Sublist ((latest [a, b, c]).map Job.origin) ∧
      t.insert (.start 3 none "d" .background []) = .ok (t.add (.start 3 none "d" .background [])) ∧
      IsLeast {n | 0 < n ∧ ∀ j ∈ t.jobs, j.id ≠ n} 3 := by
  intro a b c t
  have h : Reaches [a, b, c] t :=
    .step (.step (.step (.step .empty (.register none "sleep 1" .background a.processes))
      (.register none "sleep 2" .background b.processes)) (.remove 1))
      (.register none "sleep 3" .background c.processes)
  obtain ⟨hids, horder, hnext⟩ := registered_in_order h
  obtain ⟨hinsert, hleast, -⟩ := hnext none "d" .background [] _ _ rfl
  exact ⟨h, hids, horder, hinsert, hleast⟩

end JobShell.JobTable

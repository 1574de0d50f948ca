import JobShell.Job.Table
import JobShell.Proofs.Sys.Progress

namespace JobShell

open Sys (Runs)

def Event.refuses (s : Signal) : Event → Prop
  | ⟨.kill _ (some s'), .error _⟩ => s' = s
  | _ => False

namespace JobTable

variable {t : JobTable} {id : JobId} {s : Signal} {ps : List Process} {trace : List Event}
  {r : Except Failure Unit}

def attempt (s : Signal) (p : Process) : Call := .kill p.pid (some s)

def live (j : Job) : List Process := j.processes.filter (!·.isCompleted)

theorem signalEach_cases {p : Process} (h : Runs (signalEach s (p :: ps)) trace r) :
    (∃ e, trace = [⟨attempt s p, .error e⟩] ∧ r = .error (.system e)) ∨
      ∃ rest, trace = ⟨attempt s p, .ok ()⟩ :: rest ∧ Runs (signalEach s ps) rest r := by
  obtain ⟨answer, rest, rfl, hnext⟩ := Sys.runs_ask_bind.1 h
  cases answer with
  | error e =>
    obtain ⟨rfl, rfl⟩ := Sys.runs_pure.1 hnext
    exact .inl ⟨e, rfl, rfl⟩
  | ok _ => exact .inr ⟨rest, rfl, hnext⟩

theorem runs_signalEach (h : Runs (signalEach s ps) trace r) :
    (r = .ok () ∧ trace = ps.map fun p ↦ ⟨attempt s p, .ok ()⟩) ∨
      ∃ before p after e, ps = before ++ p :: after ∧ r = .error (.system e) ∧
        trace = (before.map fun p ↦ ⟨attempt s p, .ok ()⟩) ++ [⟨attempt s p, .error e⟩] := by
  induction ps generalizing trace r with
  | nil =>
    obtain ⟨rfl, rfl⟩ := Sys.runs_pure.1 h
    exact .inl ⟨rfl, rfl⟩
  | cons p ps ih =>
    obtain ⟨e, rfl, rfl⟩ | ⟨rest, rfl, hrest⟩ := signalEach_cases h
    · exact .inr ⟨[], p, ps, e, rfl, rfl, rfl⟩
    · obtain ⟨rfl, rfl⟩ | ⟨before, q, after, e, rfl, rfl, rfl⟩ := ih hrest
      · exact .inl ⟨rfl, rfl⟩
      · exact .inr ⟨p :: before, q, after, e, rfl, rfl, rfl⟩

theorem not_refuses_of_sent {e : Event} (h : e ∈ ps.map fun p ↦ (⟨attempt s p, .ok ()⟩ : Event)) :
    ¬ e.refuses s := by
  obtain ⟨p, -, rfl⟩ := List.mem_map.1 h
  exact id

theorem signal_fails_iff (h : Runs (t.signal id s) trace r) :
    (∃ f, r = .error f) ↔ t.get? id = none ∨ ∃ e ∈ trace, e.refuses s := by
  rw [signal] at h
  split at h
  · next hnone =>
    obtain ⟨rfl, rfl⟩ := Sys.runs_pure.1 h
    exact iff_of_true ⟨_, rfl⟩ (.inl hnone)
  · next j hj =>
    rw [hj]
    split at h
    · obtain ⟨answer, rest, rfl, hnext⟩ := Sys.runs_ask_bind.1 h
      cases answer with
      | error e =>
        obtain ⟨rfl, rfl⟩ := Sys.runs_pure.1 hnext
        exact iff_of_true ⟨_, rfl⟩ (.inr ⟨_, List.mem_cons_self, rfl⟩)
      | ok _ =>
        obtain ⟨rfl, rfl⟩ := Sys.runs_pure.1 hnext
        refine iff_of_false (by simp) ?_
        rintro (⟨⟨⟩⟩ | ⟨e, he, hrefused⟩)
        obtain rfl := List.mem_singleton.1 he
        exact hrefused
    · obtain ⟨rfl, rfl⟩ | ⟨before, p, after, e, -, rfl, rfl⟩ := runs_signalEach h
      · refine iff_of_false (by simp) ?_
        rintro (⟨⟨⟩⟩ | ⟨e, he, hrefused⟩)
        exact not_refuses_of_sent he hrefused
      · exact iff_of_true ⟨_, rfl⟩
          (.inr ⟨_, List.mem_append_right _ (List.mem_singleton_self _), rfl⟩)

section Delivers

variable {possible : Event → Prop} (hkill : ∀ n r, possible ⟨.kill n (some s), r⟩)

include hkill

theorem delivers_signalEach (ps : List Process) : (signalEach s ps).Delivers possible fun _ ↦ True := by
  induction ps with
  | nil => exact trivial
  | cons p ps ih =>
    refine ⟨⟨.ok (), hkill ..⟩, fun answer _ ↦ ?_⟩
    cases answer with
    | error e => exact trivial
    | ok _ => exact ih

theorem delivers_signal_of (t : JobTable) (id : JobId) : (t.signal id s).Delivers possible fun _ ↦ True := by
  rw [signal]
  split
  · exact trivial
  · split
    · refine ⟨⟨.ok (), hkill ..⟩, fun answer _ ↦ ?_⟩
      cases answer <;> exact trivial
    · exact delivers_signalEach hkill _

end Delivers

theorem delivers_signal (t : JobTable) (id : JobId) (s : Signal) :
    (t.signal id s).Delivers (fun _ ↦ True) fun _ ↦ True :=
  delivers_signal_of (fun _ _ ↦ trivial) t id

/-- Sending a signal to a job always comes to an end. It fails if there is no such job, or an attempt is
refused, and only then. Of a job without a group, the processes that have not completed are sent the signal
one by one, each once, as long as none of them refuses it; those after one that does are spared. -/
theorem signal_reaches (t : JobTable) (id : JobId) (s : Signal) :
    ((t.signal id s).Delivers (fun _ ↦ True) fun _ ↦ True) ∧
      ∀ trace r, Runs (t.signal id s) trace r →
        ((∃ f, r = .error f) ↔ t.get? id = none ∨ ∃ e ∈ trace, e.refuses s) ∧
        (t.get? id = none → trace = []) ∧
        ∀ j, t.get? id = some j → j.group = none →
          ∃ reached spared, live j = reached ++ spared ∧ trace.map (·.call) = reached.map (attempt s) ∧
            (∀ e ∈ trace.dropLast, ¬ e.refuses s) ∧
            (spared = [] ∨ ∃ e, trace.getLast? = some e ∧ e.refuses s) := by
  refine ⟨t.delivers_signal id s, fun trace r h ↦ ⟨signal_fails_iff h, fun hnone ↦ ?_, fun j hj hgroup ↦ ?_⟩⟩
  · rw [signal, hnone] at h
    exact (Sys.runs_pure.1 h).1
  · simp only [signal, hj, hgroup] at h
    obtain ⟨-, rfl⟩ | ⟨before, p, after, e, hlive, -, rfl⟩ := runs_signalEach h
    · refine ⟨live j, [], (List.append_nil _).symm, by rw [List.map_map]; rfl, fun e he ↦ ?_, .inl rfl⟩
      exact not_refuses_of_sent ((List.dropLast_sublist _).subset he)
    · refine ⟨before ++ [p], after, by simp [live, hlive], by simp, fun e he ↦ ?_,
        .inr ⟨_, List.getLast?_concat, rfl⟩⟩
      rw [List.dropLast_concat] at he
      exact not_refuses_of_sent he

theorem signal_reaches_first :
    let t : JobTable := ⟨[⟨1, none, "a | b | c | d", [⟨11, "a", .stopped .tstp⟩, ⟨12, "b", .exited 0⟩,
      ⟨13, "c", .running⟩, ⟨14, "d", .running⟩], false, false⟩], some 1⟩
    let trace : List Event := [⟨.kill 11 (some .term), .ok ()⟩, ⟨.kill 13 (some .term), .error .noProcess⟩]
    Runs (t.signal 1 .term) trace (.error (.system .noProcess)) ∧ (∃ e ∈ trace, e.refuses .term) ∧
      ∃ reached spared, [⟨11, "a", .stopped .tstp⟩, ⟨13, "c", .running⟩, ⟨14, "d", .running⟩] = reached ++ spared ∧
        trace.map (·.call) = reached.map (attempt .term) := by
  intro t trace
  have h : Runs (t.signal 1 .term) trace (.error (.system .noProcess)) := .call (.call (.done _))
  obtain ⟨hfails, -, hreaches⟩ := (signal_reaches t 1 .term).2 _ _ h
  obtain ⟨reached, spared, hlive, hcalls, -⟩ := hreaches _ rfl rfl
  exact ⟨h, (hfails.1 ⟨_, rfl⟩).resolve_left nofun, reached, spared, hlive, hcalls⟩

/-- The first of two processes is gone, and the second is not sent the signal. -/
theorem signal_spares_live :
    ¬ ∀ (t : JobTable) id s j trace r, Runs (t.signal id s) trace r → t.get? id = some j → j.group = none →
      trace.map (·.call) = (live j).map (attempt s) := by
  intro hall
  let j : Job := ⟨1, none, "a | b", [⟨11, "a", .running⟩, ⟨12, "b", .running⟩], false, false⟩
  have h : Runs (JobTable.signal ⟨[j], some 1⟩ 1 .term) [⟨.kill 11 (some .term), .error .noProcess⟩]
      (.error (.system .noProcess)) := .call (.done _)
  have hcalls := congrArg List.length (hall _ _ _ j _ _ h rfl rfl)
  revert hcalls
  decide

end JobTable

end JobShell

import JobShell.Job.Table

namespace JobShell

def Job.line (j : Job) : String := j.text ++ "\n"

def Job.marked (j : Job) : Job := { j with notified := true }

theorem Job.join_pieces (j : Job) : String.join (j.pieces ++ ["\n"]) = j.line := by
  simp [Job.line, Job.text]

/-- A writer that takes a line whole or not at all. What it has taken can be read off its state. -/
structure LineWriter where
  State : Type
  emit : List String → StateM State (Except StreamFault Unit)
  lines : State → List String
  takes : ∀ {pieces s s'}, (emit pieces).run s = (.ok (), s') → lines s' = lines s ++ [String.join pieces]
  refuses : ∀ {pieces s s' f}, (emit pieces).run s = (.error f, s') → lines s' = lines s

namespace LineWriter

def Works (w : LineWriter) : Prop := ∀ pieces s, ∃ s', (w.emit pieces).run s = (.ok (), s')

def limited (room : Nat) (f : StreamFault) : LineWriter where
  State := List String
  emit pieces taken := if taken.length < room then (.ok (), taken ++ [String.join pieces]) else (.error f, taken)
  lines taken := taken
  takes {pieces s s'} h := by
    change ite _ _ _ = _ at h
    split at h <;> cases h
    rfl
  refuses {pieces s s' f} h := by
    change ite _ _ _ = _ at h
    split at h <;> cases h
    rfl

def unlimited : LineWriter where
  State := List String
  emit pieces taken := (.ok (), taken ++ [String.join pieces])
  lines taken := taken
  takes h := by cases h; rfl
  refuses h := by cases h

theorem works_unlimited : unlimited.Works := fun _ _ ↦ ⟨_, rfl⟩

end LineWriter

namespace JobTable

def isDue (j : Job) : Bool := !j.notified && announces j

def dueLines (js : List Job) : List String := (js.filter isDue).map Job.line

theorem dueLines_cons (j : Job) (js : List Job) :
    dueLines (j :: js) = (if isDue j then [j.line] else []) ++ dueLines js := by
  unfold dueLines
  by_cases hdue : isDue j <;> simp [hdue]

theorem dueLines_append (js ks : List Job) : dueLines (js ++ ks) = dueLines js ++ dueLines ks := by
  rw [dueLines, List.filter_append, List.map_append]
  rfl

theorem dueLines_marked (js : List Job) : dueLines (js.map Job.marked) = [] := by
  simp [dueLines, isDue, Job.marked]

theorem marked_marked (js : List Job) : (js.map Job.marked).map Job.marked = js.map Job.marked :=
  List.map_map

variable {w : LineWriter} {s s' : w.State} {j : Job} {js ks : List Job} {r : Except StreamFault Unit}

theorem notifyJobs_cases (h : (notifyJobs w.emit (j :: js)).run s = ((r, ks), s')) :
    (∃ f, r = .error f ∧ ks = j :: js ∧ isDue j ∧ (w.emit (j.pieces ++ ["\n"])).run s = (.error f, s')) ∨
      ∃ s₁ ks', ks = j.marked :: ks' ∧ w.lines s₁ = w.lines s ++ (if isDue j then [j.line] else []) ∧
        (notifyJobs w.emit js).run s₁ = ((r, ks'), s') := by
  rw [notifyJobs_cons, ← isDue] at h
  by_cases hdue : isDue j
  · rw [if_pos hdue] at h ⊢
    rcases hemit : (w.emit (j.pieces ++ ["\n"])).run s with ⟨_ | _, s₁⟩
    · rw [StateT.run_bind, hemit] at h
      cases h
      exact .inl ⟨_, rfl, rfl, hdue, rfl⟩
    · rw [StateT.run_bind, hemit] at h
      cases h
      exact .inr ⟨s₁, _, rfl, j.join_pieces ▸ w.takes hemit, rfl⟩
  · rw [if_neg hdue] at h ⊢
    cases h
    exact .inr ⟨s, _, rfl, (List.append_nil _).symm, rfl⟩

theorem run_notifyJobs (h : (notifyJobs w.emit js).run s = ((r, ks), s')) :
    (r = .ok () ∧ ks = js.map Job.marked ∧ w.lines s' = w.lines s ++ dueLines js) ∨
      ∃ before j after f s₁, r = .error f ∧ js = before ++ j :: after ∧ ks = before.map Job.marked ++ j :: after ∧
        isDue j ∧ w.lines s₁ = w.lines s ++ dueLines before ∧
        (w.emit (j.pieces ++ ["\n"])).run s₁ = (.error f, s') := by
  induction js generalizing s r ks with
  | nil =>
    cases h
    exact .inl ⟨rfl, rfl, (List.append_nil _).symm⟩
  | cons i js ih =>
    obtain ⟨f, rfl, rfl, hdue, hrefused⟩ | ⟨s₁, ks, rfl, hline, hrest⟩ := notifyJobs_cases h
    · exact .inr ⟨[], i, js, f, s, rfl, rfl, rfl, hdue, (List.append_nil _).symm, hrefused⟩
    · obtain ⟨rfl, rfl, hlines⟩ | ⟨before, j, after, f, s₂, rfl, rfl, rfl, hdue, hlines, hrefused⟩ := ih hrest
      · exact .inl ⟨rfl, rfl, by rw [hlines, hline, List.append_assoc, ← dueLines_cons]⟩
      · refine .inr ⟨i :: before, j, after, f, s₂, rfl, rfl, rfl, hdue, ?_, hrefused⟩
        rw [hlines, hline, List.append_assoc, ← dueLines_cons]

theorem run_notify_of_works (hw : w.Works) (t : JobTable) (s : w.State) :
    ∃ s', (t.notify w.emit).run s = ((.ok (), { t with jobs := t.jobs.map Job.marked }.removeReported), s') ∧
      w.lines s' = w.lines s ++ dueLines t.jobs := by
  rcases h : (notifyJobs w.emit t.jobs).run s with ⟨⟨r, ks⟩, s'⟩
  obtain ⟨rfl, rfl, hlines⟩ | ⟨_, j, _, f, s₁, -, -, -, -, -, hrefused⟩ := run_notifyJobs h
  · refine ⟨s', ?_, hlines⟩
    rw [notify, StateT.run_bind, h]
    rfl
  · obtain ⟨_, htaken⟩ := hw (j.pieces ++ ["\n"]) s₁
    rw [hrefused] at htaken
    cases htaken

theorem run_notify_of_refused {t t' : JobTable} {f : StreamFault}
    (h : (t.notify w.emit).run s = ((.error f, t'), s')) :
    ∃ before j after, t.jobs = before ++ j :: after ∧ t' = { t with jobs := before.map Job.marked ++ j :: after } ∧
      isDue j ∧ w.lines s' = w.lines s ++ dueLines before := by
  rcases hjobs : (notifyJobs w.emit t.jobs).run s with ⟨⟨r, ks⟩, s₁⟩
  rw [notify, StateT.run_bind, hjobs] at h
  obtain ⟨rfl, -, -⟩ | ⟨before, j, after, f, s₂, rfl, hsplit, rfl, hdue, hlines, hrefused⟩ := run_notifyJobs hjobs
  · cases h
  · cases h
    exact ⟨before, j, after, hsplit, rfl, hdue, (w.refuses hrefused).trans hlines⟩

/-- A notification that fails is made up for by the next one. Say that a writer refuses a line, having taken
all lines before it whole, and that a notification to a writer that works follows. What is written by the
first and by the second is, put together, what the working writer is given by one notification that does not
fail: the lines of the jobs that were due, in order, each once. The table that this leaves is the same. -/
theorem notify_goes_on {broken working : LineWriter} (hworking : working.Works) {t t₁ : JobTable}
    {f : StreamFault} {b b₁ : broken.State} (h : (t.notify broken.emit).run b = ((.error f, t₁), b₁))
    (v : working.State) :
    ∃ written left t₂ v₁ v₂, dueLines t.jobs = written ++ left ∧ left ≠ [] ∧
      broken.lines b₁ = broken.lines b ++ written ∧
      (t₁.notify working.emit).run v = ((.ok (), t₂), v₁) ∧ working.lines v₁ = working.lines v ++ left ∧
      (t.notify working.emit).run v = ((.ok (), t₂), v₂) ∧
      working.lines v₂ = working.lines v ++ (written ++ left) := by
  obtain ⟨before, j, after, hsplit, rfl, hdue, hwritten⟩ := run_notify_of_refused h
  obtain ⟨v₁, hsecond, hleft⟩ := run_notify_of_works hworking
    { t with jobs := before.map Job.marked ++ j :: after } v
  obtain ⟨v₂, hwhole, hlines⟩ := run_notify_of_works hworking t v
  have hsame : (before.map Job.marked ++ j :: after).map Job.marked = t.jobs.map Job.marked := by
    rw [hsplit, List.map_append, marked_marked, List.map_append]
  have hdueLines : dueLines t.jobs = dueLines before ++ dueLines (j :: after) := by
    rw [hsplit, dueLines_append]
  refine ⟨dueLines before, dueLines (j :: after), _, v₁, v₂, hdueLines, ?_, hwritten, hsame ▸ hsecond, ?_,
    hwhole, hdueLines ▸ hlines⟩
  · rw [dueLines_cons, if_pos hdue]
    exact List.cons_ne_nil _ _
  · rw [hleft, dueLines_append, dueLines_marked, List.nil_append]

theorem notify_goes_on_after_one_line :
    let full : StreamFault := .system ⟨28⟩
    let t : JobTable := ⟨[⟨1, none, "a", [⟨11, "a", .running⟩], false, false⟩,
      ⟨2, none, "b", [⟨12, "b", .stopped .tstp⟩], false, true⟩,
      ⟨3, none, "c", [⟨13, "c", .exited 0⟩], false, true⟩, ⟨4, none, "d", [⟨14, "d", .exited 3⟩], false, false⟩,
      ⟨5, none, "e", [⟨15, "e", .stopped .stop⟩], true, false⟩], some 2⟩
    ∃ t₁ t₂, (t.notify (LineWriter.limited 1 full).emit).run [] = ((.error full, t₁), ["[2] Stopped\tb\n"]) ∧
      (t₁.notify LineWriter.unlimited.emit).run [] = ((.ok (), t₂), ["[4] Exit 3\td\n"]) ∧
      (t.notify LineWriter.unlimited.emit).run [] = ((.ok (), t₂), ["[2] Stopped\tb\n", "[4] Exit 3\td\n"]) := by
  intro full t
  have hline : Job.line ⟨2, none, "b", [⟨12, "b", .stopped .tstp⟩], false, true⟩ = "[2] Stopped\tb\n" := by
    decide +kernel
  have hfails : ∃ t₁, (t.notify (LineWriter.limited 1 full).emit).run [] =
      ((.error full, t₁), ["[2] Stopped\tb\n"]) := hline ▸ ⟨_, rfl⟩
  have hdue : dueLines t.jobs = ["[2] Stopped\tb\n", "[4] Exit 3\td\n"] := by decide +kernel
  obtain ⟨t₁, hfails⟩ := hfails
  obtain ⟨written, left, t₂, v₁, v₂, hlines, -, hwritten, hsecond, hleft, hwhole, hall⟩ :=
    notify_goes_on LineWriter.works_unlimited hfails []
  obtain rfl : ["[2] Stopped\tb\n"] = written := hwritten
  obtain rfl : v₁ = left := hleft
  obtain rfl : v₂ = _ := hall
  obtain rfl : ["[4] Exit 3\td\n"] = v₁ := (List.cons.inj (hdue.symm.trans hlines)).2
  exact ⟨t₁, t₂, hfails, hsecond, hwhole⟩

end JobTable

end JobShell

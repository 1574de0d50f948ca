import JobShell.Proofs.Redirect.Document

namespace JobShell.Redirect

open Kernel (Ends ends_bind ends_map ends_pure ends_ask Valid)

variable {refuses : Refusals} {k k₁ k' : Kernel} {p : Prepared} {rs : List Redirection} {n : Int}

theorem ends_duplicate_frame {fd target : Int} {r : Except Errno Unit}
    (h : Ends refuses k (Sys.ask (.duplicate fd target)) r k') (hn : n ≠ target) :
    k'.descriptor? n = k.descriptor? n := by
  replace h := ends_ask.1 h
  cases hopen : k.descriptor? fd with
  | none => rw [(Kernel.answers_duplicate_of_closed h hopen).2]
  | some d =>
    obtain ⟨-, -, rfl⟩ | ⟨-, -, -, hnumbers⟩ := Kernel.answers_duplicate h hopen
    · rfl
    · rw [hnumbers]
      split
      · rfl
      · rw [Function.update_of_ne hn]

theorem ends_applyOne_frame {e : Redirection × Option Int} {r : Except Failure Unit}
    (h : Ends refuses k (applyOne e) r k') (hn : n ≠ e.1.source) :
    k'.descriptor? n = k.descriptor? n := by
  obtain ⟨redirection, fd⟩ := e
  cases redirection with
  | duplicate source target input =>
    rw [applyOne] at h
    split at h
    · obtain ⟨-, rfl⟩ := ends_pure.1 h
      rfl
    · obtain ⟨_, k₁, hasked, hend⟩ := ends_bind.1 h
      obtain ⟨-, rfl⟩ := ends_pure.1 hend
      exact ends_duplicate_frame hasked hn
  | close source input =>
    obtain ⟨answer, k₁, hasked, hend⟩ := ends_bind.1 h
    obtain rfl : k' = k₁ := by
      cases answer with
      | ok _ => exact (ends_pure.1 hend).2
      | error e =>
        simp only at hend
        split at hend <;> exact (ends_pure.1 hend).2
    rw [(Kernel.answers_close (ends_ask.1 hasked)).2.1]
    exact Function.update_of_ne hn _ _
  | document source body =>
    cases fd with
    | none =>
      obtain ⟨-, rfl⟩ := ends_pure.1 h
      rfl
    | some fd =>
      obtain ⟨_, k₁, hasked, hend⟩ := ends_bind.1 h
      obtain ⟨-, rfl⟩ := ends_pure.1 hend
      exact ends_duplicate_frame hasked hn
  | path mode source path =>
    obtain ⟨answer, k₁, hasked, hnext⟩ := ends_bind.1 h
    obtain ⟨e, rfl, rfl⟩ | ⟨fd, rfl, hinstalled⟩ := Kernel.answers_open (ends_ask.1 hasked)
    · obtain ⟨-, rfl⟩ := ends_pure.1 hnext
      rfl
    · simp only at hnext
      split at hnext
      · next hfd =>
        obtain ⟨-, rfl⟩ := ends_pure.1 hnext
        rw [hinstalled.descriptors, Function.update_of_ne (hfd ▸ hn)]
      · -- the file is moved to its place, and the number at which it was opened is free again
        obtain ⟨_, k₂, hduplicate, hdrop⟩ := ends_bind.1 hnext
        obtain ⟨_, k₃, hdrop, hend⟩ := ends_bind.1 hdrop
        obtain ⟨-, rfl⟩ := ends_pure.1 hend
        rw [(Kernel.ends_drop hdrop).1]
        by_cases hfd : n = fd
        · rw [hfd, Function.update_self, hinstalled.free]
        · rw [Function.update_of_ne hfd, ends_duplicate_frame hduplicate hn, hinstalled.descriptors,
            Function.update_of_ne hfd]

theorem ends_apply_frame {r : Except Failure Unit} (h : Ends refuses k (apply p) r k')
    (hn : ∀ e ∈ p, n ≠ e.1.source) : k'.descriptor? n = k.descriptor? n := by
  induction p generalizing k with
  | nil =>
    obtain ⟨-, rfl⟩ := ends_pure.1 h
    rfl
  | cons e p ih =>
    obtain ⟨applied, k₁, hone, hrest⟩ := ends_bind.1 h
    have hsame := ends_applyOne_frame hone (hn e List.mem_cons_self)
    cases applied with
    | error f =>
      obtain ⟨-, rfl⟩ := ends_pure.1 hrest
      exact hsame
    | ok _ => rw [ih hrest fun e he ↦ hn e (List.mem_cons_of_mem _ he), hsame]

/-- Descriptors are saved one after another: an open one has a copy at a number that was free. -/
inductive Saves : Kernel → Saved → Kernel → Prop
  | nil (k : Kernel) : Saves k [] k
  | copied {k k₁ k' : Kernel} {saved : Saved} {source copy : Int} {d : Descriptor} :
      k.descriptor? source = some d → k.descriptor? copy = none → Valid copy → savedFrom ≤ copy →
        k₁.descriptor? = Function.update k.descriptor? copy (some ⟨d.file, true⟩) →
          k₁.files = k.files → Saves k₁ saved k' → Saves k ((source, some copy) :: saved) k'
  | closed {k k' : Kernel} {saved : Saved} {source : Int} :
      k.descriptor? source = none → Saves k saved k' → Saves k ((source, none) :: saved) k'

variable {saved all : Saved}

theorem ends_saveFrom {r : Except Failure Unit}
    (h : Ends refuses k (saveFrom saved rs) (r, all) k') :
    ∃ new, all = saved ++ new ∧ Saves k new k' ∧ (r = .ok () → ∀ e ∈ rs, e.source ∈ all.map (·.1)) := by
  induction rs generalizing saved k with
  | nil =>
    obtain ⟨⟨⟩, rfl⟩ := ends_pure.1 h
    exact ⟨[], (List.append_nil _).symm, .nil k', fun _ _ he ↦ absurd he List.not_mem_nil⟩
  | cons e rs ih =>
    rw [saveFrom] at h
    split at h
    · next hsaved =>
      obtain ⟨new, rfl, hnew, hsources⟩ := ih h
      refine ⟨new, rfl, hnew, fun hr ↦ List.forall_mem_cons.2 ⟨?_, hsources hr⟩⟩
      obtain ⟨s, hs, hsource⟩ := List.any_eq_true.1 hsaved
      rw [List.map_append]
      exact List.mem_append_left _ (List.mem_map.2 ⟨s, hs, by simpa using hsource⟩)
    · obtain ⟨answer, k₁, hasked, hnext⟩ := ends_bind.1 h
      obtain ⟨hclosed, rfl, rfl⟩ | ⟨-, rfl, rfl⟩ |
          ⟨d, copy, hopen, rfl, hfree, hvalid, hlow, hfiles, hnumbers⟩ :=
        Kernel.answers_duplicateAbove ⟨by decide, by decide⟩ (ends_ask.1 hasked)
      · obtain ⟨new, rfl, hnew, hsources⟩ := ih hnext
        refine ⟨(e.source, none) :: new, List.append_assoc _ _ _, .closed hclosed hnew,
          fun hr ↦ List.forall_mem_cons.2 ⟨?_, hsources hr⟩⟩
        simp
      · obtain ⟨⟨⟩, rfl⟩ := ends_pure.1 hnext
        exact ⟨[], (List.append_nil _).symm, .nil _, fun hr ↦ nomatch hr⟩
      · obtain ⟨new, rfl, hnew, hsources⟩ := ih hnext
        refine ⟨(e.source, some copy) :: new, List.append_assoc _ _ _,
          .copied hopen hfree hvalid hlow hnumbers hfiles hnew,
          fun hr ↦ List.forall_mem_cons.2 ⟨?_, hsources hr⟩⟩
        simp

def Clear (saved : Saved) : Prop := ∀ source other, (source, none) ∈ saved → (other, some source) ∉ saved

theorem Clear.of_cons {s : Int × Option Int} (h : Clear (s :: saved)) : Clear saved :=
  fun _ _ hclosed hcopy ↦ h _ _ (List.mem_cons_of_mem _ hclosed) (List.mem_cons_of_mem _ hcopy)

theorem Saves.copy_ne {source copy other : Int} {d : Descriptor} (h : Saves k saved k')
    (hopen : k.descriptor? source = some d) (hcopy : (other, some copy) ∈ saved) : copy ≠ source := by
  induction h with
  | nil => exact absurd hcopy List.not_mem_nil
  | @copied k k₁ k' saved _ taken d' _ hfree _ _ hnumbers _ _ ih =>
    have htaken : source ≠ taken := by
      rintro rfl
      rw [hopen] at hfree
      cases hfree
    rcases List.mem_cons.1 hcopy with heq | hcopy
    · cases heq
      exact htaken.symm
    · exact ih (by rw [hnumbers, Function.update_of_ne htaken, hopen]) hcopy
  | closed _ _ ih =>
    rcases List.mem_cons.1 hcopy with heq | hcopy
    · cases heq
    · exact ih hopen hcopy

theorem ends_restore_cons {s : Int × Option Int} {u v : Kernel}
    (h : Ends refuses u (restore (s :: saved)) () v) :
    ∃ w, Ends refuses u (restore saved) () w ∧ Ends refuses w (restore [s]) () v := by
  rw [restore, List.reverse_cons, List.forM_eq_forM, List.forM_append] at h
  obtain ⟨_, w, hrest, hlast⟩ := ends_bind.1 h
  exact ⟨w, hrest, hlast⟩

theorem ends_restore_closed {source : Int} {u v : Kernel}
    (h : Ends refuses u (restore [(source, none)]) () v) :
    v.descriptor? = Function.update u.descriptor? source none := by
  obtain ⟨_, w, hdrop, hend⟩ := ends_bind.1 h
  obtain ⟨-, rfl⟩ := ends_pure.1 hend
  exact (Kernel.ends_drop hdrop).1

theorem ends_restore_copied {source copy : Int} {u v : Kernel} {d : Descriptor} (hvalid : Valid source)
    (hcopy : u.descriptor? copy = some d) (hne : copy ≠ source)
    (h : Ends refuses u (restore [(source, some copy)]) () v) :
    v.descriptor? =
      Function.update (Function.update u.descriptor? source (some ⟨d.file, false⟩)) copy none := by
  obtain ⟨_, w, hback, hend⟩ := ends_bind.1 h
  obtain ⟨-, rfl⟩ := ends_pure.1 hend
  obtain ⟨answer, u₁, hasked, hdrop⟩ := ends_bind.1 hback
  obtain ⟨hinvalid, -, -⟩ | ⟨-, rfl, -, hnumbers⟩ :=
    Kernel.answers_duplicate (ends_ask.1 hasked) hcopy
  · exact absurd hvalid hinvalid
  · rw [(Kernel.ends_drop hdrop).1, hnumbers, if_neg hne]

/-- Whatever has been done to saved descriptors is undone, and the copies are gone. `outer` are numbers
that are put back later. -/
theorem Saves.undone {u v : Kernel} {outer : List Int} (h : Saves k saved k') (hk : k.Sound)
    (hclear : Clear saved) (houter : ∀ other copy, (other, some copy) ∈ saved → copy ∉ outer)
    (hu : ∀ n, n ∉ outer → n ∉ saved.map (·.1) → u.file? n = k'.file? n)
    (hv : Ends refuses u (restore saved) () v) (hn : n ∉ outer) : v.file? n = k.file? n := by
  induction h generalizing v outer n with
  | nil =>
    obtain ⟨-, rfl⟩ := ends_pure.1 hv
    exact hu n hn List.not_mem_nil
  | @copied k k₁ k' saved source copy d hopen hfree hvalid hlow hnumbers hfiles hrest ih =>
    obtain ⟨w, hsaved, hlast⟩ := ends_restore_cons hv
    have hk₁ : k₁.Sound :=
      hk.update hvalid (hfiles ▸ (hk source d hopen).2) hnumbers (hfiles ▸ Nat.le_refl _)
    have hne : copy ≠ source := by
      rintro rfl
      rw [hopen] at hfree
      cases hfree
    have hopen₁ : k₁.descriptor? source = some d := by
      rw [hnumbers, Function.update_of_ne hne.symm, hopen]
    have hcopyOuter : copy ∉ outer := houter source copy List.mem_cons_self
    -- after the later ones have been put back, all but the source and the outer ones is as it was then
    have hw (m : Int) (hm : m ∉ source :: outer) : w.file? m = k₁.file? m := by
      refine ih hk₁ hclear.of_cons ?_ ?_ hsaved hm
      · intro other later hlater hmem
        rcases List.mem_cons.1 hmem with rfl | hmem
        · exact hrest.copy_ne hopen₁ hlater rfl
        · exact houter other later (List.mem_cons_of_mem _ hlater) hmem
      · intro m hm hms
        obtain ⟨hsource, hm⟩ := List.ne_and_not_mem_of_not_mem_cons hm
        exact hu m hm (List.not_mem_cons_of_ne_of_not_mem hsource hms)
    obtain ⟨d', hd', hfile⟩ := Option.map_eq_some_iff.1 <|
      (hw copy (List.not_mem_cons_of_ne_of_not_mem hne hcopyOuter)).trans
        (congrFun (Kernel.file?_update hnumbers) copy |>.trans (Function.update_self _ _ _))
    have hv := ends_restore_copied (hk source d hopen).1 hd' hne hlast
    by_cases hcopy : n = copy
    · rw [Kernel.file?, Kernel.file?, hv, hcopy, Function.update_self, hfree]
    · by_cases hsource : n = source
      · rw [Kernel.file?, Kernel.file?, hv, Function.update_of_ne hcopy, hsource, Function.update_self, hopen]
        exact congrArg some hfile
      · rw [Kernel.file?, hv, Function.update_of_ne hcopy, Function.update_of_ne hsource]
        refine (hw n (List.not_mem_cons_of_ne_of_not_mem hsource hn)).trans (Kernel.file?_congr ?_)
        rw [hnumbers, Function.update_of_ne hcopy]
  | @closed k k' saved source hclosed hrest ih =>
    obtain ⟨w, hsaved, hlast⟩ := ends_restore_cons hv
    have hw (m : Int) (hm : m ∉ source :: outer) : w.file? m = k.file? m := by
      refine ih hk hclear.of_cons ?_ ?_ hsaved hm
      · intro other copy hcopy hmem
        rcases List.mem_cons.1 hmem with rfl | hmem
        · exact hclear copy other List.mem_cons_self (List.mem_cons_of_mem _ hcopy)
        · exact houter other copy (List.mem_cons_of_mem _ hcopy) hmem
      · intro m hm hms
        obtain ⟨hsource, hm⟩ := List.ne_and_not_mem_of_not_mem_cons hm
        exact hu m hm (List.not_mem_cons_of_ne_of_not_mem hsource hms)
    by_cases hsource : n = source
    · rw [Kernel.file?, Kernel.file?, ends_restore_closed hlast, hsource, Function.update_self, hclosed]
    · rw [Kernel.file?, ends_restore_closed hlast, Function.update_of_ne hsource]
      exact hw n (List.not_mem_cons_of_ne_of_not_mem hsource hn)

theorem Saves.low_le_copy (h : Saves k saved k') {other copy : Int} (hcopy : (other, some copy) ∈ saved) :
    savedFrom ≤ copy := by
  induction h with
  | nil => exact absurd hcopy List.not_mem_nil
  | copied _ _ _ hlow _ _ _ ih =>
    rcases List.mem_cons.1 hcopy with heq | hcopy
    · cases heq
      exact hlow
    · exact ih hcopy
  | closed _ _ ih =>
    rcases List.mem_cons.1 hcopy with heq | hcopy
    · cases heq
    · exact ih hcopy

theorem ends_saveFrom_sources {r : Except Failure Unit}
    (h : Ends refuses k (saveFrom saved rs) (r, all) k') :
    ∀ s ∈ all, s ∈ saved ∨ s.1 ∈ rs.map Redirection.source := by
  induction rs generalizing saved k with
  | nil =>
    obtain ⟨⟨⟩, rfl⟩ := ends_pure.1 h
    exact fun s hs ↦ .inl hs
  | cons e rs ih =>
    have hlater {x : Option Int} (h : ∀ s ∈ all, s ∈ saved ++ [(e.source, x)] ∨ s.1 ∈ rs.map Redirection.source) :
        ∀ s ∈ all, s ∈ saved ∨ s.1 ∈ (e :: rs).map Redirection.source := by
      intro s hs
      rcases h s hs with hmem | hmem
      · rcases List.mem_append.1 hmem with hmem | hmem
        · exact .inl hmem
        · rw [List.mem_singleton.1 hmem]
          exact .inr List.mem_cons_self
      · exact .inr (List.mem_cons_of_mem _ hmem)
    rw [saveFrom] at h
    split at h
    · exact fun s hs ↦ (ih h s hs).imp_right (List.mem_cons_of_mem _)
    · obtain ⟨answer, k₁, hasked, hnext⟩ := ends_bind.1 h
      cases answer with
      | ok copy => exact hlater (ih hnext)
      | error e =>
        simp only at hnext
        split at hnext
        · exact hlater (ih hnext)
        · obtain ⟨⟨⟩, rfl⟩ := ends_pure.1 hnext
          exact fun s hs ↦ .inl hs

theorem clear_of_lt {r : Except Failure Unit} (hrs : ∀ e ∈ rs, e.source < savedFrom)
    (h : Ends refuses k (save rs) (r, saved) k') : Clear saved := by
  intro source other hclosed hcopy
  obtain ⟨_, heq, hsaves, -⟩ := ends_saveFrom h
  rw [List.nil_append] at heq
  subst heq
  have hlow := hsaves.low_le_copy hcopy
  rcases ends_saveFrom_sources h _ hclosed with hmem | hmem
  · cases hmem
  · obtain ⟨e, he, hsource⟩ := List.mem_map.1 hmem
    have hlt := hrs e he
    simp only at hsource
    omega

end JobShell.Redirect

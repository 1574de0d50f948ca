import JobShell.Proofs.Kernel.Basic
import JobShell.Proofs.Sys.Output
import JobShell.Shell.Redirect

namespace JobShell.Redirect

open Kernel (Ends ends_bind ends_map ends_pure ends_ask)

variable {refuses : Refusals} {k k₁ k' : Kernel} {fd : Int} {c : Call} {others : List OpenFile}

structure Holds (k : Kernel) (fd : Int) (others : List OpenFile) (c : Call)
    (content : ByteArray × Nat) (closeOnExec : Bool) : Prop where
  number : k.descriptor? fd = some ⟨others.length, closeOnExec⟩
  files : k.files = others ++ [⟨c, some content⟩]

structure Confined (k : Kernel) (fd : Int) (others : List OpenFile) (c : Call) (k' : Kernel) : Prop where
  numbers : ∀ n, n ≠ fd → k'.descriptor? n = k.descriptor? n
  files : ∃ content, k'.files = others ++ [⟨c, content⟩]

theorem Confined.trans (h : Confined k fd others c k₁) (h' : Confined k₁ fd others c k') :
    Confined k fd others c k' :=
  ⟨fun n hn ↦ (h'.numbers n hn).trans (h.numbers n hn), h'.files⟩

theorem modify_last {α : Type} (l : List α) (a : α) (f : α → α) :
    (l ++ [a]).modify l.length f = l ++ [f a] := by
  induction l with
  | nil => rfl
  | cons b l ih => exact congrArg (b :: ·) ih

variable {content : ByteArray × Nat} {closeOnExec : Bool}

theorem Holds.confined (h : Holds k fd others c content closeOnExec) : Confined k fd others c k :=
  ⟨fun _ _ ↦ rfl, _, h.files⟩

theorem Holds.modifyFile (h : Holds k fd others c content closeOnExec)
    (f : ByteArray × Nat → ByteArray × Nat) :
    Holds (k.modifyFile fd f) fd others c (f content) closeOnExec ∧
      Confined k fd others c (k.modifyFile fd f) := by
  have hdescriptors := (k.descriptors_modifyFile fd f).1
  have hnumbers : (k.modifyFile fd f).descriptor? = k.descriptor? := by
    unfold Kernel.descriptor?
    rw [hdescriptors]
  have hfiles : (k.modifyFile fd f).files = others ++ [⟨c, some (f content)⟩] := by
    unfold Kernel.modifyFile
    rw [h.number, h.files]
    exact modify_last others _ _
  exact ⟨⟨hnumbers ▸ h.number, hfiles⟩, fun n _ ↦ hnumbers ▸ rfl, _, hfiles⟩

theorem ends_writeAll {b bytes left : ByteArray} {r : Except Errno Unit}
    (hk : Holds k fd others c (b, b.size) closeOnExec)
    (h : Ends refuses k (Sys.writeAll fd bytes) (r, left) k') :
    Confined k fd others c k' ∧
      (r = .ok () → Holds k' fd others c (b ++ bytes, (b ++ bytes).size) closeOnExec) := by
  unfold Sys.writeAll at h
  generalize Sys.patience = n at h
  induction n generalizing k b bytes with
  | zero => exact absurd h Kernel.not_ends_hang
  | succ n ih =>
    rw [Sys.writeLoop] at h
    split at h
    · next hempty =>
      obtain ⟨⟨⟩, rfl⟩ := ends_pure.1 h
      rw [eq_empty_of_isEmpty hempty, ByteArray.append_empty]
      exact ⟨hk.confined, fun _ ↦ hk⟩
    · obtain ⟨answer, k₁, hwrite, hnext⟩ := ends_bind.1 h
      replace hwrite := ends_ask.1 hwrite
      cases answer with
      | ok count =>
        obtain ⟨hcount, rfl⟩ := hwrite
        obtain ⟨hholds, hconfined⟩ := hk.modifyFile fun c ↦
          (Machine.splice c.1 c.2 (bytes.extract 0 count), c.2 + count)
        have hend : (Machine.splice b b.size (bytes.extract 0 count), b.size + count) =
            (b ++ bytes.extract 0 count, (b ++ bytes.extract 0 count).size) := by
          rw [Machine.splice, if_pos rfl, ByteArray.size_append, ByteArray.size_extract,
            Nat.min_eq_left hcount, Nat.sub_zero]
        rw [hend] at hholds
        obtain ⟨hrest, hdone⟩ := ih hholds hnext
        rw [ByteArray.append_assoc, extract_append_rest] at hdone
        exact ⟨hconfined.trans hrest, hdone⟩
      | error e =>
        obtain rfl : k₁ = k := hwrite
        simp only at hnext
        split at hnext
        · exact ih hk hnext
        · obtain ⟨⟨⟩, rfl⟩ := ends_pure.1 hnext
          exact ⟨hk.confined, fun hr ↦ absurd hr (by simp)⟩

theorem ends_fillFile {path document : String} {r : Except Failure Unit}
    (hk : Holds k fd others c (.empty, 0) false)
    (h : Ends refuses k (fillFile fd path document).run r k') :
    Confined k fd others c k' ∧
      (r = .ok () → Holds k' fd others c (document.toUTF8, 0) true) := by
  obtain ⟨_, k₁, hunlink, hmark⟩ := ends_bind.1 h
  clear h
  obtain ⟨unlinked, hasked, rfl⟩ := ends_map.1 hunlink
  obtain rfl : k₁ = k := ends_ask.1 hasked
  -- each of the four calls may fail, and what was written before it stays
  cases unlinked with
  | error e =>
    obtain ⟨rfl, rfl⟩ := ends_pure.1 hmark
    exact ⟨hk.confined, fun hr ↦ nomatch hr⟩
  | ok _ =>
    obtain ⟨_, k₂, hmark, hwrite⟩ := ends_bind.1 hmark
    obtain ⟨marked, hasked, rfl⟩ := ends_map.1 hmark
    obtain ⟨hclosed, -, -⟩ | ⟨d, hopen, rfl, hfiles, hnumbers⟩ :=
      Kernel.answers_setCloseOnExec (ends_ask.1 hasked)
    · rw [hk.number] at hclosed
      cases hclosed
    · rw [hk.number] at hopen
      cases hopen
      have hmarked : Holds k₂ fd others c (.empty, ByteArray.size .empty) true :=
        ⟨by rw [hnumbers, Function.update_self], hfiles ▸ hk.files⟩
      have hconfined : Confined k₁ fd others c k₂ :=
        ⟨fun n hn ↦ by rw [hnumbers, Function.update_of_ne hn], _, hmarked.files⟩
      obtain ⟨wrote, k₃, hwrite, hseek⟩ := ends_bind.1 hwrite
      obtain ⟨⟨result, left⟩, hwritten, rfl⟩ :=
        ends_map.1 (show Ends refuses k₂ (Except.ok <$> Sys.writeAll fd document.toUTF8) wrote k₃ from hwrite)
      obtain ⟨hkept, hdone⟩ := ends_writeAll hmarked hwritten
      replace hconfined := hconfined.trans hkept
      cases result with
      | error e =>
        obtain ⟨rfl, rfl⟩ := ends_pure.1 hseek
        exact ⟨hconfined, fun hr ↦ nomatch hr⟩
      | ok _ =>
        obtain ⟨sought, k₄, hseek, hend⟩ := ends_bind.1 hseek
        obtain ⟨reply, hasked, rfl⟩ :=
          ends_map.1 (show Ends refuses k₃ (Except.ok <$> Sys.ask (.seek fd .start)) sought k₄ from hseek)
        replace hasked := ends_ask.1 hasked
        cases reply with
        | error e =>
          obtain ⟨rfl, rfl⟩ := ends_pure.1 hend
          obtain rfl : k' = k₃ := hasked
          exact ⟨hconfined, fun hr ↦ nomatch hr⟩
        | ok _ =>
          obtain ⟨rfl, rfl⟩ := ends_pure.1 hend
          obtain rfl := hasked
          obtain ⟨hrewound, hlast⟩ := (hdone rfl).modifyFile fun c ↦ (c.1, 0)
          rw [ByteArray.empty_append] at hrewound
          exact ⟨hconfined.trans hlast, fun _ ↦ hrewound⟩

theorem ends_temporaryDirectory {directory : String}
    (h : Ends refuses k temporaryDirectory directory k') : k' = k := by
  obtain ⟨_, k₁, hasked, hend⟩ := ends_bind.1 h
  obtain ⟨-, rfl⟩ := ends_pure.1 hend
  exact ends_ask.1 hasked

theorem ends_openDocument {document : String} {r : Except Failure Int}
    (h : Ends refuses k (openDocument document) r k') :
    (∃ e, r = .error e ∧ k'.descriptor? = k.descriptor?) ∨
      ∃ fd template, r = .ok fd ∧
        k.Installed ⟨.temporary template, some (document.toUTF8, 0)⟩ true fd k' := by
  obtain ⟨directory, k₁, hdirectory, hmade⟩ := ends_bind.1 h
  obtain rfl := ends_temporaryDirectory hdirectory
  obtain ⟨made, k₂, hasked, hfill⟩ := ends_bind.1 hmade
  obtain ⟨e, rfl, rfl⟩ | ⟨fd, path, rfl, hinstalled⟩ := Kernel.answers_temporary (ends_ask.1 hasked)
  · obtain ⟨rfl, rfl⟩ := ends_pure.1 hfill
    exact .inl ⟨_, rfl, rfl⟩
  · obtain ⟨filled, k₃, hfill, hend⟩ := ends_bind.1 hfill
    have hholds : Holds k₂ fd k₁.files _ (.empty, 0) false :=
      ⟨by rw [hinstalled.descriptors, Function.update_self], hinstalled.files⟩
    obtain ⟨hconfined, hdone⟩ := ends_fillFile hholds hfill
    have hothers (n : Int) (hn : n ≠ fd) : k₃.descriptor? n = k₁.descriptor? n := by
      rw [hconfined.numbers n hn, hinstalled.descriptors, Function.update_of_ne hn]
    cases filled with
    | error f =>
      obtain ⟨_, k₄, hdrop, hend⟩ := ends_bind.1 hend
      obtain ⟨rfl, rfl⟩ := ends_pure.1 hend
      refine .inl ⟨_, rfl, ?_⟩
      rw [(Kernel.ends_drop hdrop).1]
      funext n
      by_cases hn : n = fd
      · rw [hn, Function.update_self, hinstalled.free]
      · rw [Function.update_of_ne hn, hothers n hn]
    | ok _ =>
      obtain ⟨rfl, rfl⟩ := ends_pure.1 hend
      have hfilled := hdone rfl
      refine .inr ⟨fd, _, rfl, hinstalled.least, hinstalled.lt, ?_, hfilled.files⟩
      funext n
      by_cases hn : n = fd
      · rw [hn, Function.update_self, hfilled.number]
      · rw [Function.update_of_ne hn, hothers n hn]

def documents (p : Prepared) : List Int := p.filterMap (·.2)

inductive Prepares : Kernel → List Redirection → Prepared → Kernel → Prop
  | nil (k : Kernel) : Prepares k [] [] k
  | other {k k' : Kernel} {r : Redirection} {rs : List Redirection} {p : Prepared} :
      r.document? = none → Prepares k rs p k' → Prepares k (r :: rs) ((r, none) :: p) k'
  | document {k k₁ k' : Kernel} {r : Redirection} {rs : List Redirection} {p : Prepared}
      {body template : String} {fd : Int} :
      r.document? = some body →
        k.Installed ⟨.temporary template, some (body.toUTF8, 0)⟩ true fd k₁ →
          Prepares k₁ rs p k' → Prepares k (r :: rs) ((r, some fd) :: p) k'

variable {p opened : Prepared} {rs : List Redirection}

theorem Prepares.redirections (h : Prepares k rs p k') : p.map (·.1) = rs := by
  induction h with
  | nil => rfl
  | other _ _ ih => exact congrArg (_ :: ·) ih
  | document _ _ _ ih => exact congrArg (_ :: ·) ih

theorem Prepares.numbers (h : Prepares k rs p k') :
    (∀ n ∈ documents p, k.descriptor? n = none) ∧
      ∀ n, n ∉ documents p → k'.descriptor? n = k.descriptor? n := by
  induction h with
  | nil => exact ⟨fun _ hn ↦ absurd hn List.not_mem_nil, fun _ _ ↦ rfl⟩
  | other _ _ ih => exact ih
  | @document k k₁ k' r rs p body template fd _ hinstalled _ ih =>
    obtain ⟨hfree, hsame⟩ := ih
    have hdocuments : documents ((r, some fd) :: p) = fd :: documents p := rfl
    rw [hdocuments]
    constructor
    · intro n hn
      rcases List.mem_cons.1 hn with rfl | hn
      · exact hinstalled.free
      · have hnone := hfree n hn
        rw [hinstalled.descriptors] at hnone
        by_cases hfd : n = fd
        · rw [hfd, hinstalled.free]
        · rwa [Function.update_of_ne hfd] at hnone
    · intro n hn
      obtain ⟨hfd, hn⟩ := List.ne_and_not_mem_of_not_mem_cons hn
      rw [hsame n hn, hinstalled.descriptors, Function.update_of_ne hfd]

theorem Prepares.marked (h : Prepares k rs p k') {n : Int} (hn : n ∈ documents p) :
    ∃ file, k'.descriptor? n = some ⟨file, true⟩ := by
  induction h with
  | nil => cases hn
  | other _ _ ih => exact ih hn
  | @document k k₁ k' r rs p body template fd _ hinstalled hrest ih =>
    by_cases hlater : n ∈ documents p
    · exact ih hlater
    · rcases List.mem_cons.1 hn with rfl | hn
      · refine ⟨k.files.length, ?_⟩
        rw [hrest.numbers.2 n hlater, hinstalled.descriptors, Function.update_self]
      · exact absurd hn hlater

theorem ends_release (h : Ends refuses k (release p) () k') (n : Int) :
    k'.descriptor? n = if n ∈ documents p then none else k.descriptor? n := by
  induction p generalizing k with
  | nil =>
    obtain ⟨-, rfl⟩ := ends_pure.1 h
    rfl
  | cons e p ih =>
    obtain ⟨r, fd⟩ := e
    obtain ⟨_, k₁, hdrop, hrest⟩ := ends_bind.1 h
    cases fd with
    | none =>
      obtain ⟨-, rfl⟩ := ends_pure.1 hdrop
      exact ih hrest
    | some fd =>
      have hdocuments : documents ((r, some fd) :: p) = fd :: documents p := rfl
      rw [ih hrest, (Kernel.ends_drop hdrop).1, hdocuments]
      by_cases hfd : n = fd
      · rw [hfd, Function.update_self, ite_self, if_pos List.mem_cons_self]
      · rw [Function.update_of_ne hfd]
        simp only [List.mem_cons, hfd, false_or]

/-- Documents are opened for all redirections, or none is left open. -/
theorem ends_prepareFrom {r : Except Failure Prepared}
    (h : Ends refuses k (prepareFrom opened rs) r k') :
    (∃ p, r = .ok (opened ++ p) ∧ Prepares k rs p k') ∨
      (∃ e, r = .error e) ∧
        ∀ n, k'.descriptor? n = if n ∈ documents opened then none else k.descriptor? n := by
  induction rs generalizing opened k with
  | nil =>
    obtain ⟨rfl, rfl⟩ := ends_pure.1 h
    exact .inl ⟨[], by rw [List.append_nil], .nil k'⟩
  | cons redirection rs ih =>
    rw [prepareFrom] at h
    split at h
    · next hnone =>
      obtain ⟨p, rfl, hp⟩ | ⟨herror, hclosed⟩ := ih h
      · exact .inl ⟨(redirection, none) :: p, by rw [List.append_assoc]; rfl, .other hnone hp⟩
      · refine .inr ⟨herror, fun n ↦ ?_⟩
        have hdocuments : documents (opened ++ [(redirection, none)]) = documents opened := by
          simp [documents]
        rw [hclosed, hdocuments]
    · next body hbody =>
      obtain ⟨answer, k₁, hopen, hnext⟩ := ends_bind.1 h
      obtain ⟨e, rfl, hsame⟩ | ⟨fd, template, rfl, hinstalled⟩ := ends_openDocument hopen
      · obtain ⟨_, k₂, hrelease, hend⟩ := ends_bind.1 hnext
        obtain ⟨rfl, rfl⟩ := ends_pure.1 hend
        refine .inr ⟨⟨e, rfl⟩, fun n ↦ ?_⟩
        rw [ends_release hrelease, hsame]
      · obtain ⟨p, rfl, hp⟩ | ⟨herror, hclosed⟩ := ih hnext
        · exact .inl ⟨(redirection, some fd) :: p, by rw [List.append_assoc]; rfl,
            .document hbody hinstalled hp⟩
        · refine .inr ⟨herror, fun n ↦ ?_⟩
          have hdocuments : documents (opened ++ [(redirection, some fd)]) = documents opened ++ [fd] := by
            simp [documents]
          rw [hclosed, hdocuments, hinstalled.descriptors]
          by_cases hfd : n = fd
          · rw [hfd, hinstalled.free, ite_self, if_pos (List.mem_append_right _ (List.mem_singleton_self fd))]
          · rw [Function.update_of_ne hfd]
            simp only [List.mem_append, List.mem_singleton, hfd, or_false]

theorem ends_prepare {r : Except Failure Prepared} (h : Ends refuses k (prepare rs) r k') :
    (∃ p, r = .ok p ∧ Prepares k rs p k') ∨
      (∃ e, r = .error e) ∧ k'.descriptor? = k.descriptor? := by
  obtain h | ⟨herror, hsame⟩ := ends_prepareFrom h
  · exact .inl h
  · exact .inr ⟨herror, funext hsame⟩

end JobShell.Redirect

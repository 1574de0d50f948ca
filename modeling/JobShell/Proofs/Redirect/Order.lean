import JobShell.Proofs.Redirect.Document

namespace JobShell

/-- What numbers stand for. -/
abbrev View := Int → Option Nat

namespace Redirection

/-- What the source of a redirection is to stand for. A file that the redirection brings with it has the
number `file`. -/
def gives (missing : String → Option Errno) (file : Nat) (v : View) :
    Redirection → Except Failure (Option Nat)
  | .path _ _ name =>
    match missing (Text.spell name) with
    | some e => .error (.redirectionFailed name e)
    | none => .ok (some file)
  | .document _ _ => .ok (some file)
  | .duplicate _ target _ =>
    match v target with
    | some f => .ok (some f)
    | none => .error (.redirectionFailed (Decimal.text target) .badDescriptor)
  | .close _ _ => .ok none

def opens? : Redirection → Option OpenFile
  | .path mode _ name => some ⟨.«open» (Text.spell name) (Redirect.flagsOf mode) 0o644, none⟩
  | _ => none

def isDocument (r : Redirection) : Bool := r.document?.isSome

/-- What redirections mean, one after another: what numbers stand for in the end, and the first that
fails, if one does. Documents are the files from `first` on, other files those from `opened` on. -/
def meaning (missing : String → Option Errno) :
    (first opened : Nat) → List Redirection → View → View × Option (Nat × Failure)
  | _, _, [], v => (v, none)
  | first, opened, r :: rs, v =>
    match r.gives missing (if r.isDocument then first else opened) v with
    | .error f => (v, some (0, f))
    | .ok file =>
      let later := meaning missing (first + r.document?.toList.length)
        (opened + r.opens?.toList.length) rs (Function.update v r.source file)
      (later.1, later.2.map fun failed ↦ (failed.1 + 1, failed.2))

end Redirection

namespace Redirect

open Kernel (Ends ends_bind ends_map ends_pure ends_ask Valid streams)

variable {refuses : Refusals} {missing : String → Option Errno} {k k₁ k' : Kernel} {p : Prepared}
  {v : View} {hidden : List Int}

/-- Documents that are still to be applied stand at their numbers, in the files from `first` on. -/
def Pending (k : Kernel) : (first : Nat) → Prepared → Prop
  | _, [] => True
  | first, (r, none) :: p => r.isDocument = false ∧ Pending k first p
  | first, (r, some fd) :: p => r.isDocument = true ∧ k.file? fd = some first ∧ Pending k (first + 1) p

/-- No redirection changes the number of a document that is still to be applied, and none duplicates the
number of a document, unless that number has been redirected before. -/
def Undisturbed : (hidden : List Int) → Prepared → Prop
  | _, [] => True
  | hidden, e :: p =>
    e.1.source ∉ documents p ∧
      (∀ source target input, e.1 = .duplicate source target input → target ∉ hidden) ∧
      Undisturbed (hidden.filter (· ≠ e.1.source)) p

/-- Whenever a file is to be opened, a number is free that no redirection before has changed. -/
def Room (k : Kernel) (rs : List Redirection) : Prop :=
  ∀ i mode source name, rs[i]? = some (.path mode source name) →
    ∃ n, Valid n ∧ k.file? n = none ∧ ∀ r ∈ rs.take i, r.source ≠ n

/-- Numbers stand for what a script sees at them. At hidden ones, it sees nothing. -/
structure Matches (k : Kernel) (v : View) (hidden : List Int) : Prop where
  shown : ∀ n, n ∉ hidden → k.file? n = v n
  unseen : ∀ n ∈ hidden, v n = none

variable {source n : Int} {file : Option Nat} {first : Nat}

theorem Matches.update (h : Matches k v hidden) (hk : k'.file? = Function.update k.file? source file) :
    Matches k' (Function.update v source file) (hidden.filter (· ≠ source)) := by
  constructor
  · intro n hn
    rw [hk]
    by_cases hsource : n = source
    · rw [hsource, Function.update_self, Function.update_self]
    · rw [Function.update_of_ne hsource, Function.update_of_ne hsource]
      exact h.shown n fun hmem ↦ hn (List.mem_filter.2 ⟨hmem, decide_eq_true hsource⟩)
  · intro n hn
    obtain ⟨hmem, hsource⟩ := List.mem_filter.1 hn
    rw [Function.update_of_ne (of_decide_eq_true hsource)]
    exact h.unseen n hmem

theorem Pending.update (h : Pending k first p) (hsource : source ∉ documents p)
    (hk : k'.file? = Function.update k.file? source file) : Pending k' first p := by
  induction p generalizing first with
  | nil => trivial
  | cons e p ih =>
    obtain ⟨r, _ | fd⟩ := e
    · exact ⟨h.1, ih h.2 hsource⟩
    · obtain ⟨hr, hfd, hp⟩ := h
      obtain ⟨hne, hsource⟩ := List.ne_and_not_mem_of_not_mem_cons hsource
      exact ⟨hr, by rw [hk, Function.update_of_ne hne.symm, hfd], ih hp hsource⟩

theorem Room.tail {r : Redirection} {rs : List Redirection} (h : Room k (r :: rs))
    (hk : k'.file? = Function.update k.file? r.source file) : Room k' rs := by
  intro i mode source name hpath
  obtain ⟨n, hvalid, hfree, hn⟩ := h (i + 1) mode source name hpath
  have hne : r.source ≠ n := hn r List.mem_cons_self
  exact ⟨n, hvalid, by rw [hk, Function.update_of_ne hne.symm, hfree],
    fun r' hr' ↦ hn r' (List.mem_cons_of_mem _ hr')⟩

theorem Room.free_lt {rs : List Redirection} {mode : OpenMode} {name : String}
    (h : Room k (.path mode source name :: rs)) : k.descriptors.free 0 < Descriptors.limit :=
  let ⟨_, hvalid, hfree, _⟩ := h 0 mode source name rfl
  Kernel.free_lt hvalid hfree

theorem Pending.tail {e : Redirection × Option Int} (h : Pending k first (e :: p)) :
    Pending k (first + e.1.document?.toList.length) p := by
  obtain ⟨r, _ | fd⟩ := e
  · have hnone : r.document? = none := by simpa [Redirection.isDocument] using h.1
    simp only [hnone]
    exact h.2
  · obtain ⟨body, hbody⟩ := Option.isSome_iff_exists.1 h.1
    simp only [hbody]
    exact h.2.2

theorem Prepares.pending {rs : List Redirection} (h : Prepares k rs p k') :
    Pending k' k.files.length p := by
  induction h with
  | nil => trivial
  | other hr _ ih => exact ⟨by rw [Redirection.isDocument, hr]; rfl, ih⟩
  | @document k k₁ k' r rs p body template fd hbody hinstalled hrest ih =>
    have hfd : k₁.descriptor? fd = some ⟨k.files.length, true⟩ := by
      rw [hinstalled.descriptors, Function.update_self]
    have hlength : k₁.files.length = k.files.length + 1 := by rw [hinstalled.files, List.length_append]; rfl
    obtain ⟨hfree, hothers⟩ := hrest.numbers
    have hkept : fd ∉ documents p := by
      intro hmem
      rw [hfree fd hmem] at hfd
      cases hfd
    refine ⟨by rw [Redirection.isDocument, hbody]; rfl, ?_, hlength ▸ ih⟩
    rw [Kernel.file?, hothers fd hkept, hfd]
    rfl

theorem Prepares.files {rs : List Redirection} (h : Prepares k rs p k') :
    ∃ ds, k'.files = k.files ++ ds ∧
      ds.map (·.content) = (rs.filterMap Redirection.document?).map fun body ↦ some (body.toUTF8, 0) := by
  induction h with
  | nil k => exact ⟨[], (List.append_nil _).symm, rfl⟩
  | other hr _ ih =>
    obtain ⟨ds, hfiles, hcontents⟩ := ih
    exact ⟨ds, hfiles, by rw [hcontents, List.filterMap_cons_none hr]⟩
  | document hbody hinstalled _ ih =>
    obtain ⟨ds, hfiles, hcontents⟩ := ih
    refine ⟨_ :: ds, by rw [hfiles, hinstalled.files, List.append_assoc]; rfl, ?_⟩
    rw [List.map_cons, hcontents, List.filterMap_cons_some hbody, List.map_cons]

/-- Applying a redirection leaves what it means: on failure everything as it was, otherwise the file at
its source. -/
def Leaves (k : Kernel) (r : Redirection) (outcome : Except Failure (Option Nat))
    (x : Except Failure Unit) (k' : Kernel) : Prop :=
  match outcome with
  | .error f => x = .error f ∧ k' = k
  | .ok file => x = .ok () ∧ k'.file? = Function.update k.file? r.source file ∧
      k'.files = k.files ++ r.opens?.toList

variable {x : Except Failure Unit} {fd : Option Int}

theorem ends_applyOne_path {mode : OpenMode} {name : String}
    (hmissing : ∀ k path flags mode, refuses k (.«open» path flags mode) = missing path)
    (hvalid : Valid source) (hroom : k.descriptors.free 0 < Descriptors.limit)
    (h : Ends refuses k (applyOne (.path mode source name, fd)) x k') :
    Leaves k (.path mode source name)
      ((Redirection.path mode source name).gives missing k.files.length v) x k' := by
  obtain ⟨reply, k₁, hasked, hnext⟩ := ends_bind.1 h
  replace hasked := ends_ask.1 hasked
  have hfate := hmissing k (Text.spell name) (flagsOf mode) 0o644
  simp only [Redirection.gives]
  cases hname : missing (Text.spell name) with
  | some e =>
    obtain ⟨rfl, rfl⟩ := Kernel.answers_open_of_refused (hfate.trans hname) hasked
    exact ends_pure.1 hnext
  | none =>
    obtain ⟨fd, rfl, hinstalled⟩ :=
      Kernel.answers_open_of_granted (hfate.trans hname) hroom hasked
    have hopened := hinstalled.file?
    simp only at hnext
    split at hnext
    · next hsame =>
      obtain ⟨rfl, rfl⟩ := ends_pure.1 hnext
      exact ⟨rfl, hsame ▸ hopened, hinstalled.files⟩
    · next hne =>
      obtain ⟨moved, k₂, hmoved, hdrop⟩ := ends_bind.1 hnext
      obtain ⟨_, k₃, hclose, hend⟩ := ends_bind.1 hdrop
      obtain ⟨rfl, rfl⟩ := ends_pure.1 hend
      obtain ⟨rfl, hfiles, hk⟩ := Kernel.file?_duplicate (ends_ask.1 hmoved)
        (by rw [hopened, Function.update_self]) hvalid
      obtain ⟨hdropped, hfiles'⟩ := Kernel.ends_drop hclose
      -- the number at which the file was opened is free again
      have hfree : k.file? fd = none := congrArg (Option.map Descriptor.file) hinstalled.free
      have hchanged : k'.file? = Function.update k.file? source (some k.files.length) := by
        rw [Kernel.file?_update hdropped, hk, hopened, Function.update_comm hne,
          Function.update_idem, Option.map_none, ← hfree, Function.update_comm (Ne.symm hne),
          Function.update_eq_self]
      exact ⟨rfl, hchanged, by rw [hfiles', hfiles, hinstalled.files]; rfl⟩

theorem ends_applyOne_duplicate {target : Int} {input : Bool} (hvalid : Valid source)
    (hshown : k.file? target = v target) (hself : target = source → v target ≠ none)
    (h : Ends refuses k (applyOne (.duplicate source target input, fd)) x k') :
    Leaves k (.duplicate source target input)
      ((Redirection.duplicate source target input).gives missing first v) x k' := by
  rw [applyOne] at h
  simp only [Redirection.gives]
  split at h
  · next hsame =>
    obtain ⟨rfl, rfl⟩ := ends_pure.1 h
    subst hsame
    cases hv : v target with
    | none => exact absurd hv (hself rfl)
    | some f =>
      refine ⟨rfl, ?_, (List.append_nil _).symm⟩
      rw [← hv, ← hshown]
      exact (Function.update_eq_self target k'.file?).symm
  · obtain ⟨reply, k₁, hasked, hend⟩ := ends_bind.1 h
    obtain ⟨rfl, rfl⟩ := ends_pure.1 hend
    cases hv : v target with
    | none =>
      have hclosed : k.descriptor? target = none := Option.map_eq_none_iff.1 (hshown.trans hv)
      obtain ⟨rfl, rfl⟩ := Kernel.answers_duplicate_of_closed (ends_ask.1 hasked) hclosed
      exact ⟨rfl, rfl⟩
    | some f =>
      obtain ⟨rfl, hfiles, hk⟩ :=
        Kernel.file?_duplicate (ends_ask.1 hasked) (hshown.trans hv) hvalid
      exact ⟨rfl, hk, by rw [hfiles]; exact (List.append_nil _).symm⟩

theorem ends_applyOne_close {input : Bool}
    (h : Ends refuses k (applyOne (.close source input, fd)) x k') :
    Leaves k (.close source input) (.ok none) x k' := by
  obtain ⟨reply, k₁, hasked, hend⟩ := ends_bind.1 h
  obtain ⟨hreply, hnumbers, hfiles⟩ := Kernel.answers_close (ends_ask.1 hasked)
  have hend : x = .ok () ∧ k' = k₁ := by
    obtain ⟨-, rfl⟩ | ⟨-, rfl⟩ := hreply
    · exact ends_pure.1 hend
    · exact ends_pure.1 hend
  obtain ⟨rfl, rfl⟩ := hend
  exact ⟨rfl, Kernel.file?_update hnumbers, by rw [hfiles]; exact (List.append_nil _).symm⟩

theorem ends_applyOne_document {body : String} {f : Nat} (hvalid : Valid source)
    (hopen : k.file? n = some f) (h : Ends refuses k (applyOne (.document source body, some n)) x k') :
    Leaves k (.document source body) (.ok (some f)) x k' := by
  obtain ⟨reply, k₁, hasked, hend⟩ := ends_bind.1 h
  obtain ⟨rfl, rfl⟩ := ends_pure.1 hend
  obtain ⟨rfl, hfiles, hk⟩ := Kernel.file?_duplicate (ends_ask.1 hasked) hopen hvalid
  exact ⟨rfl, hk, by rw [hfiles]; exact (List.append_nil _).symm⟩

theorem ends_applyOne {e : Redirection × Option Int}
    (hmissing : ∀ k path flags mode, refuses k (.«open» path flags mode) = missing path)
    (hvalid : Valid e.1.source) (hroom : Room k (e.1 :: p.map (·.1)))
    (hpending : Pending k first (e :: p)) (hmatches : Matches k v hidden)
    (htarget : ∀ source target input, e.1 = .duplicate source target input → target ∉ hidden)
    (hself : ∀ source input, e.1 = .duplicate source source input → v source ≠ none)
    (h : Ends refuses k (applyOne e) x k') :
    Leaves k e.1 (e.1.gives missing (if e.1.isDocument then first else k.files.length) v) x k' := by
  obtain ⟨redirection, fd⟩ := e
  cases redirection with
  | path mode source name => exact ends_applyOne_path hmissing hvalid hroom.free_lt h
  | duplicate source target input =>
    refine ends_applyOne_duplicate hvalid (hmatches.shown target (htarget source target input rfl)) ?_ h
    rintro rfl
    exact hself target input rfl
  | close source input => exact ends_applyOne_close h
  | document source body =>
    cases fd with
    | none => cases hpending.1
    | some fd => exact ends_applyOne_document hvalid hpending.2.1 h

/-- Applying redirections has come to an outcome: what numbers stand for, except hidden ones at which a
script sees nothing; the files that have been opened; and the first redirection that fails, which has
changed nothing. -/
structure ComesTo (refuses : Refusals) (k : Kernel) (p : Prepared) (hidden : List Int)
    (outcome : View × Option (Nat × Failure)) (x : Except Failure Unit) (k' : Kernel) : Prop where
  numbers : ∃ kept, kept ⊆ hidden ∧ Matches k' outcome.1 kept
  files : k'.files = k.files ++
    ((p.take ((outcome.2.map (·.1)).getD p.length)).filterMap fun e ↦ e.1.opens?)
  result : x = match outcome.2 with
    | none => .ok ()
    | some (_, f) => .error f
  stopped : ∀ i f, outcome.2 = some (i, f) → Ends refuses k (apply (p.take i)) (.ok ()) k' ∧
    ∃ e, p[i]? = some e ∧ Ends refuses k' (applyOne e) (.error f) k'

theorem ComesTo.cons {e : Redirection × Option Int} {w : View} {failed : Option (Nat × Failure)}
    (hone : Ends refuses k (applyOne e) (.ok ()) k₁)
    (hfiles : k₁.files = k.files ++ e.1.opens?.toList)
    (h : ComesTo refuses k₁ p (hidden.filter (· ≠ e.1.source)) (w, failed) x k') :
    ComesTo refuses k (e :: p) hidden (w, failed.map fun f ↦ (f.1 + 1, f.2)) x k' := by
  constructor
  · obtain ⟨kept, hkept, hmatches⟩ := h.numbers
    exact ⟨kept, List.Subset.trans hkept List.filter_sublist.subset, hmatches⟩
  · rw [h.files, hfiles, List.append_assoc]
    cases failed with
    | none => cases hopens : e.1.opens? <;> simp [hopens]
    | some f => cases hopens : e.1.opens? <;> simp [hopens]
  · rw [h.result]
    cases failed <;> rfl
  · intro i f hf
    obtain ⟨⟨j, g⟩, rfl, hg⟩ := Option.map_eq_some_iff.1 hf
    cases hg
    obtain ⟨hbefore, e', he', hfails⟩ := h.stopped j g rfl
    exact ⟨ends_bind.2 ⟨_, k₁, hone, hbefore⟩, e', he', hfails⟩

/-- Applying all redirections comes to what they mean, one after another. -/
theorem ends_apply
    (hmissing : ∀ k path flags mode, refuses k (.«open» path flags mode) = missing path)
    (hvalid : ∀ e ∈ p, Valid e.1.source) (hroom : Room k (p.map (·.1)))
    (hpending : Pending k first p) (hmatches : Matches k v hidden) (hundisturbed : Undisturbed hidden p)
    (hself : ∀ i f source input,
      (Redirection.meaning missing first k.files.length (p.map (·.1)) v).2 = some (i, f) →
        (p.map (·.1))[i]? ≠ some (.duplicate source source input))
    (h : Ends refuses k (apply p) x k') :
    ComesTo refuses k p hidden (Redirection.meaning missing first k.files.length (p.map (·.1)) v) x k' := by
  induction p generalizing k first v hidden with
  | nil =>
    obtain ⟨rfl, rfl⟩ := ends_pure.1 h
    exact ⟨⟨hidden, List.Subset.refl _, hmatches⟩, (List.append_nil _).symm, rfl, fun i f hf ↦ nomatch hf⟩
  | cons e p ih =>
    obtain ⟨applied, k₁, hone, hrest⟩ := ends_bind.1 h
    obtain ⟨hsource, htarget, hlater⟩ := hundisturbed
    have hstep := ends_applyOne hmissing (hvalid e List.mem_cons_self) hroom hpending hmatches htarget
      ?_ hone
    -- the first step comes to its meaning, and what it leaves pending is undisturbed by the rest
    · rw [List.map_cons, Redirection.meaning] at hself ⊢
      cases hgives : e.1.gives missing (if e.1.isDocument then first else k.files.length) v with
      | error f =>
        rw [hgives] at hstep
        obtain ⟨rfl, rfl⟩ := hstep
        obtain ⟨rfl, rfl⟩ := ends_pure.1 hrest
        refine ⟨⟨hidden, List.Subset.refl _, hmatches⟩, (List.append_nil _).symm, rfl, ?_⟩
        rintro i g ⟨⟩
        exact ⟨ends_pure.2 ⟨rfl, rfl⟩, e, rfl, hone⟩
      | ok file =>
        rw [hgives] at hstep hself
        obtain ⟨rfl, hk, hfiles⟩ := hstep
        have hlength : k₁.files.length = k.files.length + e.1.opens?.toList.length := by
          rw [hfiles, List.length_append]
        refine .cons hone hfiles ?_
        rw [← hlength]
        refine ih (fun e' he' ↦ hvalid e' (List.mem_cons_of_mem _ he')) (hroom.tail hk)
          (hpending.tail.update hsource hk) (hmatches.update hk) hlater ?_ hrest
        · intro i f source input hfails
          rw [hlength] at hfails
          exact hself (i + 1) f source input (congrArg (Option.map fun f ↦ (f.1 + 1, f.2)) hfails)
    -- a first redirection that duplicates its own closed source would fail, against `hself`
    · rintro source input hduplicate hclosed
      refine hself 0 (.redirectionFailed (Decimal.text source) .badDescriptor) source input ?_ ?_
      · rw [List.map_cons, Redirection.meaning, hduplicate, Redirection.gives, hclosed]
      · rw [List.map_cons, hduplicate]
        rfl

theorem exists_ends_duplicate (refuses : Refusals) (k : Kernel) (fd target : Int) :
    ∃ x k', Ends refuses k (Sys.ask (.duplicate fd target)) x k' := ⟨_, _, ends_ask.2 rfl⟩

theorem exists_ends_close (refuses : Refusals) (k : Kernel) (fd : Int) :
    ∃ x k', Ends refuses k (Sys.ask (.close fd)) x k' := ⟨_, _, ends_ask.2 rfl⟩

theorem exists_ends_applyOne (refuses : Refusals) (k : Kernel) (e : Redirection × Option Int) :
    ∃ x k', Ends refuses k (applyOne e) x k' := by
  obtain ⟨redirection, fd⟩ := e
  cases redirection with
  | duplicate source target input =>
    rw [applyOne]
    split
    · exact ⟨_, k, ends_pure.2 ⟨rfl, rfl⟩⟩
    · obtain ⟨x, k₁, hasked⟩ := exists_ends_duplicate refuses k target source
      exact ⟨_, k₁, ends_bind.2 ⟨x, k₁, hasked, ends_pure.2 ⟨rfl, rfl⟩⟩⟩
  | close source input =>
    obtain ⟨x, k₁, hasked⟩ := exists_ends_close refuses k source
    cases x with
    | ok _ => exact ⟨.ok (), k₁, ends_bind.2 ⟨_, k₁, hasked, ends_pure.2 ⟨rfl, rfl⟩⟩⟩
    | error e =>
      by_cases he : e = .badDescriptor
      · refine ⟨.ok (), k₁, ends_bind.2 ⟨_, k₁, hasked, ?_⟩⟩
        simp only [if_pos he]
        exact ends_pure.2 ⟨rfl, rfl⟩
      · refine ⟨.error (.redirectionFailed (Decimal.text source) e), k₁, ends_bind.2 ⟨_, k₁, hasked, ?_⟩⟩
        simp only [if_neg he]
        exact ends_pure.2 ⟨rfl, rfl⟩
  | document source body =>
    cases fd with
    | none => exact ⟨_, k, ends_pure.2 ⟨rfl, rfl⟩⟩
    | some fd =>
      obtain ⟨x, k₁, hasked⟩ := exists_ends_duplicate refuses k fd source
      exact ⟨_, k₁, ends_bind.2 ⟨x, k₁, hasked, ends_pure.2 ⟨rfl, rfl⟩⟩⟩
  | path mode source name =>
    have hasked : ∃ r k₁, Ends refuses k (Sys.ask (.«open» (Text.spell name) (flagsOf mode) 0o644)) r k₁ :=
      ⟨_, _, ends_ask.2 rfl⟩
    obtain ⟨r, k₁, hasked⟩ := hasked
    cases r with
    | error e =>
      exact ⟨.error (.redirectionFailed name e), k₁, ends_bind.2 ⟨_, k₁, hasked, ends_pure.2 ⟨rfl, rfl⟩⟩⟩
    | ok fd =>
      by_cases hsame : fd = source
      · refine ⟨.ok (), k₁, ends_bind.2 ⟨_, k₁, hasked, ?_⟩⟩
        simp only [if_pos hsame]
        exact ends_pure.2 ⟨rfl, rfl⟩
      · obtain ⟨moved, k₂, hmoved⟩ := exists_ends_duplicate refuses k₁ fd source
        obtain ⟨closed, k₃, hclosed⟩ := exists_ends_close refuses k₂ fd
        have hdrop : Ends refuses k₂ (Sys.drop fd) () k₃ :=
          ends_bind.2 ⟨closed, k₃, hclosed, ends_pure.2 ⟨rfl, rfl⟩⟩
        refine ⟨blame name moved, k₃, ends_bind.2 ⟨_, k₁, hasked, ?_⟩⟩
        simp only [if_neg hsame]
        exact ends_bind.2 ⟨moved, k₂, hmoved, ends_bind.2 ⟨(), k₃, hdrop, ends_pure.2 ⟨rfl, rfl⟩⟩⟩

theorem exists_ends_apply (refuses : Refusals) (k : Kernel) (p : Prepared) :
    ∃ x k', Ends refuses k (apply p) x k' := by
  induction p generalizing k with
  | nil => exact ⟨_, k, ends_pure.2 ⟨rfl, rfl⟩⟩
  | cons e p ih =>
    obtain ⟨applied, k₁, happlied⟩ := exists_ends_applyOne refuses k e
    cases applied with
    | error f => exact ⟨_, k₁, ends_bind.2 ⟨_, k₁, happlied, ends_pure.2 ⟨rfl, rfl⟩⟩⟩
    | ok _ =>
      obtain ⟨x, k', hrest⟩ := ih k₁
      exact ⟨x, k', ends_bind.2 ⟨_, k₁, happlied, hrest⟩⟩

/-- Redirections take effect in their order. If opening fails for a missing path only and there is room,
then applying redirections whose documents have been opened comes to what they mean from left to right,
on what numbers stood for before the documents were opened, except at numbers that a document alone has
taken; and it fails where they do. It is left open what happens when a redirection uses the number of a
document, and when the first to fail duplicates a closed number onto itself. -/
theorem apply_in_order {rs : List Redirection}
    (hmissing : ∀ k path flags mode, refuses k (.«open» path flags mode) = missing path)
    (hvalid : ∀ r ∈ rs, Valid r.source) (hroom : Room k₁ rs)
    (hprepare : Ends refuses k (prepare rs) (.ok p) k₁) (hundisturbed : Undisturbed (documents p) p)
    (hself : ∀ i f source input,
      (Redirection.meaning missing k.files.length k₁.files.length rs k.file?).2 = some (i, f) →
        rs[i]? ≠ some (.duplicate source source input)) :
    (∃ ds, k₁.files = k.files ++ ds ∧
      ds.map (·.content) = (rs.filterMap Redirection.document?).map fun body ↦ some (body.toUTF8, 0)) ∧
    (∃ x k', Ends refuses k₁ (apply p) x k') ∧
    ∀ x k', Ends refuses k₁ (apply p) x k' →
      ComesTo refuses k₁ p (documents p)
        (Redirection.meaning missing k.files.length k₁.files.length rs k.file?) x k' := by
  obtain ⟨_, ⟨⟩, hp⟩ | ⟨⟨f, hf⟩, -⟩ := ends_prepare hprepare
  · refine ⟨hp.files, exists_ends_apply refuses k₁ p, fun x k' happly ↦ ?_⟩
    obtain ⟨hfree, hothers⟩ := hp.numbers
    have hmatches : Matches k₁ k.file? (documents p) :=
      ⟨fun n hn ↦ Kernel.file?_congr (hothers n hn),
        fun n hn ↦ congrArg (Option.map Descriptor.file) (hfree n hn)⟩
    obtain rfl := hp.redirections
    exact ends_apply hmissing (fun e he ↦ hvalid e.1 (List.mem_map_of_mem he)) hroom hp.pending
      hmatches hundisturbed hself happly
  · cases hf

theorem apply_in_order_streams :
    let rs : List Redirection := [.document 0 "doc", .path .truncate 1 "f", .duplicate 2 1 false]
    ∃ p k₁, Ends (fun _ _ ↦ none) streams (prepare rs) (.ok p) k₁ ∧
      (∃ x k', Ends (fun _ _ ↦ none) k₁ (apply p) x k') ∧
      ∀ x k', Ends (fun _ _ ↦ none) k₁ (apply p) x k' →
        x = .ok () ∧ k'.file? 0 = some 3 ∧ k'.file? 1 = some 4 ∧ k'.file? 2 = some 4 := by
  intro rs
  have hprepare : Ends (fun _ _ ↦ none) streams (prepare rs) (.ok _) _ :=
    ⟨[⟨.environment, {}⟩,
      ⟨.temporary (joinPath "/tmp" "psh-heredoc-XXXXXX"), .ok (3, "/tmp/psh-heredoc-000000")⟩,
      ⟨.unlink "/tmp/psh-heredoc-000000", .ok ()⟩, ⟨.setCloseOnExec 3, .ok ()⟩,
      ⟨.write 3 "doc".toUTF8, .ok 3⟩, ⟨.seek 3 .start, .ok ()⟩],
      .call (.call (.call (.call (.call (.call (.done _)))))),
      .cons rfl (.cons ⟨_, rfl⟩ (.cons rfl (.cons rfl (.cons ⟨by decide, rfl⟩ (.cons rfl (.nil _))))))⟩
  have happly := @apply_in_order (fun _ _ ↦ none) (fun _ ↦ none) streams _ _ rs (fun _ _ _ _ ↦ rfl) (by decide)
    (by
      rintro (_ | _ | _ | i) mode source name ⟨⟩
      exact ⟨4, by decide, rfl, by decide⟩)
    hprepare (by simp [Undisturbed, documents]) (fun i f source input hfails ↦ nomatch hfails)
  refine ⟨_, _, hprepare, happly.2.1, fun x k' h ↦ ?_⟩
  have hdone := happly.2.2 x k' h
  obtain ⟨kept, hkept, hmatches⟩ := hdone.numbers
  have hshown (n : Int) (hn : n ≠ 3) := hmatches.shown n fun hmem ↦ hn (List.mem_singleton.1 (hkept hmem))
  exact ⟨hdone.result, hshown 0 (by decide), hshown 1 (by decide), hshown 2 (by decide)⟩

/-- After `3<f <<E`, standard input is not the document but the file `f`: the document waited at three,
where `f` has been put. -/
theorem apply_loses_document :
    ¬ ∀ (rs : List Redirection) (p : Prepared) (k₁ k' : Kernel) (x : Except Failure Unit),
      (∀ r ∈ rs, Valid r.source) → Room k₁ rs →
      Ends (fun _ _ ↦ none) streams (prepare rs) (.ok p) k₁ → Ends (fun _ _ ↦ none) k₁ (apply p) x k' →
      ∀ n ∉ documents p, k'.file? n =
        (Redirection.meaning (fun _ ↦ none) streams.files.length k₁.files.length rs streams.file?).1 n := by
  intro hmeans
  have hprepare : Ends (fun _ _ ↦ none) streams
      (prepare [.path .read 3 "f", .document 0 "doc"]) (.ok _) _ :=
    ⟨[⟨.environment, {}⟩,
      ⟨.temporary (joinPath "/tmp" "psh-heredoc-XXXXXX"), .ok (3, "/tmp/psh-heredoc-000000")⟩,
      ⟨.unlink "/tmp/psh-heredoc-000000", .ok ()⟩, ⟨.setCloseOnExec 3, .ok ()⟩,
      ⟨.write 3 "doc".toUTF8, .ok 3⟩, ⟨.seek 3 .start, .ok ()⟩],
      .call (.call (.call (.call (.call (.call (.done _)))))),
      .cons rfl (.cons ⟨_, rfl⟩ (.cons rfl (.cons rfl (.cons ⟨by decide, rfl⟩ (.cons rfl (.nil _))))))⟩
  have hinput := hmeans _ _ _ _ (.ok ()) (by decide)
    (by
      rintro (_ | _ | i) mode source name ⟨⟩
      exact ⟨4, by decide, rfl, by decide⟩)
    hprepare
    ⟨[⟨.«open» (Text.spell "f") (flagsOf .read) 0o644, .ok 4⟩, ⟨.duplicate 4 3, .ok ()⟩,
      ⟨.close 4, .ok ()⟩, ⟨.duplicate 3 0, .ok ()⟩],
      .call (.call (.call (.call (.done _)))),
      .cons rfl (.cons rfl (.cons rfl (.cons rfl (.nil _))))⟩
    0 (by decide)
  cases hinput

end Redirect

end JobShell

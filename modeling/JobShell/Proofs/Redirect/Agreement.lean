import JobShell.Proofs.Redirect.Effect
import JobShell.Proofs.Redirect.Restore

namespace JobShell.Redirect

open Kernel (Ends Valid ends_bind ends_pure ends_ask streams)

variable {refuses : Refusals} {k k₁ k₂ u k' u' : Kernel} {p : Prepared} {rs : List Redirection}
  {r : Redirection} {hidden : List Int} {e : Redirection × Option Int} {x y : Except Failure Unit}
  {i : Nat} {f : Failure}

/-- Applying redirections fails at the one with this place. -/
inductive FailsAt (refuses : Refusals) : Kernel → Prepared → Nat → Failure → Prop
  | here {k k' : Kernel} {e : Redirection × Option Int} {p : Prepared} {f : Failure} :
      Ends refuses k (applyOne e) (.error f) k' → FailsAt refuses k (e :: p) 0 f
  | later {k k₁ : Kernel} {e : Redirection × Option Int} {p : Prepared} {i : Nat} {f : Failure} :
      Ends refuses k (applyOne e) (.ok ()) k₁ → FailsAt refuses k₁ p i f →
        FailsAt refuses k (e :: p) (i + 1) f

/-- None of these numbers is duplicated, unless it has been redirected before. -/
def Avoids (hidden : List Int) (rs : List Redirection) : Prop :=
  ∀ i source target input, rs[i]? = some (.duplicate source target input) → target ∈ hidden →
    ∃ r ∈ rs.take i, r.source = target

theorem Avoids.head (h : Avoids hidden (r :: rs)) {source target : Int} {input : Bool}
    (hr : r = .duplicate source target input) : target ∉ hidden := by
  intro hmem
  obtain ⟨r', hr', -⟩ := h 0 source target input (congrArg some hr) hmem
  cases hr'

theorem Avoids.tail (h : Avoids hidden (r :: rs)) : Avoids (hidden.filter (· ≠ r.source)) rs := by
  intro i source target input hduplicate hmem
  obtain ⟨hhidden, hother⟩ := List.mem_filter.1 hmem
  obtain ⟨r', hr', rfl⟩ := h (i + 1) source target input hduplicate hhidden
  rcases List.mem_cons.1 hr' with rfl | hr'
  · exact absurd rfl (of_decide_eq_true hother)
  · exact ⟨r', hr', rfl⟩

theorem effect_congr {v w : Int → Option Descriptor} {obstacle obstacle' : Call → Option Errno}
    {opened : Nat} (hnumbers : ∀ n, n ∉ hidden → v n = w n)
    (hobstacle : ∀ mode source name, e.1 = .path mode source name →
      obstacle (.«open» (Text.spell name) (flagsOf mode) 0o644) =
        obstacle' (.«open» (Text.spell name) (flagsOf mode) 0o644))
    (htarget : ∀ source target input, e.1 = .duplicate source target input → target ∉ hidden)
    (hdocument : ∀ fd, e.2 = some fd → fd ∉ hidden) :
    effect obstacle opened v e = effect obstacle' opened w e := by
  obtain ⟨redirection, fd⟩ := e
  cases redirection with
  | path mode source name => rw [effect, effect, hobstacle mode source name rfl]
  | duplicate source target input =>
    have hsame := hnumbers target (htarget source target input rfl)
    rw [effect, effect, put, put, hsame]
    split
    · next htarget => rw [← htarget, hsame]
    · rfl
  | close source input => rfl
  | document source body =>
    cases fd with
    | none => rfl
    | some fd => rw [effect, effect, put, put, hnumbers fd (hdocument fd rfl)]

/-- Two processes differ at hidden numbers only, and these redirections are still to be applied in both,
which have room for the files to be opened and do not ask for a hidden number. -/
structure Alike (k u : Kernel) (hidden : List Int) (p : Prepared) : Prop where
  numbers : ∀ n, n ∉ hidden → k.descriptor? n = u.descriptor? n
  files : k.files = u.files
  room : Room k (p.map (·.1)) ∧ Room u (p.map (·.1))
  avoids : Avoids hidden (p.map (·.1))
  documents : ∀ fd ∈ documents p, fd ∉ hidden

theorem Alike.symm (h : Alike k u hidden p) : Alike u k hidden p :=
  ⟨fun n hn ↦ (h.numbers n hn).symm, h.files.symm, h.room.symm, h.avoids, h.documents⟩

section

variable (hfair : ∀ k u c, k.files = u.files → refuses k c = refuses u c)

include hfair

theorem Alike.effect_eq (h : Alike k u hidden (e :: p)) :
    effect (k.obstacle refuses) k.files.length k.descriptor? e =
      effect (u.obstacle refuses) u.files.length u.descriptor? e := by
  rw [h.files]
  refine effect_congr h.numbers ?_ (fun source target input ↦ h.avoids.head) fun fd hfd ↦ ?_
  · intro mode source name he
    have hroom := h.room
    rw [List.map_cons, he] at hroom
    rw [Kernel.obstacle_of_room hroom.1.free_lt, Kernel.obstacle_of_room hroom.2.free_lt]
    exact hfair k u _ h.files
  · exact h.documents fd (List.mem_filterMap.2 ⟨e, List.mem_cons_self, hfd⟩)

theorem Alike.applyOne (h : Alike k u hidden (e :: p)) (hk : Ends refuses k (applyOne e) x k')
    (hu : Ends refuses u (applyOne e) y u') :
    (∃ f, x = .error f ∧ y = .error f) ∨
      x = .ok () ∧ y = .ok () ∧ Alike k' u' (hidden.filter (· ≠ e.1.source)) p := by
  have htakes := takes_applyOne hu
  rw [← h.effect_eq hfair] at htakes
  cases heffect : effect (k.obstacle refuses) k.files.length k.descriptor? e with
  | error f =>
    have htakes' := takes_applyOne hk
    rw [heffect] at htakes htakes'
    exact .inl ⟨f, htakes'.1, htakes.1⟩
  | ok d =>
    have htakes' := takes_applyOne hk
    rw [heffect] at htakes htakes'
    obtain ⟨rfl, hk, hfiles⟩ := htakes'
    obtain ⟨rfl, hu, hfiles'⟩ := htakes
    refine .inr ⟨rfl, rfl, fun n hn ↦ ?_, by rw [hfiles, hfiles', h.files],
      ⟨h.room.1.tail (Kernel.file?_update hk), h.room.2.tail (Kernel.file?_update hu)⟩,
      h.avoids.tail, fun fd hfd hmem ↦ ?_⟩
    · rw [hk, hu]
      by_cases hsource : n = e.1.source
      · rw [hsource, Function.update_self, Function.update_self]
      · rw [Function.update_of_ne hsource, Function.update_of_ne hsource]
        exact h.numbers n fun hmem ↦ hn (List.mem_filter.2 ⟨hmem, decide_eq_true hsource⟩)
    · refine h.documents fd ?_ (List.mem_filter.1 hmem).1
      obtain ⟨e', he', hfd⟩ := List.mem_filterMap.1 hfd
      exact List.mem_filterMap.2 ⟨e', List.mem_cons_of_mem _ he', hfd⟩

/-- Applying all redirections comes to the same in both, and only hidden numbers that have not been
redirected differ in the end. -/
theorem Alike.apply (h : Alike k u hidden p) (hk : Ends refuses k (apply p) x k')
    (hu : Ends refuses u (Redirect.apply p) y u') :
    x = y ∧ (x = .ok () → ∀ n, (n ∉ hidden ∨ ∃ e ∈ p, e.1.source = n) →
      k'.descriptor? n = u'.descriptor? n) := by
  induction p generalizing k u hidden with
  | nil =>
    obtain ⟨rfl, rfl⟩ := ends_pure.1 hk
    obtain ⟨rfl, rfl⟩ := ends_pure.1 hu
    refine ⟨rfl, fun _ n hn ↦ h.numbers n ?_⟩
    obtain hn | ⟨e, he, -⟩ := hn
    · exact hn
    · cases he
  | cons e p ih =>
    obtain ⟨a, k₁, hone, hrest⟩ := ends_bind.1 hk
    obtain ⟨b, u₁, hone', hrest'⟩ := ends_bind.1 hu
    obtain ⟨f, rfl, rfl⟩ | ⟨rfl, rfl, hlater⟩ := h.applyOne hfair hone hone'
    · obtain ⟨rfl, rfl⟩ := ends_pure.1 hrest
      obtain ⟨rfl, rfl⟩ := ends_pure.1 hrest'
      exact ⟨rfl, fun hx ↦ nomatch hx⟩
    · -- what has been redirected is hidden no longer
      obtain ⟨rfl, hsame⟩ := ih hlater hrest hrest'
      refine ⟨rfl, fun hx n hn ↦ hsame hx n ?_⟩
      by_cases hsource : e.1.source = n
      · exact .inl fun hmem ↦ of_decide_eq_true (List.mem_filter.1 hmem).2 hsource.symm
      · obtain hn | ⟨e', he', hn⟩ := hn
        · exact .inl fun hmem ↦ hn (List.mem_filter.1 hmem).1
        · rcases List.mem_cons.1 he' with rfl | he'
          · exact absurd hn hsource
          · exact .inr ⟨e', he', hn⟩

theorem Alike.failsAt (h : Alike k u hidden p) (hk : FailsAt refuses k p i f) :
    FailsAt refuses u p i f := by
  induction hk generalizing u hidden with
  | @here k k' e p f hone =>
    obtain ⟨y, u₁, hone'⟩ := exists_ends_applyOne refuses u e
    obtain ⟨_, ⟨⟩, rfl⟩ | ⟨⟨⟩, -, -⟩ := h.applyOne hfair hone hone'
    exact .here hone'
  | @later k k₁ e p i f hone _ ih =>
    obtain ⟨y, u₁, hone'⟩ := exists_ends_applyOne refuses u e
    obtain ⟨_, ⟨⟩, -⟩ | ⟨-, rfl, hlater⟩ := h.applyOne hfair hone hone'
    exact .later hone' (ih hlater)

end

variable {saved : Saved}

def copies (saved : Saved) : List Int := saved.filterMap (·.2)

theorem Saves.numbers (h : Saves k saved k') :
    (∀ n ∈ copies saved, k.descriptor? n = none) ∧
      (∀ n, n ∉ copies saved → k'.descriptor? n = k.descriptor? n) ∧ k'.files = k.files := by
  induction h with
  | nil => exact ⟨fun _ hn ↦ absurd hn List.not_mem_nil, fun _ _ ↦ rfl, rfl⟩
  | @copied k k₁ k' saved source copy d _ hfree _ _ hnumbers hfiles _ ih =>
    obtain ⟨hcopies, hothers, hsame⟩ := ih
    have hlist : copies ((source, some copy) :: saved) = copy :: copies saved := rfl
    rw [hlist]
    refine ⟨fun n hn ↦ ?_, fun n hn ↦ ?_, hsame.trans hfiles⟩
    · rcases List.mem_cons.1 hn with rfl | hn
      · exact hfree
      · have hnone := hcopies n hn
        rw [hnumbers] at hnone
        by_cases hcopy : n = copy
        · rw [hcopy, hfree]
        · rwa [Function.update_of_ne hcopy] at hnone
    · obtain ⟨hcopy, hn⟩ := List.ne_and_not_mem_of_not_mem_cons hn
      rw [hothers n hn, hnumbers, Function.update_of_ne hcopy]
  | closed _ _ ih => exact ih

theorem Room.of_saves (h : Saves k saved k') (hroom : Room k' rs) : Room k rs := by
  obtain ⟨hcopies, hothers, -⟩ := h.numbers
  intro i mode source name hpath
  obtain ⟨n, hvalid, hfree, hn⟩ := hroom i mode source name hpath
  refine ⟨n, hvalid, ?_, hn⟩
  by_cases hcopy : n ∈ copies saved
  · exact congrArg (Option.map Descriptor.file) (hcopies n hcopy)
  · rw [← hfree, Kernel.file?_congr (hothers n hcopy)]

/-- Redirections come to the same beside copies of descriptors that have been saved, as in the shell
itself, and without them, as in a child: they succeed in both, or fail at the same one with the same
failure, and what has been redirected stands for the same open file. Whether a file can be opened is to
depend on the files alone; room is to be left beside the copies; and no number of a copy may be
duplicated before it has been redirected itself. -/
theorem apply_beside_copies
    (hfair : ∀ k u c, k.files = u.files → refuses k c = refuses u c)
    (hprepare : Ends refuses k (prepare rs) (.ok p) k₁)
    (hsave : Ends refuses k₁ (save rs) (.ok (), saved) k₂) (hroom : Room k₂ rs)
    (havoids : Avoids (copies saved) rs) :
    ((∃ k', Ends refuses k₂ (apply p) (.ok ()) k') ↔ ∃ u', Ends refuses k₁ (apply p) (.ok ()) u') ∧
    (∀ i f, FailsAt refuses k₂ p i f ↔ FailsAt refuses k₁ p i f) ∧
    (∀ x k', Ends refuses k₂ (apply p) x k' → ∀ y u', Ends refuses k₁ (apply p) y u' →
      x = y ∧ (x = .ok () → ∀ r ∈ rs, k'.file? r.source = u'.file? r.source)) := by
  obtain ⟨_, ⟨⟩, hp⟩ | ⟨⟨f, hf⟩, -⟩ := ends_prepare hprepare
  · obtain ⟨_, heq, hsaves, -⟩ := ends_saveFrom hsave
    rw [List.nil_append] at heq
    subst heq
    obtain ⟨hcopies, hothers, hfiles⟩ := hsaves.numbers
    have hredirections := hp.redirections
    have halike : Alike k₂ k₁ (copies saved) p := by
      refine ⟨hothers, hfiles, ?_, hredirections.symm ▸ havoids, fun fd hfd hcopy ↦ ?_⟩
      · rw [hredirections]
        exact ⟨hroom, hroom.of_saves hsaves⟩
      · -- documents are open when copies are made, the numbers of copies are not
        obtain ⟨file, hopen⟩ := hp.marked hfd
        rw [hcopies fd hcopy] at hopen
        cases hopen
    refine ⟨⟨?_, ?_⟩, fun i f ↦ ⟨halike.failsAt hfair, halike.symm.failsAt hfair⟩, ?_⟩
    · rintro ⟨k', hk'⟩
      obtain ⟨y, u', hu'⟩ := exists_ends_apply refuses k₁ p
      obtain ⟨rfl, -⟩ := halike.apply hfair hk' hu'
      exact ⟨u', hu'⟩
    · rintro ⟨u', hu'⟩
      obtain ⟨x, k', hk'⟩ := exists_ends_apply refuses k₂ p
      obtain ⟨rfl, -⟩ := halike.apply hfair hk' hu'
      exact ⟨k', hk'⟩
    · intro x k' hk' y u' hu'
      obtain ⟨rfl, hsame⟩ := halike.apply hfair hk' hu'
      refine ⟨rfl, fun hx r hr ↦ Kernel.file?_congr (hsame hx r.source (.inr ?_))⟩
      rw [← hredirections] at hr
      obtain ⟨e, he, rfl⟩ := List.mem_map.1 hr
      exact ⟨e, he, rfl⟩
  · cases hf

theorem apply_beside_copies_redirected :
    let rs : List Redirection := [.path .truncate 2 "g", .path .truncate 10 "f", .duplicate 1 10 false]
    ∃ p saved k₁ k₂ k' u', Ends (fun _ _ ↦ none) streams (prepare rs) (.ok p) k₁ ∧
      Ends (fun _ _ ↦ none) k₁ (save rs) (.ok (), saved) k₂ ∧ copies saved = [10, 11, 12] ∧
      Ends (fun _ _ ↦ none) k₂ (apply p) (.ok ()) k' ∧ Ends (fun _ _ ↦ none) k₁ (apply p) (.ok ()) u' ∧
      k'.file? 1 = some 4 ∧ u'.file? 1 = some 4 := by
  intro rs
  have hprepare : Ends (fun _ _ ↦ none) streams (prepare rs) (.ok (rs.map fun r ↦ (r, none))) streams :=
    ⟨[], .done _, .nil _⟩
  have hsave : Ends (fun _ _ ↦ none) streams (save rs) (.ok (), _) _ :=
    ⟨[⟨.duplicateAbove 2 10, .ok 10⟩, ⟨.duplicateAbove 10 10, .ok 11⟩, ⟨.duplicateAbove 1 10, .ok 12⟩],
      .call (.call (.call (.done _))), .cons rfl (.cons rfl (.cons rfl (.nil _)))⟩
  have hchild : Ends (fun _ _ ↦ none) streams (apply (rs.map fun r ↦ (r, none))) (.ok ()) _ :=
    ⟨[⟨.«open» (Text.spell "g") (flagsOf .truncate) 0o644, .ok 3⟩, ⟨.duplicate 3 2, .ok ()⟩,
      ⟨.close 3, .ok ()⟩, ⟨.«open» (Text.spell "f") (flagsOf .truncate) 0o644, .ok 3⟩,
      ⟨.duplicate 3 10, .ok ()⟩, ⟨.close 3, .ok ()⟩, ⟨.duplicate 10 1, .ok ()⟩],
      .call (.call (.call (.call (.call (.call (.call (.done _))))))),
      .cons rfl (.cons rfl (.cons rfl (.cons rfl (.cons rfl (.cons rfl (.cons rfl (.nil _)))))))⟩
  have happly := apply_beside_copies (fun _ _ _ _ ↦ rfl) hprepare hsave
    (by
      rintro (_ | _ | _ | i) mode source name ⟨⟩
      · exact ⟨3, by decide, rfl, by decide⟩
      · exact ⟨3, by decide, rfl, by decide⟩)
    (by
      rintro (_ | _ | _ | i) source target input ⟨⟩ -
      exact ⟨.path .truncate 10 "f", List.mem_cons_of_mem _ List.mem_cons_self, rfl⟩)
  obtain ⟨k', hshell⟩ := happly.1.2 ⟨_, hchild⟩
  have hsame := (happly.2.2 _ _ hshell _ _ hchild).2 rfl (.duplicate 1 10 false)
    (List.mem_cons_of_mem _ (List.mem_cons_of_mem _ List.mem_cons_self))
  exact ⟨_, _, _, _, k', _, hprepare, hsave, rfl, hshell, hchild, hsame, rfl⟩

/-- `>f 2>&10` succeeds in the shell itself, where standard output has been saved at ten, and fails in a
child, where ten is closed. -/
theorem apply_reaches_copy :
    ¬ ∀ (rs : List Redirection) (p : Prepared) (saved : Saved) (k₁ k₂ : Kernel), Room k₂ rs →
      Ends (fun _ _ ↦ none) streams (prepare rs) (.ok p) k₁ →
      Ends (fun _ _ ↦ none) k₁ (save rs) (.ok (), saved) k₂ →
      ((∃ k', Ends (fun _ _ ↦ none) k₂ (apply p) (.ok ()) k') ↔
        ∃ u', Ends (fun _ _ ↦ none) k₁ (apply p) (.ok ()) u') := by
  intro hsame
  have hshell := hsame [.path .truncate 1 "f", .duplicate 2 10 false] _ _ _ _
    (by
      rintro (_ | _ | i) mode source name ⟨⟩
      exact ⟨3, by decide, rfl, by decide⟩)
    ⟨[], .done _, .nil _⟩
    ⟨[⟨.duplicateAbove 1 10, .ok 10⟩, ⟨.duplicateAbove 2 10, .ok 11⟩], .call (.call (.done _)),
      .cons rfl (.cons rfl (.nil _))⟩
  obtain ⟨u', hchild⟩ := hshell.1 ⟨_, [⟨.«open» (Text.spell "f") (flagsOf .truncate) 0o644, .ok 3⟩,
      ⟨.duplicate 3 1, .ok ()⟩, ⟨.close 3, .ok ()⟩, ⟨.duplicate 10 2, .ok ()⟩],
      .call (.call (.call (.call (.done _)))),
      .cons rfl (.cons rfl (.cons rfl (.cons rfl (.nil _))))⟩
  -- in the child the second redirection fails
  obtain ⟨a, k₁, hfirst, hrest⟩ := ends_bind.1 hchild
  have htakes : Takes streams _ (.ok (some ⟨3, false⟩)) a k₁ := takes_applyOne hfirst
  obtain ⟨rfl, hk₁, -⟩ := htakes
  obtain ⟨b, k₂, hsecond, hend⟩ := ends_bind.1 hrest
  have htakes := takes_applyOne hsecond
  have hclosed : k₁.descriptor? 10 = none := by
    rw [hk₁, Function.update_of_ne (by decide)]
    rfl
  rw [effect, if_neg (by decide), put, hclosed] at htakes
  obtain ⟨rfl, -⟩ := htakes
  obtain ⟨⟨⟩, -⟩ := ends_pure.1 hend

end JobShell.Redirect

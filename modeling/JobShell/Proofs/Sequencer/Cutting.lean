import JobShell.Command.Basic

namespace JobShell

/-- Each command but the last is piped to the next one, and the last is not. -/
def Pipeline.Whole (p : Pipeline) : Prop :=
  ∃ before last, p = before ++ [last] ∧ (∀ c ∈ before, c.connector = .piped) ∧ last.connector ≠ .piped

namespace Pipeline.Whole

variable {p : Pipeline} {c : Command}

theorem singleton (hc : c.connector ≠ .piped) : Pipeline.Whole [c] :=
  ⟨[], c, rfl, List.forall_mem_nil _, hc⟩

theorem cons (hc : c.connector = .piped) (hp : p.Whole) : Pipeline.Whole (c :: p) := by
  obtain ⟨before, last, rfl, hbefore, hlast⟩ := hp
  exact ⟨c :: before, last, rfl, List.forall_mem_cons.2 ⟨hc, hbefore⟩, hlast⟩

theorem exists_last (hp : p.Whole) :
    ∃ c, p[p.length - 1]? = some c ∧ p.connector = c.connector ∧ c.connector ≠ .piped := by
  obtain ⟨before, last, rfl, -, hlast⟩ := hp
  refine ⟨last, ?_, ?_, hlast⟩
  · rw [← List.getLast?_eq_getElem?, List.getLast?_concat]
  · rw [Pipeline.connector, List.getLast?_concat]
    rfl

end Pipeline.Whole

namespace CommandList

variable {cs : List Command} {p : Pipeline}

theorem flatten_cut (cs : List Command) : (cut cs).flatten = cs := by
  induction cs with
  | nil => rfl
  | cons c rest ih =>
    rw [cut]
    split
    · cases hrest : cut rest with
      | nil =>
        rw [hrest] at ih
        rw [← ih]
        rfl
      | cons p ps =>
        rw [hrest] at ih
        rw [← ih]
        rfl
    · rw [List.flatten_cons, ih]
      rfl

theorem whole_of_mem_cut (hlast : ∀ c, cs.getLast? = some c → c.connector ≠ .piped) (hp : p ∈ cut cs) :
    p.Whole := by
  induction cs generalizing p with
  | nil => cases hp
  | cons c rest ih =>
    have hrest (d : Command) (hd : rest.getLast? = some d) : d.connector ≠ .piped :=
      hlast d (by rw [List.getLast?_cons, hd, Option.getD_some])
    rw [cut] at hp
    split at hp
    · next hc =>
      cases hcut : cut rest with
      | nil =>
        -- the pipe would be the end of the list
        have hnil : rest = [] := by rw [← flatten_cut rest, hcut, List.flatten_nil]
        subst hnil
        exact absurd hc (hlast c rfl)
      | cons q qs =>
        rw [hcut] at hp ih
        rcases List.mem_cons.1 hp with rfl | hp
        · exact (ih hrest List.mem_cons_self).cons hc
        · exact ih hrest (List.mem_cons_of_mem q hp)
    · next hc =>
      rcases List.mem_cons.1 hp with rfl | hp
      · exact .singleton hc
      · exact ih hrest hp

theorem cut_append (hp : p.Whole) (cs : List Command) : cut (p ++ cs) = p :: cut cs := by
  obtain ⟨before, last, rfl, hbefore, hlast⟩ := hp
  induction before with
  | nil => exact if_neg hlast
  | cons c before ih =>
    obtain ⟨hc, hbefore⟩ := List.forall_mem_cons.1 hbefore
    rw [List.cons_append, List.cons_append, cut, if_pos hc, ih hbefore]

/-- Whole pipelines one after another are cut where they meet. -/
theorem cut_flatten {ps : List Pipeline} (hps : ∀ p ∈ ps, p.Whole) : cut ps.flatten = ps := by
  induction ps with
  | nil => rfl
  | cons p ps ih =>
    obtain ⟨hp, hps⟩ := List.forall_mem_cons.1 hps
    rw [List.flatten_cons, cut_append hp, ih hps]

theorem commands_of_build {l : CommandList} (h : build cs = .ok l) :
    l.commands = cs ∧ ∀ c, cs.getLast? = some c → c.connector ≠ .piped := by
  unfold build at h
  split at h
  · next hlast =>
    cases h
    refine ⟨rfl, fun c hc hpiped ↦ ?_⟩
    simp [hc, hpiped] at hlast
  · next hlast =>
    cases h
    refine ⟨rfl, fun c hc hpiped ↦ ?_⟩
    simp [hc, hpiped] at hlast
  · cases h

theorem pipelines_eq_iff {l : CommandList} (h : build cs = .ok l) (ps : List Pipeline) :
    ps = l.pipelines ↔ ps.flatten = cs ∧ ∀ p ∈ ps, p.Whole := by
  obtain ⟨hcommands, hlast⟩ := commands_of_build h
  rw [pipelines, hcommands]
  constructor
  · rintro rfl
    exact ⟨flatten_cut cs, fun p ↦ whole_of_mem_cut hlast⟩
  · rintro ⟨rfl, hps⟩
    exact (cut_flatten hps).symm

end CommandList

end JobShell

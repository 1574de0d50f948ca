namespace JobShell

def searchUnused (used : List Nat) : Nat → Nat → Nat
  | 0, n => n
  | k + 1, n => if used.contains n then searchUnused used k (n + 1) else n

def leastUnused (low : Nat) (used : List Nat) : Nat := searchUnused used used.length low

theorem searchUnused_le (used : List Nat) (k n : Nat) : searchUnused used k n ≤ n + k := by
  induction k generalizing n with
  | zero => simp [searchUnused]
  | succ k ih =>
    have := ih (n + 1)
    unfold searchUnused
    split <;> omega

theorem le_searchUnused (used : List Nat) (k n : Nat) : n ≤ searchUnused used k n := by
  induction k generalizing n with
  | zero => simp [searchUnused]
  | succ k ih =>
    have := ih (n + 1)
    unfold searchUnused
    split <;> omega

theorem mem_of_lt_searchUnused {used : List Nat} {k n i : Nat} (hn : n ≤ i)
    (hi : i < searchUnused used k n) : i ∈ used := by
  induction k generalizing n with
  | zero => simp only [searchUnused] at hi; omega
  | succ k ih =>
    unfold searchUnused at hi
    split at hi
    · rename_i h
      by_cases e : n = i
      · exact e ▸ List.contains_iff_mem.1 h
      · exact ih (by omega) hi
    · omega

/-- A list that holds every number of a row is at least as long as the row. -/
theorem length_le_of_range_subset {used : List Nat} {low n : Nat}
    (h : ∀ i, low ≤ i → i < low + n → i ∈ used) : n ≤ used.length := by
  induction n generalizing used with
  | zero => exact Nat.zero_le _
  | succ n ih =>
    have hm : low + n ∈ used := h _ (by omega) (by omega)
    have : n ≤ (used.erase (low + n)).length := ih fun i hi hl ↦
      (List.mem_erase_of_ne (by omega)).2 (h i hi (by omega))
    rw [List.length_erase_of_mem hm] at this
    have := List.length_pos_of_mem hm
    omega

/-- A search that stops before its last number has found one that is missing. -/
theorem searchUnused_not_mem {used : List Nat} {k n : Nat} (h : searchUnused used k n < n + k) :
    searchUnused used k n ∉ used := by
  induction k generalizing n with
  | zero => simp only [searchUnused] at h; omega
  | succ k ih =>
    unfold searchUnused at h ⊢
    split
    · rename_i hc
      rw [if_pos hc] at h
      exact ih (by omega)
    · rename_i hc
      exact fun hn ↦ hc (List.contains_iff_mem.2 hn)

theorem leastUnused_not_mem (low : Nat) (used : List Nat) : leastUnused low used ∉ used := by
  unfold leastUnused
  have hle := searchUnused_le used used.length low
  by_cases e : searchUnused used used.length low < low + used.length
  · exact searchUnused_not_mem e
  · intro hm
    have he : searchUnused used used.length low = low + used.length := by omega
    have : used.length + 1 ≤ used.length :=
      length_le_of_range_subset (fun i hi hl ↦ by
        by_cases h : i = searchUnused used used.length low
        · exact h ▸ hm
        · exact mem_of_lt_searchUnused hi (by omega : i < searchUnused used used.length low))
    omega

theorem leastUnused_le (low : Nat) (used : List Nat) : leastUnused low used ≤ low + used.length :=
  searchUnused_le used used.length low

theorem le_leastUnused (low : Nat) (used : List Nat) : low ≤ leastUnused low used :=
  le_searchUnused used used.length low

theorem mem_of_lt_leastUnused {low i : Nat} {used : List Nat} (hl : low ≤ i)
    (hi : i < leastUnused low used) : i ∈ used :=
  mem_of_lt_searchUnused hl hi

end JobShell

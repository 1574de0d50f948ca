import JobShell.Sys.LineBuffer

namespace JobShell

open Sys (Runs)

/-- The bytes that a call gets rid of on a descriptor: those that are written, and all of them on a
closed one, where nobody misses them. -/
def Event.taken (fd : Int) : Event → ByteArray
  | ⟨.write n bytes, .ok count⟩ => if n = fd then bytes.extract 0 count else .empty
  | ⟨.write n bytes, .error e⟩ => if n = fd ∧ e = .badDescriptor then bytes else .empty
  | _ => .empty

/-- The bytes that calls get rid of on a descriptor, one call after another. -/
def taken (fd : Int) : List Event → ByteArray
  | [] => .empty
  | e :: t => e.taken fd ++ taken fd t

theorem taken_append (fd : Int) (t u : List Event) : taken fd (t ++ u) = taken fd t ++ taken fd u := by
  induction t with
  | nil => rw [taken, ByteArray.empty_append, List.nil_append]
  | cons e t ih => rw [List.cons_append, taken, taken, ih, ByteArray.append_assoc]

theorem taken_eq_empty {fd : Int} {t : List Event}
    (h : ∀ e ∈ t, ∀ n bytes, e.call ≠ .write n bytes) : taken fd t = .empty := by
  induction t with
  | nil => rfl
  | cons e t ih =>
    have he : e.taken fd = .empty := by
      unfold Event.taken
      split
      · exact absurd rfl (h _ List.mem_cons_self _ _)
      · exact absurd rfl (h _ List.mem_cons_self _ _)
      · rfl
    rw [taken, he, ih fun e he ↦ h e (List.mem_cons_of_mem _ he), ByteArray.empty_append]

theorem extract_append_rest (bytes : ByteArray) (count : Nat) :
    bytes.extract 0 count ++ bytes.extract count bytes.size = bytes := by
  rw [ByteArray.extract_append_extract, Nat.zero_min, ByteArray.extract_zero_max_size]

theorem eq_empty_of_isEmpty {bytes : ByteArray} (h : bytes.isEmpty) : bytes = .empty :=
  ByteArray.size_eq_zero_iff.1 (by simpa [ByteArray.isEmpty] using h)

variable {fd : Int} {bytes left : ByteArray} {t : List Event} {r : Except Errno Unit}

theorem Sys.runs_writeAll (h : Runs (writeAll fd bytes) t (r, left))
    (hr : r = .ok () ∨ r = .error .badDescriptor) : taken fd t = bytes := by
  unfold writeAll at h
  generalize patience = n at h
  induction n generalizing t bytes with
  | zero => exact absurd h not_runs_hang
  | succ n ih =>
    rw [writeLoop] at h
    split at h
    · next hempty =>
      obtain ⟨rfl, -⟩ := runs_pure.1 h
      exact (eq_empty_of_isEmpty hempty).symm
    · obtain ⟨answer, u, rfl, hnext⟩ := runs_ask_bind.1 h
      cases answer with
      | ok count =>
        rw [taken, ih hnext, Event.taken, if_pos rfl]
        exact extract_append_rest bytes count
      | error e =>
        simp only at hnext
        split at hnext
        · next he =>
          have hnone : Event.taken fd ⟨.write fd bytes, .error e⟩ = .empty :=
            if_neg fun h ↦ absurd (he.symm.trans h.2) (by decide)
          rw [taken, ih hnext, hnone, ByteArray.empty_append]
        · obtain ⟨rfl, ⟨⟩⟩ := runs_pure.1 hnext
          have he : e = .badDescriptor := by simpa using hr
          rw [taken, taken, ByteArray.append_empty]
          exact if_pos ⟨rfl, he⟩

namespace LineBuffer

variable {b b' : LineBuffer}

theorem runs_writeDirectly (h : Runs (writeDirectly fd bytes) t (.ok ())) : taken fd t = bytes := by
  obtain ⟨_, u, ⟨r, left⟩, rfl, hwrite, hnext⟩ := Sys.runs_bind.1 h
  cases r with
  | ok _ =>
    obtain ⟨rfl, -⟩ := Sys.runs_pure.1 hnext
    rw [List.append_nil]
    exact Sys.runs_writeAll hwrite (.inl rfl)
  | error e =>
    obtain ⟨rfl, he⟩ := Sys.runs_pure.1 hnext
    rw [List.append_nil]
    by_cases hbad : e = .badDescriptor
    · exact Sys.runs_writeAll hwrite (.inr (congrArg _ hbad))
    · rw [if_neg hbad] at he
      cases he

theorem runs_flush (h : Runs (b.flush fd) t (.ok (), b')) :
    taken fd t = b.held ∧ b'.held = .empty := by
  obtain ⟨_, u, ⟨r, left⟩, rfl, hwrite, hnext⟩ := Sys.runs_bind.1 h
  cases r with
  | ok _ =>
    obtain ⟨rfl, ⟨⟩⟩ := Sys.runs_pure.1 hnext
    rw [List.append_nil]
    exact ⟨Sys.runs_writeAll hwrite (.inl rfl), rfl⟩
  | error e =>
    obtain ⟨rfl, he⟩ := Sys.runs_pure.1 hnext
    rw [List.append_nil]
    by_cases hbad : e = .badDescriptor
    · rw [if_pos hbad] at he
      obtain ⟨-, rfl⟩ := Prod.mk.inj he
      exact ⟨Sys.runs_writeAll hwrite (.inr (congrArg _ hbad)), rfl⟩
    · rw [if_neg hbad] at he
      cases he

/-- The account of one operation: what was held and what came is what was taken and is held now. -/
def Keeps (fd : Int) (b : LineBuffer) (bytes : ByteArray) (t : List Event) (b' : LineBuffer) : Prop :=
  taken fd t ++ b'.held = b.held ++ bytes

theorem Keeps.trans {more : ByteArray} {u : List Event} {b'' : LineBuffer}
    (h : Keeps fd b bytes t b') (h' : Keeps fd b' more u b'') :
    Keeps fd b (bytes ++ more) (t ++ u) b'' := by
  rw [Keeps, taken_append, ByteArray.append_assoc, h', ← ByteArray.append_assoc, h,
    ByteArray.append_assoc]

theorem keeps_self (fd : Int) (b : LineBuffer) : Keeps fd b .empty [] b := by
  rw [Keeps, taken, ByteArray.empty_append, ByteArray.append_empty]

theorem keeps_flush (h : Runs (b.flush fd) t (.ok (), b')) : Keeps fd b .empty t b' := by
  obtain ⟨htaken, hheld⟩ := runs_flush h
  rw [Keeps, htaken, hheld]

/-- Bytes that fill a buffer by themselves are written past it, which keeps their order if it is
empty. -/
theorem keeps_put (hempty : capacity ≤ bytes.size → b.held = .empty)
    (h : Runs (if capacity ≤ bytes.size then writeDirectly fd bytes >>= fun r ↦ pure (r, b)
      else pure (.ok (), ⟨b.held ++ bytes⟩)) t (.ok (), b')) : Keeps fd b bytes t b' := by
  split at h
  · next hfull =>
    obtain ⟨_, u, r, rfl, hwrite, hnext⟩ := Sys.runs_bind.1 h
    obtain ⟨rfl, ⟨⟩⟩ := Sys.runs_pure.1 hnext
    rw [Keeps, List.append_nil, runs_writeDirectly hwrite, hempty hfull, ByteArray.append_empty,
      ByteArray.empty_append]
  · obtain ⟨rfl, ⟨⟩⟩ := Sys.runs_pure.1 h
    rw [Keeps, taken, ByteArray.empty_append]

theorem keeps_hold (h : Runs (b.hold fd bytes) t (.ok (), b')) : Keeps fd b bytes t b' := by
  rw [hold] at h
  simp only at h
  split at h
  · obtain ⟨rfl, ⟨⟩⟩ := Sys.runs_pure.1 h
    rw [Keeps, taken, ByteArray.empty_append]
  · next hroom =>
    split at h
    · obtain ⟨u, v, ⟨r, b₁⟩, rfl, hflush, hnext⟩ := Sys.runs_bind.1 h
      cases r with
      | error e => obtain ⟨-, ⟨⟩⟩ := Sys.runs_pure.1 hnext
      | ok _ =>
        rw [← ByteArray.empty_append (b := bytes)]
        exact (keeps_flush hflush).trans (keeps_put (fun _ ↦ (runs_flush hflush).2) hnext)
    · next hlarge =>
      refine keeps_put (fun hfull ↦ ByteArray.size_eq_zero_iff.1 ?_) h
      have hcapacity : 0 < capacity := by decide
      omega

theorem keeps_writeLines (h : Runs (b.writeLines fd bytes) t (.ok (), b')) : Keeps fd b bytes t b' := by
  rw [writeLines] at h
  split at h
  · next hheld =>
    obtain ⟨_, u, r, rfl, hwrite, hnext⟩ := Sys.runs_bind.1 h
    obtain ⟨rfl, ⟨⟩⟩ := Sys.runs_pure.1 hnext
    rw [Keeps, List.append_nil, runs_writeDirectly hwrite, eq_empty_of_isEmpty hheld,
      ByteArray.append_empty, ByteArray.empty_append]
  · obtain ⟨u, v, ⟨r, b₁⟩, rfl, hhold, hnext⟩ := Sys.runs_bind.1 h
    cases r with
    | error e => obtain ⟨-, ⟨⟩⟩ := Sys.runs_pure.1 hnext
    | ok _ =>
      rw [← ByteArray.append_empty (b := bytes)]
      exact (keeps_hold hhold).trans (keeps_flush hnext)

theorem append_completeLines (bytes : ByteArray) :
    (completeLines bytes).1 ++ (completeLines bytes).2 = bytes :=
  extract_append_rest bytes _

theorem keeps_write (h : Runs (b.write fd bytes) t (.ok (), b')) : Keeps fd b bytes t b' := by
  have hlines := append_completeLines bytes
  rw [write] at h
  generalize completeLines bytes = parts at h hlines
  obtain ⟨lines, rest⟩ := parts
  simp only at h hlines
  subst hlines
  split at h
  · obtain ⟨u, v, ⟨r, b₁⟩, rfl, hlines, hnext⟩ := Sys.runs_bind.1 h
    cases r with
    | error e => obtain ⟨-, ⟨⟩⟩ := Sys.runs_pure.1 hnext
    | ok _ => exact (keeps_writeLines hlines).trans (keeps_hold hnext)
  · next hnone =>
    have hlines : lines = .empty := eq_empty_of_isEmpty (by simpa using hnone)
    subst hlines
    split at h
    · obtain ⟨u, v, ⟨r, b₁⟩, rfl, hflush, hnext⟩ := Sys.runs_bind.1 h
      cases r with
      | error e => obtain ⟨-, ⟨⟩⟩ := Sys.runs_pure.1 hnext
      | ok _ => exact (keeps_flush hflush).trans (keeps_hold hnext)
    · exact (keeps_self fd b).trans (keeps_hold h)

theorem keeps_writeEach {pieces : List String}
    (h : Runs (b.writeEach fd pieces) t (.ok (), b')) :
    Keeps fd b (String.join pieces).toUTF8 t b' := by
  induction pieces generalizing b t with
  | nil =>
    obtain ⟨rfl, ⟨⟩⟩ := Sys.runs_pure.1 h
    exact keeps_self fd _
  | cons piece pieces ih =>
    obtain ⟨u, v, ⟨r, b₁⟩, rfl, hpiece, hnext⟩ := Sys.runs_bind.1 h
    cases r with
    | error e => obtain ⟨-, ⟨⟩⟩ := Sys.runs_pure.1 hnext
    | ok _ =>
      have htext : (String.join (piece :: pieces)).toUTF8 =
          piece.toUTF8 ++ (String.join pieces).toUTF8 := by
        simp [String.toUTF8_eq_toByteArray]
      rw [htext]
      exact (keeps_write hpiece).trans (ih hnext)

end LineBuffer

end JobShell

import JobShell.Proofs.Parser.Words

namespace JobShell.Parser

/-- A tilde prefix that is all of the text stands for a home with `more` behind it. -/
def splitsPrefix (homes : HomeDirs) (text more : List Char) : Bool :=
  match text with
  | '~' :: name => name.all Tilde.isNameChar && (Tilde.expand? homes (name ++ more)).isSome
  | _ => false

namespace State

variable {homes : HomeDirs} {s t u : State} {c : Char} {cs more : List Char}

/-- What the parser takes in one look next stands partly in `more`: an opening of a substitution, an operator or
a tilde prefix. -/
def parted (homes : HomeDirs) (s : State) (more : List Char) : Bool :=
  s.nesting.isEmpty &&
    (s.quoting != .single && splits openings s.rest more ||
      s.quoting == .none &&
        (splits compounds s.rest more || s.word.isNone && splitsPrefix homes s.rest more))

theorem expand?_backslash (hname : ∀ c ∈ cs, Tilde.isNameChar c) : Tilde.expand? homes (cs ++ ['\\']) = none := by
  have hafter : ∀ c ∈ ['\\'].head?, ¬ Tilde.isNameChar c := by
    intro c hc
    cases hc
    decide
  rw [expand?_name homes hname hafter]
  exact if_neg (by decide)

theorem reads_prefix (hn : s.nesting = []) (hq : s.quoting = .none) (hw : s.word = none) (hr : s.rest = '~' :: cs)
    (hname : ∀ c ∈ cs, Tilde.isNameChar c) {m : List Char} (hm : Tilde.expand? homes (cs ++ m) = none) :
    (s.extend m).Reads homes (extend { s.pushAll s.rest with rest := [] } m) := by
  have hstep : State.step homes '~' { s.extend m with rest := cs ++ m } =
      .ok (push { s.extend m with rest := cs ++ m } '~') := by
    rw [step_tilde (s := { s.extend m with rest := cs ++ m }) hn hq hw, hm]
  have htakes : Takes homes (s.extend m) (push { s.extend m with rest := cs ++ m } '~') :=
    ⟨'~', cs ++ m, by rw [rest_extend, hr, List.cons_append], hstep⟩
  have hread : Reads homes (push { s.extend m with rest := cs ++ m } '~') _ :=
    reads_plain hn hq rfl (fun c hc ↦ isPlain_of_isNameChar (hname c hc)) rfl
  rw [pushAll_push, ← hr] at hread
  exact .head htakes hread

theorem step_shielded (hr : s.rest = []) (hs : s.nesting ≠ [] ∨ s.quoting = .single) (hc : c = '\\' ∨ c = '$')
    (h : s.step homes c = .ok u) : u.nesting ≠ [] ∨ u.quoting = .single := by
  unfold step at h
  split at h
  · rename_i expected outer hn
    cases h
    left
    have hcloser : c ≠ expected.char := by
      rcases hc with rfl | rfl <;> cases expected <;> decide
    simp only [nested, rest_push, hr]
    rcases hc with rfl | rfl <;> grind [push]
  · rename_i hn
    have hsingle : s.quoting = .single := hs.resolve_left fun hne ↦ hne hn
    simp only [hsingle] at h
    cases h
    right
    rcases hc with rfl | rfl <;> simpa [push] using hsingle

theorem step_last_backslash (homes : HomeDirs) (hn : s.nesting = []) (hq : s.quoting ≠ .single) (hr : s.rest = []) :
    s.step homes '\\' = .ok { s with joinsNext := true } := by
  have hescape : s.unquoted homes '\\' = .ok s.escape := rfl
  cases hquoting : s.quoting with
  | none => simp only [step, hn, hquoting, hescape, escape, hr]
  | single => exact absurd hquoting hq
  | double => simp only [step, hn, hquoting, doubleQuoted, hr]

theorem advance_backslash (hn : s.nesting = []) (hq : s.quoting ≠ .single) (hr : s.rest = [])
    (hj : s.joinsNext = false) : (s.extend ['\\']).advance homes = .waiting ⟨s, .joinedLine⟩ := by
  have hrest : (s.extend ['\\']).rest = '\\' :: [] := by
    rw [rest_extend, hr, List.nil_append]
  have hstep := step_last_backslash homes (s := { s.extend ['\\'] with rest := [] }) hn hq rfl
  have hsame : { s.extend ['\\'] with rest := [] } = s := by
    cases s
    simp_all [extend]
  rw [hsame] at hstep
  have hend : State.scan homes { s with joinsNext := true } = .ok { s with joinsNext := true } := scan_nil hr
  rw [advance, scan_cons hrest, hsame, hstep]
  simp only [bind, Except.bind, hend, meetEnd, if_true]
  cases s
  simp_all

theorem eq_nil_of_splits_openings (h : splits openings ('$' :: cs) more) : cs = [] := by
  cases more with
  | nil => cases h
  | cons x xs =>
    simp only [splits_cons, openings, List.contains_eq_mem, decide_eq_true_eq] at h
    cases cs with
    | nil => rfl
    | cons y ys => simp at h

theorem ignores_of_not_parted {m : List Char} (hm : m = [] ∨ m = ['\\'] ∨ m = more) (hr : s.rest = c :: cs)
    (hcomment : s.beginsComment = false) (hparted : s.parted homes more = false) (hback : c = '\\' → cs ≠ [])
    (hshield : c = '$' → cs = [] → s.nesting = [] ∧ s.quoting ≠ .single)
    (hname : s.nesting = [] → s.quoting = .none → s.word = none → c = '~' → ¬ ∀ x ∈ cs, Tilde.isNameChar x) :
    Ignores homes { s with rest := cs } c m where
  backslash := hback
  opening hc := by
    subst hc
    obtain rfl | rfl | rfl := hm
    · rfl
    · exact splits_eq_false (fun x hx ↦ by cases hx; decide) _
    · refine Bool.eq_false_iff.2 fun hsplits ↦ ?_
      obtain ⟨hn, hq⟩ := hshield rfl (eq_nil_of_splits_openings hsplits)
      simp [parted, hn, hq, hr, hsplits] at hparted
  operator hn hq := by
    have hnesting : s.nesting = [] := hn
    have hquoting : s.quoting = .none := hq
    obtain rfl | rfl | rfl := hm
    · rfl
    · exact splits_eq_false (fun x hx ↦ by cases hx; decide) _
    · simp only [parted, hnesting, hquoting, hr, Bool.and_eq_false_iff, Bool.or_eq_false_iff] at hparted
      simp at hparted
      exact hparted.2.1
  comment hn hq hw hc := by
    have hnesting : s.nesting = [] := hn
    have hquoting : s.quoting = .none := hq
    have hword : s.word = none := hw
    simp [beginsComment, hnesting, hquoting, hword, hr, hc] at hcomment
  tilde hn hq hw hc := expand?_ended (hname hn hq hw hc) m

/-- A parser that reads its buffer to the end, outside single quotes and substitutions, is in the same place with
a backslash behind the buffer and with `more` behind it. -/
theorem scan_joined (hj : s.joinsNext = false)
    (hv : ∀ v ∈ s.visits homes, v.beginsComment = false ∧ v.parted homes more = false)
    (ht : s.scan homes = .ok t) (hn : t.nesting = []) (hq : t.quoting ≠ .single) (hjoins : t.joinsNext = false) :
    ∃ u : State, u.rest = [] ∧ u.joinsNext = false ∧ u.nesting = [] ∧ u.quoting ≠ .single ∧
      ∀ m, m = ['\\'] ∨ m = more → (s.extend m).scan homes = (u.extend m).scan homes := by
  fun_induction State.scan homes s with
  | case1 s hr =>
    obtain rfl := Except.ok.inj ht
    exact ⟨_, hr, hj, hn, hq, fun _ _ ↦ rfl⟩
  | case2 => cases ht
  | case3 s c cs hr u hstep _ ih =>
    rw [visits_cons hr hstep] at hv
    obtain ⟨⟨hcomment, hparted⟩, hvisits⟩ := List.forall_mem_cons.1 hv
    -- a prefix that lasts to the end of the buffer is read along with what stands behind it
    by_cases hname : s.nesting = [] ∧ s.quoting = .none ∧ s.word = none ∧ c = '~' ∧
        ∀ x ∈ cs, Tilde.isNameChar x
    · obtain ⟨hsn, hsq, hsw, rfl, hall⟩ := hname
      have hmore : Tilde.expand? homes (cs ++ more) = none := by
        have hname := List.all_eq_true.2 hall
        simp [parted, splitsPrefix, hsn, hsq, hsw, hr, hname] at hparted
        exact hparted.2.2
      refine ⟨{ s.pushAll s.rest with rest := [] }, rfl, hj, hsn, ?_, fun m hm ↦ scan_of_reads ?_⟩
      · simp [pushAll, hsq]
      · refine reads_prefix hsn hsq hsw hr hall ?_
        obtain rfl | rfl := hm
        · exact expand?_backslash hall
        · exact hmore
    have hlast (hcs : cs = []) : u = t := by
      have hend : u.rest = [] := List.suffix_nil.1 (hcs ▸ suffix_step hstep)
      rw [scan_nil hend] at ht
      exact Except.ok.inj ht
    -- the last character decides alone what the parser ends in
    have hshield (hc : c = '\\' ∨ c = '$') (hcs : cs = []) : s.nesting = [] ∧ s.quoting ≠ .single := by
      by_contra hs
      rw [not_and_or, not_not] at hs
      obtain hstays | hstays := step_shielded (s := { s with rest := cs }) hcs hs hc hstep
      · exact hstays (hlast hcs ▸ hn)
      · exact hq (hlast hcs ▸ hstays)
    have hback (hc : c = '\\') (hcs : cs = []) : False := by
      obtain ⟨hsn, hsq⟩ := hshield (.inl hc) hcs
      subst hc
      rw [step_last_backslash homes (s := { s with rest := cs }) hsn hsq hcs] at hstep
      have hu := congrArg joinsNext (Except.ok.inj hstep)
      rw [hlast hcs, hjoins] at hu
      cases hu
    have hignores {m : List Char} (hm : m = [] ∨ m = ['\\'] ∨ m = more) :
        Ignores homes { s with rest := cs } c m :=
      ignores_of_not_parted hm hr hcomment hparted hback (fun hc ↦ hshield (.inr hc))
        fun hsn hsq hsw hc hall ↦ hname ⟨hsn, hsq, hsw, hc, hall⟩
    have hu : u.joinsNext = false := joinsNext_step (s := { s with rest := cs }) hj (hignores (.inl rfl)) hstep
    obtain ⟨v, hvr, hvj, hvn, hvq, hscan⟩ := ih hu hvisits ht
    refine ⟨v, hvr, hvj, hvn, hvq, fun m hm ↦ ?_⟩
    have hrest : (s.extend m).rest = c :: (cs ++ m) := by
      rw [rest_extend, hr, List.cons_append]
    have hextend : State.step homes c { s.extend m with rest := cs ++ m } = .ok (u.extend m) := by
      have hsame := step_extend (hignores (.inr hm))
      rw [hstep] at hsame
      exact hsame
    rw [scan_cons hrest, hextend]
    exact hscan m hm

end State

theorem finish_of_settle (homes : HomeDirs) (t : Turn) (answers : List Answer) :
    ∃ result n left, ∀ whole reads, ∃ whole', finish homes (t.settle homes) answers whole reads =
      (⟨result, whole', reads + n⟩, left) := by
  obtain ⟨n, given, r, left, h⟩ := exists_finishes homes t answers
  exact ⟨_, given.length, left, fun whole reads ↦ h.finish_eq whole reads⟩

variable {homes : HomeDirs} {line more : String} {answers : List Answer} {t : State}

/-- A backslash at the end of a line joins the next line to it. Say that the parser reads the line without an error
or a comment, and is outside single quotes and substitutions behind it, with no backslash waiting; and that no
operator, tilde prefix or opening of a substitution is split between the line and the next one. Then the line with a
backslash, and the next one as its continuation, parses as the two written in one line do, and leaves the same
further lines. -/
theorem parse_joined (ht : State.scan homes { rest := line.toList } = .ok t) (hn : t.nesting = [])
    (hq : t.quoting ≠ .single) (hj : t.joinsNext = false)
    (hv : ∀ s ∈ State.visits homes { rest := line.toList },
      s.beginsComment = false ∧ s.parted homes more.toList = false) :
    (parse homes (line ++ "\\") (.line more :: answers)).1.result = (parse homes (line ++ more) answers).1.result ∧
      (parse homes (line ++ "\\") (.line more :: answers)).1.reads =
        (parse homes (line ++ more) answers).1.reads + 1 ∧
      (parse homes (line ++ "\\") (.line more :: answers)).2 = (parse homes (line ++ more) answers).2 := by
  obtain ⟨u, hur, huj, hun, huq, hscan⟩ := State.scan_joined rfl hv ht hn hq hj
  have hbegin (text : String) : begin homes (line ++ text) =
      (State.extend { rest := line.toList } text.toList).advance homes := by
    rw [begin, String.toList_append]
    rfl
  have hone : begin homes (line ++ more) = (u.extend more.toList).advance homes := by
    rw [hbegin, advance_of_scan (hscan _ (.inr rfl))]
  have hwait : begin homes (line ++ "\\") = .waiting ⟨u, .joinedLine⟩ := by
    rw [hbegin, ← State.advance_backslash hun huq hur huj]
    exact advance_of_scan (hscan _ (.inl rfl))
  have htake : Waiting.resume homes ⟨u, .joinedLine⟩ (.line more) = (u.extend more.toList).advance homes := by
    have hread : { u with rest := more.toList } = u.extend more.toList := by
      simp [State.extend, hur, ← huj]
    rw [← hread]
    rfl
  obtain ⟨result, n, left, hfinish⟩ := finish_of_settle homes (.reading (u.extend more.toList)) answers
  obtain ⟨whole, hjoined⟩ := hfinish (line ++ "\\" ++ (Answer.line more).addition) 1
  obtain ⟨whole', hplain⟩ := hfinish (line ++ more) 0
  rw [parse, parse, hwait, hone, finish, htake]
  rw [Turn.settle] at hjoined hplain
  rw [hjoined, hplain]
  have hreads : 1 + n = 0 + n + 1 := by
    omega
  exact ⟨rfl, hreads, rfl⟩

theorem parse_joined_inside_a_number :
    (parse ⟨none, fun _ ↦ none⟩ "cat <<E 1\\" [.line "2>f", .line "x", .line "E"]).1.result =
      (parse ⟨none, fun _ ↦ none⟩ "cat <<E 12>f" [.line "x", .line "E"]).1.result := by
  have ht : State.scan ⟨none, fun _ ↦ none⟩ { rest := "cat <<E 1".toList } =
      .ok { rest := [], word := some ⟨"1", false⟩, words := ["cat"], redirections := [.document 0 ""],
            requests := [⟨0, 0, "E", false⟩] } := by
    cbv
  have hv : ∀ s ∈ State.visits ⟨none, fun _ ↦ none⟩ { rest := "cat <<E 1".toList },
      s.beginsComment = false ∧ s.parted ⟨none, fun _ ↦ none⟩ "2>f".toList = false := by
    iterate 8 refine State.forall_mem_visits_cons rfl rfl ⟨rfl, rfl⟩ ?_
    rw [State.visits_nil rfl]
    exact List.forall_mem_singleton.2 ⟨rfl, rfl⟩
  exact (parse_joined ht rfl (by decide) rfl hv).1

/-- The parser does not look through a backslash for the second half of an operator. -/
theorem parse_splits_operator :
    State.scan ⟨none, fun _ ↦ none⟩ { rest := "echo a &".toList } =
        .ok { rest := [], commands := [⟨.background, ["echo", "a"], []⟩] } ∧
      (parse ⟨none, fun _ ↦ none⟩ "echo a &\\" [.line "& echo b"]).1.result =
        .error (.failure (.unexpectedToken "&")) ∧
      (parse ⟨none, fun _ ↦ none⟩ "echo a && echo b" []).1.result =
        .ok (some ⟨[⟨.and, ["echo", "a"], []⟩, ⟨.single, ["echo", "b"], []⟩]⟩) := by
  refine ⟨?_, ?_, ?_⟩ <;> cbv

end JobShell.Parser

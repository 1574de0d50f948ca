import JobShell.Proofs.Parser.Joining

namespace JobShell.Parser

namespace State

variable {homes : HomeDirs} {s t u : State} {c : Char} {cs : List Char}

/-- The parser is outside words, quotes and substitutions, and no backslash joins the next line to this one. -/
structure BetweenWords (s : State) : Prop where
  nesting : s.nesting = []
  quoting : s.quoting = .none
  word : s.word = none
  joinsNext : s.joinsNext = false

theorem step_numberSign (hn : s.nesting = []) (hq : s.quoting = .none) (hw : s.word = none) :
    s.step homes '#' = .ok { s with rest := [] } := by
  have hordinary : s.step homes '#' = s.ordinary homes '#' := by
    simp only [step, hn, hq]
    exact unquoted_plain (by decide) s
  have hword : ¬ s.word.isSome := by
    simp [hw]
  rw [hordinary, ordinary, if_neg hword, if_pos rfl]

theorem step_comment {rest : List Char} (h : s.beginsComment) (hr : s.rest = c :: cs) :
    State.step homes c { s with rest := rest } = .ok { s with rest := [] } := by
  simp only [beginsComment, hr, Bool.and_eq_true, List.isEmpty_iff, beq_iff_eq, Option.isNone_iff_eq_none,
    List.head?_cons, Option.some.injEq] at h
  obtain ⟨⟨⟨hn, hq⟩, hw⟩, rfl⟩ := h
  exact step_numberSign (s := { s with rest := rest }) hn hq hw

theorem not_step_last_backslash (hr : s.rest = []) (h : s.step homes '\\' = .ok t) : ¬ t.BetweenWords := by
  intro ht
  by_cases hopen : s.nesting ≠ [] ∨ s.quoting = .single
  · obtain hn | hq := step_shielded hr hopen (.inl rfl) h
    · exact hn ht.nesting
    · rw [ht.quoting] at hq
      cases hq
  · rw [not_or, not_not] at hopen
    rw [step_last_backslash homes hopen.1 hopen.2 hr] at h
    have hjoins := ht.joinsNext
    rw [← Except.ok.inj h] at hjoins
    cases hjoins

theorem isSome_word_scan_plain (hn : s.nesting = []) (hq : s.quoting = .none) (hw : s.word.isSome)
    (hplain : ∀ c ∈ s.rest, isPlain c) (h : s.scan homes = .ok t) : t.word.isSome := by
  have hreads : s.Reads homes { s.pushAll s.rest with rest := [] } :=
    reads_plain hn hq hw hplain (List.append_nil s.rest).symm
  have hscan := scan_of_reads hreads
  rw [h, scan_nil rfl] at hscan
  rw [Except.ok.inj hscan]
  rfl

theorem isSome_word_scan_tilde (hn : s.nesting = []) (hq : s.quoting = .none) (hw : s.word = none)
    (hname : ∀ c ∈ s.rest, Tilde.isNameChar c) (hu : s.step homes '~' = .ok u) (h : u.scan homes = .ok t) :
    t.word.isSome := by
  have hplain : ∀ c ∈ s.rest, isPlain c := fun c hc ↦ isPlain_of_isNameChar (hname c hc)
  rw [step_tilde hn hq hw] at hu
  cases hexpand : Tilde.expand? homes s.rest with
  | none =>
    rw [hexpand] at hu
    obtain rfl := Except.ok.inj hu
    exact isSome_word_scan_plain (s := s.push '~') hn hq rfl hplain h
  | some x =>
    rw [hexpand] at hu
    simp only [skip] at hu
    split at hu
    · obtain rfl := Except.ok.inj hu
      have hrest : ∀ c ∈ s.rest.drop x.2, isPlain c := fun c hc ↦ hplain c (List.mem_of_mem_drop hc)
      exact isSome_word_scan_plain (s := { s with word := some { text := x.1 }, rest := s.rest.drop x.2 })
        hn hq rfl hrest h
    · cases hu

theorem ignores_numberSign {more : List Char} (hmore : ∀ x ∈ more.head?, x = '#') (hr : s.rest = c :: cs)
    (hcomment : s.beginsComment = false) (hu : State.step homes c { s with rest := cs } = .ok u)
    (ht : u.scan homes = .ok t) (hbetween : t.BetweenWords) : Ignores homes { s with rest := cs } c more where
  backslash hc hcs := by
    subst hc
    have hend : u.rest = [] := List.suffix_nil.1 (hcs ▸ suffix_step hu)
    rw [scan_nil hend] at ht
    exact not_step_last_backslash hcs hu (Except.ok.inj ht ▸ hbetween)
  opening _ := splits_eq_false (fun x hx ↦ by rw [hmore x hx]; decide) _
  operator _ _ := splits_eq_false (fun x hx ↦ by rw [hmore x hx]; decide) _
  comment hn hq hw hc := by
    have hnesting : s.nesting = [] := hn
    have hquoting : s.quoting = .none := hq
    have hword : s.word = none := hw
    simp [beginsComment, hnesting, hquoting, hword, hr, hc] at hcomment
  tilde hn hq hw hc := by
    subst hc
    refine expand?_ended (fun hname ↦ ?_) _
    have hsome := isSome_word_scan_tilde (s := { s with rest := cs }) hn hq hw hname hu ht
    rw [hbetween.word] at hsome
    cases hsome

/-- A parser that reads its buffer to the end and is between words there passes over a comment behind it. -/
theorem scan_comment (hj : s.joinsNext = false) (ht : s.scan homes = .ok t) (hbetween : t.BetweenWords)
    (text : List Char) : (s.extend ('#' :: text)).scan homes = .ok t := by
  have hsame (s : State) (hj : s.joinsNext = false) (rest : List Char) :
      { s.extend ('#' :: text) with rest := rest } = { s with rest := rest } := by
    simp [extend, ← hj]
  fun_induction State.scan homes s with
  | case1 s hr =>
    obtain rfl := Except.ok.inj ht
    have hrest : (s.extend ('#' :: text)).rest = '#' :: text := by
      rw [rest_extend, hr, List.nil_append]
    have hstep : State.step homes '#' { s with rest := text } = .ok { s with rest := [] } :=
      step_numberSign hbetween.nesting hbetween.quoting hbetween.word
    rw [scan_cons hrest, hsame s hj, hstep, ← hr]
    exact scan_nil hr
  | case2 => cases ht
  | case3 s c cs hr u hu _ ih =>
    have hrest : (s.extend ('#' :: text)).rest = c :: (cs ++ '#' :: text) := by
      rw [rest_extend, hr, List.cons_append]
    rw [scan_cons hrest]
    by_cases hcomment : s.beginsComment
    · -- the text is behind a comment of the line, which takes it along
      rw [hsame s hj, step_comment hcomment hr]
      rw [step_comment hcomment hr] at hu
      rw [Except.ok.inj hu]
      exact ht
    · have hignores (more : List Char) (hmore : ∀ x ∈ more.head?, x = '#') :
          Ignores homes { s with rest := cs } c more :=
        ignores_numberSign hmore hr (by simpa using hcomment) hu ht hbetween
      have hstep := step_extend (hignores ('#' :: text) (by simp))
      rw [hu] at hstep
      have hjoins : u.joinsNext = false :=
        joinsNext_step (s := { s with rest := cs }) hj (hignores [] (by simp)) hu
      exact (congrArg (· >>= scan homes) hstep).trans (ih hjoins ht)

end State

theorem finish_append (homes : HomeDirs) (p : Progress) (answers : List Answer) (front line : String) (reads : Nat) :
    finish homes p answers (front ++ line) reads =
      ({ (finish homes p answers line reads).1 with line := front ++ (finish homes p answers line reads).1.line },
        (finish homes p answers line reads).2) := by
  fun_induction finish homes p answers line reads with
  | case1 => rw [finish]
  | case2 => rw [finish]
  | case3 line reads w ih => rw [finish, ih]
  | case4 line reads w a later ih => rw [finish, String.append_assoc, ih]

variable {homes : HomeDirs} {line : String} {s : State}

/-- Comments are inert. Say that the parser reads the line without an error and is between words behind it. Then the
parser is in the same place with a comment behind the line, whatever the comment holds: whatever further lines there
are, it takes the same ones, as many times, and comes to the same result, and the line that it leaves has the comment
where it stood. -/
theorem parse_comment (hs : State.scan homes { rest := line.toList } = .ok s) (hbetween : s.BetweenWords)
    (text : String) :
    begin homes (line ++ "#" ++ text) = begin homes line ∧
      ∀ answers, ∃ result more reads left, parse homes line answers = (⟨result, line ++ more, reads⟩, left) ∧
        parse homes (line ++ "#" ++ text) answers = (⟨result, line ++ "#" ++ text ++ more, reads⟩, left) := by
  have hbegin : begin homes (line ++ "#" ++ text) = begin homes line := by
    have hscan := State.scan_comment rfl hs hbetween text.toList
    have hline : { rest := (line ++ "#" ++ text).toList } =
        State.extend { rest := line.toList } ('#' :: text.toList) := by
      simp [State.extend]
    rw [begin, begin, State.advance, State.advance, hline, hscan, hs]
  refine ⟨hbegin, fun answers ↦ ?_⟩
  have hfinish (whole : String) := finish_append homes (begin homes line) answers whole "" 0
  simp only [String.append_empty] at hfinish
  refine ⟨_, _, _, _, hfinish line, ?_⟩
  rw [parse, hbegin]
  exact hfinish (line ++ "#" ++ text)

theorem parse_comment_behind_document :
    parse ⟨none, fun _ ↦ none⟩ "cat <<E |" [.line "x", .line "E", .line "wc"] =
        (⟨.ok (some ⟨[⟨.piped, ["cat"], [.document 0 "x\n"]⟩, ⟨.single, ["wc"], []⟩]⟩), "cat <<E |\nx\nE\nwc", 3⟩, []) ∧
      (parse ⟨none, fun _ ↦ none⟩ "cat <<E |# 'a\n$( <<F \\" [.line "x", .line "E", .line "wc"]).1.result =
        .ok (some ⟨[⟨.piped, ["cat"], [.document 0 "x\n"]⟩, ⟨.single, ["wc"], []⟩]⟩) := by
  have hs : State.scan ⟨none, fun _ ↦ none⟩ { rest := "cat <<E |".toList } =
      .ok { rest := [], commands := [⟨.piped, ["cat"], [.document 0 ""]⟩], requests := [⟨0, 0, "E", false⟩] } := by
    cbv
  have hparse : parse ⟨none, fun _ ↦ none⟩ "cat <<E |" [.line "x", .line "E", .line "wc"] =
      (⟨.ok (some ⟨[⟨.piped, ["cat"], [.document 0 "x\n"]⟩, ⟨.single, ["wc"], []⟩]⟩), "cat <<E |\nx\nE\nwc", 3⟩, []) := by
    cbv
  obtain ⟨result, more, reads, left, hplain, hcommented⟩ :=
    (parse_comment hs ⟨rfl, rfl, rfl, rfl⟩ " 'a\n$( <<F \\").2 [.line "x", .line "E", .line "wc"]
  refine ⟨hparse, ?_⟩
  have hresult := congrArg (·.1.result) (hplain.symm.trans hparse)
  exact (congrArg (·.1.result) hcommented).trans hresult

end JobShell.Parser

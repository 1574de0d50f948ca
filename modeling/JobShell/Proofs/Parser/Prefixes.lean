import JobShell.Proofs.Parser.Words

namespace JobShell.Parser

theorem endsPrefix_iff {c : Char} : Tilde.endsPrefix c ↔ c = '/' ∨ Text.isSpace c ∨ isOperator c := by
  simp [Tilde.endsPrefix, or_assoc]

theorem isSpace_of_isBlank {c : Char} (h : isBlank c) : Text.isSpace c := by
  simp only [isBlank, Bool.or_eq_true, beq_iff_eq] at h
  obtain (rfl | rfl) | rfl := h <;> decide

namespace State

variable {homes : HomeDirs} {s t u : State} {w : Word} {c : Char} {cs rest typed tail name : List Char}

/-- The current word ends where the parser is. -/
structure AtWordEnd (s : State) : Prop where
  nesting : s.nesting = []
  quoting : s.quoting = .none
  joinsNext : s.joinsNext = false
  follows : ∀ c ∈ s.rest.head?, isBlank c ∨ isOperator c

theorem AtWordEnd.typed_nil (hs : s.AtWordEnd) (h : s.Typed homes tail t) : tail = [] ∧ t = s := by
  cases h with
  | nil => exact ⟨rfl, rfl⟩
  | chars _ hr ht hu _ =>
    have hends : isBlank _ ∨ isOperator _ := hs.follows _ (by rw [hr]; rfl)
    exact absurd ⟨hs.nesting, hs.quoting, hends⟩ (not_ends_of_isSome hu ht)
  | line _ hasks htake hu _ =>
    obtain ⟨hj, -, -⟩ | ⟨hopen, -, -⟩ := reading_of_asks hasks htake hu
    · rw [hs.joinsNext] at hj
      cases hj
    · rcases hopen with hn | hq
      · exact absurd hs.nesting hn
      · exact absurd hs.quoting hq

theorem AtWordEnd.exists_step (ht : t.AtWordEnd) (h : s.Typed homes typed t) (hr : s.rest = c :: cs)
    (hc : ¬ (isBlank c ∨ isOperator c)) :
    ∃ u taken tail, State.step homes c { s with rest := cs } = .ok u ∧ u.word.isSome ∧ cs = taken ++ u.rest ∧
      typed = c :: taken ++ tail ∧ Typed homes u tail t := by
  obtain ⟨-, rfl⟩ | hstep := h.cases_chars hr
  · exact absurd (ht.follows c (by rw [hr]; rfl)) hc
  · exact hstep

theorem not_ends_of_isPlain (hc : isPlain c) : ¬ (isBlank c ∨ isOperator c) := by
  simp only [isPlain, Bool.and_eq_true, Bool.not_eq_true'] at hc
  simp [hc]

theorem AtWordEnd.typed_name (ht : t.AtWordEnd) (h : s.Typed homes typed t) (hn : s.nesting = [])
    (hq : s.quoting = .none) (hw : s.word.isSome) (hname : ∀ c ∈ name, Tilde.isNameChar c)
    (hr : s.rest = name ++ rest) :
    ∃ tail, typed = name ++ tail ∧ Typed homes { s.pushAll name with rest := rest } tail t := by
  induction name generalizing s typed with
  | nil =>
    refine ⟨typed, rfl, ?_⟩
    rwa [pushAll_nil hw hr]
  | cons c name ih =>
    obtain ⟨hc, htail⟩ := List.forall_mem_cons.1 hname
    have hplain := isPlain_of_isNameChar hc
    obtain ⟨u, taken, tail, hstep, -, htaken, rfl, hu⟩ := ht.exists_step h hr (not_ends_of_isPlain hplain)
    obtain rfl := Except.ok.inj (hstep.symm.trans (step_plain hn hq hw hplain))
    obtain rfl : taken = [] := List.self_eq_append_left.1 htaken
    obtain ⟨tail, rfl, htyped⟩ := ih hu hn hq rfl htail rfl
    rw [pushAll_push] at htyped
    exact ⟨tail, rfl, htyped⟩

/-- The parser behind the prefix of a word, with what stands for it. -/
def behindPrefix (s : State) (text : String) (rest : List Char) : State :=
  { s with word := some ⟨text, false⟩, rest := rest }

variable {after : List Char}

theorem AtWordEnd.typed_home (ht : t.AtWordEnd) (h : s.Typed homes typed t) (hn : s.nesting = [])
    (hq : s.quoting = .none) (hw : s.word = none) (hr : s.rest = '~' :: (name ++ after)) {home : String}
    (hexpand : Tilde.expand? homes (name ++ after) = some (home, name.length)) :
    ∃ tail, typed = '~' :: name ++ tail ∧ Typed homes (s.behindPrefix home after) tail t := by
  obtain ⟨u, taken, tail, hstep, -, htaken, rfl, hu⟩ := ht.exists_step h hr (by decide)
  rw [step_tilde (s := { s with rest := name ++ after }) hn hq hw, hexpand] at hstep
  simp only [skip] at hstep
  rw [if_pos (by simp)] at hstep
  obtain rfl := Except.ok.inj hstep
  have hrest : (name ++ after).drop name.length = after := List.drop_left
  simp only [hrest] at htaken hu
  obtain rfl : name = taken := List.append_cancel_right htaken
  exact ⟨tail, rfl, hu⟩

theorem AtWordEnd.typed_literal (ht : t.AtWordEnd) (h : s.Typed homes typed t) (hn : s.nesting = [])
    (hq : s.quoting = .none) (hw : s.word = none) (hr : s.rest = '~' :: (name ++ after))
    (hname : ∀ c ∈ name, Tilde.isNameChar c) (hexpand : Tilde.expand? homes (name ++ after) = none) :
    ∃ tail, typed = '~' :: name ++ tail ∧
      Typed homes (s.behindPrefix (String.ofList ('~' :: name)) after) tail t := by
  obtain ⟨u, taken, tail, hstep, -, htaken, rfl, hu⟩ := ht.exists_step h hr (by decide)
  rw [step_tilde (s := { s with rest := name ++ after }) hn hq hw, hexpand] at hstep
  obtain rfl := Except.ok.inj hstep
  obtain rfl : taken = [] := List.self_eq_append_left.1 htaken
  obtain ⟨tail, rfl, htyped⟩ := ht.typed_name hu hn hq rfl hname rfl
  rw [pushAll_push] at htyped
  have hsame : { State.pushAll { s with rest := name ++ after } ('~' :: name) with rest := after } =
      s.behindPrefix (String.ofList ('~' :: name)) after := by
    simp [pushAll, behindPrefix, hw]
  rw [← hsame]
  exact ⟨tail, rfl, htyped⟩

/-- A home is all of the word, or a slash follows it. -/
theorem AtWordEnd.whole_or_slash (ht : t.AtWordEnd) {home : String} (h : s.Typed homes tail t)
    (hs : s.word = some ⟨home, false⟩) (hn : s.nesting = []) (hq : s.quoting = .none) (hj : s.joinsNext = false)
    (hends : ∀ c ∈ s.rest.head?, c = '/' ∨ isBlank c ∨ isOperator c) (hw : t.word = some w) :
    tail = [] ∧ w.text = home ∨ tail.head? = some '/' ∧ (home ++ "/").toList <+: w.text.toList := by
  by_cases hslash : s.rest.head? = some '/'
  · right
    obtain ⟨cs, hr⟩ := List.head?_eq_some_iff.1 hslash
    obtain ⟨u, taken, tail, hstep, -, -, rfl, hu⟩ := ht.exists_step h hr (by decide)
    have hpush : State.step homes '/' { s with rest := cs } = .ok (push { s with rest := cs } '/') :=
      step_plain hn hq (by simp [hs]) (by decide)
    obtain rfl := Except.ok.inj (hstep.symm.trans hpush)
    have hword : (push { s with rest := cs } '/').word = some ⟨home.push '/', false⟩ := by
      simp [push, hs]
    have htext := hu.prefix_text hword hw
    exact ⟨rfl, by simpa using htext⟩
  · left
    have hwhole : s.AtWordEnd := ⟨hn, hq, hj, fun c hc ↦ (hends c hc).resolve_left fun h ↦ hslash (h ▸ hc)⟩
    obtain ⟨rfl, rfl⟩ := hwhole.typed_nil h
    obtain rfl := Option.some.inj (hs.symm.trans hw)
    exact ⟨rfl, rfl⟩

end State

open State in
/-- A tilde prefix is replaced as a whole or not at all. Each word of a parse has been typed from where it begins. Take
one that begins with an unquoted tilde and goes on
with a name, the longest row of name characters, and read it to its end. Unless the name has a home and white space
that does not part words stands directly behind it, the word is a known home with nothing or a slash and more behind
it; or the user is unknown or something else than a slash follows, and the word begins with the tilde and the name.
What is behind the prefix is read as in any word. -/
theorem tilde_covers_prefix_or_nothing {homes : HomeDirs} {line : String} :
    (∀ {buffer : List Char} {t : State}, Reaches homes line buffer (.reading t) → t.word.isSome → Begun homes line t) ∧
      ∀ {buffer name after typed : List Char} {s t : State} {w : Word},
        Reaches homes line buffer (.reading s) → s.word = none → s.rest = '~' :: (name ++ after) →
        (∀ c ∈ name, Tilde.isNameChar c) → (∀ c ∈ after.head?, ¬ Tilde.isNameChar c) →
        (namedHome? homes name ≠ none → ∀ c ∈ after.head?, Text.isSpace c → isBlank c) →
        s.Typed homes typed t → t.AtWordEnd → t.word = some w →
          ∃ tail, typed = '~' :: name ++ tail ∧
            ((∃ home, namedHome? homes name = some home ∧ Typed homes (s.behindPrefix home after) tail t ∧
                (tail = [] ∧ w.text = home ∨ tail.head? = some '/' ∧ (home ++ "/").toList <+: w.text.toList)) ∨
              ((namedHome? homes name = none ∨ ∃ c ∈ tail.head?, c ≠ '/') ∧
                Typed homes (s.behindPrefix (String.ofList ('~' :: name)) after) tail t ∧
                '~' :: name <+: w.text.toList)) := by
  refine ⟨Reaches.exists_typed, ?_⟩
  intro buffer name after typed s t w hs hword hr hname hafter hspace htyped ht hw
  obtain ⟨hn, hq⟩ := hs.coherent.idle hword
  have hj := hs.coherent.joinsNext_eq_false hr
  have hexpand := expand?_name homes hname hafter
  have hliteral (h : Tilde.expand? homes (name ++ after) = none) :
      ∃ tail, typed = '~' :: name ++ tail ∧
        Typed homes (s.behindPrefix (String.ofList ('~' :: name)) after) tail t ∧ '~' :: name <+: w.text.toList := by
    obtain ⟨tail, hsplit, htail⟩ := ht.typed_literal htyped hn hq hword hr hname h
    have htext := htail.prefix_text rfl hw
    rw [String.toList_ofList] at htext
    exact ⟨tail, hsplit, htail, htext⟩
  by_cases hends : after.head?.all Tilde.endsPrefix
  · rw [if_pos hends] at hexpand
    cases hhome : namedHome? homes name with
    | none =>
      rw [hhome] at hexpand
      obtain ⟨tail, hsplit, htail, htext⟩ := hliteral hexpand
      exact ⟨tail, hsplit, .inr ⟨.inl rfl, htail, htext⟩⟩
    | some home =>
      rw [hhome] at hexpand
      obtain ⟨tail, hsplit, htail⟩ := ht.typed_home htyped hn hq hword hr hexpand
      refine ⟨tail, hsplit, .inl ⟨home, rfl, htail, ?_⟩⟩
      refine ht.whole_or_slash htail rfl hn hq hj (fun c hc ↦ ?_) hw
      -- this is where the two notions of white space have to agree
      obtain hslash | hspace' | hoperator := endsPrefix_iff.1 ((Option.all_eq_true _ _).1 hends c hc)
      · exact .inl hslash
      · exact .inr (.inl (hspace (by simp [hhome]) c hc hspace'))
      · exact .inr (.inr hoperator)
  · rw [if_neg hends] at hexpand
    obtain ⟨tail, hsplit, htail, htext⟩ := hliteral hexpand
    refine ⟨tail, hsplit, .inr ⟨.inr ?_, htail, htext⟩⟩
    obtain ⟨c, hc, hnot⟩ : ∃ c ∈ after.head?, ¬ Tilde.endsPrefix c := by
      obtain ⟨c, hc, hnot⟩ := (Option.all_eq_false _ _).1 (Bool.eq_false_iff.2 hends)
      exact ⟨c, hc, Bool.eq_false_iff.1 hnot⟩
    rw [endsPrefix_iff, not_or, not_or] at hnot
    obtain ⟨hslash, hspace', hoperator⟩ := hnot
    obtain ⟨cs, rfl⟩ : ∃ cs, after = c :: cs := List.head?_eq_some_iff.1 hc
    have hinside : ¬ (isBlank c ∨ isOperator c) :=
      not_or.2 ⟨fun hb ↦ hspace' (isSpace_of_isBlank hb), hoperator⟩
    obtain ⟨u, taken, tail, -, -, -, rfl, -⟩ := ht.exists_step htail rfl hinside
    exact ⟨c, rfl, hslash⟩

open State in
theorem tilde_covers_prefix_before_slash :
    Typed ⟨none, fun user ↦ if user = "ann" then some "/u/ann" else none⟩
        { rest := "/x y".toList, word := some ⟨"/u/ann", false⟩ } ['/', 'x']
        { rest := " y".toList, word := some ⟨"/u/ann/x", false⟩ } ∧
      "/u/ann/".toList <+: "/u/ann/x".toList := by
  have htail : Typed ⟨none, fun user ↦ if user = "ann" then some "/u/ann" else none⟩
      { rest := "/x y".toList, word := some ⟨"/u/ann", false⟩ } ['/', 'x']
      { rest := " y".toList, word := some ⟨"/u/ann/x", false⟩ } :=
    .chars [] (u := { rest := "x y".toList, word := some ⟨"/u/ann/", false⟩ }) rfl rfl rfl <|
      .chars [] (u := { rest := " y".toList, word := some ⟨"/u/ann/x", false⟩ }) rfl rfl rfl (.nil _)
  have hstep : State.step ⟨none, fun user ↦ if user = "ann" then some "/u/ann" else none⟩ '~'
      { rest := "ann/x y".toList } = .ok { rest := "/x y".toList, word := some ⟨"/u/ann", false⟩ } := rfl
  have htyped : Typed ⟨none, fun user ↦ if user = "ann" then some "/u/ann" else none⟩
      { rest := "~ann/x y".toList } ('~' :: ['a', 'n', 'n'] ++ ['/', 'x'])
      { rest := " y".toList, word := some ⟨"/u/ann/x", false⟩ } :=
    .chars (u := { rest := "/x y".toList, word := some ⟨"/u/ann", false⟩ }) ['a', 'n', 'n'] rfl hstep rfl htail
  have hname : ∀ c ∈ ['a', 'n', 'n'], Tilde.isNameChar c := List.all_eq_true.1 (by decide)
  have hends : AtWordEnd { rest := " y".toList, word := some ⟨"/u/ann/x", false⟩ } :=
    ⟨rfl, rfl, rfl, fun c hc ↦ by cases hc; decide⟩
  have hs : Reaches ⟨none, fun user ↦ if user = "ann" then some "/u/ann" else none⟩ "~ann/x y" "~ann/x y".toList
      (.reading { rest := "~ann/x y".toList }) := .start
  have hr : "~ann/x y".toList = '~' :: (['a', 'n', 'n'] ++ ['/', 'x', ' ', 'y']) := rfl
  obtain ⟨tail, hsplit, hcase⟩ := tilde_covers_prefix_or_nothing.2 hs rfl hr hname
    (fun c hc ↦ by cases hc; decide) (fun _ c hc ↦ by cases hc; decide) htyped hends rfl
  obtain rfl : tail = ['/', 'x'] := (List.append_cancel_left hsplit).symm
  obtain ⟨home, hhome, htail, ⟨hnil, -⟩ | ⟨-, htext⟩⟩ | ⟨hunknown | ⟨c, hc, hslash⟩, -, -⟩ :=
    hcase
  · cases hnil
  · obtain rfl : "/u/ann" = home := Option.some.inj hhome
    exact ⟨htail, htext⟩
  · cases hunknown
  · cases hc
    exact absurd rfl hslash

/-- A vertical tab ends a prefix and does not end a word: the home runs into what follows. -/
theorem parse_expands_before_vertical_tab :
    ¬ isBlank '\x0b' ∧ ¬ isOperator '\x0b' ∧
      (parse ⟨some "/home/me", fun _ ↦ none⟩ "echo ~\x0bx" []).1.result =
        .ok (some ⟨[⟨.single, ["echo", "/home/me\x0bx"], []⟩]⟩) := by
  have hfinishes : Finishes ⟨some "/home/me", fun _ ↦ none⟩ (.reading { rest := "echo ~\x0bx".toList }) [] 9 []
      (.ok [⟨.single, ["echo", "/home/me\x0bx"], []⟩]) [] :=
    .step rfl rfl <| .step rfl rfl <| .step rfl rfl <| .step rfl rfl <| .step rfl rfl <| .step rfl rfl <|
      .step rfl rfl <| .step rfl rfl <| .bufferEnd rfl (.finished _ _)
  obtain ⟨whole, hparse⟩ := hfinishes.exists_parse_eq
  refine ⟨by decide, by decide, ?_⟩
  rw [hparse]
  rfl

end JobShell.Parser

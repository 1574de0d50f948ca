import JobShell.Proofs.Parser.Nesting

namespace JobShell.Parser

/-- The parser is about to read a dollar sign or a backquote, in no substitution and not between single quotes. -/
structure State.MeetsSubstitution (s : State) : Prop where
  next : ∃ c cs, s.rest = c :: cs ∧ (c = '$' ∨ c = '\x60')
  nesting : s.nesting = []
  nestedQuote : s.nestedQuote = none
  joinsNext : s.joinsNext = false
  quoting : s.quoting ≠ .single

/-- The course of the substitution that the next character of `s` may open, up to where the parser is outside it
again, and what replies have added to the buffer since. -/
inductive Copying (homes : HomeDirs) (s : State) : List Char → Turn → Prop
  | opening {c : Char} {cs : List Char} {t : State} :
      s.rest = c :: cs → { s with rest := cs }.step homes c = .ok t → Copying homes s [] (.reading t)
  | step {grown cs : List Char} {c : Char} {u t : State} :
      Copying homes s grown (.reading u) → u.nesting ≠ [] → u.rest = c :: cs →
      { u with rest := cs }.step homes c = .ok t → Copying homes s grown (.reading t)
  | fault {grown cs : List Char} {c : Char} {u : State} {f : Fault} :
      Copying homes s grown (.reading u) → u.nesting ≠ [] → u.rest = c :: cs →
      { u with rest := cs }.step homes c = .error f → Copying homes s grown (.stopped (.finished (.error f)))
  | bufferEnd {grown : List Char} {u : State} :
      Copying homes s grown (.reading u) → u.nesting ≠ [] → u.rest = [] →
      Copying homes s grown (.stopped u.meetEnd)
  | answer {grown : List Char} {w : Waiting} (a : Answer) :
      Copying homes s grown (.stopped (.waiting w)) → Copying homes s (grown ++ w.growth a) (w.take a)

/-- The parser is inside a substitution, and is so whatever line it is given. -/
def Turn.IsInside : Turn → Prop
  | reading s => s.nesting ≠ []
  | stopped (.waiting w) => w.state.nesting ≠ []
  | stopped (.finished _) => False

variable {homes : HomeDirs} {line : String} {buffer grown taken rest cs : List Char} {s t u : State} {c : Char}
  {k : Closer} {outer nesting : List Closer} {quote : Option Char}

namespace State

theorem exists_nested_within (s : State) (taken : List Char) (k : Closer) (outer : List Closer)
    (quote : Option Char) (c : Char) (cs : List Char) :
    ∃ more nesting' quote' rest', more ++ rest' = c :: cs ∧ (nesting' = [] → quote' = none) ∧
      (s.within taken (k :: outer) quote cs).nested k outer c =
        s.within (taken ++ more) nesting' quote' rest' := by
  rw [nested_within]
  split
  · cases cs with
    | nil => exact ⟨[c], k :: outer, quote, [], rfl, nofun, rfl⟩
    | cons x r => exact ⟨[c, x], k :: outer, quote, r, rfl, nofun, rfl⟩
  cases quote with
  | some q => exact ⟨[c], k :: outer, _, cs, rfl, nofun, rfl⟩
  | none =>
    simp only
    split
    · exact ⟨[c], k :: outer, some c, cs, rfl, nofun, rfl⟩
    split
    · exact ⟨[c], outer, none, cs, rfl, fun _ ↦ rfl, rfl⟩
    split
    · exact ⟨[c], .backquote :: k :: outer, none, cs, rfl, nofun, rfl⟩
    split
    · exact ⟨[c], .paren :: k :: outer, none, cs, rfl, nofun, rfl⟩
    split
    · split
      · next r => exact ⟨[c, '('], .paren :: k :: outer, none, r, rfl, nofun, rfl⟩
      · next r => exact ⟨[c, '{'], .brace :: k :: outer, none, r, rfl, nofun, rfl⟩
      · exact ⟨[c], k :: outer, none, cs, rfl, nofun, rfl⟩
    · exact ⟨[c], k :: outer, none, cs, rfl, nofun, rfl⟩

theorem within_outside (hn : s.nesting = []) (hquote : s.nestedQuote = none) (taken rest : List Char) :
    s.within taken [] none rest = { s.pushAll taken with rest := rest } := by
  simp [within, pushAll, hn, hquote]

theorem exists_openSubstitution (hn : s.nesting = []) (hquote : s.nestedQuote = none) (c : Char)
    (cs : List Char) :
    ∃ taken nesting rest, taken ≠ [] ∧ taken ++ rest = c :: cs ∧
      openSubstitution { s with rest := cs } c = s.within taken nesting none rest := by
  have hone : push { s with rest := cs } c = s.within [c] [] none cs := by
    have htext (t : String) : t.push c = t ++ String.ofList [c] := by
      apply String.toList_injective
      simp
    simp only [push, within, pushAll, hn, hquote, htext]
  have htwo (x : Char) (r : List Char) : (s.within [c] [] none r).push x = s.within [c, x] [] none r :=
    push_within
  simp only [openSubstitution, hone, rest_within]
  split
  · exact ⟨[c], [.backquote], cs, List.cons_ne_nil _ _, rfl, rfl⟩
  split
  · next r => exact ⟨[c, '('], [.paren], r, List.cons_ne_nil _ _, rfl, by rw [htwo]; rfl⟩
  · next r => exact ⟨[c, '{'], [.brace], r, List.cons_ne_nil _ _, rfl, by rw [htwo]; rfl⟩
  · exact ⟨[c], [], cs, List.cons_ne_nil _ _, rfl, rfl⟩

theorem meetEnd_within (hj : s.joinsNext = false) :
    (s.within taken (k :: outer) quote []).meetEnd =
      .waiting ⟨s.within taken (k :: outer) quote [], .required ("matching \x60" ++ k.char.toString ++ "'")⟩ := by
  have hjoins : (s.within taken (k :: outer) quote []).joinsNext = false := hj
  simp only [meetEnd, hjoins, endBuffer, nesting_within]
  rfl

end State

/-- What holds on the course of a substitution: everything read since is in the word, and the rest of the parser is
as it was; a line is asked for where everything has been read. -/
def Turn.Copies (s : State) (grown : List Char) : Turn → Prop
  | reading u => ∃ taken nesting quote rest, taken ≠ [] ∧ taken ++ rest = s.rest ++ grown ∧
      (nesting = [] → quote = none) ∧ u = s.within taken nesting quote rest
  | stopped (.waiting w) => ∃ k outer quote,
      w = ⟨s.within (s.rest ++ grown) (k :: outer) quote [], .required ("matching \x60" ++ k.char.toString ++ "'")⟩
  | stopped (.finished r) => ∃ f, r = .error (.failure f)

theorem Waiting.copies_take {w : Waiting} (h : Turn.Copies s grown (.stopped (.waiting w))) (hr : s.rest ≠ [])
    (a : Answer) : Turn.Copies s (grown ++ w.growth a) (w.take a) := by
  obtain ⟨k, outer, quote, rfl⟩ := h
  cases a with
  | line text =>
    refine ⟨s.rest ++ grown, k :: outer, quote, '\n' :: text.toList, ?_, ?_, nofun, rfl⟩
    · exact List.append_ne_nil_of_left_ne_nil hr grown
    · rw [List.append_assoc]
      rfl
  | endOfInput => exact ⟨_, rfl⟩
  | failed f => exact ⟨f, rfl⟩

theorem Copying.copies (hs : s.MeetsSubstitution) {τ : Turn} (h : Copying homes s grown τ) :
    τ.Copies s grown := by
  obtain ⟨⟨x, xs, hr, hx⟩, hn, hquote, hj, hq⟩ := hs
  -- what has been taken and what is left are what there was, with the lines that have come since
  induction h with
  | @opening c cs t hcs ht =>
    obtain ⟨rfl, rfl⟩ := List.cons.inj (hr.symm.trans hcs)
    have hopens : State.step homes x { s with rest := xs } =
        .ok (State.openSubstitution { s with rest := xs } x) := State.step_opening homes hn hq hx
    obtain ⟨taken, nesting, rest, hne, htaken, heq⟩ := State.exists_openSubstitution hn hquote x xs
    rw [hopens, heq] at ht
    cases ht
    exact ⟨taken, nesting, none, rest, hne, by rw [htaken, hr, List.append_nil], fun _ ↦ rfl, rfl⟩
  | @step grown cs c u t _ hinside hcs ht ih =>
    obtain ⟨taken, nesting, quote, rest, hne, htaken, -, rfl⟩ := ih
    obtain ⟨k, outer, rfl⟩ := List.exists_cons_of_ne_nil hinside
    obtain rfl : rest = c :: cs := hcs
    obtain ⟨more, nesting', quote', rest', hmore, houtside, heq⟩ :=
      State.exists_nested_within s taken k outer quote c cs
    have hstep : t = s.within (taken ++ more) nesting' quote' rest' :=
      (Except.ok.inj ht).symm.trans heq
    refine ⟨taken ++ more, nesting', quote', rest', List.append_ne_nil_of_left_ne_nil hne more, ?_, houtside, hstep⟩
    rw [List.append_assoc, hmore, htaken]
  | @fault grown cs c u f _ hinside hcs hf ih =>
    obtain ⟨k, outer, hnesting⟩ := List.exists_cons_of_ne_nil hinside
    simp [State.step, hnesting] at hf
  | @bufferEnd grown u _ hinside hend ih =>
    obtain ⟨taken, nesting, quote, rest, -, htaken, -, rfl⟩ := ih
    obtain ⟨k, outer, rfl⟩ := List.exists_cons_of_ne_nil hinside
    obtain rfl : rest = [] := hend
    rw [List.append_nil] at htaken
    rw [State.meetEnd_within hj]
    exact ⟨k, outer, quote, by rw [htaken]⟩
  | answer a _ ih => exact Waiting.copies_take ih (hr ▸ List.cons_ne_nil x xs) a

theorem Copying.reaches (hs : Reaches homes line buffer (.reading s)) {τ : Turn} (h : Copying homes s grown τ) :
    Reaches homes line (buffer ++ grown) τ := by
  induction h with
  | opening hr ht =>
    rw [List.append_nil]
    exact hs.step hr ht
  | step _ _ hr ht ih => exact ih.step hr ht
  | fault _ _ hr hf ih => exact ih.fault hr hf
  | bufferEnd _ _ hr ih => exact ih.bufferEnd hr
  | answer a _ ih =>
    rw [← List.append_assoc]
    exact ih.answer a

namespace State

theorem nesting_escape (s : State) : s.escape.nesting = s.nesting := by
  unfold escape
  split <;> rfl

theorem nesting_ordinary (h : s.ordinary homes c = .ok t) : t.nesting = s.nesting := by
  simp only [ordinary, skip] at h
  repeat' split at h
  all_goals cases h
  all_goals rfl

theorem doubleQuoted_cases (s : State) (c : Char) :
    (c = '$' ∨ c = '\x60') ∨ (s.doubleQuoted c).nesting = s.nesting := by
  unfold doubleQuoted
  repeat' split
  all_goals first
    | exact .inl (.inl rfl)
    | exact .inl (.inr rfl)
    | exact .inr rfl

theorem opens_of_inside (hn : s.nesting = []) (h : s.step homes c = .ok t) (ht : t.nesting ≠ []) :
    s.quoting ≠ .single ∧ (c = '$' ∨ c = '\x60') := by
  have hsame : t.nesting ≠ s.nesting := fun heq ↦ ht (heq.trans hn)
  by_cases hends : s.EndsWord c
  · exact absurd (ended_step hends h).nesting hsame
  unfold step at h
  split at h
  · next k outer hinside => exact absurd (hinside.symm.trans hn) (List.cons_ne_nil k outer)
  split at h
  · cases h
    exact absurd (by split <;> rfl) hsame
  · next hq =>
    cases h
    refine ⟨by simp [hq], (doubleQuoted_cases s c).resolve_right hsame⟩
  · next hq =>
    refine ⟨by simp [hq], ?_⟩
    rw [unquoted_of_not_ends fun hc ↦ hends ⟨hn, hq, hc⟩] at h
    split at h
    · cases h
      exact absurd rfl hsame
    split at h
    · cases h
      exact absurd rfl hsame
    split at h
    · cases h
      exact absurd (nesting_escape s) hsame
    split at h
    · assumption
    · exact absurd (nesting_ordinary h) hsame

theorem nesting_readDocuments {w : Waiting} {rs : List Request} (h : s.readDocuments rs = .waiting w) :
    w.state.nesting = s.nesting := by
  cases rs with
  | nil =>
    rw [readDocuments] at h
    obtain heq | heq | heq := s.endLine_cases <;> rw [heq] at h <;> cases h
    rfl
  | cons r later =>
    cases h
    rfl

theorem nesting_endBuffer {w : Waiting} (h : s.endBuffer = .waiting w) : w.state.nesting = s.nesting := by
  obtain ⟨expected, heq⟩ | ⟨f, heq⟩ | ⟨t, -, -, ht, -, heq⟩ := s.endBuffer_cases <;> rw [heq] at h
  · cases h
    rfl
  · cases h
  · exact (nesting_readDocuments h).trans (ended_finishWord ht).nesting

theorem nesting_meetEnd {w : Waiting} (h : s.meetEnd = .waiting w) : w.state.nesting = s.nesting := by
  unfold meetEnd at h
  split at h
  · cases h
    rfl
  · exact nesting_endBuffer h

theorem nesting_fill {r : Request} {body : String} (h : s.fill r body = .ok t) : t.nesting = s.nesting := by
  simp only [fill] at h
  repeat' split at h
  all_goals cases h
  all_goals rfl

end State

theorem Waiting.inside_of_take {w : Waiting} {a : Answer} (h : (w.take a).IsInside) : w.state.nesting ≠ [] := by
  obtain ⟨s, reason⟩ := w
  have hdocument {r : Request} {body : String} {later : List Request}
      (h : Turn.IsInside (.stopped (endDocument ⟨s, .document r body later⟩ r body later))) : s.nesting ≠ [] := by
    cases hend : endDocument ⟨s, .document r body later⟩ r body later with
    | finished r => exact False.elim (by rwa [hend] at h)
    | waiting v =>
      rw [hend] at h
      unfold endDocument at hend
      split at hend
      · cases hend
      · next t ht =>
        rw [← State.nesting_fill ht, ← State.nesting_readDocuments hend]
        exact h
  cases a with
  | failed f => exact h.elim
  | endOfInput =>
    cases reason with
    | joinedLine =>
      cases hend : s.endBuffer with
      | finished r => simp [take, hend, Turn.IsInside] at h
      | waiting v =>
        have hv : v.state.nesting ≠ [] := by simpa [take, hend, Turn.IsInside] using h
        rwa [State.nesting_endBuffer hend] at hv
    | required expected => exact h.elim
    | document r body later => exact hdocument h
  | line text =>
    cases reason with
    | joinedLine => exact h
    | required expected => exact h
    | document r body later =>
      simp only [take] at h
      split at h
      · exact hdocument h
      · exact h

/-- Wherever a parse is inside a substitution, it has come there from the character that opens it. -/
theorem Reaches.exists_copying {τ : Turn} (h : Reaches homes line buffer τ) (hinside : τ.IsInside) :
    ∃ before s grown, Reaches homes line before (.reading s) ∧ s.MeetsSubstitution ∧ buffer = before ++ grown ∧
      Copying homes s grown τ := by
  induction h with
  | start => exact absurd rfl hinside
  | @step buffer cs c s t hs hr ht ih =>
    by_cases hn : s.nesting = []
    · obtain ⟨hq, hc⟩ := State.opens_of_inside (s := { s with rest := cs }) hn ht hinside
      have hmeets : s.MeetsSubstitution :=
        ⟨⟨c, cs, hr, hc⟩, hn, hs.coherent.nestedQuote hn, hs.coherent.joinsNext_eq_false hr, hq⟩
      exact ⟨buffer, s, [], hs, hmeets, (List.append_nil buffer).symm, .opening hr ht⟩
    · obtain ⟨before, s', grown, hs', hmeets, hbuffer, hcopying⟩ := ih hn
      exact ⟨before, s', grown, hs', hmeets, hbuffer, hcopying.step hn hr ht⟩
  | fault => exact hinside.elim
  | @bufferEnd buffer s hs hr ih =>
    have hn : s.nesting ≠ [] := by
      cases hend : s.meetEnd with
      | finished r => exact False.elim (by rwa [hend] at hinside)
      | waiting w =>
        rw [hend] at hinside
        rw [← State.nesting_meetEnd hend]
        exact hinside
    obtain ⟨before, s', grown, hs', hmeets, hbuffer, hcopying⟩ := ih hn
    exact ⟨before, s', grown, hs', hmeets, hbuffer, hcopying.bufferEnd hn hr⟩
  | @answer buffer w a _ ih =>
    obtain ⟨before, s', grown, hs', hmeets, hbuffer, hcopying⟩ := ih (Waiting.inside_of_take hinside)
    exact ⟨before, s', grown ++ w.growth a, hs', hmeets, by rw [hbuffer, List.append_assoc], hcopying.answer a⟩

/-- Substitutions are copied. Wherever a parser meets a dollar sign or a backquote that may open one, well nested or
not, and whatever lines are added to its buffer on the way: once it is outside again, it has put into its word what
it has read since, as it stands, and is as it was but for that. It asks for a line only where it has read all of its
buffer and a substitution is still to be closed, by the character that it says is missing; and only a failure of
what it asks, or the end of the input there, keeps it from coming outside again. What a parse comes to inside
substitutions is what such courses come to. -/
theorem substitutions_are_copied (homes : HomeDirs) :
    (∀ s : State, s.MeetsSubstitution → ∀ grown : List Char,
      (∀ t, Copying homes s grown (.reading t) → t.nesting = [] →
        ∃ copied, copied ≠ [] ∧ copied ++ t.rest = s.rest ++ grown ∧
          t = { s.pushAll copied with rest := t.rest }) ∧
      (∀ w, Copying homes s grown (.stopped (.waiting w)) →
        w.state.rest = [] ∧ w.state.word = (s.pushAll (s.rest ++ grown)).word ∧
          ∃ k outer, w.state.nesting = k :: outer ∧
            w.reason = .required ("matching \x60" ++ k.char.toString ++ "'")) ∧
      ∀ r, Copying homes s grown (.stopped (.finished r)) → ∃ f, r = .error (.failure f)) ∧
    ∀ line buffer τ, τ.IsInside →
      (Reaches homes line buffer τ ↔
        ∃ before s grown, Reaches homes line before (.reading s) ∧ s.MeetsSubstitution ∧ buffer = before ++ grown ∧
          Copying homes s grown τ) := by
  refine ⟨fun s hs grown ↦ ⟨fun t h hn ↦ ?_, fun w h ↦ ?_, fun r h ↦ h.copies hs⟩,
    fun line buffer τ hinside ↦ ⟨fun h ↦ h.exists_copying hinside, ?_⟩⟩
  · obtain ⟨copied, nesting, quote, rest, hne, hcopied, hquote, rfl⟩ := h.copies hs
    obtain rfl : nesting = [] := hn
    obtain rfl := hquote rfl
    refine ⟨copied, hne, hcopied, ?_⟩
    rw [State.rest_within, State.within_outside hs.nesting hs.nestedQuote]
  · obtain ⟨k, outer, quote, rfl⟩ := h.copies hs
    exact ⟨rfl, rfl, k, outer, rfl, rfl⟩
  · rintro ⟨before, s, grown, hs, -, rfl, hcopying⟩
    exact hcopying.reaches hs

theorem substitutions_are_copied_over_lines :
    let homes : HomeDirs := ⟨none, fun _ ↦ none⟩
    let s : State := { rest := "$(a".toList, quoting := .double, word := some ⟨"x", true⟩, words := ["echo"] }
    let grown := "\nb)c\"".toList
    let t : State := { s with rest := "c\"".toList, word := some ⟨"x$(a\nb)", true⟩ }
    s.MeetsSubstitution ∧ Copying homes s grown (.reading t) ∧
      ∃ copied, copied ≠ [] ∧ copied ++ t.rest = s.rest ++ grown ∧ t = { s.pushAll copied with rest := t.rest } := by
  intro homes s grown t
  have hs : s.MeetsSubstitution := ⟨⟨'$', ['(', 'a'], rfl, .inl rfl⟩, rfl, rfl, rfl, by decide⟩
  have hopened : Copying homes s [] (.reading (s.within "$(".toList [.paren] none ['a'])) := .opening rfl rfl
  have hended : Copying homes s [] (.reading (s.within "$(a".toList [.paren] none [])) :=
    hopened.step (List.cons_ne_nil _ _) rfl rfl
  have hgrown : Copying homes s grown (.reading (s.within "$(a".toList [.paren] none grown)) :=
    (hended.bufferEnd (List.cons_ne_nil _ _) rfl).answer (.line "b)c\"")
  have hcopying : Copying homes s grown (.reading t) :=
    ((hgrown.step (List.cons_ne_nil _ _) rfl rfl).step (List.cons_ne_nil _ _) rfl rfl).step
      (List.cons_ne_nil _ _) rfl rfl
  exact ⟨hs, hcopying, ((substitutions_are_copied homes).1 s hs grown).1 t hcopying rfl⟩

end JobShell.Parser

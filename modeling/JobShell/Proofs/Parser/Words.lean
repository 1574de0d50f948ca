import JobShell.Proofs.Parser.Coherence

namespace JobShell.Parser

structure Word.Grows (w w' : Word) : Prop where
  text : w.text.toList <+: w'.text.toList
  quoted : w.quoted → w'.quoted

namespace Word.Grows

variable {w w' w'' : Word}

theorem refl (w : Word) : w.Grows w := ⟨List.prefix_rfl, id⟩

theorem trans (h : w.Grows w') (h' : w'.Grows w'') : w.Grows w'' :=
  ⟨h.text.trans h'.text, fun hq ↦ h'.quoted (h.quoted hq)⟩

end Word.Grows

namespace State

variable {homes : HomeDirs} {s t u : State} {c : Char} {cs : List Char}

def pushAll (s : State) (text : List Char) : State :=
  let w := s.word.getD {}
  { s with word := some { w with text := w.text ++ String.ofList text } }

theorem pushAll_nil {rest : List Char} (hw : s.word.isSome) (hr : s.rest = [] ++ rest) :
    { s.pushAll [] with rest := rest } = s := by
  obtain ⟨w, hword⟩ := Option.isSome_iff_exists.1 hw
  cases s
  simp_all [pushAll]

theorem pushAll_push (s : State) (c : Char) (text : List Char) :
    (s.push c).pushAll text = s.pushAll (c :: text) := by
  simp [push, pushAll, push_append_ofList]

theorem step_plain (hn : s.nesting = []) (hq : s.quoting = .none) (hw : s.word.isSome) (hc : isPlain c) :
    s.step homes c = .ok (s.push c) := by
  simp only [step, hn, hq]
  rw [unquoted_plain hc, ordinary, if_pos hw]

theorem step_tilde (hn : s.nesting = []) (hq : s.quoting = .none) (hw : s.word = none) :
    s.step homes '~' =
      match Tilde.expand? homes s.rest with
      | some (home, n) => skip { s with word := some { text := home } } n
      | none => .ok (s.push '~') := by
  have hordinary : s.step homes '~' = s.ordinary homes '~' := by
    simp only [step, hn, hq]
    exact unquoted_plain (by decide) s
  have hword : ¬ s.word.isSome := by
    simp [hw]
  rw [hordinary]
  exact (if_neg hword).trans ((if_neg (by decide)).trans (if_pos rfl))

theorem reads_plain {text rest : List Char} (hn : s.nesting = []) (hq : s.quoting = .none) (hw : s.word.isSome)
    (ht : ∀ c ∈ text, isPlain c) (hr : s.rest = text ++ rest) :
    s.Reads homes { s.pushAll text with rest := rest } := by
  induction text generalizing s with
  | nil =>
    rw [pushAll_nil hw hr]
    exact .refl s
  | cons c text ih =>
    obtain ⟨hc, htext⟩ := List.forall_mem_cons.1 ht
    have hstep : State.step homes c { s with rest := text ++ rest } = .ok (push { s with rest := text ++ rest } c) :=
      step_plain hn hq hw hc
    have htail := ih (s := push { s with rest := text ++ rest } c) hn hq rfl htext rfl
    rw [pushAll_push] at htail
    exact .head ⟨c, _, hr, hstep⟩ htail

theorem isPlain_of_isNameChar (hc : Tilde.isNameChar c) : isPlain c := by
  have hne (x : Char) (hx : Tilde.isNameChar x = false) : (c == x) = false := by
    rw [beq_eq_false_iff_ne]
    rintro rfl
    rw [hc] at hx
    cases hx
  simp (disch := decide) [isPlain, isBlank, isOperator, bne, hne]

def Lengthens (s t : State) : Prop := ∀ w ∈ s.word, ∃ w' ∈ t.word, w.Grows w'

theorem Lengthens.refl (s : State) : Lengthens s s := fun w hw ↦ ⟨w, hw, .refl w⟩

theorem Lengthens.trans (h : Lengthens s t) (h' : Lengthens t u) : Lengthens s u := by
  intro w hw
  obtain ⟨w', hw', hgrows⟩ := h w hw
  obtain ⟨w'', hw'', hgrows'⟩ := h' w' hw'
  exact ⟨w'', hw'', hgrows.trans hgrows'⟩

theorem lengthens_push (s : State) (c : Char) : Lengthens s (s.push c) := by
  intro w hw
  refine ⟨{ w with text := w.text.push c }, ?_, ?_, id⟩
  · have hword : s.word = some w := hw
    simp [push, hword]
  · simp

theorem lengthens_beginQuoted (s : State) : Lengthens s s.beginQuoted := by
  intro w hw
  have hword : s.word = some w := hw
  exact ⟨{ w with quoted := true }, by simp [beginQuoted, hword], List.prefix_rfl, fun _ ↦ rfl⟩

theorem lengthens_push_openSubstitution (s : State) (c : Char) : Lengthens (s.push c) (s.openSubstitution c) := by
  simp only [openSubstitution]
  split
  · exact .refl _
  · split
    · exact lengthens_push _ _
    · exact lengthens_push _ _
    · exact .refl _

theorem lengthens_openSubstitution (s : State) (c : Char) : Lengthens s (s.openSubstitution c) :=
  (lengthens_push s c).trans (lengthens_push_openSubstitution s c)

theorem lengthens_escape (s : State) : Lengthens s s.escape := by
  unfold escape
  split
  · exact .refl s
  · exact .refl s
  · rename_i next r _ _
    have hquoted : Lengthens s (beginQuoted { s with rest := r }) := lengthens_beginQuoted { s with rest := r }
    exact hquoted.trans (lengthens_push _ _)

theorem lengthens_nested (s : State) (expected : Closer) (outer : List Closer) (c : Char) :
    Lengthens s (s.nested expected outer c) := by
  have hpush := lengthens_push s c
  simp only [nested]
  repeat' split
  all_goals first
    | exact hpush
    | exact hpush.trans (lengthens_push _ _)

theorem lengthens_doubleQuoted (s : State) (c : Char) : Lengthens s (s.doubleQuoted c) := by
  unfold doubleQuoted
  split
  · exact .refl s
  · split
    · exact .refl s
    · exact .refl s
    · split
      · exact lengthens_push { s with rest := _ } _
      · exact lengthens_push s _
  · exact lengthens_openSubstitution s _
  · exact lengthens_openSubstitution s _
  · exact lengthens_push s c

theorem lengthens_ordinary (h : s.ordinary homes c = .ok t) : Lengthens s t := by
  unfold ordinary at h
  split at h
  · cases h
    exact lengthens_push s c
  · rename_i hw
    intro w hword
    have hsome : s.word = some w := hword
    simp [hsome] at hw

theorem lengthens_step (hends : ¬ s.EndsWord c) (h : s.step homes c = .ok t) : Lengthens s t := by
  unfold step at h
  split at h
  · cases h
    exact lengthens_nested s _ _ c
  rename_i hn
  split at h
  · cases h
    split
    · exact .refl s
    · exact lengthens_push s c
  · cases h
    exact lengthens_doubleQuoted s c
  · rename_i hq
    rw [unquoted_of_not_ends fun hc ↦ hends ⟨hn, hq, hc⟩] at h
    split at h
    · cases h
      exact lengthens_beginQuoted s
    split at h
    · cases h
      exact lengthens_beginQuoted s
    split at h
    · cases h
      exact lengthens_escape s
    split at h
    · cases h
      exact lengthens_openSubstitution s c
    · exact lengthens_ordinary h

end State

def Turn.Idle : Turn → Prop
  | reading s => s.word = none
  | stopped (.waiting w) => w.state.word = none
  | stopped (.finished _) => True

namespace State

variable {homes : HomeDirs} {s t u : State} {c : Char} {cs typed : List Char} {w : Waiting} {text : String}

def Open (s : State) : Prop := s.nesting ≠ [] ∨ s.quoting ≠ .none

theorem idle_readDocuments (hw : s.word = none) (rs : List Request) : Turn.Idle (.stopped (s.readDocuments rs)) := by
  cases rs with
  | nil =>
    rw [readDocuments]
    obtain h | h | h := s.endLine_cases <;> rw [h]
    · exact hw
    · exact trivial
    · exact trivial
  | cons r later => exact hw

theorem endBuffer_open_or_idle (s : State) :
    (s.Open ∧ ∃ expected, s.endBuffer = .waiting ⟨s, .required expected⟩) ∨
      Turn.Idle (.stopped s.endBuffer) := by
  unfold endBuffer
  split
  · rename_i hn
    exact .inl ⟨.inl (by simp [hn]), _, rfl⟩
  split
  · rename_i hq
    exact .inl ⟨.inr (by simp [hq]), _, rfl⟩
  · rename_i hq
    exact .inl ⟨.inr (by simp [hq]), _, rfl⟩
  right
  split
  · exact trivial
  rename_i t ht
  split
  · exact trivial
  · exact idle_readDocuments (s := { t with requests := [] }) (ended_finishWord ht).word _

theorem idle_endBuffer (hs : s.Coherent) (hw : s.word = none) : Turn.Idle (.stopped s.endBuffer) := by
  obtain ⟨hopen, -⟩ | hidle := s.endBuffer_open_or_idle
  · obtain ⟨hn, hq⟩ := hs.idle hw
    rcases hopen with h | h
    · exact absurd hn h
    · exact absurd hq h
  · exact hidle

/-- At the end of its buffer the parser waits for a line, perhaps after it has found none to join. -/
inductive Asks (s : State) (w : Waiting) : Prop
  | first : s.meetEnd = .waiting w → Asks s w
  | again : s.joinsNext → endBuffer { s with joinsNext := false } = .waiting w → Asks s w

theorem Asks.cases (h : s.Asks w) :
    (s.joinsNext ∧ w = ⟨{ s with joinsNext := false }, .joinedLine⟩) ∨
      (s.Open ∧ ∃ expected, w = ⟨{ s with joinsNext := false }, .required expected⟩) ∨
        w.state.word = none := by
  have hended (hend : endBuffer { s with joinsNext := false } = .waiting w) :
      (s.Open ∧ ∃ expected, w = ⟨{ s with joinsNext := false }, .required expected⟩) ∨
        w.state.word = none := by
    obtain ⟨hopen, expected, hwait⟩ | hidle := endBuffer_open_or_idle { s with joinsNext := false }
    · rw [hwait] at hend
      cases hend
      exact .inl ⟨hopen, expected, rfl⟩
    · rw [hend] at hidle
      exact .inr hidle
  cases h with
  | first h =>
    unfold meetEnd at h
    split at h
    · rename_i hj
      cases h
      exact .inl ⟨hj, rfl⟩
    · rename_i hj
      have hsame : { s with joinsNext := false } = s := by
        cases s
        simp_all
      rw [← hsame] at h
      exact .inr (hended h)
  | again _ h => exact .inr (hended h)

end State

/-- The newline that vanishes with the backslash where a line is joined. -/
def Waiting.joint (w : Waiting) : List Char :=
  match w.reason with
  | .joinedLine => ['\n']
  | _ => []

theorem Waiting.idle_take {w : Waiting} (hs : w.state.Coherent) (hw : w.state.word = none) (a : Answer) :
    (w.take a).Idle := by
  obtain ⟨s, reason⟩ := w
  have hdocument (r : Request) (body : String) (later : List Request) :
      Turn.Idle (.stopped (endDocument ⟨s, .document r body later⟩ r body later)) := by
    unfold endDocument
    split
    · exact trivial
    · rename_i t ht
      have hword : t.word = none := by
        simp only [State.fill] at ht
        repeat' split at ht
        all_goals cases ht
        all_goals exact hw
      exact State.idle_readDocuments hword later
  cases a with
  | failed f => exact trivial
  | endOfInput =>
    cases reason with
    | joinedLine => exact State.idle_endBuffer hs hw
    | required expected => exact trivial
    | document r body later => exact hdocument r body later
  | line text =>
    cases reason with
    | joinedLine => exact hw
    | required expected => exact hw
    | document r body later =>
      simp only [take]
      split
      · exact hdocument r body later
      · exact hw

namespace State

/-- The parser comes from one state to another with text that is all of one word, in its buffer and in the lines
that it is given at the end of that. -/
inductive Typed (homes : HomeDirs) : State → List Char → State → Prop
  | nil (t : State) : Typed homes t [] t
  | chars {s u t : State} {c : Char} (taken : List Char) {typed : List Char} :
      s.rest = c :: (taken ++ u.rest) → State.step homes c { s with rest := taken ++ u.rest } = .ok u →
      u.word.isSome → Typed homes u typed t → Typed homes s (c :: taken ++ typed) t
  | line {s u t : State} {w : Waiting} {text : String} {typed : List Char} :
      s.rest = [] → s.Asks w → w.take (.line text) = .reading u → u.word.isSome → Typed homes u typed t →
      Typed homes s (w.joint ++ typed) t

variable {homes : HomeDirs} {s t u : State} {c : Char} {cs typed : List Char} {w : Waiting} {text : String}

theorem Typed.trans {more : List Char} (h : Typed homes s typed t) (h' : Typed homes t more u) :
    Typed homes s (typed ++ more) u := by
  induction h with
  | nil => exact h'
  | chars taken hr ht hu _ ih =>
    rw [List.append_assoc]
    exact .chars taken hr ht hu (ih h')
  | line hr hasks htake hu _ ih =>
    rw [List.append_assoc]
    exact .line hr hasks htake hu (ih h')

theorem reading_of_asks (h : s.Asks w) (ht : w.take (.line text) = .reading u) (hu : u.word.isSome) :
    (s.joinsNext ∧ w.joint = ['\n'] ∧ u = { s with joinsNext := false, rest := text.toList }) ∨
      (s.Open ∧ w.joint = [] ∧ u = { s with joinsNext := false, rest := '\n' :: text.toList }) := by
  obtain ⟨hj, rfl⟩ | ⟨hopen, expected, rfl⟩ | hnone := h.cases
  · cases ht
    exact .inl ⟨hj, rfl, rfl⟩
  · cases ht
    exact .inr ⟨hopen, rfl, rfl⟩
  · have hword : u.word = w.state.word := by
      obtain ⟨v, reason⟩ := w
      cases reason <;> cases ht <;> rfl
    rw [hword, hnone] at hu
    cases hu

theorem not_ends_of_isSome (hu : u.word.isSome) (h : s.step homes c = .ok u) : ¬ s.EndsWord c := by
  intro hends
  rw [(ended_step hends h).word] at hu
  cases hu

theorem coherent_of_asks (hs : s.Coherent) (h : s.Asks w) (ht : w.take (.line text) = .reading u)
    (hu : u.word.isSome) : u.Coherent := by
  obtain ⟨-, -, rfl⟩ | ⟨-, -, rfl⟩ := reading_of_asks h ht hu
  · exact ⟨hs.nestedQuote, hs.idle, fun hjoins ↦ nomatch hjoins⟩
  · exact ⟨hs.nestedQuote, hs.idle, fun hjoins ↦ nomatch hjoins⟩

theorem lengthens_of_asks (h : s.Asks w) (ht : w.take (.line text) = .reading u) (hu : u.word.isSome) :
    Lengthens s u := by
  obtain ⟨-, -, rfl⟩ | ⟨-, -, rfl⟩ := reading_of_asks h ht hu
  · exact .refl s
  · exact .refl s

theorem Typed.coherent (h : Typed homes s typed t) (hs : s.Coherent) : t.Coherent := by
  induction h with
  | nil => exact hs
  | chars _ hr ht _ _ ih =>
    have hj := hs.joinsNext_eq_false hr
    exact ih ((hs.withRest hj _).step (by exact hj) ht)
  | line _ hasks htake hu _ ih => exact ih (coherent_of_asks hs hasks htake hu)

theorem Typed.lengthens (h : Typed homes s typed t) : Lengthens s t := by
  induction h with
  | nil => exact .refl _
  | @chars s u t c taken typed _ ht hu _ ih =>
    have hstep : Lengthens { s with rest := taken ++ u.rest } u := lengthens_step (not_ends_of_isSome hu ht) ht
    exact hstep.trans ih
  | line _ hasks htake hu _ ih => exact (lengthens_of_asks hasks htake hu).trans ih

theorem Typed.prefix_text {w w' : Word} (h : Typed homes s typed t) (hs : s.word = some w) (ht : t.word = some w') :
    w.text.toList <+: w'.text.toList := by
  obtain ⟨v, hv, hgrows⟩ := h.lengthens w hs
  obtain rfl := Option.some.inj (ht.symm.trans hv)
  exact hgrows.text

theorem Typed.cases_chars (h : Typed homes s typed t) (hr : s.rest = c :: cs) :
    (typed = [] ∧ t = s) ∨
      ∃ u taken tail, State.step homes c { s with rest := cs } = .ok u ∧ u.word.isSome ∧
        cs = taken ++ u.rest ∧ typed = c :: taken ++ tail ∧ Typed homes u tail t := by
  cases h with
  | nil => exact .inl ⟨rfl, rfl⟩
  | chars _ hrest ht hu htail =>
    obtain ⟨rfl, rfl⟩ := List.cons.inj (hr.symm.trans hrest)
    exact .inr ⟨_, _, _, ht, hu, rfl, rfl, htail⟩
  | line hrest =>
    rw [hr] at hrest
    cases hrest

theorem Typed.exists_cons (h : Typed homes s typed t) (hs : s.word = none) (ht : t.word.isSome) :
    ∃ c cs, s.rest = c :: cs := by
  cases h with
  | nil =>
    rw [hs] at ht
    cases ht
  | chars _ hr => exact ⟨_, _, hr⟩
  | line _ hasks htake hu =>
    obtain ⟨-, -, rfl⟩ | ⟨-, -, rfl⟩ := reading_of_asks hasks htake hu
    · rw [hs] at hu
      cases hu
    · rw [hs] at hu
      cases hu

end State

variable {homes : HomeDirs} {line : String} {buffer : List Char}

/-- The word that the parser is in has been typed from where it had none. -/
def Begun (homes : HomeDirs) (line : String) (t : State) : Prop :=
  ∃ front s typed, Reaches homes line front (.reading s) ∧ s.word = none ∧ s.Typed homes typed t

def Turn.Begun (homes : HomeDirs) (line : String) : Turn → Prop
  | reading t => Parser.Begun homes line t
  | stopped (.waiting w) => ∃ t, Parser.Begun homes line t ∧ t.rest = [] ∧ t.Asks w
  | stopped (.finished _) => True

theorem Turn.Begun.answer {w : Waiting} (h : Turn.Begun homes line (.stopped (.waiting w)))
    (hs : Turn.Coherent (.stopped (.waiting w))) (a : Answer) :
    (w.take a).Idle ∨ (w.take a).Begun homes line := by
  obtain ⟨t, ⟨front, s, typed, hreach, hword, htyped⟩, hr, hasks⟩ := h
  have hline {text : String} {u : State} (ht : w.take (.line text) = .reading u) :
      u.word = none ∨ Parser.Begun homes line u := by
    by_cases hu : u.word.isSome
    · exact .inr ⟨front, s, _, hreach, hword, htyped.trans (.line hr hasks ht hu (.nil u))⟩
    · exact .inl (Option.not_isSome_iff_eq_none.1 hu)
  obtain ⟨hj, rfl⟩ | ⟨-, expected, rfl⟩ | hnone := hasks.cases
  · cases a with
    | failed f => exact .inl trivial
    | line text => exact hline rfl
    | endOfInput =>
      have htake : Waiting.take ⟨{ t with joinsNext := false }, .joinedLine⟩ .endOfInput =
          .stopped (State.endBuffer { t with joinsNext := false }) := rfl
      rw [htake]
      cases hend : State.endBuffer { t with joinsNext := false } with
      | finished r => exact .inl trivial
      | waiting v => exact .inr ⟨t, ⟨front, s, typed, hreach, hword, htyped⟩, hr, .again hj hend⟩
  · cases a with
    | failed f => exact .inl trivial
    | line text => exact hline rfl
    | endOfInput => exact .inl trivial
  · exact .inl (Waiting.idle_take hs.1 hnone a)

/-- Wherever a parse has a word, it has come there from the beginning of that word. -/
theorem Reaches.exists_typed {t : State} (h : Reaches homes line buffer (.reading t)) (ht : t.word.isSome) :
    Begun homes line t := by
  have hturn : ∀ {turn buffer}, Reaches homes line buffer turn → turn.Idle ∨ turn.Begun homes line := by
    intro turn buffer h
    -- along the course: between words, or inside one that has been typed from its beginning
    induction h with
    | start => exact .inl rfl
    | @step buffer cs c s t h hr hstep ih =>
      by_cases ht : t.word.isSome
      · obtain ⟨taken, rfl⟩ : t.rest <:+ cs := State.suffix_step hstep
        have htyped : s.Typed homes (c :: taken ++ []) t := .chars taken hr hstep ht (.nil t)
        obtain hidle | ⟨front, s₀, typed, hreach, hword, hbefore⟩ := ih
        · exact .inr ⟨buffer, s, _, h, hidle, htyped⟩
        · exact .inr ⟨front, s₀, _, hreach, hword, hbefore.trans htyped⟩
      · exact .inl (Option.not_isSome_iff_eq_none.1 ht)
    | fault => exact .inl trivial
    | @bufferEnd buffer s h hr ih =>
      cases hend : s.meetEnd with
      | finished r => exact .inl trivial
      | waiting w =>
        have hasks : s.Asks w := .first hend
        obtain hidle | hbegun := ih
        · obtain ⟨-, rfl⟩ | ⟨-, expected, rfl⟩ | hnone := hasks.cases
          · exact .inl hidle
          · exact .inl hidle
          · exact .inl hnone
        · exact .inr ⟨s, hbegun, hr, hasks⟩
    | @answer buffer w a h ih =>
      obtain hidle | hbegun := ih
      · exact .inl (Waiting.idle_take h.coherent.1 hidle a)
      · exact hbegun.answer h.coherent a
  obtain hidle | hbegun := hturn h
  · have hnone : t.word = none := hidle
    rw [hnone] at ht
    cases ht
  · exact hbegun

end JobShell.Parser

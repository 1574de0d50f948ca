import JobShell.Proofs.Parser.Documents
import JobShell.Proofs.Parser.Words

namespace JobShell.Parser

def unjoined : List Char → List Char
  | '\\' :: '\n' :: cs => unjoined cs
  | c :: cs => c :: unjoined cs
  | [] => []

theorem unjoined_cons {c : Char} (hc : c ≠ '\\') (cs : List Char) : unjoined (c :: cs) = c :: unjoined cs := by
  rw [unjoined]
  rintro cs rfl
  exact absurd rfl hc

theorem unjoined_escaped {x : Char} (hx : x ≠ '\n') (cs : List Char) :
    unjoined ('\\' :: x :: cs) = '\\' :: unjoined (x :: cs) := by
  rw [unjoined]
  rintro cs' - h
  exact absurd (List.cons.inj h).1 hx

namespace State

variable {homes : HomeDirs} {s t u : State} {w : Word} {c : Char} {cs taken typed : List Char}

/-- Digits are all that has been typed of the word, on lines that are joined; the last of them may still be waiting
for the line that is joined to it. -/
structure Counting (s : State) (typed : List Char) : Prop where
  nesting : s.nesting = []
  quoting : s.quoting = .none
  digits : (s.word.getD {}).text.toList.all Decimal.isDigit
  unquoted : (s.word.getD {}).quoted = false
  spelling : ∀ more, unjoined (typed ++ (if s.joinsNext then ['\n'] else []) ++ more) =
    (s.word.getD {}).text.toList ++ unjoined more
  begun : s.word = none → typed = []

/-- Something else than digits has been typed. This can be told from the word, unless that begins with a tilde. -/
structure Spoiled (s : State) (typed : List Char) : Prop where
  spelling : ∀ more, ¬ (unjoined (typed ++ more)).all Decimal.isDigit
  word : ∃ w ∈ s.word, w.quoted ∨ ¬ w.text.toList.all Decimal.isDigit ∨ typed.head? = some '~'

def Told (s : State) (typed : List Char) : Prop := s.Counting typed ∨ s.Spoiled typed

theorem Spoiled.lengthens (h : s.Spoiled typed) (hst : Lengthens s t) (taken : List Char) :
    t.Spoiled (typed ++ taken) := by
  obtain ⟨w, hw, hcase⟩ := h.word
  obtain ⟨w', hw', hgrows⟩ := hst w hw
  refine ⟨fun more ↦ by rw [List.append_assoc]; exact h.spelling _, w', hw', ?_⟩
  obtain hquoted | hnot | htilde := hcase
  · exact .inl (hgrows.quoted hquoted)
  · refine .inr (.inl fun hall ↦ hnot ?_)
    obtain ⟨more, hmore⟩ := hgrows.text
    rw [← hmore, List.all_append, Bool.and_eq_true] at hall
    exact hall.1
  · refine .inr (.inr ?_)
    rw [List.head?_append, htilde]
    rfl

theorem Counting.spoil (h : s.Counting typed) (hj : s.joinsNext = false) (hc : ¬ Decimal.isDigit c)
    (hb : c = '\\' → ∃ x r, taken = x :: r ∧ x ≠ '\n')
    (hw : ∃ w ∈ t.word, w.quoted ∨ ¬ w.text.toList.all Decimal.isDigit ∨ typed = [] ∧ c = '~') :
    t.Spoiled (typed ++ c :: taken) := by
  constructor
  · intro more hall
    have hspelling := h.spelling (c :: (taken ++ more))
    have hhead : ∃ cs, unjoined (c :: (taken ++ more)) = c :: cs := by
      by_cases hbackslash : c = '\\'
      · obtain ⟨x, r, rfl, hx⟩ := hb hbackslash
        subst hbackslash
        exact ⟨_, unjoined_escaped hx _⟩
      · exact ⟨_, unjoined_cons hbackslash _⟩
    obtain ⟨cs, hcs⟩ := hhead
    rw [hj, hcs] at hspelling
    simp only [Bool.false_eq_true, if_false, List.append_nil] at hspelling
    rw [List.append_assoc, List.cons_append, hspelling, List.all_append, List.all_cons] at hall
    simp [hc] at hall
  · obtain ⟨w, hw, hcase⟩ := hw
    refine ⟨w, hw, hcase.imp_right fun hcase ↦ hcase.imp_right ?_⟩
    rintro ⟨rfl, rfl⟩
    rfl

theorem not_digits_push (hc : ¬ Decimal.isDigit c) (h : Lengthens (s.push c) t) :
    ∃ w ∈ t.word, ¬ w.text.toList.all Decimal.isDigit := by
  obtain ⟨w, hw, hgrows⟩ := h _ rfl
  refine ⟨w, hw, fun hall ↦ hc ?_⟩
  obtain ⟨more, hmore⟩ := hgrows.text
  rw [← hmore] at hall
  simp only [String.toList_push, List.all_append, List.all_cons, Bool.and_eq_true] at hall
  exact hall.1.2.1

theorem Counting.push (h : s.Counting typed) (hj : s.joinsNext = false) (hc : Decimal.isDigit c) :
    (s.push c).Counting (typed ++ [c]) where
  nesting := h.nesting
  quoting := h.quoting
  digits := by
    have hdigits := h.digits
    simp only [State.push, Option.getD_some, String.toList_push, List.all_append, hdigits, Bool.true_and]
    simpa using hc
  unquoted := h.unquoted
  spelling more := by
    have hne : c ≠ '\\' := by
      rintro rfl
      cases hc
    have hspelling := h.spelling (c :: more)
    have hjoins : (s.push c).joinsNext = false := hj
    rw [hj, unjoined_cons hne] at hspelling
    rw [hjoins]
    simpa [State.push] using hspelling
  begun hnone := nomatch hnone

theorem Counting.escape (h : s.Counting typed) (hj : s.joinsNext = false) (hr : s.rest = taken ++ s.escape.rest)
    (hu : s.escape.word.isSome) : s.escape.Told (typed ++ '\\' :: taken) := by
  have hjoined (more : List Char) : unjoined (typed ++ '\\' :: '\n' :: more) =
      (s.word.getD {}).text.toList ++ unjoined more := by
    have hspelling := h.spelling ('\\' :: '\n' :: more)
    rw [hj, unjoined] at hspelling
    simpa using hspelling
  cases hrest : s.rest with
  | nil =>
    have hescape : s.escape = { s with joinsNext := true } := by
      simp only [State.escape, hrest]
    rw [hescape, hrest] at hr
    rw [hescape] at hu ⊢
    obtain rfl : taken = [] := (List.append_eq_nil_iff.1 hr.symm).1
    refine .inl ⟨h.nesting, h.quoting, h.digits, h.unquoted, fun more ↦ ?_, fun hnone ↦ ?_⟩
    · simpa using hjoined more
    · rw [hnone] at hu
      cases hu
  | cons x r =>
    by_cases hx : x = '\n'
    · subst hx
      have hescape : s.escape = { s with rest := r } := by
        simp only [State.escape, hrest]
      rw [hescape, hrest] at hr
      rw [hescape] at hu ⊢
      obtain rfl : ['\n'] = taken := List.append_cancel_right hr
      refine .inl ⟨h.nesting, h.quoting, h.digits, h.unquoted, fun more ↦ ?_, fun hnone ↦ ?_⟩
      · simpa [hj] using hjoined more
      · rw [hnone] at hu
        cases hu
    · have hescape : s.escape = State.push (beginQuoted { s with rest := r }) x := by
        simp only [State.escape, hrest]
      rw [hescape, hrest] at hr
      rw [hescape]
      obtain rfl : [x] = taken := List.append_cancel_right hr
      exact .inr (h.spoil hj (by decide) (fun _ ↦ ⟨x, [], rfl, hx⟩) ⟨_, rfl, .inl rfl⟩)

theorem Counting.ordinary (h : s.Counting typed) (hj : s.joinsNext = false) (hu : u.word.isSome)
    (hc : c ≠ '\\') (ht : s.ordinary homes c = .ok u) (hr : s.rest = taken ++ u.rest) :
    u.Told (typed ++ c :: taken) := by
  have hpush (hu : u = s.push c) : u.Told (typed ++ c :: taken) := by
    subst hu
    obtain rfl : taken = [] := List.self_eq_append_left.1 hr
    by_cases hdigit : Decimal.isDigit c
    · exact .inl (h.push hj hdigit)
    · obtain ⟨w, hw, hnot⟩ := not_digits_push hdigit (.refl (s.push c))
      exact .inr (h.spoil hj hdigit (fun hb ↦ absurd hb hc) ⟨w, hw, .inr (.inl hnot)⟩)
  unfold State.ordinary at ht
  split at ht
  · exact hpush (Except.ok.inj ht).symm
  rename_i hnone
  have hword : s.word = none := by
    simpa using hnone
  split at ht
  · obtain rfl := Except.ok.inj ht
    rw [hword] at hu
    cases hu
  split at ht
  · rename_i htilde
    subst htilde
    obtain ⟨w, hw⟩ := Option.isSome_iff_exists.1 hu
    exact .inr (h.spoil hj (by decide) (fun hb ↦ absurd hb hc) ⟨w, hw, .inr (.inr ⟨h.begun hword, rfl⟩)⟩)
  · exact hpush (Except.ok.inj ht).symm

theorem Counting.step (h : s.Counting typed) (hj : s.joinsNext = false) (hr : s.rest = taken ++ u.rest)
    (hu : u.word.isSome) (ht : s.step homes c = .ok u) : u.Told (typed ++ c :: taken) := by
  have hnot : ¬ (isBlank c ∨ isOperator c) := fun hends ↦
    not_ends_of_isSome hu ht ⟨h.nesting, h.quoting, hends⟩
  have hquoted (hc : c = '\x27' ∨ c = '\x22') (hw : u.word = s.beginQuoted.word) :
      u.Told (typed ++ c :: taken) := by
    have hdigit : ¬ Decimal.isDigit c := by
      rcases hc with rfl | rfl <;> decide
    have hplain : c ≠ '\\' := by
      rcases hc with rfl | rfl <;> decide
    exact .inr (h.spoil hj hdigit (fun hb ↦ absurd hb hplain) ⟨_, by rw [hw]; rfl, .inl rfl⟩)
  simp only [State.step, h.nesting, h.quoting] at ht
  rw [unquoted_of_not_ends hnot] at ht
  split at ht
  · rename_i hc
    cases ht
    exact hquoted (.inl hc) rfl
  split at ht
  · rename_i hc
    cases ht
    exact hquoted (.inr hc) rfl
  split at ht
  · rename_i hc
    cases ht
    subst hc
    exact h.escape hj hr hu
  rename_i hbackslash
  split at ht
  · rename_i hc
    cases ht
    have hdigit : ¬ Decimal.isDigit c := by
      rcases hc with rfl | rfl <;> decide
    obtain ⟨w, hw, hnot⟩ := not_digits_push hdigit (lengthens_push_openSubstitution s c)
    exact .inr (h.spoil hj hdigit (fun hb ↦ absurd hb hbackslash) ⟨w, hw, .inr (.inl hnot)⟩)
  · exact h.ordinary hj hu hbackslash ht hr

theorem Told.run (h : s.Typed homes typed t) (hs : s.Coherent) {front : List Char} (ht : s.Told front) :
    t.Told (front ++ typed) := by
  induction h generalizing front with
  | nil =>
    rw [List.append_nil]
    exact ht
  | @chars s u t c taken typed hr hstep hu _ ih =>
    have hj := hs.joinsNext_eq_false hr
    have hread : Coherent { s with rest := taken ++ u.rest } := hs.withRest hj _
    have hnext : u.Told (front ++ c :: taken) := by
      obtain ⟨hn, hq, hdigits, hunquoted, hspelling, hbegun⟩ | hspoiled := ht
      · have hcounting : Counting { s with rest := taken ++ u.rest } front :=
          ⟨hn, hq, hdigits, hunquoted, hspelling, hbegun⟩
        exact hcounting.step hj rfl hu hstep
      · have hlengthens : Lengthens { s with rest := taken ++ u.rest } u :=
          lengthens_step (not_ends_of_isSome hu hstep) hstep
        exact .inr (hspoiled.lengthens hlengthens _)
    have htail := ih (hread.step (by exact hj) hstep) hnext
    rwa [List.append_assoc] at htail
  | @line s u t w text typed hr hasks htake hu _ ih =>
    have hnext : u.Told (front ++ w.joint) := by
      obtain hcounting | hspoiled := ht
      -- digits go on in a further line only behind a backslash, which does not count
      · obtain ⟨hj, hjoint, rfl⟩ | ⟨hopen, -, -⟩ := reading_of_asks hasks htake hu
        · refine .inl ⟨hcounting.nesting, hcounting.quoting, hcounting.digits, hcounting.unquoted, fun more ↦ ?_,
            fun hnone ↦ ?_⟩
          · have hspelling := hcounting.spelling more
            rw [if_pos hj] at hspelling
            rw [hjoint]
            simpa using hspelling
          · rw [hnone] at hu
            cases hu
        · rcases hopen with hn | hq
          · exact absurd hcounting.nesting hn
          · exact absurd hcounting.quoting hq
      · exact .inr (hspoiled.lengthens (lengthens_of_asks hasks htake hu) _)
    have htail := ih (coherent_of_asks hs hasks htake hu) hnext
    rwa [List.append_assoc] at htail

/-- The parser behind a redirection operator that begins with `c`, with the descriptor it is for. -/
def directed (s : State) (c : Char) (source : Int) : State :=
  let (operator, _, rest) := operatorAt c s.rest
  { s with rest := rest, word := none, pending := some ⟨operator, source, operator.target⟩ }

theorem step_arrow (homes : HomeDirs) (hn : s.nesting = []) (hq : s.quoting = .none) (hc : c = '<' ∨ c = '>') :
    s.step homes c = s.beginRedirection c := by
  simp only [step, hn, hq]
  rcases hc with rfl | rfl <;> rfl

theorem beginRedirection_of_source {n : Int} (h : s.spelledSource? = some n) :
    s.beginRedirection c = .ok (s.directed c n) := by
  simp only [beginRedirection, h, directed]

theorem beginRedirection_of_argument (h : s.spelledSource? = none) (hw : s.word = some w) (hp : s.pending = none) :
    s.beginRedirection c =
      .ok (directed { s with words := s.words ++ [w.text] } c (if c = '>' then 1 else 0)) := by
  simp only [beginRedirection, h, directed, finishWord, hw, hp]
  rfl

end State

theorem numeral_of_int32? {w : String} {n : Int} (hd : w.toList.all Decimal.isDigit)
    (h : Decimal.int32? w = some n) : Numeral w := by
  have hvalue := value_of_int32? hd h
  simp only [Decimal.int32?, Decimal.bounded?] at h
  obtain ⟨hmagnitude, hbounds⟩ := Option.filter_eq_some_iff.1 h
  refine ⟨fun hempty ↦ ?_, hd, ?_⟩
  · rw [hempty] at hmagnitude
    cases hmagnitude
  · simp only [Bool.and_eq_true, decide_eq_true_eq] at hbounds
    omega

namespace State

variable {s : State} {w : Word}

theorem spelledSource?_of_numeral (hw : s.word = some w) (hp : s.pending = none) (hq : w.quoted = false)
    (h : Numeral w.text) : s.spelledSource? = some (Decimal.value w.text.toList : Int) := by
  simp [spelledSource?, hw, hp, hq, h.digits, int32?_numeral h]

theorem spelledSource?_eq_none (hw : s.word = some w) (h : w.quoted ∨ ¬ Numeral w.text) :
    s.spelledSource? = none := by
  simp only [spelledSource?, hw]
  split
  · rename_i hsource
    simp only [Bool.and_eq_true, Bool.not_eq_true'] at hsource
    obtain ⟨⟨hquoted, -⟩, hdigits⟩ := hsource
    have hnumeral : ¬ Numeral w.text := h.resolve_left (by simp [hquoted])
    exact Option.eq_none_iff_forall_ne_some.2 fun n hn ↦ hnumeral (numeral_of_int32? hdigits hn)
  · rfl

end State

open State in
/-- Descriptors in front of redirection operators come from typed digits only. Each word of a parse has been typed
from where it begins. Take one to where an operator follows it directly, outside quotes and substitutions and with
no redirection waiting for its target, and say that it is no home, put for a tilde, that consists of digits which
denote a descriptor. If the text that was typed, without the backslashes at which lines are joined, is nothing but
such digits, then they are the source of the redirection. If it is not, the word is an argument and the source is
the one that the operator has by default. -/
theorem sources_are_typed_digits {homes : HomeDirs} {line : String} :
    (∀ {buffer : List Char} {t : State}, Reaches homes line buffer (.reading t) → t.word.isSome → Begun homes line t) ∧
      ∀ {buffer typed cs : List Char} {s t : State} {w : Word} {c : Char},
        Reaches homes line buffer (.reading s) → s.word = none → s.Typed homes typed t → t.word = some w →
        t.nesting = [] → t.quoting = .none → t.pending = none → t.rest = c :: cs → c = '<' ∨ c = '>' →
        ¬ (typed.head? = some '~' ∧ ¬ w.quoted ∧ Numeral w.text) →
          State.step homes c { t with rest := cs } =
            .ok (if Numeral (String.ofList (unjoined typed)) then
                directed { t with rest := cs } c (Decimal.value (unjoined typed))
              else directed { t with rest := cs, words := t.words ++ [w.text] } c (if c = '>' then 1 else 0)) := by
  refine ⟨Reaches.exists_typed, ?_⟩
  intro buffer typed cs s t w c hs hword htyped hw hn hq hp hr hc hhome
  have hcoherent := hs.coherent
  have hj : t.joinsNext = false := (htyped.coherent hcoherent).joinsNext_eq_false hr
  obtain ⟨c₀, cs₀, hr₀⟩ := htyped.exists_cons hword (by simp [hw])
  have hstart : s.Told [] := by
    obtain ⟨hn₀, hq₀⟩ := hcoherent.idle hword
    have hj₀ := hcoherent.joinsNext_eq_false hr₀
    exact .inl ⟨hn₀, hq₀, by simp [hword], by simp [hword], by simp [hword, hj₀], fun _ ↦ rfl⟩
  have hargument (h : w.quoted ∨ ¬ Numeral w.text) : beginRedirection { t with rest := cs } c =
      .ok (directed { t with rest := cs, words := t.words ++ [w.text] } c (if c = '>' then 1 else 0)) :=
    beginRedirection_of_argument (spelledSource?_eq_none hw h) hw hp
  rw [step_arrow (s := { t with rest := cs }) homes hn hq hc]
  -- what has been typed has been digits throughout, or it has been spoiled somewhere
  obtain hcounting | hspoiled := hstart.run htyped hcoherent
  · have htext : unjoined typed = w.text.toList := by
      have hspelling := hcounting.spelling []
      rw [hj, hw] at hspelling
      simpa [unjoined] using hspelling
    have hunquoted : w.quoted = false := by
      simpa [hw] using hcounting.unquoted
    rw [htext, String.ofList_toList]
    split
    · rename_i hnumeral
      exact beginRedirection_of_source (spelledSource?_of_numeral hw hp hunquoted hnumeral)
    · rename_i hnumeral
      exact hargument (.inr hnumeral)
  · have hnot : ¬ Numeral (String.ofList (unjoined typed)) := by
      intro hnumeral
      have hdigits := hnumeral.digits
      rw [String.toList_ofList] at hdigits
      exact hspoiled.spelling [] (by simpa using hdigits)
    rw [if_neg hnot]
    obtain ⟨w', hw', hcase⟩ := hspoiled.word
    obtain rfl := Option.some.inj (hw.symm.trans hw')
    obtain hquoted | hother | htilde := hcase
    · exact hargument (.inl hquoted)
    · exact hargument (.inr fun hnumeral ↦ hother hnumeral.digits)
    · exact hargument (or_iff_not_imp_left.2 fun hquoted hnumeral ↦ hhome ⟨htilde, hquoted, hnumeral⟩)

open State in
theorem sources_are_typed_digits_joined :
    State.step ⟨none, fun _ ↦ none⟩ '>' { rest := ['f'], word := some ⟨"12", false⟩ } =
      .ok { rest := ['f'], pending := some ⟨.path .truncate, 12, .name⟩ } := by
  have hlast : Typed ⟨none, fun _ ↦ none⟩ { rest := "2>f".toList, word := some ⟨"1", false⟩ } ['2']
      { rest := ['>', 'f'], word := some ⟨"12", false⟩ } :=
    .chars [] (u := { rest := ['>', 'f'], word := some ⟨"12", false⟩ }) rfl rfl rfl (.nil _)
  have htake : Waiting.take ⟨{ rest := [], word := some ⟨"1", false⟩ }, .joinedLine⟩ (.line "2>f") =
      .reading { rest := "2>f".toList, word := some ⟨"1", false⟩ } := rfl
  have hjoined : Typed ⟨none, fun _ ↦ none⟩ { rest := [], joinsNext := true, word := some ⟨"1", false⟩ }
      ['\n', '2'] { rest := ['>', 'f'], word := some ⟨"12", false⟩ } :=
    .line rfl (.first rfl) htake rfl hlast
  have htyped : Typed ⟨none, fun _ ↦ none⟩ { rest := "1\\".toList } ['1', '\\', '\n', '2']
      { rest := ['>', 'f'], word := some ⟨"12", false⟩ } :=
    .chars [] (u := { rest := ['\\'], word := some ⟨"1", false⟩ }) rfl rfl rfl <|
      .chars [] (u := { rest := [], joinsNext := true, word := some ⟨"1", false⟩ }) rfl rfl rfl hjoined
  have hs : Reaches ⟨none, fun _ ↦ none⟩ "1\\" "1\\".toList (.reading { rest := "1\\".toList }) := .start
  have hstep := sources_are_typed_digits.2 hs rfl htyped rfl rfl rfl rfl rfl (.inr rfl) (by decide)
  rw [hstep, if_pos (by decide)]
  rfl

/-- A home that consists of digits becomes a source. -/
theorem parse_takes_home_for_source :
    (parse ⟨some "2", fun _ ↦ none⟩ "echo ~>f" []).1.result =
        .ok (some ⟨[⟨.single, ["echo"], [.path .truncate 2 "f"]⟩]⟩) ∧
      (parse ⟨some "2", fun _ ↦ none⟩ "echo 2 >f" []).1.result =
        .ok (some ⟨[⟨.single, ["echo", "2"], [.path .truncate 1 "f"]⟩]⟩) := by
  have hhome : Finishes ⟨some "2", fun _ ↦ none⟩ (.reading { rest := "echo ~>f".toList }) [] 9 []
      (.ok [⟨.single, ["echo"], [.path .truncate 2 "f"]⟩]) [] :=
    .step rfl rfl <| .step rfl rfl <| .step rfl rfl <| .step rfl rfl <| .step rfl rfl <| .step rfl rfl <|
      .step rfl rfl <| .step rfl rfl <| .bufferEnd rfl (.finished _ _)
  have hargument : Finishes ⟨some "2", fun _ ↦ none⟩ (.reading { rest := "echo 2 >f".toList }) [] 10 []
      (.ok [⟨.single, ["echo", "2"], [.path .truncate 1 "f"]⟩]) [] :=
    .step rfl rfl <| .step rfl rfl <| .step rfl rfl <| .step rfl rfl <| .step rfl rfl <| .step rfl rfl <|
      .step rfl rfl <| .step rfl rfl <| .step rfl rfl <| .bufferEnd rfl (.finished _ _)
  obtain ⟨_, hparse⟩ := hhome.exists_parse_eq
  obtain ⟨_, hparse'⟩ := hargument.exists_parse_eq
  rw [hparse, hparse']
  exact ⟨rfl, rfl⟩

end JobShell.Parser

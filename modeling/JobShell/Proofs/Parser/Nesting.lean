import JobShell.Proofs.Parser.Words

namespace JobShell.Parser

def Closer.opening : Closer → List Char
  | paren => ['$', '(']
  | brace => ['$', '{']
  | backquote => ['\x60']

/-- Where text stands: directly inside a substitution, or between double quotes there. -/
inductive Place
  | inside (k : Closer)
  | quoted
  deriving DecidableEq, Repr

/-- The character opens and closes nothing there, unless it is a dollar sign, which may with the next one. -/
def Place.isOrdinary : Place → Char → Bool
  | inside k, c =>
    c != '\\' && c != '\x27' && c != '\x22' && c != '\x60' && c != k.char && !(k == .paren && c == '(')
  | quoted, c => c != '\\' && c != '\x22' && c != '\x60'

def opensSubstitution (c : Char) (cs : List Char) : Prop :=
  c = '$' ∧ (cs.head? = some '(' ∨ cs.head? = some '{')

/-- The text is well nested where it stands, and what stands in it between double quotes satisfies `P`. Backquotes
do not nest directly: the next one closes them. -/
inductive Nests (P : List Char → Prop) : Place → List Char → Prop
  | nil (p : Place) : Nests P p []
  | ordinary {p : Place} {c : Char} {cs : List Char} :
      p.isOrdinary c → ¬ opensSubstitution c cs → Nests P p cs → Nests P p (c :: cs)
  | escaped {p : Place} {c : Char} {cs : List Char} : Nests P p cs → Nests P p ('\\' :: c :: cs)
  | single {k : Closer} {text cs : List Char} :
      '\x27' ∉ text → Nests P (.inside k) cs → Nests P (.inside k) (['\x27'] ++ text ++ ['\x27'] ++ cs)
  | double {k : Closer} {text cs : List Char} :
      Nests P .quoted text → P text → Nests P (.inside k) cs →
      Nests P (.inside k) (['\x22'] ++ text ++ ['\x22'] ++ cs)
  | parens {text cs : List Char} :
      Nests P (.inside .paren) text → Nests P (.inside .paren) cs →
      Nests P (.inside .paren) (['('] ++ text ++ [')'] ++ cs)
  | substitution {p : Place} {k : Closer} {text cs : List Char} :
      (k = .backquote → p ≠ .inside .backquote) → Nests P (.inside k) text → Nests P p cs →
      Nests P p (k.opening ++ text ++ [k.char] ++ cs)

/-- A well-nested substitution, from what opens it to what closes it. -/
def WellNested (P : List Char → Prop) (text : List Char) : Prop :=
  ∃ k inner, Nests P (.inside k) inner ∧ text = k.opening ++ inner ++ [k.char]

/-- Double quotes in the text stand behind backslashes. -/
inductive Unbroken : List Char → Prop
  | nil : Unbroken []
  | plain {c : Char} {cs : List Char} : c ≠ '\\' → c ≠ '\x22' → Unbroken cs → Unbroken (c :: cs)
  | escaped {c : Char} {cs : List Char} : Unbroken cs → Unbroken ('\\' :: c :: cs)

namespace State

variable {homes : HomeDirs} {s : State} {taken text rest cs : List Char} {c x : Char} {k : Closer}
  {outer nesting : List Closer} {quote : Option Char}

/-- The parser with `taken` in its word, inside these substitutions and this quotation of the innermost one. -/
def within (s : State) (taken : List Char) (nesting : List Closer) (quote : Option Char) (rest : List Char) :
    State :=
  { s.pushAll taken with nesting := nesting, nestedQuote := quote, rest := rest }

@[simp] theorem rest_within (s : State) (taken : List Char) (nesting : List Closer) (quote : Option Char)
    (rest : List Char) : (s.within taken nesting quote rest).rest = rest := rfl

@[simp] theorem nesting_within (s : State) (taken : List Char) (nesting : List Closer) (quote : Option Char)
    (rest : List Char) : (s.within taken nesting quote rest).nesting = nesting := rfl

@[simp] theorem nestedQuote_within (s : State) (taken : List Char) (nesting : List Closer) (quote : Option Char)
    (rest : List Char) : (s.within taken nesting quote rest).nestedQuote = quote := rfl

theorem push_within :
    (s.within taken nesting quote rest).push c = s.within (taken ++ [c]) nesting quote rest := by
  have htext : ((s.word.getD {}).text ++ String.ofList taken).push c =
      (s.word.getD {}).text ++ String.ofList (taken ++ [c]) := by
    apply String.toList_injective
    simp
  simp [within, push, pushAll, htext]

theorem nested_within (s : State) (taken : List Char) (k : Closer) (outer : List Closer) (quote : Option Char)
    (c : Char) (cs : List Char) :
    (s.within taken (k :: outer) quote cs).nested k outer c =
      if c = '\\' ∧ quote ≠ some '\x27' then
        match cs with
        | [] => s.within (taken ++ [c]) (k :: outer) quote []
        | x :: r => s.within (taken ++ [c, x]) (k :: outer) quote r
      else
        match quote with
        | some q => s.within (taken ++ [c]) (k :: outer) (if c = q then none else some q) cs
        | none =>
          if c = '\x27' ∨ c = '\x22' then s.within (taken ++ [c]) (k :: outer) (some c) cs
          else if c = k.char then s.within (taken ++ [c]) outer none cs
          else if c = '\x60' then s.within (taken ++ [c]) (.backquote :: k :: outer) none cs
          else if c = '(' ∧ k = .paren then s.within (taken ++ [c]) (.paren :: k :: outer) none cs
          else if c = '$' then
            match cs with
            | '(' :: r => s.within (taken ++ [c, '(']) (.paren :: k :: outer) none r
            | '{' :: r => s.within (taken ++ [c, '{']) (.brace :: k :: outer) none r
            | r => s.within (taken ++ [c]) (k :: outer) none r
          else s.within (taken ++ [c]) (k :: outer) none cs := by
  have hpush (x : Char) : (s.within (taken ++ [c]) (k :: outer) quote cs).push x =
      s.within (taken ++ [c, x]) (k :: outer) quote cs := by
    rw [push_within, List.append_assoc]
    rfl
  -- both sides branch alike once the record is out of the way
  simp only [nested, push_within, hpush, rest_within, nesting_within, nestedQuote_within]
  split
  · cases cs <;> rfl
  · cases quote with
    | some q =>
      simp only
      split <;> rfl
    | none =>
      simp only
      repeat (split; · rfl)
      split
      · cases cs with
        | nil => rfl
        | cons x r =>
          by_cases hparen : x = '('
          · subst hparen
            rfl
          by_cases hbrace : x = '{'
          · subst hbrace
            rfl
          simp [hparen, hbrace]
      · rfl

theorem takes_within {t : State} (h : (s.within taken (k :: outer) quote cs).nested k outer c = t) :
    Takes homes (s.within taken (k :: outer) quote (c :: cs)) t :=
  ⟨c, cs, rfl, congrArg Except.ok h⟩

theorem takes_ordinary (hc : (Place.inside k).isOrdinary c) (ho : ¬ opensSubstitution c cs) :
    Takes homes (s.within taken (k :: outer) none (c :: cs)) (s.within (taken ++ [c]) (k :: outer) none cs) := by
  simp only [Place.isOrdinary, Bool.and_eq_true, bne_iff_ne, Bool.not_eq_true', Bool.and_eq_false_iff,
    beq_eq_false_iff_ne] at hc
  obtain ⟨⟨⟨⟨⟨hbackslash, hsingle⟩, hdouble⟩, hbackquote⟩, hcloser⟩, hparen⟩ := hc
  have hnoparen : ¬ (c = '(' ∧ k = .paren) := fun h ↦ hparen.elim (fun hk ↦ hk h.2) fun hc ↦ hc h.1
  refine takes_within ?_
  rw [nested_within]
  simp only [hbackslash, hsingle, hdouble, hbackquote, hcloser, hnoparen, false_and, if_false, or_self]
  split
  · rename_i hdollar
    split
    · exact absurd ⟨hdollar, .inl rfl⟩ ho
    · exact absurd ⟨hdollar, .inr rfl⟩ ho
    · rfl
  · rfl

theorem takes_escaped (hq : quote ≠ some '\x27') :
    Takes homes (s.within taken (k :: outer) quote ('\\' :: c :: cs))
      (s.within (taken ++ ['\\', c]) (k :: outer) quote cs) :=
  takes_within (by rw [nested_within, if_pos ⟨rfl, hq⟩])

theorem takes_quoted {q : Char} (hc : c ≠ q) (hb : c = '\\' → q = '\x27') :
    Takes homes (s.within taken (k :: outer) (some q) (c :: cs))
      (s.within (taken ++ [c]) (k :: outer) (some q) cs) := by
  have hplain : ¬ (c = '\\' ∧ some q ≠ some '\x27') := fun ⟨h, hq⟩ ↦ hq (congrArg some (hb h))
  exact takes_within (by rw [nested_within, if_neg hplain]; simp only [if_neg hc])

theorem takes_openQuote (hc : c = '\x27' ∨ c = '\x22') :
    Takes homes (s.within taken (k :: outer) none (c :: cs))
      (s.within (taken ++ [c]) (k :: outer) (some c) cs) := by
  have hplain : ¬ (c = '\\' ∧ none ≠ some '\x27') := by
    rintro ⟨rfl, -⟩
    simp at hc
  exact takes_within (by rw [nested_within, if_neg hplain]; simp only [if_pos hc])

theorem takes_closeQuote (hc : c = '\x27' ∨ c = '\x22') :
    Takes homes (s.within taken (k :: outer) (some c) (c :: cs))
      (s.within (taken ++ [c]) (k :: outer) none cs) := by
  have hplain : ¬ (c = '\\' ∧ some c ≠ some '\x27') := by
    rintro ⟨rfl, -⟩
    simp at hc
  exact takes_within (by rw [nested_within, if_neg hplain]; simp only [if_true])

theorem takes_close :
    Takes homes (s.within taken (k :: outer) none (k.char :: cs))
      (s.within (taken ++ [k.char]) outer none cs) :=
  takes_within (by rw [nested_within]; cases k <;> rfl)

theorem takes_paren :
    Takes homes (s.within taken (.paren :: outer) none ('(' :: cs))
      (s.within (taken ++ ['(']) (.paren :: .paren :: outer) none cs) :=
  takes_within (by rw [nested_within]; rfl)

theorem takes_open {j : Closer} (hj : j = .backquote → k ≠ .backquote) :
    Takes homes (s.within taken (k :: outer) none (j.opening ++ cs))
      (s.within (taken ++ j.opening) (j :: k :: outer) none cs) := by
  cases j with
  | backquote =>
    have hk := hj rfl
    refine takes_within ?_
    rw [nested_within]
    cases k <;> first | rfl | exact absurd rfl hk
  | paren => exact takes_within (by rw [nested_within]; cases k <;> rfl)
  | brace => exact takes_within (by rw [nested_within]; cases k <;> rfl)

theorem step_opening (homes : HomeDirs) (hn : s.nesting = []) (hq : s.quoting ≠ .single)
    (hc : c = '$' ∨ c = '\x60') : s.step homes c = .ok (s.openSubstitution c) := by
  simp only [step, hn]
  cases hquoting : s.quoting with
  | single => exact absurd hquoting hq
  | double => rcases hc with rfl | rfl <;> rfl
  | none => rcases hc with rfl | rfl <;> rfl

theorem openSubstitution_eq (hquote : s.nestedQuote = none) (k : Closer) (cs : List Char) :
    ∃ c xs, k.opening = c :: xs ∧ (c = '$' ∨ c = '\x60') ∧
      openSubstitution { s with rest := xs ++ cs } c = s.within k.opening [k] none cs := by
  have htext (t : String) (x y : Char) : (t.push x).push y = t ++ String.ofList [x, y] := by
    apply String.toList_injective
    simp
  cases k with
  | paren =>
    refine ⟨'$', ['('], rfl, .inl rfl, ?_⟩
    simp [openSubstitution, push, within, pushAll, hquote, htext, Closer.opening]
  | brace =>
    refine ⟨'$', ['{'], rfl, .inl rfl, ?_⟩
    simp [openSubstitution, push, within, pushAll, hquote, htext, Closer.opening]
  | backquote =>
    have hone (t : String) : t.push '\x60' = t ++ String.ofList ['\x60'] := by
      apply String.toList_injective
      simp
    refine ⟨'\x60', [], rfl, .inr rfl, ?_⟩
    simp [openSubstitution, push, within, pushAll, hquote, hone, Closer.opening]

theorem takes_opening (hn : s.nesting = []) (hquote : s.nestedQuote = none) (hq : s.quoting ≠ .single)
    (hr : s.rest = k.opening ++ cs) : Takes homes s (s.within k.opening [k] none cs) := by
  obtain ⟨c, xs, hopening, hc, heq⟩ := openSubstitution_eq hquote k cs
  have hstep : State.step homes c { s with rest := xs ++ cs } =
      .ok (openSubstitution { s with rest := xs ++ cs } c) :=
    step_opening homes hn hq hc
  refine ⟨c, xs ++ cs, ?_, hstep.trans (congrArg Except.ok heq)⟩
  rw [hr, hopening, List.cons_append]

theorem reads_singleQuoted (ht : '\x27' ∉ text) :
    (s.within taken (k :: outer) (some '\x27') (text ++ rest)).Reads homes
      (s.within (taken ++ text) (k :: outer) (some '\x27') rest) := by
  induction text generalizing taken with
  | nil =>
    rw [List.append_nil]
    exact .refl _
  | cons c cs ih =>
    obtain ⟨hc, hcs⟩ := not_or.1 (mt List.mem_cons.2 ht)
    have hrest := @ih (taken ++ [c]) hcs
    rw [List.append_assoc, List.singleton_append] at hrest
    exact .head (takes_quoted (Ne.symm hc) fun _ ↦ rfl) hrest

theorem reads_unbroken (ht : Unbroken text) :
    (s.within taken (k :: outer) (some '\x22') (text ++ rest)).Reads homes
      (s.within (taken ++ text) (k :: outer) (some '\x22') rest) := by
  induction ht generalizing taken with
  | nil =>
    rw [List.append_nil]
    exact .refl _
  | @plain c cs hb hc _ ih =>
    have hrest := @ih (taken ++ [c])
    rw [List.append_assoc, List.singleton_append] at hrest
    exact .head (takes_quoted hc fun h ↦ absurd h hb) hrest
  | @escaped c cs _ ih =>
    have hrest := @ih (taken ++ ['\\', c])
    rw [List.append_assoc] at hrest
    exact .head (takes_escaped (by decide)) hrest

theorem reads_bracketed {a b : List Char} {n : List Closer} {q : Option Char}
    (hopen : Takes homes (s.within taken nesting none (a ++ (text ++ (b ++ (cs ++ rest)))))
      (s.within (taken ++ a) n q (text ++ (b ++ (cs ++ rest)))))
    (htext : (s.within (taken ++ a) n q (text ++ (b ++ (cs ++ rest)))).Reads homes
      (s.within (taken ++ a ++ text) n q (b ++ (cs ++ rest))))
    (hclose : Takes homes (s.within (taken ++ a ++ text) n q (b ++ (cs ++ rest)))
      (s.within (taken ++ a ++ text ++ b) nesting none (cs ++ rest)))
    (htail : (s.within (taken ++ a ++ text ++ b) nesting none (cs ++ rest)).Reads homes
      (s.within (taken ++ a ++ text ++ b ++ cs) nesting none rest)) :
    (s.within taken nesting none (a ++ text ++ b ++ cs ++ rest)).Reads homes
      (s.within (taken ++ (a ++ text ++ b ++ cs)) nesting none rest) := by
  have hrun := (htext.trans (.head hclose htail)).head hopen
  simpa only [List.append_assoc] using hrun

end State

theorem not_opensSubstitution_char (k : Closer) (cs : List Char) (c : Char) :
    ¬ opensSubstitution c ([k.char] ++ cs) := by
  rintro ⟨-, h | h⟩ <;> cases k <;> cases h

/-- The parser takes text that is well nested in its substitution, and is in that substitution still. -/
theorem Nests.reads {p : Place} {cs : List Char} (h : Nests Unbroken p cs) {k : Closer} (hp : p = .inside k)
    (homes : HomeDirs) (s : State) (taken : List Char) (outer : List Closer) {rest : List Char}
    (hrest : ∀ c, ¬ opensSubstitution c rest) :
    (s.within taken (k :: outer) none (cs ++ rest)).Reads homes
      (s.within (taken ++ cs) (k :: outer) none rest) := by
  -- the closers around the text are those that the parser keeps, so each layer is one induction hypothesis
  induction h generalizing k taken outer rest with
  | nil =>
    rw [List.append_nil]
    exact .refl _
  | @ordinary p c cs hc ho _ ih =>
    subst hp
    have hopens : ¬ opensSubstitution c (cs ++ rest) := by
      cases cs with
      | nil => exact hrest c
      | cons x xs => exact ho
    have htail := ih rfl (taken ++ [c]) outer hrest
    rw [List.append_assoc] at htail
    exact .head (State.takes_ordinary hc hopens) htail
  | @escaped p c cs _ ih =>
    have htail := ih hp (taken ++ ['\\', c]) outer hrest
    rw [List.append_assoc] at htail
    exact .head (State.takes_escaped (by decide)) htail
  | single ht _ ih =>
    cases hp
    exact State.reads_bracketed (State.takes_openQuote (.inl rfl)) (State.reads_singleQuoted ht)
      (State.takes_closeQuote (.inl rfl)) (ih rfl _ outer hrest)
  | double _ ht _ _ ih =>
    cases hp
    exact State.reads_bracketed (State.takes_openQuote (.inr rfl)) (State.reads_unbroken ht)
      (State.takes_closeQuote (.inr rfl)) (ih rfl _ outer hrest)
  | parens _ _ iht ih =>
    cases hp
    exact State.reads_bracketed State.takes_paren (iht rfl _ _ (not_opensSubstitution_char .paren _))
      (State.takes_close (k := .paren)) (ih rfl _ outer hrest)
  | @substitution p j text cs hj _ _ iht ih =>
    subst hp
    have hopen : j = .backquote → k ≠ .backquote := fun h hk ↦ hj h (congrArg Place.inside hk)
    exact State.reads_bracketed (State.takes_open hopen) (iht rfl _ _ (not_opensSubstitution_char j _))
      State.takes_close (ih rfl _ outer hrest)

theorem Nests.plain {P : List Char → Prop} {p : Place} (text : List Char) {cs : List Char}
    (ht : text.all fun c ↦ p.isOrdinary c && c != '$') (h : Nests P p cs) : Nests P p (text ++ cs) := by
  induction text with
  | nil => exact h
  | cons c text ih =>
    rw [List.all_cons, Bool.and_eq_true, Bool.and_eq_true, bne_iff_ne] at ht
    obtain ⟨⟨hc, hdollar⟩, htext⟩ := ht
    exact .ordinary hc (fun ho ↦ hdollar ho.1) (ih htext)

/-- A substitution that is well nested, with no double quotes inside double quotes but behind backslashes, stays
whole. Wherever a parse meets one, outside quotes or between double quotes, it takes it into the current word as
it stands, asks for no line on the way, and goes on behind it in the quoting it was in. -/
theorem substitutions_stay_whole {homes : HomeDirs} {line : String} {buffer : List Char} {s : State}
    (hs : Reaches homes line buffer (.reading s)) (hn : s.nesting = []) (hq : s.quoting ≠ .single)
    {text rest : List Char} (ht : WellNested Unbroken text) (hr : s.rest = text ++ rest) :
    s.Reads homes { s.pushAll text with rest := rest } ∧
      Reaches homes line buffer (.reading { s.pushAll text with rest := rest }) := by
  have hquote : s.nestedQuote = none := hs.coherent.nestedQuote hn
  obtain ⟨k, inner, hinner, rfl⟩ := ht
  have hwithin : s.within (k.opening ++ inner ++ [k.char]) [] none rest =
      { s.pushAll (k.opening ++ inner ++ [k.char]) with rest := rest } := by
    simp [State.within, State.pushAll, hn, hquote]
  have hopen : State.Takes homes s (s.within k.opening [k] none (inner ++ ([k.char] ++ rest))) :=
    State.takes_opening hn hquote hq (by rw [hr, List.append_assoc, List.append_assoc])
  have hread := hinner.reads rfl homes s k.opening [] (not_opensSubstitution_char k rest)
  have hclose : State.Takes homes (s.within (k.opening ++ inner) [k] none ([k.char] ++ rest))
      (s.within (k.opening ++ inner ++ [k.char]) [] none rest) := State.takes_close
  have hrun := (hread.trans (.head hclose (.refl _))).head hopen
  rw [hwithin] at hrun
  exact ⟨hrun, hs.reads hrun⟩

theorem substitutions_stay_whole_quoted :
    WellNested Unbroken "$(a \"b)\" ')' \\) (${c}))".toList ∧
      State.Reads ⟨none, fun _ ↦ none⟩
        { rest := "$(a \"b)\" ')' \\) (${c}))\" d".toList, quoting := .double, word := some ⟨"", true⟩ }
        { rest := "\" d".toList, quoting := .double, word := some ⟨"$(a \"b)\" ')' \\) (${c}))", true⟩ } := by
  have hbrace : Nests Unbroken (.inside .paren) "${c}".toList :=
    .substitution (k := .brace) (by simp) (.plain ['c'] rfl (.nil _)) (.nil _)
  have hparens : Nests Unbroken (.inside .paren) "(${c})".toList := .parens hbrace (.nil _)
  have hquoted : Nests Unbroken (.inside .paren) "\"b)\" ')' \\) (${c})".toList :=
    .double (.plain ['b', ')'] rfl (.nil _))
      (.plain (by decide) (by decide) (.plain (by decide) (by decide) .nil))
      (.plain [' '] rfl
        (.single (show '\x27' ∉ [')'] by decide) (.plain [' '] rfl
          (.escaped (c := ')') (.plain [' '] rfl hparens)))))
  have ht : WellNested Unbroken "$(a \"b)\" ')' \\) (${c}))".toList :=
    ⟨.paren, _, .plain ['a', ' '] rfl hquoted, rfl⟩
  have hs : Reaches ⟨none, fun _ ↦ none⟩ "\"$(a \"b)\" ')' \\) (${c}))\" d"
      "\"$(a \"b)\" ')' \\) (${c}))\" d".toList
      (.reading
        { rest := "$(a \"b)\" ')' \\) (${c}))\" d".toList, quoting := .double, word := some ⟨"", true⟩ }) :=
    Reaches.start.step rfl rfl
  have hr : "$(a \"b)\" ')' \\) (${c}))\" d".toList =
      "$(a \"b)\" ')' \\) (${c}))".toList ++ "\" d".toList := rfl
  exact ⟨ht, (substitutions_stay_whole hs rfl (by decide) ht hr).1⟩

/-- Double quotes inside double quotes are paired off from the left: those of the inner substitution end the
outer ones, and a parenthesis between them closes what it should not. -/
theorem parse_breaks_quoted_substitution :
    WellNested (fun _ ↦ True) "$(echo \"$(echo \")\")\")".toList ∧
      (parse ⟨none, fun _ ↦ none⟩ "echo $(echo \"$(echo \")\")\")" []).1.result =
        .ok (some ⟨[⟨.single, ["echo", "$(echo \"$(echo \")))"], []⟩]⟩) := by
  have hquoted : Nests (fun _ ↦ True) .quoted "$(echo \")\")".toList :=
    .substitution (k := .paren) (by simp)
      (.plain "echo ".toList rfl
        (.double (.plain [')'] rfl (.nil _)) trivial (.nil _))) (.nil _)
  have hinner : Nests (fun _ ↦ True) (.inside .paren) "echo \"$(echo \")\")\"".toList :=
    .plain "echo ".toList rfl (.double hquoted trivial (.nil _))
  exact ⟨⟨.paren, _, hinner, rfl⟩, by cbv⟩

end JobShell.Parser

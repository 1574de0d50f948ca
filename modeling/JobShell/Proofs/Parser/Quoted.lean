import JobShell.Proofs.Parser.Grammar

namespace JobShell.Parser

/-- A piece of a word, and the quoting it is written in. -/
inductive Segment
  | single (text : String)
  | double (text : String)
  | escaped (text : String)
  | plain (text : String)
  deriving DecidableEq, Repr

namespace Segment

def text : Segment → String
  | single t | double t | escaped t | plain t => t

def isQuoted : Segment → Bool
  | plain _ => false
  | _ => true

/-- Between double quotes these characters keep a meaning, unless a backslash precedes them. -/
def isActive (c : Char) : Bool := c == '\\' || c == '\x22' || c == '$' || c == '\x60'

def spellDouble (c : Char) : List Char := if isActive c then ['\\', c] else [c]

def spellEscaped (c : Char) : List Char := ['\\', c]

def spelling : Segment → List Char
  | single t => '\x27' :: t.toList ++ ['\x27']
  | double t => '\x22' :: t.toList.flatMap spellDouble ++ ['\x22']
  | escaped t => t.toList.flatMap spellEscaped
  | plain t => t.toList

def Valid : Segment → Prop
  | single t => '\x27' ∉ t.toList
  | double _ => True
  | escaped t => t.toList ≠ [] ∧ '\n' ∉ t.toList
  | plain t => t.toList ≠ [] ∧ t.toList.all isPlain

instance : (s : Segment) → Decidable s.Valid
  | single t => inferInstanceAs (Decidable ('\x27' ∉ t.toList))
  | double _ => inferInstanceAs (Decidable True)
  | escaped t => inferInstanceAs (Decidable (t.toList ≠ [] ∧ '\n' ∉ t.toList))
  | plain t => inferInstanceAs (Decidable (t.toList ≠ [] ∧ t.toList.all isPlain))

/-- At the beginning of a word the segment begins neither a comment nor a tilde prefix. -/
def Opens (s : Segment) : Prop :=
  s.spelling.head? ≠ some '#' ∧ s.spelling.head? ≠ some '~'

instance (s : Segment) : Decidable s.Opens :=
  inferInstanceAs (Decidable (s.spelling.head? ≠ some '#' ∧ s.spelling.head? ≠ some '~'))

def onto (s : Segment) (w : Option Word) : Word :=
  ⟨(w.getD {}).text ++ s.text, (w.getD {}).quoted || s.isQuoted⟩

end Segment

/-- The segments make up a word. -/
structure MakesWord (ss : List Segment) : Prop where
  nonempty : ss ≠ []
  valid : ∀ s ∈ ss, s.Valid
  opens : ∀ s ∈ ss.head?, s.Opens

instance (ss : List Segment) : Decidable (MakesWord ss) :=
  decidable_of_iff (ss ≠ [] ∧ (∀ s ∈ ss, s.Valid) ∧ ∀ s ∈ ss.head?, s.Opens)
    ⟨fun ⟨hn, hv, ho⟩ ↦ ⟨hn, hv, ho⟩, fun h ↦ ⟨h.nonempty, h.valid, h.opens⟩⟩

def meaning (ss : List Segment) : String := String.join (ss.map Segment.text)

/-- The characters are words in segments, with blanks between the words and any blanks around
them. -/
inductive Writes : List (List Segment) → List Char → Prop
  | nil : Writes [] []
  | blank {words : List (List Segment)} {cs : List Char} {b : Char} :
      isBlank b → Writes words cs → Writes words (b :: cs)
  | word {ss : List Segment} {words : List (List Segment)} {cs : List Char} :
      MakesWord ss → (∀ c ∈ cs.head?, isBlank c) → Writes words cs →
      Writes (ss :: words) (ss.flatMap Segment.spelling ++ cs)

variable {homes : HomeDirs} {d : Draft} {p : Option Pending} {rest : List Char}

theorem scan_spelled (homes : HomeDirs) (spell : Char → List Char)
    (s : Word → List Char → State) {cs : List Char}
    (hone : ∀ c ∈ cs, ∀ w rest, (s w (spell c ++ rest)).scan homes =
      (s { w with text := w.text.push c } rest).scan homes) (w : Word) (rest : List Char) :
    (s w (cs.flatMap spell ++ rest)).scan homes =
      (s { w with text := w.text ++ String.ofList cs } rest).scan homes := by
  induction cs generalizing w with
  | nil => simp
  | cons c cs ih =>
    obtain ⟨hc, hcs⟩ := List.forall_mem_cons.1 hone
    rw [List.flatMap_cons, List.append_assoc, hc, ih hcs, push_append_ofList]

theorem scan_singleQuoted (homes : HomeDirs) (d : Draft) (p : Option Pending) {t : String}
    (ht : '\x27' ∉ t.toList) (w : Word) (rest : List Char) :
    ({ d.reading p (some w) (t.toList ++ '\x27' :: rest) with quoting := .single } :
        State).scan homes =
      (d.reading p (some { w with text := w.text ++ t }) rest).scan homes := by
  have hone : ∀ c ∈ t.toList, ∀ w rest,
      ({ d.reading p (some w) ([c] ++ rest) with quoting := .single } : State).scan homes =
        ({ d.reading p (some { w with text := w.text.push c }) rest with quoting := .single } :
          State).scan homes := by
    intro c hc w rest
    have hne : c ≠ '\x27' := fun h ↦ ht (h ▸ hc)
    rw [List.singleton_append, State.scan_cons rfl]
    have hstep : State.step homes c
        { d.reading p (some w) rest with quoting := .single } =
        .ok { d.reading p (some { w with text := w.text.push c }) rest with quoting := .single } :=
      congrArg Except.ok (if_neg hne)
    exact congrArg (· >>= State.scan homes) hstep
  have hrun := scan_spelled homes (fun c ↦ [c])
    (fun w rest ↦ { d.reading p (some w) rest with quoting := .single }) hone w ('\x27' :: rest)
  rw [List.flatMap_singleton', String.ofList_toList] at hrun
  refine hrun.trans ?_
  rw [State.scan_cons rfl]
  rfl

theorem doubleQuoted_spelled (c : Char) (w : Word) (rest : List Char) :
    ({ d.reading p (some w) (Segment.spellDouble c ++ rest) with quoting := .double } :
        State).scan homes =
      ({ d.reading p (some { w with text := w.text.push c }) rest with quoting := .double } :
        State).scan homes := by
  by_cases hc : Segment.isActive c
  · have hstep : State.step homes '\\'
        { d.reading p (some w) (c :: rest) with quoting := .double } =
        .ok { d.reading p (some { w with text := w.text.push c }) rest with
          quoting := .double } := by
      simp only [Segment.isActive, Bool.or_eq_true, beq_iff_eq] at hc
      rcases hc with ((rfl | rfl) | rfl) | rfl <;> rfl
    rw [Segment.spellDouble, if_pos hc, List.cons_append, State.scan_cons rfl]
    exact congrArg (· >>= State.scan homes) hstep
  · have hstep : State.step homes c { d.reading p (some w) rest with quoting := .double } =
        .ok { d.reading p (some { w with text := w.text.push c }) rest with
          quoting := .double } := by
      simp only [Segment.isActive, Bool.or_eq_true, beq_iff_eq, not_or] at hc
      refine congrArg Except.ok ?_
      unfold State.doubleQuoted
      split <;> simp_all [State.push, Draft.reading]
    rw [Segment.spellDouble, if_neg hc, List.singleton_append, State.scan_cons rfl]
    exact congrArg (· >>= State.scan homes) hstep

theorem scan_doubleQuoted (homes : HomeDirs) (d : Draft) (p : Option Pending) (t : String)
    (w : Word) (rest : List Char) :
    ({ d.reading p (some w) (t.toList.flatMap Segment.spellDouble ++ '\x22' :: rest) with
        quoting := .double } : State).scan homes =
      (d.reading p (some { w with text := w.text ++ t }) rest).scan homes := by
  have hrun := scan_spelled homes Segment.spellDouble
    (fun w rest ↦ { d.reading p (some w) rest with quoting := .double })
    (fun c (_ : c ∈ t.toList) ↦ doubleQuoted_spelled c) w ('\x22' :: rest)
  rw [String.ofList_toList] at hrun
  refine hrun.trans ?_
  rw [State.scan_cons rfl]
  rfl

theorem scan_escapedChar {c : Char} (hc : c ≠ '\n') (w : Option Word) (rest : List Char) :
    (d.reading p w (Segment.spellEscaped c ++ rest)).scan homes =
      (d.reading p (some ⟨(w.getD {}).text.push c, true⟩) rest).scan homes := by
  have hescape : (d.reading p w (c :: rest)).escape =
      d.reading p (some ⟨(w.getD {}).text.push c, true⟩) rest := by
    unfold State.escape
    split
    · rename_i h
      cases h
    · rename_i h
      cases h
      exact absurd rfl hc
    · rename_i h
      cases h
      rfl
  rw [Segment.spellEscaped, List.cons_append, State.scan_cons rfl]
  exact congrArg (fun s ↦ Except.ok s >>= State.scan homes) hescape

theorem scan_escaped {t : String} (hne : t.toList ≠ []) (ht : '\n' ∉ t.toList) (w : Option Word) :
    (d.reading p w (t.toList.flatMap Segment.spellEscaped ++ rest)).scan homes =
      (d.reading p (some ⟨(w.getD {}).text ++ t, true⟩) rest).scan homes := by
  obtain ⟨c, cs, hcs⟩ := List.exists_cons_of_ne_nil hne
  have hline : ∀ c ∈ t.toList, c ≠ '\n' := fun c hc h ↦ ht (h ▸ hc)
  rw [hcs] at hline
  obtain ⟨hc, hrest⟩ := List.forall_mem_cons.1 hline
  -- Only the first character may have to begin the word; from there on it is quoted.
  have hrun := scan_spelled homes Segment.spellEscaped
    (fun w rest ↦ d.reading p (some ⟨w.text, true⟩) rest)
    (fun c' (hc' : c' ∈ cs) w ↦ scan_escapedChar (hrest c' hc') (some ⟨w.text, true⟩))
    ⟨(w.getD {}).text.push c, true⟩ rest
  rw [hcs, List.flatMap_cons, List.append_assoc, scan_escapedChar hc]
  refine hrun.trans ?_
  rw [push_append_ofList, ← hcs, String.ofList_toList]

theorem scan_plainSegment {t : String} (ht : t.toList.all isPlain) (w : Option Word)
    (hopen : w = none → PlainWord t) :
    (d.reading p w (t.toList ++ rest)).scan homes =
      (d.reading p (some ((Segment.plain t).onto w)) rest).scan homes := by
  cases w with
  | none =>
    have hword := scan_plainWord homes d p (hopen rfl) rest
    simpa [Segment.onto, Segment.text, Segment.isQuoted] using hword
  | some w =>
    refine (scan_plain (List.all_eq_true.1 ht) rest).trans ?_
    simp [Segment.onto, Segment.text, Segment.isQuoted]

/-- To read a segment is to add its text to the word. -/
theorem scan_segment (homes : HomeDirs) (d : Draft) {s : Segment} (hs : s.Valid) (w : Option Word)
    (hopen : w = none → s.Opens) (rest : List Char) :
    (d.reading p w (s.spelling ++ rest)).scan homes =
      (d.reading p (some (s.onto w)) rest).scan homes := by
  cases s with
  | single t =>
    have hrun := scan_singleQuoted homes d p hs ⟨(w.getD {}).text, true⟩ rest
    rw [Segment.spelling, List.cons_append, List.cons_append, List.append_assoc,
      State.scan_cons rfl]
    refine Eq.trans ?_ (hrun.trans ?_)
    · rfl
    · simp [Segment.onto, Segment.text, Segment.isQuoted]
  | double t =>
    have hrun := scan_doubleQuoted homes d p t ⟨(w.getD {}).text, true⟩ rest
    rw [Segment.spelling, List.cons_append, List.cons_append, List.append_assoc,
      State.scan_cons rfl]
    refine Eq.trans ?_ (hrun.trans ?_)
    · rfl
    · simp [Segment.onto, Segment.text, Segment.isQuoted]
  | escaped t =>
    refine (scan_escaped hs.1 hs.2 w).trans ?_
    simp [Segment.onto, Segment.text, Segment.isQuoted]
  | plain t => exact scan_plainSegment hs.2 w fun hw ↦ ⟨hs.1, hs.2, (hopen hw).1, (hopen hw).2⟩

theorem scan_segments (homes : HomeDirs) (d : Draft) {ss : List Segment} (hss : ∀ s ∈ ss, s.Valid)
    (w : Word) (rest : List Char) :
    ∃ quoted, (d.reading p (some w) (ss.flatMap Segment.spelling ++ rest)).scan homes =
      (d.reading p (some ⟨w.text ++ meaning ss, quoted⟩) rest).scan homes := by
  induction ss generalizing w with
  | nil => exact ⟨w.quoted, by simp [meaning]⟩
  | cons s ss ih =>
    obtain ⟨hs, hss⟩ := List.forall_mem_cons.1 hss
    obtain ⟨quoted, hrest⟩ := ih hss (s.onto (some w))
    refine ⟨quoted, ?_⟩
    rw [List.flatMap_cons, List.append_assoc, scan_segment homes d hs (some w) (by simp), hrest]
    simp [Segment.onto, meaning, String.append_assoc]

theorem MakesWord.scan {ss : List Segment} (h : MakesWord ss) (homes : HomeDirs) (d : Draft)
    (rest : List Char) :
    ∃ quoted, (d.reading none none (ss.flatMap Segment.spelling ++ rest)).scan homes =
      (d.reading none (some ⟨meaning ss, quoted⟩) rest).scan homes := by
  obtain ⟨hne, hvalid, hopens⟩ := h
  obtain ⟨s, ss, rfl⟩ := List.exists_cons_of_ne_nil hne
  obtain ⟨hs, hss⟩ := List.forall_mem_cons.1 hvalid
  obtain ⟨quoted, hrest⟩ := scan_segments (p := none) homes d hss (s.onto none) rest
  refine ⟨quoted, ?_⟩
  rw [List.flatMap_cons, List.append_assoc,
    scan_segment homes d hs none (fun _ ↦ hopens s rfl), hrest]
  simp [Segment.onto, meaning]

theorem Writes.advance {words : List (List Segment)} {cs : List Char} (h : Writes words cs)
    (homes : HomeDirs) (d : Draft) :
    (d.reading none none cs).advance homes =
      ((d.add (words.map fun ss ↦ .word (meaning ss))).reading none none []).endLine := by
  induction h generalizing d with
  | nil =>
    rw [advance_end (settles_self d)]
    simp [Draft.add]
  | @blank words cs b hb _ ih =>
    rw [← ih d]
    refine advance_of_scan ?_
    rw [scan_blank hb, settles_self d cs]
    rfl
  | @word ss words cs hss hgap _ ih =>
    obtain ⟨quoted, hscan⟩ := hss.scan homes d cs
    rw [advance_of_scan hscan, advance_settled (settles_word d _) (apart_of_head? hgap), ih,
      Draft.add_add]
    rfl

/-- Words are parsed into one command with the texts of their segments as arguments, however each
segment is quoted and whatever blanks stand between the words, without a look at further lines. -/
theorem parse_quoted_words (homes : HomeDirs) (answers : List Answer)
    {words : List (List Segment)} {line : String} (h : Writes words line.toList)
    (hne : words ≠ []) :
    parse homes line answers =
      (⟨.ok (some ⟨[⟨.single, words.map meaning, []⟩]⟩), line, 0⟩, answers) := by
  have hdraft : Draft.add {} (words.map fun ss ↦ .word (meaning ss)) =
      { words := words.map meaning } := by
    simp [Draft.add, List.flatMap_map, Token.words, Token.redirections, ← List.map_eq_flatMap]
  have hbegin : begin homes line =
      .finished (.ok [⟨.single, words.map meaning, []⟩]) := by
    refine (h.advance homes {}).trans ?_
    rw [hdraft, Draft.endLine_spoken (by simpa using hne)]
    rfl
  rw [parse, hbegin, finish]
  rfl

theorem parse_two_quoted_words :
    (parse ⟨none, fun _ ↦ none⟩ " a'b c'\"\\$d\ne\"\\~\\;\t\n''# " [.line "x"]).1.result =
      .ok (some ⟨[⟨.single, ["ab c$d\ne~;", "#"], []⟩]⟩) := by
  have hspells : Writes
      [[.plain "a", .single "b c", .double "$d\ne", .escaped "~;"], [.single "", .plain "#"]]
      " a'b c'\"\\$d\ne\"\\~\\;\t\n''# ".toList := by
    have hfirst : MakesWord [.plain "a", .single "b c", .double "$d\ne", .escaped "~;"] := by
      decide
    have hlast : MakesWord [.single "", .plain "#"] := by
      decide
    have hend : Writes [] " ".toList := .blank rfl .nil
    have hwords := Writes.word hfirst (by simp [isBlank])
      (.blank (b := '\t') rfl (.blank (b := '\n') rfl (.word hlast (by simp [isBlank]) hend)))
    exact .blank (b := ' ') rfl hwords
  have hparse := parse_quoted_words ⟨none, fun _ ↦ none⟩ [.line "x"] hspells (by simp)
  exact congrArg (fun o ↦ o.1.result) hparse

end JobShell.Parser

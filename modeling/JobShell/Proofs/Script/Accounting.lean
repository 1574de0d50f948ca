import Mathlib.Algebra.GroupWithZero.Nat
import JobShell.Script.Lines

namespace JobShell.Parser

def Answer.text? : Answer → Option String
  | line text => some text
  | _ => none

def texts (answers : List Answer) : List String := answers.filterMap Answer.text?

variable {homes : HomeDirs}

theorem intercalate_addition (line : String) (a : Answer) (ts : List String) :
    "\n".intercalate ((line ++ a.addition) :: ts) =
      "\n".intercalate (line :: (a.text?.toList ++ ts)) := by
  cases a with
  | line text =>
    have hline : line ++ (Answer.line text).addition = line ++ "\n" ++ text := by
      simp [Answer.addition, String.append_assoc]
    rw [hline, String.intercalate_cons_append]
    simp [Answer.text?, String.intercalate_cons_cons, String.append_assoc]
  | endOfInput => simp [Answer.addition, Answer.text?]
  | failed f => simp [Answer.addition, Answer.text?]

theorem exists_taken_finish (homes : HomeDirs) (p : Progress) (answers : List Answer)
    (line : String) (reads : Nat) :
    ∃ taken, answers = taken ++ (finish homes p answers line reads).2 ∧
      (finish homes p answers line reads).1.line = "\n".intercalate (line :: texts taken) ∧
      ∀ front f behind, taken = front ++ .failed f :: behind → behind = [] ∧
        (finish homes p answers line reads).1.result = .error (.failure f) := by
  fun_induction finish homes p answers line reads with
  | case1 => exact ⟨[], by simp [texts]⟩
  | case2 => exact ⟨[], by simp [texts]⟩
  | case3 line reads w ih => exact ih
  | case4 line reads w a later ih =>
    obtain ⟨taken, htaken, hline, hfailed⟩ := ih
    refine ⟨a :: taken, ?_, ?_, ?_⟩
    · rw [List.cons_append, ← htaken]
    · rw [hline, intercalate_addition]
      cases a <;> rfl
    · intro front f behind h
      cases front with
      | nil =>
        obtain ⟨rfl, rfl⟩ := List.cons.inj h
        have hresume : w.resume homes (.failed f) = .finished (.error (.failure f)) := rfl
        rw [hresume, finish] at htaken ⊢
        exact ⟨by simpa using htaken, rfl⟩
      | cons b front => exact hfailed front f behind (List.cons.inj h).2

theorem exists_taken_parse (homes : HomeDirs) (line : String) (answers : List Answer) :
    ∃ taken, answers = taken ++ (parse homes line answers).2 ∧
      (parse homes line answers).1.line = "\n".intercalate (line :: texts taken) ∧
      ∀ front f behind, taken = front ++ .failed f :: behind → behind = [] ∧
        (parse homes line answers).1.result = .error (.failure f) :=
  exists_taken_finish homes (begin homes line) answers line 0

theorem length_intercalate (line : String) (ts : List String) :
    ("\n".intercalate (line :: ts)).length = line.length + (ts.map fun t ↦ t.length + 1).sum := by
  induction ts generalizing line with
  | nil => simp
  | cons t ts ih =>
    have hnewline : "\n".length = 1 := rfl
    rw [String.intercalate_cons_cons, String.length_append, ih, String.length_append, hnewline,
      List.map_cons, List.sum_cons]
    omega

end JobShell.Parser

namespace JobShell.Script

open JobShell.Parser (Answer texts)

/-- Reading on from `l` gives these lines in turn and comes to `m`. -/
inductive Lines.Gives : Lines → List String → Lines → Prop
  | nil (l : Lines) : Gives l [] l
  | next {l m n : Lines} {text : String} {ts : List String} :
      l.next = (some (.ok text), m) → Gives m ts n → Gives l (text :: ts) n

def Result.line? : Result → Option String
  | parsed o _ => some o.line
  | unreadable _ => none

variable {homes : HomeDirs} {l m : Lines} {ts : List String} {later : List Answer}

theorem answers_none (h : l.next = (none, m)) : l.answers = [] := by
  rw [Lines.answers, Lines.all]
  split
  · rfl
  · rename_i h'
    rw [h] at h'
    cases h'

theorem all_some {r : Except StreamFault String} (h : l.next = (some r, m)) :
    l.all.1 = r :: m.all.1 := by
  rw [Lines.all]
  split
  · rename_i h'
    rw [h] at h'
    cases h'
  · rename_i h'
    rw [h] at h'
    cases h'
    rfl

theorem answers_line {text : String} (h : l.next = (some (.ok text), m)) :
    l.answers = .line text :: m.answers := by
  rw [Lines.answers, all_some h]
  rfl

theorem answers_failed {f : StreamFault} (h : l.next = (some (.error f), m)) :
    l.answers = .failed (.stream f) :: m.answers := by
  rw [Lines.answers, all_some h]
  rfl

theorem number_next {text : String} (h : l.next = (some (.ok text), m)) :
    m.number = l.number + 1 := by
  unfold Lines.next at h
  grind

theorem exists_gives (h : l.answers = ts.map .line ++ later) :
    ∃ m, l.Gives ts m ∧ m.answers = later ∧ m.number = l.number + ts.length := by
  induction ts generalizing l with
  | nil => exact ⟨l, .nil l, h, rfl⟩
  | cons t ts ih =>
    rcases hn : l.next with ⟨_ | r, m⟩
    · rw [answers_none hn] at h
      cases h
    · cases r with
      | error f =>
        rw [answers_failed hn] at h
        cases h
      | ok text =>
        rw [answers_line hn] at h
        obtain ⟨hhead, htail⟩ := List.cons.inj h
        cases hhead
        obtain ⟨k, hgives, hk, hnumber⟩ := ih htail
        refine ⟨k, .next hn hgives, hk, ?_⟩
        rw [hnumber, number_next hn, List.length_cons]
        omega

theorem not_endOfInput_mem (l : Lines) : .endOfInput ∉ l.answers := by
  intro h
  obtain ⟨r, -, hr⟩ := List.mem_map.1 h
  cases r <;> cases hr

theorem countLines_eq (answers : List Answer) : countLines answers = (texts answers).length := by
  induction answers with
  | nil => rfl
  | cons a answers ih =>
    rw [countLines] at ih ⊢
    cases a <;> simp [texts, List.filterMap_cons, Answer.text?, ih]

theorem texts_append (as bs : List Answer) : texts (as ++ bs) = texts as ++ texts bs :=
  List.filterMap_append

theorem eq_map_texts {taken : List Answer} (hend : .endOfInput ∉ taken)
    (hfailed : ∀ f, .failed f ∉ taken) : taken = (texts taken).map .line := by
  induction taken with
  | nil => rfl
  | cons a taken ih =>
    have htaken := ih (fun h ↦ hend (List.mem_cons_of_mem a h))
      fun f h ↦ hfailed f (List.mem_cons_of_mem a h)
    cases a with
    | line text => exact congrArg (Answer.line text :: ·) htaken
    | endOfInput => exact absurd List.mem_cons_self hend
    | failed f => exact absurd List.mem_cons_self (hfailed f)

theorem exists_line_parse (homes : HomeDirs) (line : String) {answers : List Answer}
    (hend : .endOfInput ∉ answers) :
    ∃ ts later, answers = ts.map .line ++ later ∧
      (Parser.parse homes line answers).1.line = "\n".intercalate (line :: ts) ∧
      countLines answers - countLines (Parser.parse homes line answers).2 = ts.length ∧
      ∀ x, (Parser.parse homes line answers).1.result = .ok x →
        later = (Parser.parse homes line answers).2 := by
  obtain ⟨taken, htaken, hline, hfailed⟩ := Parser.exists_taken_parse homes line answers
  have hcount : countLines answers - countLines (Parser.parse homes line answers).2 =
      (texts taken).length := by
    have hlength := congrArg (fun as ↦ (texts as).length) htaken
    rw [countLines_eq, countLines_eq]
    simp only [texts_append, List.length_append] at hlength
    omega
  have hends : ∀ {as}, as ⊆ taken → .endOfInput ∉ as := fun has h ↦
    hend (htaken ▸ List.mem_append_left _ (has h))
  -- a failure, if there is one, is the last answer taken
  by_cases hf : ∃ f, .failed f ∈ taken
  · obtain ⟨f, hf⟩ := hf
    obtain ⟨front, behind, hsplit⟩ := List.append_of_mem hf
    obtain ⟨rfl, hresult⟩ := hfailed front f behind hsplit
    have hfront : ∀ g, .failed g ∉ front := by
      intro g hg
      obtain ⟨front', behind', hfront⟩ := List.append_of_mem hg
      rw [hfront, List.append_assoc, List.cons_append] at hsplit
      exact absurd (hfailed front' g _ hsplit).1 (by simp)
    have hlines := eq_map_texts (hends (by simp [hsplit])) hfront
    have htexts : texts taken = texts front := by
      rw [hsplit, texts_append]
      simp [texts, Answer.text?]
    refine ⟨texts front, .failed f :: (Parser.parse homes line answers).2, ?_, htexts ▸ hline,
      htexts ▸ hcount, fun x hx ↦ ?_⟩
    · rw [← hlines]
      simpa [hsplit] using htaken
    · rw [hresult] at hx
      cases hx
  · have hlines := eq_map_texts (hends (List.Subset.refl _)) fun f h ↦ hf ⟨f, h⟩
    exact ⟨texts taken, (Parser.parse homes line answers).2, hlines ▸ htaken, hline, hcount,
      fun _ _ ↦ rfl⟩

/-- The first result of a script: its first line cannot be read, or a command takes the first
lines. -/
theorem parseAnswers_eq_cons {number : Nat} {answers : List Answer} {r : Result}
    {rs : List Result} (hend : .endOfInput ∉ answers)
    (h : parseAnswers homes number answers = r :: rs) :
    (∃ f, r = .unreadable f ∧ rs = []) ∨
      ∃ ts later o, ts ≠ [] ∧ answers = ts.map .line ++ later ∧
        r = .parsed o (number + ts.length) ∧ o.line = "\n".intercalate ts ∧
        ((∃ f, o.result = .error f) ∧ rs = [] ∨
          (∃ x, o.result = .ok x) ∧ rs = parseAnswers homes (number + ts.length) later) := by
  cases answers with
  | nil =>
    rw [parseAnswers] at h
    cases h
  | cons a answers =>
    cases a with
    | endOfInput => exact absurd List.mem_cons_self hend
    | failed f =>
      rw [parseAnswers] at h
      cases h
      exact .inl ⟨f, rfl, rfl⟩
    | line line =>
      obtain ⟨ts, later, hts, hline, hcount, hlater⟩ := exists_line_parse homes line
        fun h ↦ hend (List.mem_cons_of_mem _ h)
      rw [parseAnswers] at h
      simp only [hcount, Nat.add_assoc, Nat.add_comm 1] at h
      refine .inr ⟨line :: ts, later, (Parser.parse homes line answers).1, by simp,
        by rw [hts]; rfl, ?_⟩
      split at h
      · rename_i x hx
        obtain ⟨hr, hrs⟩ := List.cons.inj h
        refine ⟨hr.symm, hline, .inr ⟨⟨x, hx⟩, ?_⟩⟩
        rw [← hrs, hlater x hx]
        rfl
      · rename_i f hf
        obtain ⟨hr, hrs⟩ := List.cons.inj h
        exact ⟨hr.symm, hline, .inl ⟨⟨f, hf⟩, hrs.symm⟩⟩

theorem eq_nil_of_parseAnswers {number : Nat} {answers : List Answer} (hend : .endOfInput ∉ answers)
    (h : parseAnswers homes number answers = []) : answers = [] := by
  cases answers with
  | nil => rfl
  | cons a answers =>
    cases a with
    | endOfInput => exact absurd List.mem_cons_self hend
    | failed f =>
      rw [parseAnswers] at h
      cases h
    | line line =>
      rw [parseAnswers] at h
      split at h <;> cases h

theorem exists_lines_parseAnswers {number n : Nat} {answers : List Answer} {rs post : List Result}
    {o : Parser.Outcome} (hend : .endOfInput ∉ answers)
    (h : parseAnswers homes number answers = rs ++ Result.parsed o n :: post) :
    ∃ ts later, ts ≠ [] ∧ answers = ts.map .line ++ later ∧ n = number + ts.length ∧
      "\n".intercalate ((rs ++ [Result.parsed o n]).filterMap Result.line?) =
        "\n".intercalate ts ∧
      (post = [] → (∃ x, o.result = .ok x) → later = []) := by
  induction rs generalizing number answers with
  | nil =>
    rcases parseAnswers_eq_cons hend h with ⟨f, hf, -⟩ |
      ⟨ts, later, o', hne, hts, ho, hline, hrest⟩
    · cases hf
    · cases ho
      refine ⟨ts, later, hne, hts, rfl, by simpa [Result.line?] using hline, ?_⟩
      rintro rfl ⟨x, hx⟩
      rcases hrest with ⟨⟨f, hf⟩, -⟩ | ⟨-, hrest⟩
      · rw [hf] at hx
        cases hx
      · exact eq_nil_of_parseAnswers (fun h ↦ hend (hts ▸ List.mem_append_right _ h)) hrest.symm
  | cons r rs ih =>
    rcases parseAnswers_eq_cons hend h with ⟨f, hf, hrest⟩ |
      ⟨ts, later, o', hne, hts, rfl, hline, hrest⟩
    · simp at hrest
    · have hlater : rs ++ Result.parsed o n :: post =
          parseAnswers homes (number + ts.length) later := by
        rcases hrest with ⟨-, hnil⟩ | ⟨-, hrest⟩
        · simp at hnil
        · exact hrest
      have hends : .endOfInput ∉ later := fun h ↦ hend (hts ▸ List.mem_append_right _ h)
      obtain ⟨us, later', hneus, hus, hn, hlines, hpost⟩ := ih hends hlater.symm
      refine ⟨ts ++ us, later', by simp [hne], ?_, ?_, ?_, hpost⟩
      · rw [hts, hus, List.map_append, List.append_assoc]
      · rw [hn, List.length_append, Nat.add_assoc]
      · have hsome : (Result.parsed o' (number + ts.length)).line? = some o'.line := rfl
        rw [String.intercalate_append_of_ne_nil hne hneus, ← hlines, ← hline, List.cons_append,
          List.filterMap_cons_some hsome]
        exact String.intercalate_cons_of_ne_nil (by simp [Result.line?])

/-- No line is lost or duplicated. The line that a parse leaves is the one that it began with and
every line that it was given, in order, each behind a newline; its characters are those consumed.
The lines that the parses of a script leave, up to any of them, are the lines that the script has
given so far, as many as its line number says; and a script whose last command was parsed has
ended. -/
theorem parse_keeps_lines (homes : HomeDirs) :
    (∀ line answers, ∃ taken, answers = taken ++ (Parser.parse homes line answers).2 ∧
      (Parser.parse homes line answers).1.line = "\n".intercalate (line :: texts taken) ∧
      (Parser.parse homes line answers).1.consumed =
        line.length + ((texts taken).map fun text ↦ text.length + 1).sum) ∧
    ∀ (l : Lines) rs o n post, parse homes l = rs ++ Result.parsed o n :: post →
      ∃ ts m, l.Gives ts m ∧ m.number = n ∧ n = l.number + ts.length ∧
        "\n".intercalate ((rs ++ [Result.parsed o n]).filterMap Result.line?) =
          "\n".intercalate ts ∧
        (post = [] → (∃ x, o.result = .ok x) → m.next.1 = none) := by
  refine ⟨fun line answers ↦ ?_, fun l rs o n post h ↦ ?_⟩
  · obtain ⟨taken, htaken, hline, -⟩ := Parser.exists_taken_parse homes line answers
    refine ⟨taken, htaken, hline, ?_⟩
    rw [Parser.Outcome.consumed, hline, Parser.length_intercalate]
  · obtain ⟨ts, later, -, hts, hn, hlines, hpost⟩ :=
      exists_lines_parseAnswers (not_endOfInput_mem l) h
    obtain ⟨m, hgives, hm, hnumber⟩ := exists_gives hts
    refine ⟨ts, m, hgives, hnumber.trans hn.symm, hn, hlines, fun hnil hok ↦ ?_⟩
    rcases hnext : m.next with ⟨_ | r, m'⟩
    · rfl
    · have hanswers := hm.trans (hpost hnil hok)
      cases r with
      | ok text =>
        rw [answers_line hnext] at hanswers
        cases hanswers
      | error f =>
        rw [answers_failed hnext] at hanswers
        cases hanswers

theorem parse_keeps_lines_of_two_commands :
    ∃ o ts m, parse ⟨none, fun _ ↦ none⟩ ⟨"a 'x\ny' <<E\nz\nE\nb |\n".toUTF8.toList, 0⟩ =
        [.parsed ⟨.ok (some ⟨[⟨.single, ["a", "x\ny"], [.document 0 "z\n"]⟩]⟩),
          "a 'x\ny' <<E\nz\nE", 3⟩ 4, .parsed o 5] ∧
      Lines.Gives ⟨"a 'x\ny' <<E\nz\nE\nb |\n".toUTF8.toList, 0⟩ ts m ∧ m.number = 5 ∧
      ts.length = 5 ∧ "\n".intercalate ts = "a 'x\ny' <<E\nz\nE\nb |" := by
  have hparse : parse ⟨none, fun _ ↦ none⟩ ⟨"a 'x\ny' <<E\nz\nE\nb |\n".toUTF8.toList, 0⟩ =
      [.parsed ⟨.ok (some ⟨[⟨.single, ["a", "x\ny"], [.document 0 "z\n"]⟩]⟩),
          "a 'x\ny' <<E\nz\nE", 3⟩ 4,
        .parsed ⟨.error (.failure (.unexpectedEnd "a command")), "b |", 1⟩ 5] := by
    have hanswers : Lines.answers ⟨"a 'x\ny' <<E\nz\nE\nb |\n".toUTF8.toList, 0⟩ =
        [.line "a 'x", .line "y' <<E", .line "z", .line "E", .line "b |"] := by
      have hbytes : "a 'x\ny' <<E\nz\nE\nb |\n".toUTF8.toList = [97, 32, 39, 120, 10, 121, 39, 32, 60, 60, 69, 10,
          122, 10, 69, 10, 98, 32, 124, 10] := by
        decide +kernel
      rw [hbytes, answers_line rfl, answers_line rfl, answers_line rfl, answers_line rfl, answers_line rfl,
        answers_none rfl]
      rfl
    have hfirst : Parser.parse ⟨none, fun _ ↦ none⟩ "a 'x" [.line "y' <<E", .line "z", .line "E", .line "b |"] =
        (⟨.ok (some ⟨[⟨.single, ["a", "x\ny"], [.document 0 "z\n"]⟩]⟩), "a 'x\ny' <<E\nz\nE", 3⟩, [.line "b |"]) := by
      cbv
    have hsecond : Parser.parse ⟨none, fun _ ↦ none⟩ "b |" [] =
        (⟨.error (.failure (.unexpectedEnd "a command")), "b |", 1⟩, []) := by
      cbv
    rw [parse, hanswers, parseAnswers]
    simp only [hfirst]
    rw [parseAnswers]
    simp only [hsecond]
    rfl
  obtain ⟨ts, m, hgives, hnumber, hlength, hlines, -⟩ :=
    (parse_keeps_lines ⟨none, fun _ ↦ none⟩).2 _ [_] _ _ [] hparse
  exact ⟨_, ts, m, hparse, hgives, hnumber, by simpa using hlength.symm, hlines.symm.trans rfl⟩

end JobShell.Script

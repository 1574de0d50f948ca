import Mathlib.Algebra.GroupWithZero.Nat
import JobShell.Proofs.Parser.Recalled
import JobShell.Proofs.Parser.Step

namespace JobShell.Parser

def Operator.isDocument : Operator → Bool
  | .hereDocument _ => true
  | _ => false

namespace State

variable {homes : HomeDirs} {s t : State} {c : Char} {cs : List Char}

def opensDocument : List Char → Bool
  | '<' :: '<' :: '<' :: _ => false
  | '<' :: '<' :: _ => true
  | _ => false

def meetsDocument (s : State) : Bool := s.nesting.isEmpty && s.quoting == .none && opensDocument s.rest

/-- The here-documents that are still to be read: those asked for, and one whose delimiter is awaited. -/
def due (s : State) : Nat := s.requests.length + s.awaitsDelimiter.toNat

theorem due_congr (hp : t.pending = s.pending) (hq : t.requests = s.requests) : t.due = s.due := by
  unfold due awaitsDelimiter
  rw [hp, hq]

theorem due_of_keeps (h : Keeps s t) : t.due = s.due := due_congr h.pending h.requests

theorem due_of_pending {p : Pending} (hp : t.pending = some p) :
    t.due = t.requests.length + p.operator.isDocument.toNat := by
  obtain ⟨operator, source, target⟩ := p
  unfold due awaitsDelimiter
  rw [hp]
  cases operator <;> rfl

theorem due_of_pending_eq_none (hp : t.pending = none) : t.due = t.requests.length := by
  unfold due awaitsDelimiter
  rw [hp]
  rfl

theorem due_finishWord (h : s.finishWord = .ok t) : t.due ≤ s.due := by
  simp only [finishWord] at h
  split at h
  · cases h
    exact Nat.le_refl _
  split at h
  · cases h
    exact Nat.le_of_eq (due_congr rfl rfl)
  rename_i p hp
  rw [due_of_pending hp]
  split at h
  · simp only [bind, Except.bind] at h
    split at h <;> cases h
    exact (due_of_pending_eq_none rfl).trans_le (Nat.le_add_right _ _)
  split at h
  · cases h
    exact (due_of_pending_eq_none rfl).trans_le (Nat.le_add_right _ _)
  · cases h
    exact (due_of_pending_eq_none rfl).trans_le (Nat.le_add_right _ _)
  · rename_i ho
    cases h
    rw [due_of_pending_eq_none rfl, ho, List.length_append]
    exact Nat.le_refl _
  · cases h

theorem due_link {k : Connector} (h : s.link k = .ok t) : t.due ≤ s.due := by
  simp only [link, bind, Except.bind] at h
  split at h
  · cases h
  · rename_i u hu
    have hended := due_finishWord hu
    simp only [closeCommand] at h
    repeat' split at h
    all_goals cases h
    all_goals exact hended

theorem due_beginRedirection (h : s.beginRedirection c = .ok t) :
    t.due ≤ s.due + (operatorAt c s.rest).1.isDocument.toNat ∧ t.rest = (operatorAt c s.rest).2.2 := by
  simp only [beginRedirection, bind, Except.bind] at h
  split at h
  · cases h
    refine ⟨?_, rfl⟩
    rw [due_of_pending rfl]
    exact Nat.add_le_add_right (Nat.le_add_right _ _) _
  · split at h
    · cases h
    · rename_i u hu
      have hended := due_finishWord hu
      split at h
      · cases h
      · rename_i hp
        cases h
        refine ⟨?_, rest_finishWord hu⟩
        rw [due_of_pending rfl]
        exact Nat.add_le_add_right ((Nat.le_add_right _ _).trans hended) _

theorem isDocument_operatorAt (hc : c = '<' ∨ c = '>') (cs : List Char) :
    (operatorAt c cs).1.isDocument = opensDocument (c :: cs) := by
  rcases hc with rfl | rfl
  · simp only [operatorAt, Char.reduceEq, if_false]
    unfold opensDocument
    split <;> split <;> grind [Operator.isDocument]
  · simp only [operatorAt, if_true]
    split <;> rfl

theorem length_operatorAt (c : Char) (cs : List Char) :
    (operatorAt c cs).2.2.length + (operatorAt c cs).1.isDocument.toNat ≤ cs.length := by
  unfold operatorAt
  split
  · split <;> simp [Operator.isDocument]
  · split <;> simp only [Operator.isDocument, List.length_cons, Bool.toNat_true, Bool.toNat_false] <;> omega

theorem eq_of_opensDocument (h : opensDocument (c :: cs)) : c = '<' := by
  unfold opensDocument at h
  grind

theorem meetsDocument_eq_false (hr : s.rest = c :: cs) (h : ¬ (s.EndsWord c ∧ c = '<')) :
    s.meetsDocument = false := by
  refine Bool.eq_false_iff.2 fun hmeets ↦ h ?_
  simp only [meetsDocument, hr, Bool.and_eq_true, List.isEmpty_iff, beq_iff_eq] at hmeets
  obtain ⟨⟨hnesting, hquoting⟩, hopens⟩ := hmeets
  obtain rfl := eq_of_opensDocument hopens
  exact ⟨⟨hnesting, hquoting, .inr rfl⟩, rfl⟩

/-- A step adds a here-document to those that are due only where it meets the operator of one, and then it
takes two characters. -/
theorem due_step (hr : s.rest = c :: cs) (h : State.step homes c { s with rest := cs } = .ok t) :
    t.due ≤ s.due + s.meetsDocument.toNat ∧ t.rest.length + s.meetsDocument.toNat < s.rest.length := by
  have hlength : t.rest.length ≤ cs.length := (suffix_step h).length_le
  have hplain (hdue : t.due ≤ s.due) (hmeets : ¬ (s.EndsWord c ∧ c = '<')) :
      t.due ≤ s.due + s.meetsDocument.toNat ∧ t.rest.length + s.meetsDocument.toNat < s.rest.length := by
    rw [meetsDocument_eq_false hr hmeets, hr]
    exact ⟨hdue, Nat.lt_succ_of_le hlength⟩
  rcases step_cases homes { s with rest := cs } c with
    ⟨hnot, u, hu, hkeeps⟩ | ⟨hends, ⟨hb, heq⟩ | ⟨k, r, hk, heq⟩ | ⟨harrow, heq⟩⟩
  · obtain rfl := Except.ok.inj (hu.symm.trans h)
    have hdue := due_of_keeps hkeeps
    exact hplain (Nat.le_of_eq hdue) fun hmeets ↦ hnot hmeets.1
  · have hdue := due_finishWord (heq.symm.trans h)
    refine hplain hdue fun hmeets ↦ ?_
    rw [hmeets.2] at hb
    cases hb
  · have hdue := due_link (heq.symm.trans h)
    refine hplain hdue fun hmeets ↦ ?_
    rw [hmeets.2] at hk
    cases hk
  · obtain ⟨hdue, hrest⟩ := due_beginRedirection (heq.symm.trans h)
    have hmeets : s.meetsDocument = (operatorAt c cs).1.isDocument := by
      have hnesting : s.nesting = [] := hends.1
      have hquoting : s.quoting = .none := hends.2.1
      rw [isDocument_operatorAt harrow, meetsDocument, hr, hnesting, hquoting]
      rfl
    have htaken := length_operatorAt c cs
    rw [hmeets, hrest, hr]
    exact ⟨hdue, Nat.lt_succ_of_le htaken⟩

end State

def Waiting.due (w : Waiting) : Nat :=
  w.state.due +
    match w.reason with
    | .document _ _ later => later.length + 1
    | _ => 0

def Waiting.weight (w : Waiting) : Nat :=
  w.due +
    match w.reason with
    | .joinedLine => 2
    | _ => 1

def Progress.due : Progress → Nat
  | finished _ => 0
  | waiting w => w.due

theorem Waiting.weight_le (w : Waiting) : w.weight ≤ w.due + 2 := by
  unfold weight
  split <;> omega

def Progress.weight : Progress → Nat
  | finished _ => 0
  | waiting w => w.weight

def Turn.due : Turn → Nat
  | reading s => s.due
  | stopped p => p.due

def Turn.weight : Turn → Nat
  | reading s => s.rest.length + s.due + 3
  | stopped p => p.weight

def Answer.weight : Answer → Nat
  | line text => text.length + 4
  | _ => 0

theorem Progress.due_le {p : Progress} {n : Nat} (h : p.weight ≤ n + 1) : p.due ≤ n := by
  cases p with
  | finished r => exact Nat.zero_le n
  | waiting w =>
    simp only [weight, Waiting.weight] at h
    simp only [due]
    split at h <;> omega

namespace State

variable {s t : State}

theorem weight_endLine (s : State) : s.endLine.weight ≤ s.due + 1 := by
  obtain h | h | h := s.endLine_cases <;> rw [h]
  · exact Nat.le_refl _
  · exact Nat.zero_le _
  · exact Nat.zero_le _

theorem weight_readDocuments (s : State) (rs : List Request) :
    (s.readDocuments rs).weight ≤ s.due + rs.length + 1 := by
  cases rs with
  | nil => exact s.weight_endLine
  | cons r later => exact Nat.le_refl _

theorem weight_endBuffer (s : State) : s.endBuffer.weight ≤ s.due + 1 := by
  obtain ⟨expected, h⟩ | ⟨f, h⟩ | ⟨t, -, -, ht, hp, h⟩ := s.endBuffer_cases <;> rw [h]
  · exact Nat.le_refl _
  · exact Nat.zero_le _
  · have hasked := due_finishWord ht
    have hread := weight_readDocuments { t with requests := [] } t.requests
    have hnone : due { t with requests := [] } = 0 := due_of_pending_eq_none hp
    rw [due_of_pending_eq_none hp] at hasked
    omega

theorem weight_meetEnd (s : State) : s.meetEnd.weight ≤ s.due + 2 := by
  unfold meetEnd
  split
  · exact Nat.le_refl _
  · exact Nat.le_succ_of_le s.weight_endBuffer

theorem due_meetEnd (s : State) : s.meetEnd.due ≤ s.due := by
  unfold meetEnd
  split
  · exact Nat.le_refl _
  · exact Progress.due_le s.weight_endBuffer

theorem due_fill {r : Request} {body : String} (h : s.fill r body = .ok t) : t.due = s.due := by
  simp only [fill] at h
  repeat' split at h
  all_goals cases h
  all_goals exact due_congr rfl rfl

end State

namespace Waiting

theorem weight_endDocument (w : Waiting) (r : Request) (body : String) (later : List Request) :
    (w.endDocument r body later).weight ≤ w.state.due + later.length + 1 := by
  unfold endDocument
  split
  · exact Nat.zero_le _
  · rename_i t ht
    rw [← State.due_fill ht]
    exact t.weight_readDocuments later

theorem weight_take (w : Waiting) (a : Answer) : (w.take a).weight < w.weight + a.weight := by
  have hpositive : 0 < w.weight := by
    unfold weight
    split <;> omega
  obtain ⟨s, reason⟩ := w
  have hsame (text : List Char) : State.due { s with rest := text } = s.due := rfl
  cases a with
  | failed f => exact Nat.lt_of_lt_of_le hpositive (Nat.le_add_right _ _)
  | endOfInput =>
    cases reason with
    | joinedLine => exact Nat.lt_succ_of_le s.weight_endBuffer
    | required expected => exact Nat.succ_pos _
    | document r body later => exact Nat.lt_succ_of_le (weight_endDocument ..)
  | line text =>
    cases reason with
    | joinedLine =>
      simp only [take, weight, due, Turn.weight, Answer.weight, extension, hsame, String.length_toList]
      omega
    | required expected =>
      simp only [take, weight, due, Turn.weight, Answer.weight, extension, hsame, String.length_toList,
        List.length_cons]
      omega
    | document r body later =>
      have hended : (endDocument ⟨s, .document r body later⟩ r body later).weight ≤ s.due + later.length + 1 :=
        weight_endDocument ..
      simp only [take, weight, due, Turn.weight, Answer.weight]
      split
      · omega
      · simp only [Progress.weight, weight, due]
        omega

theorem due_take_line (w : Waiting) (text : String) : (w.take (.line text)).due ≤ w.due := by
  obtain ⟨s, reason⟩ := w
  cases reason with
  | joinedLine => exact Nat.le_refl _
  | required expected => exact Nat.le_refl _
  | document r body later =>
    simp only [take, Turn.due]
    split
    · exact Progress.due_le ((weight_endDocument ..).trans (Nat.le_succ _))
    · exact Nat.le_refl _

end Waiting

theorem Turn.weight_step {homes : HomeDirs} {s t : State} {c : Char} {cs : List Char} (hr : s.rest = c :: cs)
    (ht : { s with rest := cs }.step homes c = .ok t) : weight (.reading t) < weight (.reading s) := by
  obtain ⟨hdue, hlength⟩ := State.due_step hr ht
  simp only [weight]
  omega

theorem Turn.weight_meetEnd (s : State) : weight (.stopped s.meetEnd) < weight (.reading s) := by
  have hend := s.weight_meetEnd
  simp only [weight]
  omega

/-- A parse goes from a turn to its end, one character, one end of the buffer or one question at a time. It takes
so many turns and is given these replies by a source of lines that says `answers` and then that the input has
ended; `left` is what the source has still to say. -/
inductive Finishes (homes : HomeDirs) :
    Turn → List Answer → Nat → List Answer → Except Fault (List Command) → List Answer → Prop
  | finished (r : Except Fault (List Command)) (answers : List Answer) :
      Finishes homes (.stopped (.finished r)) answers 0 [] r answers
  | step {s t : State} {c : Char} {cs : List Char} {answers given left : List Answer} {n : Nat}
      {r : Except Fault (List Command)} :
      s.rest = c :: cs → { s with rest := cs }.step homes c = .ok t →
      Finishes homes (.reading t) answers n given r left → Finishes homes (.reading s) answers (n + 1) given r left
  | fault {s : State} {c : Char} {cs : List Char} {answers : List Answer} {f : Fault} :
      s.rest = c :: cs → { s with rest := cs }.step homes c = .error f →
      Finishes homes (.reading s) answers 1 [] (.error f) answers
  | bufferEnd {s : State} {answers given left : List Answer} {n : Nat} {r : Except Fault (List Command)} :
      s.rest = [] → Finishes homes (.stopped s.meetEnd) answers n given r left →
      Finishes homes (.reading s) answers (n + 1) given r left
  | answer {w : Waiting} {a : Answer} {answers given left : List Answer} {n : Nat}
      {r : Except Fault (List Command)} :
      Finishes homes (w.take a) answers n given r left →
      Finishes homes (.stopped (.waiting w)) (a :: answers) (n + 1) (a :: given) r left
  | ended {w : Waiting} {given left : List Answer} {n : Nat} {r : Except Fault (List Command)} :
      Finishes homes (w.take .endOfInput) [] n given r left →
      Finishes homes (.stopped (.waiting w)) [] (n + 1) (.endOfInput :: given) r left

variable {homes : HomeDirs} {t : Turn} {answers given left : List Answer} {n : Nat}
  {r : Except Fault (List Command)}

/-- Every parse comes to an end: each turn lowers its weight and that of the answers together. -/
theorem exists_finishes (homes : HomeDirs) (t : Turn) (answers : List Answer) :
    ∃ n given r left, Finishes homes t answers n given r left := by
  -- each turn lowers its own weight, and an answer brings no more than it weighs
  induction hm : t.weight + (answers.map Answer.weight).sum using Nat.strongRecOn generalizing t answers with
  | _ m ih =>
    subst hm
    cases t with
    | reading s =>
      cases hr : s.rest with
      | nil =>
        obtain ⟨n, given, r, left, h⟩ := ih _ (Nat.add_lt_add_right (Turn.weight_meetEnd s) _) _ answers rfl
        exact ⟨n + 1, given, r, left, .bufferEnd hr h⟩
      | cons c cs =>
        cases ht : { s with rest := cs }.step homes c with
        | error f => exact ⟨1, [], _, answers, .fault hr ht⟩
        | ok u =>
          obtain ⟨n, given, r, left, h⟩ := ih _ (Nat.add_lt_add_right (Turn.weight_step hr ht) _) _ answers rfl
          exact ⟨n + 1, given, r, left, .step hr ht h⟩
    | stopped p =>
      cases p with
      | finished r => exact ⟨0, [], r, answers, .finished r answers⟩
      | waiting w =>
        cases answers with
        | nil =>
          obtain ⟨n, given, r, left, h⟩ := ih _ (Nat.add_lt_add_right (w.weight_take .endOfInput) _) _ [] rfl
          exact ⟨n + 1, _, r, left, .ended h⟩
        | cons a answers =>
          have hlt : (w.take a).weight + (answers.map Answer.weight).sum <
              w.weight + ((a :: answers).map Answer.weight).sum := by
            rw [List.map_cons, List.sum_cons, ← Nat.add_assoc]
            exact Nat.add_lt_add_right (w.weight_take a) _
          obtain ⟨n, given, r, left, h⟩ := ih _ hlt _ answers rfl
          exact ⟨n + 1, _, r, left, .answer h⟩

theorem Finishes.turns_le (h : Finishes homes t answers n given r left) :
    given.length ≤ n ∧ n ≤ t.weight + (answers.map Answer.weight).sum := by
  induction h with
  | finished => exact ⟨Nat.le_refl _, Nat.zero_le _⟩
  | step hr ht _ ih =>
    have hlt := Turn.weight_step hr ht
    omega
  | fault => exact ⟨Nat.zero_le _, by simp only [Turn.weight]; omega⟩
  | @bufferEnd s answers given left n r hr _ ih =>
    have hlt := Turn.weight_meetEnd s
    omega
  | @answer w a answers given left n r _ ih =>
    have hlt := w.weight_take a
    simp only [List.length_cons, List.map_cons, List.sum_cons, Turn.weight, Progress.weight]
    omega
  | @ended w given left n r _ ih =>
    have hlt : _ < w.weight := w.weight_take .endOfInput
    simp only [List.length_cons, Turn.weight, Progress.weight]
    omega

theorem Turn.settle_nil {s : State} (hr : s.rest = []) :
    settle homes (.reading s) = settle homes (.stopped s.meetEnd) := by
  simp only [settle, State.advance, State.scan_nil hr]

theorem Turn.settle_step {s t : State} {c : Char} {cs : List Char} (hr : s.rest = c :: cs)
    (ht : { s with rest := cs }.step homes c = .ok t) :
    settle homes (.reading s) = settle homes (.reading t) := by
  simp only [settle, State.advance, State.scan_cons hr, ht, bind, Except.bind]

theorem Turn.settle_fault {s : State} {c : Char} {cs : List Char} {f : Fault} (hr : s.rest = c :: cs)
    (hf : { s with rest := cs }.step homes c = .error f) :
    settle homes (.reading s) = .finished (.error f) := by
  simp only [settle, State.advance, State.scan_cons hr, hf, bind, Except.bind]

theorem Finishes.finish_eq (h : Finishes homes t answers n given r left) (whole : String) (reads : Nat) :
    ∃ whole', finish homes (t.settle homes) answers whole reads =
      (⟨r >>= Outcome.ofCommands, whole', reads + given.length⟩, left) := by
  induction h generalizing whole reads with
  | finished r answers =>
    refine ⟨whole, ?_⟩
    cases r <;> rw [Turn.settle, finish] <;> rfl
  | step hr ht _ ih =>
    rw [Turn.settle_step hr ht]
    exact ih whole reads
  | fault hr hf =>
    rw [Turn.settle_fault hr hf, finish]
    exact ⟨whole, rfl⟩
  | bufferEnd hr _ ih =>
    rw [Turn.settle_nil hr]
    exact ih whole reads
  | @answer w a answers given left n r _ ih =>
    obtain ⟨whole', h⟩ := ih (whole ++ a.addition) (reads + 1)
    rw [Nat.add_assoc, Nat.add_comm 1] at h
    exact ⟨whole', by rw [Turn.settle, finish, List.length_cons]; exact h⟩
  | ended _ ih =>
    obtain ⟨whole', h⟩ := ih whole (reads + 1)
    rw [Nat.add_assoc, Nat.add_comm 1] at h
    exact ⟨whole', by rw [Turn.settle, finish, List.length_cons]; exact h⟩

theorem Finishes.exists_parse_eq {line : String}
    (h : Finishes homes (.reading { rest := line.toList }) answers n given r left) :
    ∃ whole, parse homes line answers = (⟨r >>= Outcome.ofCommands, whole, given.length⟩, left) := by
  obtain ⟨whole, hfinish⟩ := h.finish_eq line 0
  rw [Nat.zero_add] at hfinish
  exact ⟨whole, hfinish⟩

theorem Finishes.exists_taken (h : Finishes homes t answers n given r left) :
    ∃ taken past, given = taken ++ List.replicate past .endOfInput ∧ answers = taken ++ left ∧
      (left ≠ [] → past = 0) := by
  induction h with
  | finished r answers => exact ⟨[], 0, rfl, rfl, fun _ ↦ rfl⟩
  | step _ _ _ ih => exact ih
  | fault => exact ⟨[], 0, rfl, rfl, fun _ ↦ rfl⟩
  | bufferEnd _ _ ih => exact ih
  | @answer w a answers given left n r _ ih =>
    obtain ⟨taken, past, rfl, rfl, hpast⟩ := ih
    exact ⟨a :: taken, past, rfl, rfl, hpast⟩
  | ended _ ih =>
    obtain ⟨taken, past, rfl, htaken, hpast⟩ := ih
    obtain ⟨rfl, rfl⟩ := List.append_eq_nil_iff.1 htaken.symm
    exact ⟨[], past + 1, rfl, rfl, fun h ↦ absurd rfl h⟩

/-- The here-document operators that a parse meets on its way. -/
def documentsMet (homes : HomeDirs) (line : String) (answers : List Answer) : Nat :=
  (visits homes line answers).countP State.meetsDocument

theorem Turn.visits_nil {s : State} (hr : s.rest = []) (answers : List Answer) :
    visits homes (.reading s) answers = s :: visits homes (.stopped s.meetEnd) answers := by
  simp only [visits.eq_def homes (.reading s), visits.eq_def homes (.stopped _), State.visits_nil hr, settle_nil hr]
  rfl

theorem Turn.visits_step {s t : State} {c : Char} {cs : List Char} (hr : s.rest = c :: cs)
    (ht : { s with rest := cs }.step homes c = .ok t) (answers : List Answer) :
    visits homes (.reading s) answers = s :: visits homes (.reading t) answers := by
  simp only [visits.eq_def homes (.reading _), State.visits_cons hr ht, settle_step hr ht]
  rfl

theorem Turn.visits_answer (w : Waiting) (a : Answer) (answers : List Answer) :
    visits homes (.stopped (.waiting w)) (a :: answers) = visits homes (w.take a) answers := by
  rw [visits]
  rfl

/-- As long as lines come, the input has not ended; after that it ends twice at most, and once for each
here-document that has been met. -/
theorem Finishes.count_endOfInput (h : Finishes homes t answers n given r left)
    (hlines : .endOfInput ∉ answers) :
    given.count .endOfInput ≤ t.due + (t.visits homes answers).countP State.meetsDocument + 2 := by
  induction h with
  | finished => exact Nat.zero_le _
  | @step s t c cs answers given left n r hr ht _ ih =>
    obtain ⟨hdue, -⟩ := State.due_step hr ht
    have hrest : given.count .endOfInput ≤
        t.due + (Turn.visits homes (.reading t) answers).countP State.meetsDocument + 2 := ih hlines
    have hmet : (s :: Turn.visits homes (.reading t) answers).countP State.meetsDocument =
        (Turn.visits homes (.reading t) answers).countP State.meetsDocument + s.meetsDocument.toNat := by
      rw [List.countP_cons]
      cases s.meetsDocument <;> rfl
    rw [Turn.visits_step hr ht, hmet]
    simp only [Turn.due]
    omega
  | fault => exact Nat.zero_le _
  | @bufferEnd s answers given left n r hr _ ih =>
    have hend := s.due_meetEnd
    have hrest := ih hlines
    rw [Turn.visits_nil hr, List.countP_cons]
    simp only [Turn.due] at hrest ⊢
    omega
  | @answer w a answers given left n r _ ih =>
    obtain ⟨ha, hlater⟩ := not_or.1 (mt List.mem_cons.2 hlines)
    have hrest := ih hlater
    have hdue : (w.take a).due ≤ w.due := by
      cases a with
      | line text => exact w.due_take_line text
      | endOfInput => exact absurd rfl ha
      | failed f => exact Nat.zero_le _
    have hstopped : Turn.due (.stopped (.waiting w)) = w.due := rfl
    rw [Turn.visits_answer, List.count_cons_of_ne (Ne.symm ha), hstopped]
    omega
  | @ended w given left n r h ih =>
    -- no line comes any more, so the weight of the turn alone bounds all further questions
    obtain ⟨hlength, hturns⟩ := h.turns_le
    have hlt : (w.take .endOfInput).weight < w.weight := w.weight_take .endOfInput
    have hweight := w.weight_le
    have hcount : (Answer.endOfInput :: given).count .endOfInput ≤ given.length + 1 := List.count_le_length
    have hstopped : Turn.due (.stopped (.waiting w)) = w.due := rfl
    simp only [List.map_nil, List.sum_nil] at hturns
    rw [hstopped]
    omega

/-- Every parse ends, with a bound on its turns. It asks for the lines of its source in order and each of them
once at most; past the end of the input it asks twice at most, and once for each here-document operator that
it meets. -/
theorem parse_asks_boundedly (homes : HomeDirs) (line : String) (texts : List String) :
    ∃ n taken left past whole, ∃ r : Except Fault (List Command),
      Finishes homes (.reading { rest := line.toList }) (texts.map .line) n
        (taken.map .line ++ List.replicate past .endOfInput) r (left.map .line) ∧
      n ≤ line.length + 3 + (texts.map fun text ↦ text.length + 4).sum ∧
      texts = taken ++ left ∧
      (left ≠ [] → past = 0) ∧
      past ≤ documentsMet homes line (texts.map .line) + 2 ∧
      parse homes line (texts.map .line) =
        (⟨r >>= Outcome.ofCommands, whole, taken.length + past⟩, left.map .line) := by
  obtain ⟨n, given, r, left, h⟩ := exists_finishes homes (.reading { rest := line.toList }) (texts.map .line)
  obtain ⟨takenAnswers, past, rfl, hsplit, hpast⟩ := h.exists_taken
  obtain ⟨taken, left, htexts, rfl, rfl⟩ := List.map_eq_append_iff.1 hsplit
  have hlines (ts : List String) : Answer.endOfInput ∉ ts.map Answer.line := by
    simp
  obtain ⟨whole, hparse⟩ := h.exists_parse_eq
  refine ⟨n, taken, left, past, whole, r, h, ?_, htexts, fun hleft ↦ hpast ?_, ?_, ?_⟩
  · obtain ⟨-, hturns⟩ := h.turns_le
    have hline : Turn.weight (.reading { rest := line.toList }) = line.length + 3 := by
      simp [Turn.weight, State.due, State.awaitsDelimiter, String.length_toList]
    rwa [hline, List.map_map] at hturns
  · exact mt List.map_eq_nil_iff.1 hleft
  · have hcount := h.count_endOfInput (hlines texts)
    have hends : (taken.map Answer.line ++ List.replicate past Answer.endOfInput).count Answer.endOfInput = past := by
      rw [List.count_append, List.count_eq_zero.2 (hlines taken), List.count_replicate_self, Nat.zero_add]
    have hnone : Turn.due (.reading { rest := line.toList }) = 0 := rfl
    rw [hends, hnone, Nat.zero_add] at hcount
    exact hcount
  · rwa [List.length_append, List.length_map, List.length_replicate] at hparse

example : documentsMet ⟨none, fun _ ↦ none⟩ "cat <<E | \\" [] = 1 ∧
    (parse ⟨none, fun _ ↦ none⟩ "cat <<E | \\" []).1.reads = 3 := by
  cbv

end JobShell.Parser

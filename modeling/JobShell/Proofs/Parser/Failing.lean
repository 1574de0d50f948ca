import Mathlib.Tactic.DefEqTransformations
import JobShell.Proofs.Parser.Asking
import JobShell.Proofs.Parser.Safety

namespace JobShell.Parser

def Fault.IsOwn : Fault → Prop
  | failure (.unexpectedToken _) => True
  | failure _ => False
  | defect _ => True

theorem Fault.IsOwn.exists_token {f : Failure} (h : IsOwn (.failure f)) : ∃ token, f = .unexpectedToken token := by
  cases f with
  | unexpectedToken token => exact ⟨token, rfl⟩
  | _ => exact h.elim

def Strict {α : Type} (x : Except Fault α) : Prop := ∀ f, x = .error f → f.IsOwn

namespace Strict

variable {α β : Type}

theorem ok (a : α) : Strict (.ok a : Except Fault α) := fun _ h ↦ nomatch h

theorem error {f : Fault} (h : f.IsOwn) : Strict (.error f : Except Fault α) := by
  rintro g hg
  cases hg
  exact h

theorem unexpected (token : String) : Strict (State.unexpected token : Except Fault α) := .error trivial

theorem bind {x : Except Fault α} {f : α → Except Fault β} (hx : Strict x) (hf : ∀ a, Strict (f a)) :
    Strict (x >>= f) := by
  cases x with
  | error fault => exact .error (hx fault rfl)
  | ok a => exact hf a

end Strict

namespace State

theorem strict_duplication (source : Int) (input : Bool) (word : String) :
    Strict (duplication source input word) := by
  unfold duplication
  split
  · exact .ok _
  split
  · split
    · exact .ok _
    · exact .unexpected word
  · exact .unexpected word

theorem strict_finishWord (s : State) : Strict s.finishWord := by
  simp only [finishWord]
  split
  · exact .ok _
  split
  · exact .ok _
  split
  · exact Strict.bind (strict_duplication _ _ _) fun _ ↦ .ok _
  split
  · exact .ok _
  · exact .ok _
  · exact .ok _
  · exact .error trivial

theorem strict_closeCommand (s : State) (k : Connector) : Strict (s.closeCommand k) := by
  unfold closeCommand
  split
  · exact .ok _
  · exact .error trivial

theorem strict_link (s : State) (k : Connector) : Strict (s.link k) := by
  refine (strict_finishWord s).bind fun t ↦ ?_
  split
  · exact .unexpected k.symbol
  split
  · split
    · exact .ok t
    · exact .unexpected k.symbol
  · exact strict_closeCommand t k

theorem strict_beginRedirection (s : State) (c : Char) : Strict (s.beginRedirection c) := by
  simp only [beginRedirection]
  split
  · exact .ok _
  · refine (strict_finishWord _).bind fun t ↦ ?_
    split
    · exact .unexpected _
    · exact .ok _

theorem strict_step (homes : HomeDirs) (s : State) (c : Char) : Strict (s.step homes c) := by
  rcases step_cases homes s c with ⟨-, t, ht, -⟩ | ⟨-, ⟨-, heq⟩ | ⟨k, r, -, heq⟩ | ⟨-, heq⟩⟩
  · rw [ht]
    exact .ok t
  · rw [heq]
    exact strict_finishWord s
  · rw [heq]
    exact strict_link _ k
  · rw [heq]
    exact strict_beginRedirection s c

theorem strict_commandsAtEnd (s : State) : Strict s.commandsAtEnd := by
  unfold commandsAtEnd
  split
  · refine (Strict.ok s).bind fun t ↦ ?_
    beta_reduce
    repeat' split
    all_goals exact .ok _
  · refine (strict_closeCommand s .single).bind fun t ↦ ?_
    beta_reduce
    repeat' split
    all_goals exact .ok _

theorem strict_fill (s : State) (r : Request) (body : String) : Strict (s.fill r body) := by
  unfold fill
  split <;> split
  · exact .ok _
  · exact .error trivial
  · exact .ok _
  · exact .error trivial

end State

def Progress.Strict : Progress → Prop
  | finished r => Parser.Strict r
  | waiting _ => True

namespace State

theorem strict_endLine (s : State) : s.endLine.Strict := by
  obtain h | h | h := s.endLine_cases <;> rw [h]
  · exact trivial
  · exact .unexpected "newline"
  · exact strict_commandsAtEnd s

theorem strict_readDocuments (s : State) (rs : List Request) : (s.readDocuments rs).Strict := by
  cases rs with
  | nil => exact strict_endLine s
  | cons r later => exact trivial

theorem strict_endBuffer (s : State) : s.endBuffer.Strict := by
  unfold endBuffer
  split
  · exact trivial
  split
  · exact trivial
  · exact trivial
  have hended := strict_finishWord s
  split
  · rename_i f hf
    exact .error (hended f hf)
  split
  · exact .unexpected "newline"
  · exact strict_readDocuments _ _

theorem strict_meetEnd (s : State) : s.meetEnd.Strict := by
  unfold meetEnd
  split
  · exact trivial
  · exact strict_endBuffer s

end State

theorem Waiting.strict_endDocument (w : Waiting) (r : Request) (body : String) (later : List Request) :
    (w.endDocument r body later).Strict := by
  have hfilled := State.strict_fill w.state r body
  unfold endDocument
  split
  · rename_i f hf
    exact .error (hfilled f hf)
  · exact State.strict_readDocuments _ later

def Turn.Strict : Turn → Prop
  | reading _ => True
  | stopped p => p.Strict

theorem Waiting.strict_take_line (w : Waiting) (text : String) : (w.take (.line text)).Strict := by
  obtain ⟨s, reason⟩ := w
  cases reason with
  | joinedLine => exact trivial
  | required expected => exact trivial
  | document r body later =>
    simp only [take]
    split
    · exact strict_endDocument ..
    · exact trivial

theorem Waiting.take_endOfInput_cases (w : Waiting) :
    (∃ expected, w.take .endOfInput = .stopped (.finished (.error (.failure (.unexpectedEnd expected))))) ∨
      (w.take .endOfInput).Strict := by
  obtain ⟨s, reason⟩ := w
  cases reason with
  | joinedLine => exact .inr (State.strict_endBuffer s)
  | required expected => exact .inl ⟨expected, rfl⟩
  | document r body later => exact .inr (strict_endDocument ..)

variable {homes : HomeDirs} {t : Turn} {answers given left : List Answer} {n : Nat}
  {r : Except Fault (List Command)}

theorem Finishes.eq_of_finished {q : Except Fault (List Command)}
    (h : Finishes homes (.stopped (.finished q)) answers n given r left) : given = [] ∧ r = q := by
  cases h
  exact ⟨rfl, rfl⟩

theorem Finishes.of_failed (h : Finishes homes t answers n given r left) {front behind : List Answer}
    {f : Failure} (hgiven : given = front ++ .failed f :: behind) : behind = [] ∧ r = .error (.failure f) := by
  have hnone {xs ys : List Answer} (hnil : [] = xs ++ .failed f :: ys) : False := by
    cases (List.append_eq_nil_iff.1 hnil.symm).2
  induction h generalizing front with
  | finished => exact (hnone hgiven).elim
  | step _ _ _ ih => exact ih hgiven
  | fault => exact (hnone hgiven).elim
  | bufferEnd _ _ ih => exact ih hgiven
  | answer h ih =>
    cases front with
    | nil =>
      obtain ⟨rfl, rfl⟩ := List.cons_eq_cons.1 hgiven
      exact h.eq_of_finished
    | cons a front => exact ih (List.cons_eq_cons.1 hgiven).2
  | ended h ih =>
    cases front with
    | nil => cases hgiven
    | cons a front => exact ih (List.cons_eq_cons.1 hgiven).2

/-- A failure for which these replies are a reason, or that needs none: that of the last read, an unexpected
token, or an end of input that the last read met. -/
inductive Honest (given : List Answer) : Failure → Prop
  | told {f : Failure} (h : given.getLast? = some (.failed f)) : Honest given f
  | token (token : String) : Honest given (.unexpectedToken token)
  | inputEnd (expected : String) (h : given.getLast? = some .endOfInput) : Honest given (.unexpectedEnd expected)

theorem Honest.cons {f : Failure} (h : Honest given f) (a : Answer) : Honest (a :: given) f := by
  have hlast {b : Answer} (hb : given.getLast? = some b) : (a :: given).getLast? = some b := by
    rw [List.getLast?_cons, hb]
    rfl
  cases h with
  | told h => exact .told (hlast h)
  | token t => exact .token t
  | inputEnd expected h => exact .inputEnd expected (hlast h)

theorem Finishes.honest_of_endOfInput {w : Waiting} {f : Failure}
    (h : Finishes homes (w.take .endOfInput) answers n given r left) (hr : r = .error (.failure f))
    (hstrict : (w.take .endOfInput).Strict → Honest given f) : Honest (.endOfInput :: given) f := by
  obtain ⟨expected, hend⟩ | hown := w.take_endOfInput_cases
  · rw [hend] at h
    obtain ⟨rfl, rfl⟩ := h.eq_of_finished
    cases hr
    exact .inputEnd expected rfl
  · exact (hstrict hown).cons _

/-- Whatever a parse fails with on its way, its replies are the reason, or it needs none. -/
theorem Finishes.honest (h : Finishes homes t answers n given r left) (ht : t.Strict) {f : Failure}
    (hr : r = .error (.failure f)) : Honest given f := by
  induction h with
  | finished q =>
    obtain ⟨token, rfl⟩ := (ht _ hr).exists_token
    exact .token token
  | step _ _ _ ih => exact ih trivial hr
  | @fault s c cs answers g hs hstep =>
    obtain rfl := Except.error.inj hr
    obtain ⟨token, rfl⟩ := (State.strict_step homes { s with rest := cs } c _ hstep).exists_token
    exact .token token
  | bufferEnd _ _ ih => exact ih (State.strict_meetEnd _) hr
  | @answer w a answers given left n r h ih =>
    -- a line leaves the parser to itself; the other answers may end the parse at once
    cases a with
    | line text => exact (ih (w.strict_take_line text) hr).cons _
    | endOfInput => exact h.honest_of_endOfInput hr fun hown ↦ ih hown hr
    | failed g =>
      obtain ⟨rfl, rfl⟩ := h.eq_of_finished
      cases hr
      exact .told rfl
  | ended h ih => exact h.honest_of_endOfInput hr fun hown ↦ ih hown hr

theorem exists_failure {homes : HomeDirs} {line : String} {answers : List Answer} {fault : Fault}
    (h : (parse homes line answers).1.result = .error fault) : ∃ f, fault = .failure f := by
  obtain ⟨_, r, hreach, hr⟩ := reaches_parse homes line answers
  have hfree : Free (fun cs ↦ cs = [] ∨ Complete cs) r := hreach.sound
  rw [hr] at h
  cases r with
  | error f =>
    cases f with
    | failure f => exact ⟨f, (Except.error.inj h).symm⟩
    | defect d => exact hfree.elim
  | ok cs =>
    obtain rfl | hcomplete := hfree
    · cases h
    · cases hcomplete.ofCommands.symm.trans h

theorem eq_error_of_bind {r : Except Fault (List Command)} {f : Failure}
    (h : r >>= Outcome.ofCommands = .error (.failure f)) : r = .error (.failure f) := by
  cases r with
  | error g => exact congrArg Except.error (Except.error.inj h)
  | ok cs =>
    simp only [bind, Except.bind, Outcome.ofCommands] at h
    repeat' split at h
    all_goals cases h

theorem parseWith_eq (homes : HomeDirs) (s : State) (line : String) (answers : List Answer) :
    parseWith homes s line answers =
      ((parse homes line answers).1, { rest := [] }, (parse homes line answers).2) := rfl

/-- A parse with a parser that has parsed before fails with what its last read failed with, and reads no more
then; its other failures are unexpected tokens and ends of input that its last read met. Whatever it comes to,
and in whatever state it leaves off, the next parses are those of a new parser with the same source of lines. -/
theorem parse_fails_honestly (homes : HomeDirs) (s : State) (line : String) (answers : List Answer) :
    ∃ n given left whole, ∃ r : Except Fault (List Command),
      Finishes homes (.reading { rest := line.toList }) answers n given r left ∧
      parseWith homes s line answers =
        (⟨r >>= Outcome.ofCommands, whole, given.length⟩, { rest := [] }, left) ∧
      (∃ taken past, given = taken ++ List.replicate past .endOfInput ∧ answers = taken ++ left ∧
        (left ≠ [] → past = 0)) ∧
      (∀ front f behind, given = front ++ .failed f :: behind →
        behind = [] ∧ r >>= Outcome.ofCommands = .error (.failure f)) ∧
      (∀ fault, r >>= Outcome.ofCommands = .error fault → ∃ f, fault = .failure f ∧ Honest given f) ∧
      (∀ abandoned next, parseWith homes abandoned next left = parseWith homes { rest := [] } next left) ∧
      ∀ next, parseEach homes s (line :: next) answers =
        ⟨r >>= Outcome.ofCommands, whole, given.length⟩ :: parseAll homes next left := by
  obtain ⟨n, given, r, left, h⟩ := exists_finishes homes (.reading { rest := line.toList }) answers
  obtain ⟨whole, hparse⟩ := h.exists_parse_eq
  refine ⟨n, given, left, whole, r, h, ?_, h.exists_taken, fun front f behind hgiven ↦ ?_, fun fault hfault ↦ ?_,
    fun abandoned next ↦ ?_, fun next ↦ ?_⟩
  · rw [parseWith_eq, hparse]
  · obtain ⟨hbehind, rfl⟩ := h.of_failed hgiven
    exact ⟨hbehind, rfl⟩
  · have hresult : (parse homes line answers).1.result = .error fault := by
      rw [hparse]
      exact hfault
    obtain ⟨f, rfl⟩ := exists_failure hresult
    exact ⟨f, rfl, h.honest trivial (eq_error_of_bind hfault)⟩
  · rw [parseWith_eq, parseWith_eq]
  · rw [parseEach, parseWith_eq, hparse]
    rfl

end JobShell.Parser

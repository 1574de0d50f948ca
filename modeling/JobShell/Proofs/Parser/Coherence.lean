import Mathlib.Logic.Relation
import JobShell.Proofs.Parser.Asking

namespace JobShell.Parser

namespace State

variable {homes : HomeDirs} {s t u : State} {c : Char} {cs : List Char}

/-- The parser takes the next character, perhaps with a few after it. -/
def Takes (homes : HomeDirs) (s t : State) : Prop :=
  ∃ c cs, s.rest = c :: cs ∧ { s with rest := cs }.step homes c = .ok t

def Reads (homes : HomeDirs) : State → State → Prop := Relation.ReflTransGen (Takes homes)

theorem Reads.refl (s : State) : Reads homes s s := Relation.ReflTransGen.refl

theorem Reads.head (h : Takes homes s t) (h' : Reads homes t u) : Reads homes s u :=
  Relation.ReflTransGen.head h h'

theorem Reads.trans (h : Reads homes s t) (h' : Reads homes t u) : Reads homes s u :=
  Relation.ReflTransGen.trans h h'

theorem scan_of_reads (h : Reads homes s t) : s.scan homes = t.scan homes := by
  induction h with
  | refl => rfl
  | tail _ htakes ih =>
    obtain ⟨c, cs, hr, ht⟩ := htakes
    rw [ih, scan_cons hr, ht]
    rfl

theorem ended_link {k : Connector} (h : s.link k = .ok t) : Ended s t := by
  simp only [link, bind, Except.bind] at h
  split at h
  · cases h
  · rename_i u hu
    have hended := ended_finishWord hu
    simp only [closeCommand] at h
    repeat' split at h
    all_goals cases h
    all_goals exact ⟨hended.quoting, hended.nesting, hended.nestedQuote, hended.joinsNext, hended.word⟩

theorem ended_beginRedirection (h : s.beginRedirection c = .ok t) : Ended s t := by
  simp only [beginRedirection, bind, Except.bind] at h
  split at h
  · cases h
    exact ⟨rfl, rfl, rfl, rfl, rfl⟩
  · split at h
    · cases h
    · rename_i u hu
      obtain ⟨hquoting, hnesting, hquote, hjoins, hword⟩ := ended_finishWord hu
      split at h <;> cases h
      exact ⟨hquoting, hnesting, hquote, hjoins, hword⟩

theorem ended_step (hends : s.EndsWord c) (h : s.step homes c = .ok t) : Ended s t := by
  rcases step_cases homes s c with ⟨hnot, -⟩ | ⟨-, ⟨-, heq⟩ | ⟨k, r, -, heq⟩ | ⟨-, heq⟩⟩
  · exact absurd hends hnot
  · exact ended_finishWord (heq.symm.trans h)
  · obtain ⟨hquoting, hnesting, hquote, hjoins, hword⟩ := ended_link (heq.symm.trans h)
    exact ⟨hquoting, hnesting, hquote, hjoins, hword⟩
  · exact ended_beginRedirection (heq.symm.trans h)

structure Coherent (s : State) : Prop where
  nestedQuote : s.nesting = [] → s.nestedQuote = none
  idle : s.word = none → s.nesting = [] ∧ s.quoting = .none
  joinsNext : s.joinsNext → s.rest = []

theorem Coherent.of_ended (h : Ended s t) (hs : s.Coherent) (hends : s.EndsWord c)
    (hj : s.joinsNext = false) : t.Coherent where
  nestedQuote _ := h.nestedQuote.trans (hs.nestedQuote hends.1)
  idle _ := ⟨h.nesting.trans hends.1, h.quoting.trans hends.2.1⟩
  joinsNext hjoins := by
    rw [h.joinsNext, hj] at hjoins
    cases hjoins

theorem coherent_openSubstitution (hs : s.Coherent) (hn : s.nesting = []) (hj : s.joinsNext = false) :
    (s.openSubstitution c).Coherent := by
  have hq := hs.nestedQuote hn
  simp only [openSubstitution]
  repeat' split
  all_goals
    constructor <;> simp_all [push]

theorem coherent_nested {expected : Closer} {outer : List Closer} (hn : s.nesting = expected :: outer)
    (hj : s.joinsNext = false) : (s.nested expected outer c).Coherent := by
  simp only [nested]
  repeat' split
  all_goals
    constructor <;> simp_all [push]

theorem coherent_doubleQuoted (hs : s.Coherent) (hn : s.nesting = []) (hw : s.word ≠ none)
    (hj : s.joinsNext = false) : (s.doubleQuoted c).Coherent := by
  have hq := hs.nestedQuote hn
  have hsubstitution (x : Char) := coherent_openSubstitution (c := x) hs hn hj
  unfold doubleQuoted
  repeat' split
  all_goals first
    | exact hsubstitution _
    | constructor <;> simp_all [push]

theorem coherent_ordinary (hs : s.Coherent) (hn : s.nesting = []) (hq : s.quoting = .none)
    (hj : s.joinsNext = false) (h : s.ordinary homes c = .ok t) : t.Coherent := by
  have hquote := hs.nestedQuote hn
  simp only [ordinary, skip] at h
  repeat' split at h
  all_goals cases h
  all_goals constructor <;> simp_all [push]

theorem coherent_escape (hs : s.Coherent) (hn : s.nesting = []) (hq : s.quoting = .none)
    (hj : s.joinsNext = false) : s.escape.Coherent := by
  have hquote := hs.nestedQuote hn
  unfold escape
  repeat' split
  all_goals constructor <;> simp_all [push, beginQuoted]

theorem Coherent.step (hs : s.Coherent) (hj : s.joinsNext = false) (h : s.step homes c = .ok t) :
    t.Coherent := by
  by_cases hends : s.EndsWord c
  · exact .of_ended (ended_step hends h) hs hends hj
  unfold State.step at h
  split at h
  · rename_i hn
    cases h
    exact coherent_nested hn hj
  rename_i hn
  have hquote := hs.nestedQuote hn
  split at h
  · rename_i hq
    cases h
    have hword : s.word ≠ none := fun hw ↦ by simp [(hs.idle hw).2] at hq
    split <;> constructor <;> simp_all [push]
  · rename_i hq
    cases h
    have hword : s.word ≠ none := fun hw ↦ by simp [(hs.idle hw).2] at hq
    exact coherent_doubleQuoted hs hn hword hj
  · rename_i hq
    rw [unquoted_of_not_ends fun hc ↦ hends ⟨hn, hq, hc⟩] at h
    split at h
    · cases h
      constructor <;> simp_all [beginQuoted]
    split at h
    · cases h
      constructor <;> simp_all [beginQuoted]
    split at h
    · cases h
      exact coherent_escape hs hn hq hj
    split at h
    · cases h
      exact coherent_openSubstitution hs hn hj
    · exact coherent_ordinary hs hn hq hj h

theorem Coherent.joinsNext_eq_false (hs : s.Coherent) (hr : s.rest = c :: cs) : s.joinsNext = false := by
  refine Bool.eq_false_iff.2 fun hj ↦ ?_
  rw [hs.joinsNext hj] at hr
  cases hr

theorem Coherent.withRest (hs : s.Coherent) (hj : s.joinsNext = false) (rest : List Char) :
    Coherent { s with rest := rest } := ⟨hs.nestedQuote, hs.idle, fun hjoins ↦ by cases hj.symm.trans hjoins⟩

end State

def Progress.Coherent : Progress → Prop
  | finished _ => True
  | waiting w => w.state.Coherent ∧ w.state.joinsNext = false

def Turn.Coherent : Turn → Prop
  | reading s => s.Coherent
  | stopped p => p.Coherent

namespace State

variable {s t : State}

theorem coherent_readDocuments (hs : s.Coherent) (hj : s.joinsNext = false) (rs : List Request) :
    (s.readDocuments rs).Coherent := by
  cases rs with
  | nil =>
    rw [readDocuments]
    obtain h | h | h := s.endLine_cases <;> rw [h]
    · exact ⟨hs, hj⟩
    · exact trivial
    · exact trivial
  | cons r later => exact ⟨hs, hj⟩

theorem coherent_endBuffer (hs : s.Coherent) (hj : s.joinsNext = false) : s.endBuffer.Coherent := by
  obtain ⟨expected, h⟩ | ⟨f, h⟩ | ⟨t, hn, hq, ht, -, h⟩ := s.endBuffer_cases <;> rw [h]
  · exact ⟨hs, hj⟩
  · exact trivial
  · obtain ⟨hquoting, hnesting, hquote, hjoins, -⟩ := ended_finishWord ht
    have hjoins' := hjoins.trans hj
    have hcoherent : t.Coherent := ⟨fun _ ↦ hquote.trans (hs.nestedQuote hn),
      fun _ ↦ ⟨hnesting.trans hn, hquoting.trans hq⟩, fun h ↦ by cases hjoins'.symm.trans h⟩
    exact coherent_readDocuments (s := { t with requests := [] })
      ⟨hcoherent.nestedQuote, hcoherent.idle, hcoherent.joinsNext⟩ hjoins' _

theorem coherent_meetEnd (hs : s.Coherent) : s.meetEnd.Coherent := by
  unfold meetEnd
  split
  · exact ⟨⟨hs.nestedQuote, hs.idle, fun h ↦ nomatch h⟩, rfl⟩
  · rename_i hj
    exact coherent_endBuffer hs (Bool.not_eq_true _ ▸ hj)

theorem coherent_fill {r : Request} {body : String} (hs : s.Coherent) (hj : s.joinsNext = false)
    (h : s.fill r body = .ok t) : t.Coherent ∧ t.joinsNext = false := by
  simp only [fill] at h
  repeat' split at h
  all_goals cases h
  all_goals exact ⟨⟨hs.nestedQuote, hs.idle, hs.joinsNext⟩, hj⟩

end State

theorem Waiting.coherent_take {w : Waiting} (hs : w.state.Coherent) (hj : w.state.joinsNext = false)
    (a : Answer) : (w.take a).Coherent := by
  obtain ⟨s, reason⟩ := w
  have hdocument (r : Request) (body : String) (later : List Request) :
      (endDocument ⟨s, .document r body later⟩ r body later).Coherent := by
    unfold endDocument
    split
    · exact trivial
    · rename_i t ht
      obtain ⟨hcoherent, hjoins⟩ := State.coherent_fill hs hj ht
      exact State.coherent_readDocuments hcoherent hjoins later
  cases a with
  | failed f => exact trivial
  | endOfInput =>
    cases reason with
    | joinedLine => exact State.coherent_endBuffer hs hj
    | required expected => exact trivial
    | document r body later => exact hdocument r body later
  | line text =>
    cases reason with
    | joinedLine => exact hs.withRest hj _
    | required expected => exact hs.withRest hj _
    | document r body later =>
      simp only [take, Turn.Coherent]
      split
      · exact hdocument r body later
      · exact ⟨hs, hj⟩

/-- Wherever a parse comes to, the parser is coherent. -/
theorem Reaches.coherent {homes : HomeDirs} {line : String} {buffer : List Char} {t : Turn}
    (h : Reaches homes line buffer t) : t.Coherent := by
  induction h with
  | start => exact ⟨fun _ ↦ rfl, fun _ ↦ ⟨rfl, rfl⟩, fun h ↦ nomatch h⟩
  | @step buffer cs c s t _ hr ht ih =>
    have hj : s.joinsNext = false := ih.joinsNext_eq_false hr
    have hs : State.Coherent { s with rest := cs } := State.Coherent.withRest ih hj cs
    exact hs.step hj ht
  | fault => exact trivial
  | bufferEnd _ _ ih => exact State.coherent_meetEnd ih
  | answer a _ ih => exact Waiting.coherent_take ih.1 ih.2 a

theorem Reaches.reads {homes : HomeDirs} {line : String} {buffer : List Char} {s t : State}
    (h : Reaches homes line buffer (.reading s)) (hread : s.Reads homes t) :
    Reaches homes line buffer (.reading t) := by
  induction hread with
  | refl => exact h
  | tail _ htakes ih =>
    obtain ⟨c, cs, hr, ht⟩ := htakes
    exact ih.step hr ht

end JobShell.Parser

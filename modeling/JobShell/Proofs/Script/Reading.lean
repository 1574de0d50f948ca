import Mathlib.Data.List.Forall2
import JobShell.Proofs.Script.Feeding

namespace JobShell.Script

open Sys (Runs)

variable {fd : Int} {bytes input rest : List UInt8} {segments : List (List UInt8)} {s s' : Source}
  {result : Option (Except StreamFault String)} {results : List (Option (Except StreamFault String))} {t : List Event}

namespace Source

/-- The source reads this descriptor, or it reads none and the descriptor counts as empty. -/
def Reads (fd : Int) (s : Source) (input : List UInt8) : Prop :=
  (s.feed = none ∧ input = []) ∨ ∃ capacity, 0 < capacity ∧ s.feed = some (fd, capacity)

/-- Calls for the next line while a descriptor gives its bytes away: what each of them brings. -/
inductive Calls (fd : Int) :
    Source → List UInt8 → List (Option (Except StreamFault String)) → Source → List UInt8 → Prop
  | nil (s : Source) (input : List UInt8) : Calls fd s input [] s input
  | next {s s₁ s₂ : Source} {input input₁ rest : List UInt8} {t : List Event}
      {result : Option (Except StreamFault String)} {results : List (Option (Except StreamFault String))} :
      Runs s.next t (result, s₁) → Feeds fd input t input₁ → Calls fd s₁ input₁ results s₂ rest →
      Calls fd s input (result :: results) s₂ rest

def Unfailing (results : List (Option (Except StreamFault String))) : Prop :=
  ∀ e, some (.error (.system e)) ∉ results

theorem Reads.next (hs : Reads fd s input) (h : Runs s.next t (result, s')) (hfeeds : Feeds fd input t rest)
    (hresult : ∀ e, result ≠ some (.error (.system e))) :
    Reads fd s' rest ∧ (s.script input).next = (result, s'.script rest) := by
  obtain ⟨hfeed, rfl⟩ | ⟨capacity, hcapacity, hfeed⟩ := hs
  · obtain ⟨rfl, hkept, hnext⟩ := next_of_text hfeed h
    obtain rfl : rest = [] := hfeeds.input_eq.symm
    exact ⟨.inl ⟨hkept, rfl⟩, hnext⟩
  · obtain ⟨r, -, hkept, -⟩ := gathers_of_next hfeed h
    have hnext := next_of_feed hfeed h fun bytes hsize hmem ↦ hfeeds.ended hcapacity hsize hmem
    rw [← hfeeds.input_eq] at hnext
    refine ⟨.inr ⟨capacity, hcapacity, hkept.trans hfeed⟩, hnext.resolve_left ?_⟩
    rintro ⟨e, he, -⟩
    exact hresult e he

theorem Reads.exists_next (hs : Reads fd s input) (hshort : (cutLine input).1.length < Sys.patience) :
    ∃ t result s' rest, Runs s.next t (result, s') ∧ Feeds fd input t rest ∧
      ∀ e, result ≠ some (.error (.system e)) := by
  obtain ⟨hfeed, rfl⟩ | ⟨capacity, hcapacity, hfeed⟩ := hs
  · have hpiece : Runs s.nextPiece [] (.ok (cutLine s.ahead).1, { s with ahead := (cutLine s.ahead).2 }) := by
      rw [nextPiece_of_text hfeed]
      exact .done _
    exact ⟨[], _, _, [], runs_next_iff.2 ⟨_, hpiece, rfl⟩, .nil [], conclude_ne_system _ _⟩
  · exact exists_runs_next hfeed hcapacity hshort

theorem Calls.script_eq (h : Calls fd s input results s' rest) (hs : Reads fd s input)
    (hresults : Unfailing results) :
    (∀ n < results.length, results[n]? = some ((s.script input).after n).next.1) ∧
      s'.script rest = (s.script input).after results.length := by
  induction h with
  | nil => exact ⟨fun n hn ↦ absurd hn (Nat.not_lt_zero n), rfl⟩
  | next hruns hfeeds _ ih =>
    obtain ⟨hs, hnext⟩ := hs.next hruns hfeeds fun e ↦ (List.ne_of_not_mem_cons (hresults e)).symm
    obtain ⟨hlater, hend⟩ := ih hs fun e ↦ List.not_mem_of_not_mem_cons (hresults e)
    constructor
    · intro n hn
      cases n with
      | zero =>
        rw [Lines.after, hnext]
        rfl
      | succ n =>
        rw [Lines.after, hnext]
        exact hlater n (Nat.lt_of_succ_lt_succ hn)
    · rw [List.length_cons, Lines.after, hnext]
      exact hend

theorem Reads.exists_calls (hs : Reads fd s input) (hshort : input.length < Sys.patience) (n : Nat) :
    ∃ results s' rest, results.length = n ∧ Calls fd s input results s' rest ∧ Unfailing results := by
  induction n generalizing s input with
  | zero => exact ⟨[], s, input, rfl, .nil s input, fun e ↦ List.not_mem_nil⟩
  | succ n ih =>
    have hline : (cutLine input).1.length ≤ input.length := by
      have := congrArg List.length (append_cutLine input)
      rw [List.length_append] at this
      omega
    obtain ⟨t, result, s₁, input₁, hruns, hfeeds, hresult⟩ := hs.exists_next (hline.trans_lt hshort)
    have hinput₁ : input₁.length ≤ input.length := by
      rw [hfeeds.input_eq, List.length_append]
      exact Nat.le_add_left _ _
    obtain ⟨results, s', rest, rfl, hcalls, hresults⟩ := ih (hs.next hruns hfeeds hresult).1 (hinput₁.trans_lt hshort)
    refine ⟨result :: results, s', rest, rfl, .next hruns hfeeds hcalls, fun e hmem ↦ ?_⟩
    exact (List.mem_cons.1 hmem).elim (fun he ↦ hresult e he.symm) (hresults e)

/-- A source that was not read yet, with the bytes of its script: a text, or a descriptor that has them to give. -/
inductive Begins (bytes : List UInt8) (fd : Int) : Source → List UInt8 → Prop
  | text {text : String} : text.toUTF8.toList = bytes → Begins bytes fd (.ofText text) []
  | file : Begins bytes fd (.ofFile fd) bytes
  | stdin : fd = Sys.stdin → Begins bytes fd .ofStdin bytes

theorem Begins.reads (h : Begins bytes fd s input) : Reads fd s input ∧ s.script input = ⟨bytes, 0⟩ := by
  cases h with
  | text htext =>
    refine ⟨.inl ⟨rfl, rfl⟩, ?_⟩
    rw [script, List.append_nil, ← htext]
    rfl
  | file => exact ⟨.inr ⟨fileCapacity, by decide, rfl⟩, rfl⟩
  | stdin hfd => exact ⟨.inr ⟨1, Nat.one_pos, by rw [hfd]; rfl⟩, rfl⟩

end Source

/-- A script brings the line of each of its segments, once and in order, and then nothing for ever. A segment that is
no text brings a fault in the place of its line. What counts are the lines. So it is wherever the script comes from and
however its bytes are read, as long as no read fails. -/
theorem script_brings_each_segment_once (bytes : List UInt8) :
    ∃ segments lines, Cuts bytes segments ∧ List.Forall₂ Holds segments lines ∧
      (∀ n, ((Lines.mk bytes 0).after n).next.1 = lines[n]? ∧
        ((Lines.mk bytes 0).after n).number = (lines.take n).countP (·.isOk)) ∧
      ∀ fd s input, Source.Begins bytes fd s input →
        (∀ results s' rest, Source.Calls fd s input results s' rest → Source.Unfailing results →
          (∀ n < results.length, results[n]? = some lines[n]?) ∧
          s'.number = (lines.take results.length).countP (·.isOk) ∧
          s'.ahead ++ rest = (segments.drop results.length).flatten) ∧
        (bytes.length < Sys.patience → ∀ n, ∃ results s' rest, results.length = n ∧
          Source.Calls fd s input results s' rest ∧ Source.Unfailing results) := by
  have hcuts := cuts_pieces bytes
  have hholds : List.Forall₂ Holds (pieces bytes) ((pieces bytes).map lineOf) :=
    List.forall₂_map_right_iff.2 (List.forall₂_same.2 fun segment _ ↦ holds_lineOf segment)
  have hnext n : ((Lines.mk bytes 0).after n).next.1 = ((pieces bytes).map lineOf)[n]? := Lines.next_after hcuts n
  have hafter n := Lines.after_eq (l := ⟨bytes, 0⟩) hcuts n
  have hnumber n : ((Lines.mk bytes 0).after n).number = (((pieces bytes).map lineOf).take n).countP (·.isOk) := by
    rw [hafter n]
    exact Nat.zero_add _
  refine ⟨pieces bytes, (pieces bytes).map lineOf, hcuts, hholds, fun n ↦ ⟨hnext n, hnumber n⟩, ?_⟩
  intro fd s input hbegins
  obtain ⟨hreads, hscript⟩ := hbegins.reads
  constructor
  · intro results s' rest hcalls hresults
    obtain ⟨hall, hend⟩ := hcalls.script_eq hreads hresults
    rw [hscript] at hend
    refine ⟨fun n hn ↦ ?_, ?_, ?_⟩
    · rw [hall n hn, hscript, hnext n]
    · exact (congrArg Lines.number hend).trans (hnumber _)
    · exact (congrArg Lines.rest hend).trans (congrArg Lines.rest (hafter _))
  · intro hshort
    have hinput : input.length ≤ bytes.length := by
      have hbytes : s.ahead ++ input = bytes := congrArg Lines.rest hscript
      rw [← hbytes, List.length_append]
      exact Nat.le_add_left _ _
    exact hreads.exists_calls (hinput.trans_lt hshort)

theorem mixed_script_brings_each_segment_once :
    ∃ results s' rest, Source.Calls Sys.stdin .ofStdin [97, 13, 10, 255, 10, 10, 98, 13] results s' rest ∧
      results = [some (.ok "a"), some (.error .invalidText), some (.ok ""), some (.ok "b\r"), none, none] ∧
      s'.number = 3 := by
  obtain ⟨segments, lines, -, -, hlines, hsources⟩ :=
    script_brings_each_segment_once [97, 13, 10, 255, 10, 10, 98, 13]
  obtain ⟨hcalls, hexists⟩ := hsources Sys.stdin .ofStdin _ (.stdin rfl)
  obtain ⟨results, s', rest, hlength, hruns, hunfailing⟩ := hexists (by decide) 6
  obtain ⟨hresults, hnumber, -⟩ := hcalls results s' rest hruns hunfailing
  have hrange : results = (List.range 6).map fun n ↦
      ((Lines.mk [97, 13, 10, 255, 10, 10, 98, 13] 0).after n).next.1 := by
    refine List.ext_getElem (by rw [hlength, List.length_map, List.length_range]) fun n hn _ ↦ ?_
    have hn' := hresults n hn
    rw [List.getElem?_eq_getElem hn, ← (hlines n).1] at hn'
    rw [List.getElem_map, List.getElem_range]
    exact Option.some.inj hn'
  refine ⟨results, s', rest, hruns, ?_, ?_⟩
  · rw [hrange]
    rfl
  · rw [hnumber, ← (hlines _).2, hlength]
    rfl

end JobShell.Script

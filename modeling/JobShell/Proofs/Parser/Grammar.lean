import JobShell.Proofs.Parser.Safety
import JobShell.Proofs.Parser.Token

namespace JobShell.Parser

def command (ts : List Token) (k : Connector) : Command :=
  ⟨k, ts.flatMap Token.words, ts.flatMap Token.redirections⟩

/-- Words and redirections in any order, with at least one word. -/
structure FormsCommand (ts : List Token) : Prop where
  items : ∀ t ∈ ts, t.IsItem
  spoken : ts.flatMap Token.words ≠ []

/-- What stands between two commands, and the connector that it gives the first of them. -/
inductive Separates : List Token → Connector → Prop
  | semicolons (n : Nat) : Separates (List.replicate (n + 1) (.connector .sequential)) .sequential
  | other {k : Connector} : k ∈ [.background, .and, .or, .piped] → Separates [.connector k] k

/-- What stands after the last command, and the connector that it gives it. -/
inductive Terminates : List Token → Connector → Prop
  | nothing : Terminates [] .single
  | semicolons (n : Nat) : Terminates (List.replicate (n + 1) (.connector .sequential)) .single
  | background : Terminates [.connector .background] .background

/-- The tokens make up a line of these commands. -/
inductive Derives : List Token → List Command → Prop
  | last {ts term : List Token} {k : Connector} :
      FormsCommand ts → Terminates term k → Derives (ts ++ term) [command ts k]
  | join {ts sep rest : List Token} {k : Connector} {cs : List Command} :
      FormsCommand ts → Separates sep k → Derives rest cs →
      Derives (ts ++ sep ++ rest) (command ts k :: cs)

/-- Some line begins with these tokens. -/
def Viable (ts : List Token) : Prop :=
  ∃ more cs, (∀ t ∈ more, t.Valid) ∧ Derives (ts ++ more) cs

/-- This connector is the first token that no line has after those before it. -/
def Offends (ts : List Token) (k : Connector) : Prop :=
  ∃ pre post, ts = pre ++ .connector k :: post ∧ Viable pre ∧ ¬ Viable (pre ++ [.connector k])

variable {homes : HomeDirs} {d d' : Draft} {k : Connector} {ts pre sep rest : List Token}
  {cs cs' : List Command}

theorem Separates.ne_single (h : Separates sep k) : k ≠ .single := by
  cases h with
  | semicolons n => simp
  | other hk => rintro rfl; simp at hk

theorem separates_connector (hk : k ≠ .single) : Separates [.connector k] k := by
  cases k with
  | single => exact absurd rfl hk
  | sequential => exact .semicolons 0
  | _ => exact .other (by simp)

theorem Derives.complete (h : Derives ts cs) : Complete cs := by
  induction h with
  | @last ts term k hts hterm =>
    have hk : k = .single ∨ k = .background := by
      cases hterm <;> simp
    exact (complete_concat : Complete ([] ++ [_]) ↔ _).2 ⟨by simp, hts.spoken, hk⟩
  | join hts hsep _ ih => exact (complete_cons ih.nonempty).2 ⟨⟨hts.spoken, hsep.ne_single⟩, ih⟩

namespace Draft

theorem add_add (d : Draft) (ts us : List Token) : (d.add ts).add us = d.add (ts ++ us) := by
  simp [add]

theorem acceptAll_items (h : ∀ t ∈ ts, t.IsItem) (d : Draft) : d.acceptAll ts = .ok (d.add ts) := by
  induction ts generalizing d with
  | nil => simp [acceptAll, add, pure, Except.pure]
  | cons t ts ih =>
    obtain ⟨ht, hts⟩ := List.forall_mem_cons.1 h
    rw [acceptAll_cons_ok (d.accept_item ht), ih hts, add_add]
    rfl

theorem acceptAll_semicolons (hw : d.words = []) (hr : d.redirections = [])
    (hlast : d.lastConnector? = some .sequential) (n : Nat) :
    d.acceptAll (List.replicate n (.connector .sequential)) = .ok d := by
  have hone : d.accept (.connector .sequential) = .ok d := by
    simp [accept, hw, hr, hlast]
  induction n with
  | zero => rfl
  | succ n ih => rw [List.replicate_succ, acceptAll_cons_ok hone, ih]

theorem acceptAll_separator (hw : d.words ≠ []) (h : Separates sep k) :
    d.acceptAll sep = .ok (d.close k) := by
  have hone : ∀ k, d.accept (.connector k) = .ok (d.close k) := fun k ↦ if_pos hw
  cases h with
  | semicolons n =>
    rw [List.replicate_succ, acceptAll_cons_ok (hone _)]
    exact acceptAll_semicolons rfl rfl (by simp [lastConnector?, close]) n
  | other => exact acceptAll_cons_ok (hone _) []

theorem endLine_spoken (hw : d.words ≠ []) :
    (d.reading none none []).endLine = .finished (.ok (d.close .single).commands) := by
  have hempty : (d.reading none none []).words.isEmpty = false := List.isEmpty_eq_false_iff.2 hw
  have hwords : (d.reading none none []).words ≠ [] := hw
  simp only [State.endLine, State.commandsAtEnd, hempty, State.closeCommand_eq hwords, bind,
    Except.bind, List.getLast?_concat, Bool.false_eq_true, if_false, reduceCtorEq]
  rfl

theorem endLine_redirected (hw : d.words = []) (hr : d.redirections ≠ []) :
    (d.reading none none []).endLine = .finished (State.unexpected "newline") := by
  simp [State.endLine, reading, hw, hr]

theorem endLine_close (d : Draft) (k : Connector) :
    ((d.close k).reading none none []).endLine =
      match k with
      | .and | .or | .piped => .waiting ⟨(d.close k).reading none none [], .required "a command"⟩
      | .sequential => .finished (.ok (d.close .single).commands)
      | .single | .background => .finished (.ok (d.close k).commands) := by
  cases k <;>
    simp [State.endLine, State.commandsAtEnd, State.lastConnector?, reading, close, bind,
      Except.bind]

end Draft

theorem Derives.acceptAll (h : Derives ts cs) {d : Draft} (hw : d.words = [])
    (hr : d.redirections = []) :
    ∃ d', d.acceptAll ts = .ok d' ∧
      (d'.reading none none []).endLine = .finished (.ok (d.commands ++ cs)) := by
  have hclose : ∀ ts k, ((d.add ts).close k).commands = d.commands ++ [command ts k] := by
    simp [Draft.close, Draft.add, hw, hr, command]
  have hspoken : ∀ {ts}, FormsCommand ts → (d.add ts).words ≠ [] := fun hts ↦ by
    simpa [Draft.add, hw] using hts.spoken
  induction h generalizing d with
  | @last ts term k hts hterm =>
    rw [Draft.acceptAll_append (Draft.acceptAll_items hts.items d)]
    cases hterm with
    | nothing =>
      refine ⟨d.add ts, rfl, ?_⟩
      rw [Draft.endLine_spoken (hspoken hts), hclose]
    | semicolons n =>
      refine ⟨(d.add ts).close .sequential,
        Draft.acceptAll_separator (hspoken hts) (.semicolons n), ?_⟩
      simp only [Draft.endLine_close, hclose]
    | background =>
      refine ⟨(d.add ts).close .background,
        Draft.acceptAll_separator (hspoken hts) (.other (by simp)), ?_⟩
      simp only [Draft.endLine_close, hclose]
  | @join ts sep rest k cs hts hsep _ ih =>
    obtain ⟨d', hd', hend⟩ := ih (d := (d.add ts).close k) rfl rfl
      (by simp [Draft.close, Draft.add, command])
      (fun hts ↦ by simpa [Draft.close, Draft.add] using hts.spoken)
    refine ⟨d', ?_, ?_⟩
    · rw [List.append_assoc, Draft.acceptAll_append (Draft.acceptAll_items hts.items d),
        Draft.acceptAll_append (Draft.acceptAll_separator (hspoken hts) hsep), hd']
    · rw [hend, hclose]
      simp

inductive Chain : List Token → List Command → Prop
  | nil : Chain [] []
  | snoc {pre ts sep : List Token} {k : Connector} {cs : List Command} :
      Chain pre cs → FormsCommand ts → Separates sep k →
      Chain (pre ++ ts ++ sep) (cs ++ [command ts k])

theorem Chain.derives (h : Chain pre cs) (h' : Derives ts cs') : Derives (pre ++ ts) (cs ++ cs') := by
  induction h generalizing ts cs' with
  | nil => exact h'
  | @snoc pre us sep k cs _ hus hsep ih =>
    have hjoin := ih (.join hus hsep h')
    simpa using hjoin

theorem Chain.semicolon (h : Chain pre cs)
    (hlast : cs.getLast?.map Command.connector = some .sequential) :
    Chain (pre ++ [.connector .sequential]) cs := by
  cases h with
  | nil => cases hlast
  | @snoc pre us sep k cs hpre hus hsep =>
    obtain rfl : k = .sequential := by simpa [command] using hlast
    cases hsep with
    | semicolons n =>
      have hnext := hpre.snoc hus (.semicolons (n + 1))
      rw [List.replicate_succ', ← List.append_assoc] at hnext
      exact hnext
    | other hk => simp at hk

/-- The tokens so far are finished commands and the beginning of another, which the draft holds. -/
def Drafted (ts : List Token) (d : Draft) : Prop :=
  ∃ pre us, ts = pre ++ us ∧ Chain pre d.commands ∧ (∀ u ∈ us, u.IsItem) ∧
    d.words = us.flatMap Token.words ∧ d.redirections = us.flatMap Token.redirections

theorem drafted_nil : Drafted [] {} := ⟨[], [], rfl, .nil, by simp, rfl, rfl⟩

theorem eq_nil_of_items (h : ∀ t ∈ ts, t.IsItem) (hw : ts.flatMap Token.words = [])
    (hr : ts.flatMap Token.redirections = []) : ts = [] := by
  cases ts with
  | nil => rfl
  | cons t ts =>
    cases t with
    | word w => simp [Token.words] at hw
    | redirection digits arrow target => simp [Token.redirections] at hr
    | connector k => exact absurd (h _ List.mem_cons_self) id

theorem Drafted.item (h : Drafted ts d) {t : Token} (ht : t.IsItem) :
    Drafted (ts ++ [t]) (d.add [t]) := by
  obtain ⟨pre, us, rfl, hpre, hus, hw, hr⟩ := h
  refine ⟨pre, us ++ [t], by simp, hpre, ?_, ?_, ?_⟩
  · exact List.forall_mem_append.2 ⟨hus, List.forall_mem_singleton.2 ht⟩
  · simp [Draft.add, hw]
  · simp [Draft.add, hr]

theorem Drafted.close (h : Drafted ts d) (hd : d.words ≠ []) (hk : k ≠ .single) :
    Drafted (ts ++ [.connector k]) (d.close k) := by
  obtain ⟨pre, us, rfl, hpre, hus, hw, hr⟩ := h
  refine ⟨pre ++ us ++ [.connector k], [], by simp, ?_, by simp, rfl, rfl⟩
  have hcommand : (d.close k).commands = d.commands ++ [command us k] := by
    simp [Draft.close, command, hw, hr]
  rw [hcommand]
  exact hpre.snoc ⟨hus, hw ▸ hd⟩ (separates_connector hk)

theorem Drafted.chain (h : Drafted ts d) (hw : d.words = []) (hr : d.redirections = []) :
    Chain ts d.commands := by
  obtain ⟨pre, us, rfl, hpre, hus, hwords, hredirections⟩ := h
  have hnil : us = [] := eq_nil_of_items hus (hwords ▸ hw) (hredirections ▸ hr)
  rwa [hnil, List.append_nil]

theorem Drafted.accept (h : Drafted ts d) {t : Token} (ht : t.Valid)
    (hd : d.accept t = .ok d') : Drafted (ts ++ [t]) d' := by
  cases t with
  | word w => cases hd; exact h.item trivial
  | redirection digits arrow target => cases hd; exact h.item trivial
  | connector k =>
    simp only [Draft.accept] at hd
    split at hd
    · rename_i hw
      cases hd
      exact h.close hw ht
    · rename_i hw
      split at hd <;> cases hd
      rename_i hagain
      obtain ⟨rfl, hlast, hr⟩ := hagain
      have hw : d.words = [] := Decidable.not_not.1 hw
      exact ⟨ts ++ [.connector .sequential], [], by simp, (h.chain hw hr).semicolon hlast, by simp,
        hw, hr⟩

theorem Drafted.acceptAll {us : List Token} (h : Drafted ts d) (hus : ∀ u ∈ us, u.Valid)
    (hd : d.acceptAll us = .ok d') : Drafted (ts ++ us) d' := by
  induction us generalizing ts d with
  | nil =>
    cases hd
    simpa using h
  | cons u us ih =>
    obtain ⟨hu, hus⟩ := List.forall_mem_cons.1 hus
    cases haccept : d.accept u with
    | error k =>
      rw [Draft.acceptAll_cons_error haccept] at hd
      cases hd
    | ok d₁ =>
      rw [Draft.acceptAll_cons_ok haccept] at hd
      have hnext := ih (h.accept hu haccept) hus hd
      simpa using hnext

theorem Drafted.derives (h : Drafted ts d) (hw : d.words ≠ []) :
    Derives ts (d.close .single).commands := by
  obtain ⟨pre, us, rfl, hpre, hus, hwords, hredirections⟩ := h
  have hus : FormsCommand us := ⟨hus, hwords ▸ hw⟩
  have hcommand : (d.close .single).commands = d.commands ++ [command us .single] := by
    simp [Draft.close, command, hwords, hredirections]
  rw [hcommand]
  simpa using hpre.derives (.last hus .nothing)

theorem Draft.acceptAll_error (h : d.acceptAll ts = .error k) :
    ∃ pre post d', ts = pre ++ .connector k :: post ∧ d.acceptAll pre = .ok d' ∧
      d'.accept (.connector k) = .error k := by
  induction ts generalizing d with
  | nil => cases h
  | cons t ts ih =>
    cases ht : d.accept t with
    | error k' =>
      rw [acceptAll_cons_error ht] at h
      cases h
      obtain rfl := accept_error ht
      exact ⟨[], ts, d, rfl, rfl, ht⟩
    | ok d₁ =>
      rw [acceptAll_cons_ok ht] at h
      obtain ⟨pre, post, d', rfl, hpre, hk⟩ := ih h
      exact ⟨t :: pre, post, d', rfl, (acceptAll_cons_ok ht pre).trans hpre, hk⟩

/-- The tokens that can be taken one after another are those that some line begins with. -/
theorem viable_iff (hts : ∀ t ∈ ts, t.Valid) : Viable ts ↔ ∃ d, Draft.acceptAll {} ts = .ok d := by
  refine ⟨fun ⟨more, cs, hmore, h⟩ ↦ ?_, fun ⟨d, hd⟩ ↦ ?_⟩
  · obtain ⟨d', hd', -⟩ := h.acceptAll (d := {}) rfl rfl
    cases hd : Draft.acceptAll {} ts with
    | ok d => exact ⟨d, rfl⟩
    | error k =>
      obtain ⟨pre, post, d, rfl, hpre, hk⟩ := Draft.acceptAll_error hd
      rw [List.append_assoc, Draft.acceptAll_append hpre, List.cons_append,
        Draft.acceptAll_cons_error hk] at hd'
      cases hd'
  · have hword := (drafted_nil.acceptAll hts hd).item (t := .word "a") trivial
    refine ⟨[.word "a"], _, fun t ht ↦ ?_, hword.derives (by simp [Draft.add, Token.words])⟩
    rw [List.mem_singleton.1 ht]
    decide

theorem offends_iff (hts : ∀ t ∈ ts, t.Valid) :
    Offends ts k ↔ Draft.acceptAll {} ts = .error k := by
  have hviable : ∀ pre post, ts = pre ++ .connector k :: post →
      (Viable pre ↔ ∃ d, Draft.acceptAll {} pre = .ok d) ∧
      (Viable (pre ++ [.connector k]) ↔ ∃ d, Draft.acceptAll {} (pre ++ [.connector k]) = .ok d) := by
    rintro pre post rfl
    obtain ⟨hpre, hrest⟩ := List.forall_mem_append.1 hts
    obtain ⟨hk, -⟩ := List.forall_mem_cons.1 hrest
    exact ⟨viable_iff hpre,
      viable_iff (List.forall_mem_append.2 ⟨hpre, List.forall_mem_singleton.2 hk⟩)⟩
  constructor
  · rintro ⟨pre, post, rfl, hpre, hk⟩
    rw [(hviable pre post rfl).1] at hpre
    rw [(hviable pre post rfl).2] at hk
    obtain ⟨d, hd⟩ := hpre
    rw [Draft.acceptAll_append hd] at hk ⊢
    cases haccept : d.accept (.connector k) with
    | ok d' => exact absurd ⟨d', Draft.acceptAll_cons_ok haccept []⟩ hk
    | error k' =>
      cases Draft.accept_error haccept
      exact Draft.acceptAll_cons_error haccept post
  · intro h
    obtain ⟨pre, post, d, hts, hpre, hk⟩ := Draft.acceptAll_error h
    refine ⟨pre, post, hts, (hviable pre post hts).1.2 ⟨d, hpre⟩, ?_⟩
    rw [(hviable pre post hts).2, Draft.acceptAll_append hpre, Draft.acceptAll_cons_error hk]
    simp

theorem result_finished (r : Except Fault (List Command)) (answers : List Answer) (line : String)
    (reads : Nat) :
    (finish homes (.finished r) answers line reads).1.result = r >>= Outcome.ofCommands := by
  cases r <;> rw [finish] <;> rfl

theorem result_required (s : State) {answers : List Answer} (ha : ∀ a ∈ answers, a = .endOfInput)
    (expected line : String) (reads : Nat) :
    (finish homes (.waiting ⟨s, .required expected⟩) answers line reads).1.result =
      .error (.failure (.unexpectedEnd expected)) := by
  cases answers with
  | nil =>
    rw [finish]
    exact result_finished (.error _) ..
  | cons a later =>
    rw [finish, ha a List.mem_cons_self]
    exact result_finished (.error _) ..

inductive Verdict (ts : List Token) : Except Fault (Option CommandList) → Prop
  | nothing : ts = [] → Verdict ts (.ok none)
  | list {cs : List Command} : Derives ts cs → Verdict ts (.ok (some ⟨cs⟩))
  | offending {k : Connector} :
      Offends ts k → Verdict ts (.error (.failure (.unexpectedToken k.symbol)))
  | redirected {digits : Option String} {arrow : Arrow} {target : String} :
      ts.getLast? = some (.redirection digits arrow target) →
      Verdict ts (.error (.failure (.unexpectedToken "newline")))
  | dangling {k : Connector} :
      ts.getLast? = some (.connector k) →
      Verdict ts (.error (.failure (.unexpectedEnd "a command")))

theorem Derives.verdict (h : Derives ts cs) : Verdict ts (Outcome.ofCommands cs) := by
  rw [h.complete.ofCommands]
  exact .list h

section

variable {answers : List Answer} (ha : ∀ a ∈ answers, a = .endOfInput) (line : String) (reads : Nat)

include ha

theorem Chain.verdict (h : Chain ts cs) : Verdict ts
    (finish homes ((Draft.mk cs [] []).reading none none []).endLine answers line reads).1.result := by
  cases h with
  | nil =>
    rw [show ((Draft.mk [] [] []).reading none none []).endLine = .finished (.ok []) from rfl,
      result_finished]
    exact .nothing rfl
  | @snoc pre us sep k cs hpre hus hsep =>
    have hderives : ∀ {term k'}, Terminates term k' →
        Derives (pre ++ us ++ term) (cs ++ [command us k']) := fun hterm ↦ by
      have h := hpre.derives (.last hus hterm)
      rwa [← List.append_assoc] at h
    have hclose : ∀ k', Draft.mk (cs ++ [command us k']) [] [] =
        ((Draft.mk cs [] []).add us).close k' := by
      simp [Draft.add, Draft.close, command]
    rw [hclose, Draft.endLine_close]
    simp only [← hclose]
    cases hsep with
    | semicolons n =>
      rw [result_finished]
      exact (hderives (.semicolons n)).verdict
    | other hk =>
      have hlast : (pre ++ us ++ [Token.connector k]).getLast? = some (.connector k) :=
        List.getLast?_concat
      cases k with
      | background =>
        rw [result_finished]
        exact (hderives .background).verdict
      | single | sequential => simp at hk
      | and | or | piped =>
        rw [result_required _ ha]
        exact .dangling hlast

theorem Drafted.verdict (h : Drafted ts d) : Verdict ts
    (finish homes (d.reading none none []).endLine answers line reads).1.result := by
  by_cases hw : d.words = []
  · by_cases hr : d.redirections = []
    · obtain ⟨commands, words, redirections⟩ := d
      obtain rfl : words = [] := hw
      obtain rfl : redirections = [] := hr
      exact (h.chain rfl rfl).verdict ha line reads
    · rw [Draft.endLine_redirected hw hr, result_finished]
      obtain ⟨pre, us, rfl, -, hus, hwords, hredirections⟩ := h
      have hne : us ≠ [] := by
        rintro rfl
        exact hr hredirections
      obtain ⟨us, u, rfl⟩ := (List.eq_nil_or_concat us).resolve_left hne
      rw [List.concat_eq_append] at hwords hus ⊢
      have hlast : (pre ++ (us ++ [u])).getLast? = some u := by
        rw [← List.append_assoc, List.getLast?_concat]
      cases u with
      | word w => simp [hw, Token.words] at hwords
      | redirection digits arrow target => exact .redirected hlast
      | connector k => exact absurd (hus (.connector k) (by simp)) id
  · rw [Draft.endLine_spoken hw, result_finished]
    exact (h.derives hw).verdict

end

theorem Spells.valid {cs : List Char} (h : Spells ts cs) : ∀ t ∈ ts, t.Valid := by
  induction h with
  | nil => simp
  | blank _ _ ih => exact ih
  | item ht _ _ _ ih => exact List.forall_mem_cons.2 ⟨ht, ih⟩
  | connector hk _ _ _ ih => exact List.forall_mem_cons.2 ⟨hk, ih⟩

theorem Spells.begin {line : String} (h : Spells ts line.toList) (homes : HomeDirs) :
    begin homes line =
      match Draft.acceptAll {} ts with
      | .ok d => (d.reading none none []).endLine
      | .error k => .finished (State.unexpected k.symbol) :=
  h.advance homes {}

theorem parse_of_derives {line : String} (h : Spells ts line.toList) (hd : Derives ts cs)
    (homes : HomeDirs) (answers : List Answer) :
    parse homes line answers = (⟨.ok (some ⟨cs⟩), line, 0⟩, answers) := by
  obtain ⟨d, hts, hend⟩ := hd.acceptAll (d := {}) rfl rfl
  rw [parse, h.begin, hts]
  simp only [hend]
  rw [finish, ← hd.complete.ofCommands]
  rfl

theorem parse_of_offends {line : String} (h : Spells ts line.toList) (ho : Offends ts k)
    (homes : HomeDirs) (answers : List Answer) :
    (parse homes line answers).1.result = .error (.failure (.unexpectedToken k.symbol)) := by
  rw [parse, h.begin, (offends_iff h.valid).1 ho]
  exact result_finished (State.unexpected k.symbol) ..

theorem parse_of_nothing {line : String} (h : Spells [] line.toList) (homes : HomeDirs)
    (answers : List Answer) : (parse homes line answers).1.result = .ok none := by
  rw [parse, h.begin]
  exact result_finished (.ok []) ..

theorem Spells.verdict {line : String} (h : Spells ts line.toList) (homes : HomeDirs)
    {answers : List Answer} (ha : ∀ a ∈ answers, a = .endOfInput) :
    Verdict ts (parse homes line answers).1.result := by
  cases htaken : Draft.acceptAll {} ts with
  | error k =>
    have hoffends : Offends ts k := (offends_iff h.valid).2 htaken
    rw [parse_of_offends h hoffends]
    exact .offending hoffends
  | ok d =>
    rw [parse, h.begin, htaken]
    exact (drafted_nil.acceptAll h.valid htaken).verdict ha line 0

/-- With no further lines to read, a line that spells tokens is parsed exactly if they derive from the
grammar, into the commands of the derivation. Otherwise the connector that offends is reported; if
none does, the line stops behind a redirection or a connector that needs a command. -/
theorem parse_eq_some_iff_derives (homes : HomeDirs) {line : String} (h : Spells ts line.toList)
    {answers : List Answer} (ha : ∀ a ∈ answers, a = .endOfInput) :
    (∀ l, (parse homes line answers).1.result = .ok (some l) ↔ Derives ts l.commands) ∧
    ((parse homes line answers).1.result = .ok none ↔ ts = []) ∧
    (∀ k, Offends ts k →
      (parse homes line answers).1.result = .error (.failure (.unexpectedToken k.symbol))) ∧
    (ts ≠ [] → (∀ cs, ¬ Derives ts cs) → (∀ k, ¬ Offends ts k) →
      (∃ digits arrow target, ts.getLast? = some (.redirection digits arrow target)) ∧
        (parse homes line answers).1.result = .error (.failure (.unexpectedToken "newline")) ∨
      (∃ k, ts.getLast? = some (.connector k)) ∧
        (parse homes line answers).1.result = .error (.failure (.unexpectedEnd "a command"))) := by
  have hverdict := h.verdict homes ha
  refine ⟨fun l ↦ ⟨fun hl ↦ ?_, fun hd ↦ ?_⟩, ⟨fun hnone ↦ ?_, ?_⟩,
    fun k hk ↦ parse_of_offends h hk homes answers, fun hne hderives hoffends ↦ ?_⟩
  · rw [hl] at hverdict
    cases hverdict with
    | list hd => exact hd
  · rw [parse_of_derives h hd]
  · rw [hnone] at hverdict
    cases hverdict with
    | nothing hts => exact hts
  · rintro rfl
    exact parse_of_nothing h homes answers
  · generalize (parse homes line answers).1.result = r at hverdict ⊢
    cases hverdict with
    | nothing hts => exact absurd hts hne
    | list hd => exact absurd hd (hderives _)
    | offending hk => exact absurd hk (hoffends _)
    | redirected hlast => exact .inl ⟨⟨_, _, _, hlast⟩, rfl⟩
    | dangling hlast => exact .inr ⟨⟨_, hlast⟩, rfl⟩

theorem parse_two_commands :
    (parse ⟨none, fun _ ↦ none⟩ "a 2>f ; b &" [.endOfInput]).1.result =
      .ok (some ⟨[⟨.sequential, ["a"], [.path .truncate 2 "f"]⟩, ⟨.background, ["b"], []⟩]⟩) := by
  have hspells : Spells [.word "a", .redirection (some "2") .write "f", .connector .sequential,
      .word "b", .connector .background] "a 2>f ; b &".toList :=
    spells_intercalate " " (by decide) (by decide) (by simp [isBlank])
  have ha : FormsCommand [.word "a", .redirection (some "2") .write "f"] :=
    ⟨by simp [Token.IsItem], by decide⟩
  have hb : FormsCommand [.word "b"] := ⟨by simp [Token.IsItem], by decide⟩
  have hderives := Derives.join ha (.semicolons 0) (.last hb .background)
  exact ((parse_eq_some_iff_derives _ hspells (by simp)).1 _).2 hderives

end JobShell.Parser

import JobShell.Proofs.Parser.Grammar

namespace JobShell

open JobShell.Parser

/-- Descriptors are integers of thirty-two bits, none of them negative. -/
def IsDescriptor (n : Int) : Prop := 0 ≤ n ∧ n ≤ 2147483647

instance (n : Int) : Decidable (IsDescriptor n) :=
  inferInstanceAs (Decidable (0 ≤ n ∧ n ≤ 2147483647))

variable {n : Int}

theorem Decimal.toList_text (h : 0 ≤ n) : (Decimal.text n).toList = Decimal.digits n.natAbs := by
  have hn : ¬ n < 0 := by omega
  rw [Decimal.text, if_neg hn, String.toList_ofList]

theorem Decimal.value_text (h : 0 ≤ n) : (Decimal.value (Decimal.text n).toList : Int) = n := by
  rw [toList_text h, value_digits]
  exact Int.natAbs_of_nonneg h

theorem IsDescriptor.numeral (h : IsDescriptor n) : Numeral (Decimal.text n) where
  nonempty := Decimal.toList_text h.1 ▸ Decimal.digits_ne_nil _
  digits := Decimal.toList_text h.1 ▸ Decimal.all_isDigit_digits _
  fits := by
    have hvalue := Decimal.value_text h.1
    have hn := h.2
    omega

namespace Redirection

/-- A redirection whose text denotes it. -/
def Printable : Redirection → Prop
  | duplicate source target _ => IsDescriptor source ∧ IsDescriptor target
  | close source _ => IsDescriptor source
  | path _ source name => IsDescriptor source ∧ PlainWord name
  | document .. => False

instance : (r : Redirection) → Decidable r.Printable
  | duplicate source target _ =>
    inferInstanceAs (Decidable (IsDescriptor source ∧ IsDescriptor target))
  | close source _ => inferInstanceAs (Decidable (IsDescriptor source))
  | path _ source name => inferInstanceAs (Decidable (IsDescriptor source ∧ PlainWord name))
  | document .. => inferInstanceAs (Decidable False)

def arrow : Redirection → Arrow
  | duplicate _ _ input | close _ input => .duplicate input
  | path .truncate _ _ => .write
  | path .append _ _ => .append
  | path .read _ _ => .read
  | path .readWrite _ _ => .readWrite
  | document _ _ => .hereString

def token (r : Redirection) : Token :=
  .redirection (if r.source = r.defaultSource then none else some (Decimal.text r.source)) r.arrow
    r.operand

variable {r : Redirection}

theorem Printable.isDescriptor_source (h : r.Printable) : IsDescriptor r.source := by
  cases r with
  | duplicate | path => exact h.1
  | close => exact h
  | document => exact absurd h id

theorem Printable.text_token (h : r.Printable) : r.token.text = r.text := by
  have harrow : r.arrow.text = r.operator := by
    cases r with
    | path mode => cases mode <;> rfl
    | document => exact absurd h id
    | _ => rfl
  simp only [token, Token.text, text, harrow]
  split <;> rfl

theorem Printable.takes_operand (h : r.Printable) : r.arrow.Takes r.operand := by
  cases r with
  | duplicate => exact .inr h.2.numeral
  | close => exact .inl rfl
  | path mode => cases mode <;> exact h.2
  | document => exact absurd h id

theorem Printable.valid_token (h : r.Printable) : r.token.Valid := by
  refine ⟨fun n hn ↦ ?_, h.takes_operand⟩
  split at hn
  · cases hn
  · cases hn
    exact h.isDescriptor_source.numeral

theorem Printable.source_arrow (h : r.Printable) :
    r.arrow.source (if r.source = r.defaultSource then none else some (Decimal.text r.source)) =
      r.source := by
  have hdefault : r.arrow.defaultSource = r.defaultSource := by
    cases r with
    | path mode => cases mode <;> rfl
    | _ => rfl
  split
  · rename_i hsource
    rw [hsource, ← hdefault]
    rfl
  · exact Decimal.value_text h.isDescriptor_source.1

theorem Printable.redirections_token (h : r.Printable) : r.token.redirections = [r] := by
  simp only [token, Token.redirections, h.source_arrow]
  cases r with
  | duplicate source target input =>
    simp only [Arrow.redirection, arrow, operand, h.2.numeral.ne_dash, if_false,
      Decimal.value_text h.2.1]
    rfl
  | close => rfl
  | path mode => cases mode <;> rfl
  | document => exact absurd h id

end Redirection

namespace Command

structure Printable (c : Command) : Prop where
  words : ∀ w ∈ c.words, PlainWord w
  redirections : ∀ r ∈ c.redirections, r.Printable

def items (c : Command) : List Token :=
  c.words.map .word ++ c.redirections.map Redirection.token

variable {c : Command}

theorem isItem_items (c : Command) : ∀ t ∈ c.items, t.IsItem := by
  intro t ht
  rcases List.mem_append.1 ht with ht | ht
  · obtain ⟨w, _, rfl⟩ := List.mem_map.1 ht
    trivial
  · obtain ⟨r, _, rfl⟩ := List.mem_map.1 ht
    trivial

theorem Printable.valid_items (h : c.Printable) : ∀ t ∈ c.items, t.Valid := by
  intro t ht
  rcases List.mem_append.1 ht with ht | ht
  · obtain ⟨w, hw, rfl⟩ := List.mem_map.1 ht
    exact h.words w hw
  · obtain ⟨r, hr, rfl⟩ := List.mem_map.1 ht
    exact (h.redirections r hr).valid_token

theorem Printable.text_items (h : c.Printable) :
    " ".intercalate (c.items.map Token.text) = c.text := by
  have hwords : (c.words.map Token.word).map Token.text = c.words := by
    rw [List.map_map]
    exact List.map_id _
  have hredirections : (c.redirections.map Redirection.token).map Token.text =
      c.redirections.map Redirection.text := by
    rw [List.map_map]
    exact List.map_congr_left fun r hr ↦ (h.redirections r hr).text_token
  rw [items, List.map_append, hwords, hredirections, text]

theorem words_items (c : Command) : c.items.flatMap Token.words = c.words := by
  simp [items, List.flatMap_map, Token.words, Redirection.token]

theorem Printable.redirections_items (h : c.Printable) :
    c.items.flatMap Token.redirections = c.redirections := by
  have hwords : (c.words.map Token.word).flatMap Token.redirections = [] := by
    simp [Token.redirections]
  have hredirections : (c.redirections.map Redirection.token).flatMap Token.redirections =
      c.redirections.flatMap fun r ↦ [r] := by
    rw [List.flatMap_map, List.flatMap_def, List.flatMap_def]
    exact congrArg List.flatten
      (List.map_congr_left fun r hr ↦ (h.redirections r hr).redirections_token)
  rw [items, List.flatMap_append, hwords, hredirections]
  simp

theorem Printable.command_items (h : c.Printable) (k : Connector) :
    command c.items k = { c with connector := k } := by
  rw [command, words_items, h.redirections_items]

end Command

namespace CommandList

def connectorTokens (k : Connector) : List Token :=
  if k = .single then [] else [.connector k]

def tokens (cs : List Command) : List Token :=
  cs.flatMap fun c ↦ c.items ++ connectorTokens c.connector

theorem terminates_tokens {k : Connector} (h : k = .single ∨ k = .background) :
    Terminates (connectorTokens k) k := by
  rcases h with rfl | rfl
  · exact .nothing
  · exact .background

theorem derives_tokens {cs : List Command} (hcs : Complete cs) (h : ∀ c ∈ cs, c.Printable) :
    Derives (tokens cs) cs := by
  induction cs with
  | nil => exact absurd rfl hcs.nonempty
  | cons c cs ih =>
    obtain ⟨hc, hprint⟩ := List.forall_mem_cons.1 h
    have hforms : FormsCommand c.items :=
      ⟨c.isItem_items, by rw [c.words_items]; exact hcs.spoken c List.mem_cons_self⟩
    by_cases hne : cs = []
    · subst hne
      obtain ⟨d, hd, hend⟩ := hcs.ending
      cases hd
      have hlast := Derives.last hforms (terminates_tokens hend)
      rw [hc.command_items] at hlast
      simpa [tokens] using hlast
    · obtain ⟨⟨-, hk⟩, hrest⟩ := (complete_cons hne).1 hcs
      have hjoin := Derives.join hforms (separates_connector hk) (ih hrest hprint)
      rw [hc.command_items] at hjoin
      simpa [tokens, connectorTokens, hk] using hjoin

theorem spells_connector {ts : List Token} {cs : List Char} (k : Connector)
    (hcs : ∀ c ∈ cs.head?, isBlank c) (h : Spells ts cs) :
    Apart (k.symbol.toList ++ cs) ∧ Spells (connectorTokens k ++ ts) (k.symbol.toList ++ cs) := by
  by_cases hk : k = .single
  · subst hk
    exact ⟨apart_of_head? hcs, h⟩
  · refine ⟨?_, ?_⟩
    · cases k <;> simp [Connector.symbol, Apart] at hk ⊢
    · rw [connectorTokens, if_neg hk]
      exact h.cons hk hcs

/-- Commands with their connectors, each of which stands behind a gap. -/
def written (gap : Command → String) (cs : List Command) : String :=
  " ".intercalate (cs.map fun c ↦ c.text ++ (gap c ++ c.connector.symbol))

theorem spells_written {gap : Command → String} (hgap : ∀ c, ∀ b ∈ (gap c).toList, isBlank b)
    {cs : List Command} (hspoken : ∀ c ∈ cs, c.words ≠ []) (h : ∀ c ∈ cs, c.Printable) :
    Spells (tokens cs) (written gap cs).toList := by
  induction cs with
  | nil => exact .nil
  | cons c cs ih =>
    obtain ⟨hw, hwords⟩ := List.forall_mem_cons.1 hspoken
    obtain ⟨hc, hprint⟩ := List.forall_mem_cons.1 h
    have hne : c.items ≠ [] := by
      simp [Command.items, hw]
    have hone : ∀ {ts rest}, (∀ c ∈ rest.head?, isBlank c) → Spells ts rest →
        Spells (c.items ++ (connectorTokens c.connector ++ ts))
          (c.text.toList ++ ((gap c).toList ++ (c.connector.symbol.toList ++ rest))) := by
      intro ts rest hrest hts
      obtain ⟨ha, hconnector⟩ := spells_connector c.connector hrest hts
      rw [← hc.text_items]
      exact (hconnector.blanks (hgap c)).items hne hc.valid_items c.isItem_items
        (apart_blanks (hgap c) ha)
    cases cs with
    | nil =>
      have hlast := hone (by simp) .nil
      simpa [written, tokens] using hlast
    | cons d cs =>
      have hmore := hone (by simp [isBlank]) (.blank (b := ' ') rfl (ih hwords hprint))
      have hwritten : written gap (c :: d :: cs) =
          c.text ++ (gap c ++ c.connector.symbol) ++ " " ++ written gap (d :: cs) := by
        simp only [written, List.map_cons, String.intercalate_cons_cons]
      rw [hwritten]
      simpa [tokens] using hmore

theorem text_eq_written {cs : List Command} (hcs : ∀ d ∈ cs, d.connector = .piped)
    {c : Command} (hc : c.connector ≠ .piped) :
    Pipeline.text (cs ++ [c]) =
      written (fun d ↦ if d.connector = .piped then " " else "")
        (cs ++ [{ c with connector := .single }]) := by
  have hpiped : (cs.map fun d ↦ if d.connector = .piped then
      d.text ++ " " ++ Connector.piped.symbol else d.text) =
      cs.map fun d ↦ d.text ++ ((if d.connector = .piped then " " else "") ++ d.connector.symbol) :=
    List.map_congr_left fun d hd ↦ by
      simp [hcs d hd, String.append_assoc]
  rw [Pipeline.text, written, List.map_append, List.map_append, hpiped]
  simp [hc, Connector.symbol, Command.text]

/-- The text of a command list is parsed back into it, with any blanks or none before each connector,
and without a look at further lines. So is that of a pipeline, but for what follows the pipeline,
which its text leaves out. -/
theorem parse_written (homes : HomeDirs) (answers : List Answer) {l : CommandList}
    (hl : Complete l.commands) (h : ∀ c ∈ l.commands, c.Printable) :
    (∀ gap : Command → String, (∀ c, ∀ b ∈ (gap c).toList, isBlank b) →
      parse homes (written gap l.commands) answers =
        (⟨.ok (some l), written gap l.commands, 0⟩, answers)) ∧
    ∀ cs c, l.commands = cs ++ [c] → (∀ d ∈ cs, d.connector = .piped) →
      parse homes (Pipeline.text l.commands) answers =
        (⟨.ok (some ⟨cs ++ [{ c with connector := .single }]⟩), Pipeline.text l.commands, 0⟩,
          answers) := by
  refine ⟨fun gap hgap ↦ ?_, fun cs c hcs hpiped ↦ ?_⟩
  · exact parse_of_derives (spells_written hgap hl.spoken h) (derives_tokens hl h) homes answers
  · rw [hcs] at hl h ⊢
    obtain ⟨hinit, hw, hend⟩ := complete_concat.1 hl
    obtain ⟨hprint, hc⟩ := List.forall_mem_append.1 h
    have hc := List.forall_mem_singleton.1 hc
    have hended : Complete (cs ++ [{ c with connector := .single }]) :=
      complete_concat.2 ⟨hinit, hw, .inl rfl⟩
    have hprinted : ∀ d ∈ cs ++ [{ c with connector := .single }], d.Printable :=
      List.forall_mem_append.2 ⟨hprint, List.forall_mem_singleton.2 ⟨hc.words, hc.redirections⟩⟩
    have hne : c.connector ≠ .piped := by
      rcases hend with hend | hend <;> simp [hend]
    rw [text_eq_written hpiped hne]
    refine parse_of_derives (spells_written (fun d ↦ ?_) hended.spoken hprinted)
      (derives_tokens hended hprinted) homes answers
    split <;> simp [isBlank]

def backgroundPipeline : CommandList :=
  ⟨[⟨.piped, ["a", "1"], [.duplicate 0 5 true, .close 2 false]⟩,
    ⟨.background, ["b"], [.path .append 3 "f"]⟩]⟩

theorem parse_backgroundPipeline :
    (parse ⟨none, fun _ ↦ none⟩ "a 1 <&5 2>&- | b 3>>f &" [.line "c"]).1.result =
      .ok (some backgroundPipeline) ∧
    (parse ⟨none, fun _ ↦ none⟩ "a 1 <&5 2>&- | b 3>>f" [.line "c"]).1.result =
      .ok (some ⟨[⟨.piped, ["a", "1"], [.duplicate 0 5 true, .close 2 false]⟩,
        ⟨.single, ["b"], [.path .append 3 "f"]⟩]⟩) := by
  have hcomplete : Complete backgroundPipeline.commands :=
    ⟨by simp [backgroundPipeline], by simp [backgroundPipeline], ⟨_, rfl, .inr rfl⟩,
      by simp [backgroundPipeline]⟩
  have hprintable : ∀ c ∈ backgroundPipeline.commands, c.Printable := by
    simp only [backgroundPipeline, List.forall_mem_cons]
    exact ⟨⟨by decide, by decide⟩, ⟨by decide, by decide⟩, by simp⟩
  have hspaced : written (fun _ ↦ " ") backgroundPipeline.commands = "a 1 <&5 2>&- | b 3>>f &" := by
    decide +kernel
  have htext : Pipeline.text backgroundPipeline.commands = "a 1 <&5 2>&- | b 3>>f" := by
    decide +kernel
  obtain ⟨hlines, hpipelines⟩ :=
    parse_written ⟨none, fun _ ↦ none⟩ [.line "c"] hcomplete hprintable
  have hline := hlines (fun _ ↦ " ") (by simp [isBlank])
  have hpipeline := hpipelines [_] _ rfl (by simp)
  rw [hspaced] at hline
  rw [htext] at hpipeline
  exact ⟨congrArg (fun o ↦ o.1.result) hline, congrArg (fun o ↦ o.1.result) hpipeline⟩

end CommandList

end JobShell

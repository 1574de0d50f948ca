import JobShell.Proofs.Parser.Course

namespace JobShell.Parser

variable {homes : HomeDirs} {line : String} {buffer : List Char} {c : Char}

/-- No defect arises, and `P` holds of what is computed. -/
def Free {α : Type} (P : α → Prop) : Except Fault α → Prop
  | .ok a => P a
  | .error (.failure _) => True
  | .error (.defect _) => False

theorem Free.bind {α β : Type} {P : α → Prop} {Q : β → Prop} {x : Except Fault α}
    {f : α → Except Fault β} (hx : Free P x) (hf : ∀ a, x = .ok a → P a → Free Q (f a)) :
    Free Q (x >>= f) := by
  cases x with
  | ok a => exact hf a rfl hx
  | error e => cases e with
    | failure => trivial
    | defect => exact hx

theorem free_unexpected {α : Type} (P : α → Prop) (token : String) :
    Free P (State.unexpected token) := trivial

def HasDocument (rs : List Redirection) (i : Nat) : Prop :=
  ∃ source body, rs[i]? = some (.document source body)

theorem HasDocument.append {rs : List Redirection} {i : Nat} (h : HasDocument rs i)
    (r : Redirection) : HasDocument (rs ++ [r]) i := by
  obtain ⟨source, body, h⟩ := h
  refine ⟨source, body, ?_⟩
  rw [List.getElem?_append_left (List.getElem?_eq_some_iff.1 h).1, h]

theorem hasDocument_last (rs : List Redirection) (source : Int) (body : String) :
    HasDocument (rs ++ [.document source body]) rs.length :=
  ⟨source, body, by simp⟩

theorem HasDocument.set {rs : List Redirection} {i j : Nat} {source : Int} {body : String}
    (h : HasDocument rs i) : HasDocument (rs.set j (.document source body)) i := by
  obtain ⟨source', body', h⟩ := h
  by_cases hij : j = i
  · subst hij
    exact ⟨source, body, by simp [(List.getElem?_eq_some_iff.1 h).1]⟩
  · exact ⟨source', body', by rw [List.getElem?_set_ne hij, h]⟩

theorem fillDocument_of_hasDocument {rs : List Redirection} {i : Nat} (h : HasDocument rs i)
    (body : String) :
    ∃ source, Command.fillDocument rs i body = .ok (rs.set i (.document source body)) := by
  obtain ⟨source, body', h⟩ := h
  exact ⟨source, by simp only [Command.fillDocument, h]⟩

/-- The redirections of the command at `i`, which is the current one past the finished ones. -/
def redirectionsAt (commands : List Command) (current : List Redirection) (i : Nat) :
    List Redirection :=
  match commands[i]? with
  | some c => c.redirections
  | none => current

theorem redirectionsAt_of_lt {commands : List Command} {current : List Redirection} {i : Nat}
    (h : i < commands.length) :
    redirectionsAt commands current i = commands[i].redirections := by
  simp [redirectionsAt, h]

theorem redirectionsAt_length (commands : List Command) (current : List Redirection) :
    redirectionsAt commands current commands.length = current := by
  simp [redirectionsAt]

/-- A request names a here-document of a finished command or of the current one. -/
structure Request.FoundIn (commands : List Command) (current : List Redirection) (r : Request) :
    Prop where
  command : r.command ≤ commands.length
  document : HasDocument (redirectionsAt commands current r.command) r.redirection

theorem Request.FoundIn.append {commands : List Command} {current : List Redirection} {r : Request}
    (h : r.FoundIn commands current) (x : Redirection) : r.FoundIn commands (current ++ [x]) := by
  refine ⟨h.command, ?_⟩
  have hd := h.document
  simp only [redirectionsAt] at hd ⊢
  split at hd
  · exact hd
  · exact hd.append x

theorem Request.FoundIn.close {commands : List Command} {current : List Redirection} {r : Request}
    (h : r.FoundIn commands current) {c : Command} (hc : c.redirections = current) :
    r.FoundIn (commands ++ [c]) [] := by
  refine ⟨by simpa using Nat.le_succ_of_le h.command, ?_⟩
  have hd := h.document
  rcases Nat.lt_or_eq_of_le h.command with hlt | heq
  · rw [redirectionsAt_of_lt hlt] at hd
    simp only [redirectionsAt, List.getElem?_append_left hlt, List.getElem?_eq_getElem hlt]
    exact hd
  · rw [heq, redirectionsAt_length] at hd
    simp only [redirectionsAt, heq, List.getElem?_concat_length, hc]
    exact hd

namespace State

/-- What holds of a parser at all times. -/
structure Sound (s : State) : Prop where
  named : ∀ r ∈ s.requests, r.FoundIn s.commands s.redirections
  targeted : ∀ p ∈ s.pending, p.target = p.operator.target
  spoken : ∀ c ∈ s.commands, c.words ≠ []
  joined : ∀ c ∈ s.commands, c.connector ≠ .single

structure Keeps (s t : State) : Prop where
  pending : t.pending = s.pending
  words : t.words = s.words
  redirections : t.redirections = s.redirections
  commands : t.commands = s.commands
  requests : t.requests = s.requests

theorem Sound.of_keeps {s t : State} (hs : s.Sound) (hk : Keeps s t) : t.Sound where
  named r hr := by
    rw [hk.commands, hk.redirections]
    exact hs.named r (hk.requests ▸ hr)
  targeted p hp := hs.targeted p (hk.pending ▸ hp)
  spoken c hc := hs.spoken c (hk.commands ▸ hc)
  joined c hc := hs.joined c (hk.commands ▸ hc)

theorem keeps_push (s : State) (c : Char) : Keeps s (s.push c) := ⟨rfl, rfl, rfl, rfl, rfl⟩

theorem keeps_openSubstitution (s : State) (c : Char) : Keeps s (s.openSubstitution c) := by
  simp only [openSubstitution]
  split
  · exact ⟨rfl, rfl, rfl, rfl, rfl⟩
  · split <;> exact ⟨rfl, rfl, rfl, rfl, rfl⟩

theorem keeps_escape (s : State) : Keeps s s.escape := by
  unfold escape
  split <;> exact ⟨rfl, rfl, rfl, rfl, rfl⟩

theorem keeps_doubleQuoted (s : State) (c : Char) : Keeps s (s.doubleQuoted c) := by
  unfold doubleQuoted
  split
  · exact ⟨rfl, rfl, rfl, rfl, rfl⟩
  · split
    · exact ⟨rfl, rfl, rfl, rfl, rfl⟩
    · exact ⟨rfl, rfl, rfl, rfl, rfl⟩
    · split <;> exact ⟨rfl, rfl, rfl, rfl, rfl⟩
  · exact keeps_openSubstitution s _
  · exact keeps_openSubstitution s _
  · exact keeps_push s c

theorem keeps_nested (s : State) (expected : Closer) (outer : List Closer) (c : Char) :
    Keeps s (s.nested expected outer c) := by
  simp only [nested]
  repeat' split
  all_goals exact ⟨rfl, rfl, rfl, rfl, rfl⟩

theorem expand?_le {homes : HomeDirs} {rest : List Char} {home : String} {n : Nat}
    (h : Tilde.expand? homes rest = some (home, n)) : n ≤ rest.length := by
  have hn : n = (rest.takeWhile Tilde.isNameChar).length := by
    simp only [Tilde.expand?, Option.ite_none_right_eq_some, Option.map_eq_some_iff,
      Prod.mk.injEq] at h
    obtain ⟨-, _, -, -, hn⟩ := h
    exact hn.symm
  rw [hn]
  exact (List.takeWhile_sublist _).length_le

theorem keeps_ordinary (homes : HomeDirs) (s : State) (c : Char) :
    Free (Keeps s) (s.ordinary homes c) := by
  unfold ordinary
  split
  · exact keeps_push s c
  · split
    · exact ⟨rfl, rfl, rfl, rfl, rfl⟩
    · split
      · split
        · rename_i home n he
          rw [skip, if_pos (expand?_le he)]
          exact ⟨rfl, rfl, rfl, rfl, rfl⟩
        · exact keeps_push s c
      · exact keeps_push s c

theorem Sound.finishWord {s : State} (hs : s.Sound) : Free Sound s.finishWord := by
  simp only [State.finishWord]
  split
  · exact hs
  · split
    · exact ⟨hs.named, fun p hp ↦ hs.targeted p hp, hs.spoken, hs.joined⟩
    · rename_i p hp
      have hadd : ∀ x, Sound { s with
          word := none, pending := none, redirections := s.redirections ++ [x] } := fun x ↦
        ⟨fun r hr ↦ (hs.named r hr).append x, by simp, hs.spoken, hs.joined⟩
      cases ht : p.target with
      | descriptor =>
        refine Free.bind (P := fun _ ↦ True) ?_ fun x _ _ ↦ hadd x
        unfold duplication
        repeat' split
        all_goals trivial
      | name =>
        cases ho : p.operator with
        | path mode => exact hadd _
        | hereString => exact hadd _
        | hereDocument stripTabs =>
          refine ⟨fun r hr ↦ ?_, by simp, hs.spoken, hs.joined⟩
          rcases List.mem_append.1 hr with hr | hr
          · exact (hs.named r hr).append _
          · rw [List.mem_singleton.1 hr]
            refine ⟨Nat.le_refl _, ?_⟩
            rw [redirectionsAt_length]
            exact hasDocument_last s.redirections p.source ""
        | duplicate input =>
          have := hs.targeted p hp
          rw [ho, ht] at this
          cases this

theorem closeCommand_eq {s : State} (hw : s.words ≠ []) (k : Connector) :
    s.closeCommand k = .ok { s with
      words := [], redirections := [], commands := s.commands ++ [⟨k, s.words, s.redirections⟩] } := by
  simp only [closeCommand, Command.build, List.isEmpty_eq_false_iff.2 hw]
  rfl

theorem Sound.closeCommand {s : State} (hs : s.Sound) (hw : s.words ≠ []) {k : Connector}
    (hk : k ≠ .single) : Free Sound (s.closeCommand k) := by
  rw [closeCommand_eq hw]
  refine ⟨fun r hr ↦ (hs.named r hr).close rfl, hs.targeted, ?_, ?_⟩
  · exact List.forall_mem_append.2 ⟨hs.spoken, List.forall_mem_singleton.2 hw⟩
  · exact List.forall_mem_append.2 ⟨hs.joined, List.forall_mem_singleton.2 hk⟩

theorem Sound.link {s : State} (hs : s.Sound) {k : Connector} (hk : k ≠ .single) :
    Free Sound (s.link k) := by
  refine hs.finishWord.bind fun t _ ht ↦ ?_
  split
  · exact free_unexpected ..
  · split
    · split
      · exact ht
      · exact free_unexpected ..
    · rename_i hw
      exact ht.closeCommand (by simpa using hw) hk

theorem Sound.beginRedirection {s : State} (hs : s.Sound) (c : Char) :
    Free Sound (s.beginRedirection c) := by
  have hr : Sound { s with rest := (operatorAt c s.rest).2.2 } :=
    hs.of_keeps ⟨rfl, rfl, rfl, rfl, rfl⟩
  simp only [State.beginRedirection]
  split
  · exact ⟨hs.named, fun p hp ↦ by cases hp; rfl, hs.spoken, hs.joined⟩
  · refine hr.finishWord.bind fun t _ ht ↦ ?_
    split
    · exact free_unexpected ..
    · exact ⟨ht.named, fun p hp ↦ by cases hp; rfl, ht.spoken, ht.joined⟩

theorem connectorAt?_ne_single {c : Char} {rest r : List Char} {k : Connector}
    (h : connectorAt? c rest = some (k, r)) : k ≠ .single := by
  unfold connectorAt? at h
  grind

theorem Sound.unquoted {s : State} (hs : s.Sound) (homes : HomeDirs) (c : Char) :
    Free Sound (s.unquoted homes c) := by
  unfold State.unquoted
  split
  · exact hs.finishWord
  repeat' split
  · exact hs.of_keeps ⟨rfl, rfl, rfl, rfl, rfl⟩
  · exact hs.of_keeps ⟨rfl, rfl, rfl, rfl, rfl⟩
  · exact hs.of_keeps (keeps_escape s)
  · exact hs.beginRedirection c
  · exact hs.of_keeps (keeps_openSubstitution s c)
  · rename_i r hk
    have hr : Sound { s with rest := r } := hs.of_keeps ⟨rfl, rfl, rfl, rfl, rfl⟩
    exact hr.link (connectorAt?_ne_single hk)
  · have hk := keeps_ordinary homes s c
    generalize s.ordinary homes c = x at hk
    cases x with
    | ok t => exact hs.of_keeps hk
    | error f => cases f with
      | failure => trivial
      | defect => exact hk

theorem Sound.step {s : State} (hs : s.Sound) (homes : HomeDirs) (c : Char) :
    Free Sound (s.step homes c) := by
  unfold State.step
  split
  · exact hs.of_keeps (keeps_nested ..)
  · split
    · split <;> exact hs.of_keeps ⟨rfl, rfl, rfl, rfl, rfl⟩
    · exact hs.of_keeps (keeps_doubleQuoted s c)
    · exact hs.unquoted homes c

end State

/-- Commands that make up a list: each names a program, and connectors stand between them. -/
structure Complete (cs : List Command) : Prop where
  nonempty : cs ≠ []
  spoken : ∀ c ∈ cs, c.words ≠ []
  ending : ∃ c, cs.getLast? = some c ∧ (c.connector = .single ∨ c.connector = .background)
  joined : ∀ c ∈ cs.dropLast, c.connector ≠ .single

theorem complete_concat {cs : List Command} {c : Command} : Complete (cs ++ [c]) ↔
    (∀ d ∈ cs, d.words ≠ [] ∧ d.connector ≠ .single) ∧
      c.words ≠ [] ∧ (c.connector = .single ∨ c.connector = .background) := by
  constructor
  · rintro ⟨-, hspoken, ⟨d, hd, hend⟩, hjoined⟩
    rw [List.getLast?_concat] at hd
    rw [List.dropLast_concat] at hjoined
    cases hd
    refine ⟨fun d hd ↦ ⟨hspoken d (List.mem_append_left _ hd), hjoined d hd⟩, ?_, hend⟩
    exact hspoken c (by simp)
  · rintro ⟨hcs, hc, hend⟩
    refine ⟨by simp, ?_, ⟨c, List.getLast?_concat, hend⟩, ?_⟩
    · exact List.forall_mem_append.2 ⟨fun d hd ↦ (hcs d hd).1, List.forall_mem_singleton.2 hc⟩
    · rw [List.dropLast_concat]
      exact fun d hd ↦ (hcs d hd).2

theorem complete_cons {c : Command} {cs : List Command} (hcs : cs ≠ []) :
    Complete (c :: cs) ↔ (c.words ≠ [] ∧ c.connector ≠ .single) ∧ Complete cs := by
  obtain ⟨cs, d, rfl⟩ := (List.eq_nil_or_concat cs).resolve_left hcs
  rw [List.concat_eq_append, ← List.cons_append, complete_concat, complete_concat,
    List.forall_mem_cons, and_assoc]

def Progress.Sound : Progress → Prop
  | .finished r => Free (fun cs ↦ cs = [] ∨ Complete cs) r
  | .waiting w => w.state.Sound ∧ w.state.rest = [] ∧
      match w.reason with
      | .document r _ later => ∀ r' ∈ r :: later, r'.FoundIn w.state.commands w.state.redirections
      | _ => True

/-- What holds wherever a parser with this buffer stands: what is unread begins at a place in it. -/
def Turn.Sound (buffer : List Char) : Turn → Prop
  | .reading s => s.Sound ∧ ∃ pos ≤ buffer.length, s.rest = buffer.drop pos
  | .stopped p => p.Sound

namespace State

theorem Sound.commandsAtEnd {s : State} (hs : s.Sound)
    (hend : s.words = [] → ∀ k ∈ s.lastConnector?, k = .background ∨ k = .sequential) :
    Free (fun cs ↦ cs = [] ∨ Complete cs) s.commandsAtEnd := by
  have hcommands : ∀ d ∈ s.commands, d.words ≠ [] ∧ d.connector ≠ .single := fun d hd ↦
    ⟨hs.spoken d hd, hs.joined d hd⟩
  by_cases hw : s.words = []
  · simp only [State.commandsAtEnd, hw, List.isEmpty_nil, if_true, bind, Except.bind]
    cases hlast : s.commands.getLast? with
    | none => exact Or.inl (List.getLast?_eq_none_iff.1 hlast)
    | some c =>
      obtain ⟨cs, hcs⟩ := List.getLast?_eq_some_iff.1 hlast
      rw [hcs] at hcommands ⊢
      obtain ⟨hinit, hc⟩ := List.forall_mem_append.1 hcommands
      have hspoken := (List.forall_mem_singleton.1 hc).1
      rcases hend hw c.connector (by simp [lastConnector?, hlast]) with hk | hk
      · simp only [hk, reduceCtorEq, if_false]
        exact Or.inr (complete_concat.2 ⟨hinit, hspoken, .inr hk⟩)
      · simp only [hk, if_true, List.dropLast_concat]
        exact Or.inr (complete_concat.2 ⟨hinit, hspoken, .inl rfl⟩)
  · simp only [State.commandsAtEnd, List.isEmpty_eq_false_iff.2 hw, closeCommand_eq hw, bind,
      Except.bind, List.getLast?_concat, Bool.false_eq_true, if_false, reduceCtorEq]
    exact Or.inr (complete_concat.2 ⟨hcommands, hw, .inl rfl⟩)

theorem Sound.endLine {s : State} (hs : s.Sound) (hr : s.rest = []) : s.endLine.Sound := by
  unfold State.endLine
  split
  · split
    · split
      · exact ⟨hs, hr, trivial⟩
      · exact ⟨hs, hr, trivial⟩
      · exact ⟨hs, hr, trivial⟩
      · rename_i hand hor hpiped
        refine hs.commandsAtEnd fun _ k hk ↦ ?_
        have hsingle : k ≠ .single := by
          obtain ⟨c, hc, rfl⟩ := Option.map_eq_some_iff.1 hk
          exact hs.joined c (List.mem_of_getLast? hc)
        cases k with
        | single => exact absurd rfl hsingle
        | piped => exact absurd hk hpiped
        | and => exact absurd hk hand
        | or => exact absurd hk hor
        | background => exact .inl rfl
        | sequential => exact .inr rfl
    · trivial
  · rename_i hw
    exact hs.commandsAtEnd fun h ↦ absurd (by simp [h]) hw

theorem Sound.readDocuments {s : State} (hs : s.Sound) (hr : s.rest = []) {rs : List Request}
    (hrs : ∀ r ∈ rs, r.FoundIn s.commands s.redirections) : (s.readDocuments rs).Sound := by
  cases rs with
  | nil => exact hs.endLine hr
  | cons r later => exact ⟨hs, hr, hrs⟩

theorem Sound.endBuffer {s : State} (hs : s.Sound) (hr : s.rest = []) : s.endBuffer.Sound := by
  unfold State.endBuffer
  split
  · exact ⟨hs, hr, trivial⟩
  · split
    · exact ⟨hs, hr, trivial⟩
    · exact ⟨hs, hr, trivial⟩
    · have hf := hs.finishWord
      split
      · rename_i f hfail
        rw [hfail] at hf
        cases f with
        | failure => trivial
        | defect => exact hf
      · rename_i t ht
        rw [ht] at hf
        split
        · trivial
        · exact Sound.readDocuments (s := { t with requests := [] })
            ⟨by simp, fun p hp ↦ hf.targeted p hp, hf.spoken, hf.joined⟩
            ((rest_finishWord ht).trans hr) hf.named

theorem Sound.meetEnd {s : State} (hs : s.Sound) (hr : s.rest = []) : s.meetEnd.Sound := by
  unfold State.meetEnd
  split
  · exact ⟨hs.of_keeps ⟨rfl, rfl, rfl, rfl, rfl⟩, hr, trivial⟩
  · exact hs.endBuffer hr

theorem Sound.fill {s : State} (hs : s.Sound) {r : Request} (body : String)
    (hr : r.FoundIn s.commands s.redirections) :
    Free (fun t ↦ t.Sound ∧ t.rest = s.rest ∧ ∀ r' : Request,
      r'.FoundIn s.commands s.redirections → r'.FoundIn t.commands t.redirections)
      (s.fill r body) := by
  have hd := hr.document
  unfold State.fill
  split
  · rename_i c hc
    have hlt : r.command < s.commands.length := (List.getElem?_eq_some_iff.1 hc).1
    simp only [redirectionsAt, hc] at hd
    obtain ⟨source, hfill⟩ := fillDocument_of_hasDocument hd body
    rw [hfill]
    have hfound : ∀ r' : Request, r'.FoundIn s.commands s.redirections →
        r'.FoundIn (s.commands.set r.command
          { c with redirections := c.redirections.set r.redirection (.document source body) })
          s.redirections := by
      intro r' hr'
      refine ⟨by simpa using hr'.command, ?_⟩
      have hd' := hr'.document
      by_cases hi : r.command = r'.command
      · simp only [redirectionsAt, ← hi, hc] at hd'
        simp only [redirectionsAt, ← hi, List.getElem?_set_self hlt]
        exact hd'.set
      · simp only [redirectionsAt, List.getElem?_set_ne hi] at hd' ⊢
        exact hd'
    have hmem : c ∈ s.commands := List.mem_of_getElem? hc
    refine ⟨⟨fun r' hr' ↦ hfound r' (hs.named r' hr'), fun p hp ↦ hs.targeted p hp, fun d hd ↦ ?_,
      fun d hd ↦ ?_⟩, rfl, hfound⟩
    · rcases List.mem_or_eq_of_mem_set hd with hd | rfl
      · exact hs.spoken d hd
      · exact hs.spoken c hmem
    · rcases List.mem_or_eq_of_mem_set hd with hd | rfl
      · exact hs.joined d hd
      · exact hs.joined c hmem
  · rename_i hc
    simp only [redirectionsAt, hc] at hd
    obtain ⟨source, hfill⟩ := fillDocument_of_hasDocument hd body
    rw [hfill]
    have hfound : ∀ r' : Request, r'.FoundIn s.commands s.redirections →
        r'.FoundIn s.commands (s.redirections.set r.redirection (.document source body)) := by
      intro r' hr'
      refine ⟨hr'.command, ?_⟩
      have hd' := hr'.document
      simp only [redirectionsAt] at hd' ⊢
      split at hd'
      · exact hd'
      · exact hd'.set
    exact ⟨⟨fun r' hr' ↦ hfound r' (hs.named r' hr'), fun p hp ↦ hs.targeted p hp, hs.spoken,
      hs.joined⟩, rfl, hfound⟩

end State

theorem Waiting.sound_endDocument {w : Waiting} {r : Request} {later : List Request}
    (hs : w.state.Sound) (hr : w.state.rest = [])
    (hrs : ∀ r' ∈ r :: later, r'.FoundIn w.state.commands w.state.redirections) (body : String) :
    (w.endDocument r body later).Sound := by
  have hfill := hs.fill body (hrs r List.mem_cons_self)
  unfold Waiting.endDocument
  split
  · rename_i f hfail
    rw [hfail] at hfill
    cases f with
    | failure => trivial
    | defect => exact hfill
  · rename_i t ht
    rw [ht] at hfill
    obtain ⟨hsound, hrest, hfound⟩ := hfill
    exact hsound.readDocuments (hrest.trans hr) fun r' hr' ↦
      hfound r' (hrs r' (List.mem_cons_of_mem r hr'))

theorem Waiting.sound_take {w : Waiting} (h : Progress.Sound (.waiting w)) (buffer : List Char)
    (a : Answer) : (w.take a).Sound (buffer ++ w.growth a) := by
  obtain ⟨s, reason⟩ := w
  obtain ⟨hs, hr, hrs⟩ := h
  have hread : ∀ text, Turn.Sound (buffer ++ text) (.reading { s with rest := text }) := fun text ↦
    ⟨hs.of_keeps ⟨rfl, rfl, rfl, rfl, rfl⟩, buffer.length, by simp, by simp⟩
  cases a with
  | failed f => exact trivial
  | endOfInput =>
    cases reason with
    | joinedLine => exact hs.endBuffer hr
    | required expected => exact trivial
    | document r body later => exact Waiting.sound_endDocument hs hr hrs body
  | line text =>
    cases reason with
    | joinedLine => exact hread _
    | required expected => exact hread _
    | document r body later =>
      simp only [Waiting.take]
      split
      · exact Waiting.sound_endDocument hs hr hrs body
      · exact ⟨hs, hr, hrs⟩

/-- Wherever a parse may come to, its invariants hold. -/
theorem Reaches.sound {t : Turn} (h : Reaches homes line buffer t) : t.Sound buffer := by
  induction h with
  | start => exact ⟨⟨by simp, by simp, by simp, by simp⟩, 0, by simp, rfl⟩
  | @step buffer cs c s t _ hs ht ih =>
    obtain ⟨hsound, pos, hpos, hrest⟩ := ih
    have hread : State.Sound { s with rest := cs } := hsound.of_keeps ⟨rfl, rfl, rfl, rfl, rfl⟩
    have hstep := hread.step homes c
    rw [ht] at hstep
    -- what is left is still an end of the buffer, so that some position denotes it
    obtain ⟨front, hfront⟩ := (State.suffix_step ht).trans (List.suffix_cons c cs)
    rw [← hs, hrest] at hfront
    have hsuffix : t.rest <:+ buffer := ⟨buffer.take pos ++ front, by
      rw [List.append_assoc, hfront, List.take_append_drop]⟩
    refine ⟨hstep, buffer.length - t.rest.length, Nat.sub_le _ _, ?_⟩
    exact List.suffix_iff_eq_drop.1 hsuffix
  | @fault buffer cs c s f _ _ hf ih =>
    have hread : State.Sound { s with rest := cs } := ih.1.of_keeps ⟨rfl, rfl, rfl, rfl, rfl⟩
    have hstep := hread.step homes c
    rw [hf] at hstep
    cases f with
    | failure => exact trivial
    | defect => exact hstep
  | bufferEnd _ hs ih => exact ih.1.meetEnd hs
  | answer a _ ih => exact Waiting.sound_take ih _ a

theorem Complete.ofCommands {cs : List Command} (h : Complete cs) :
    Outcome.ofCommands cs = .ok (some ⟨cs⟩) := by
  obtain ⟨c, hlast, hc⟩ := h.ending
  simp only [Outcome.ofCommands, List.isEmpty_eq_false_iff.2 h.nonempty, CommandList.build, hlast,
    Option.map_some]
  rcases hc with hc | hc <;> rw [hc] <;> rfl

/-- Whatever the line and whatever its source of lines says, no defect arises while it is parsed: the
parser stays in its buffer, its requests name here-documents, its redirections get the kind of word
they wait for, and its commands and lists are well formed. -/
theorem parse_meets_no_defect (homes : HomeDirs) (line : String) :
    (∀ buffer t, Reaches homes line buffer t → t.Sound buffer) ∧
    ∀ answers,
      (∀ d, (parse homes line answers).1.result ≠ .error (.defect d)) ∧
      ∀ l, (parse homes line answers).1.result = .ok (some l) → Complete l.commands := by
  refine ⟨fun _ _ h ↦ h.sound, fun answers ↦ ?_⟩
  obtain ⟨_, r, hreach, hresult⟩ := reaches_parse homes line answers
  have hr : Free (fun cs ↦ cs = [] ∨ Complete cs) r := hreach.sound
  rw [hresult]
  cases r with
  | error f =>
    cases f with
    | failure f => exact ⟨fun d ↦ by simp [bind, Except.bind], by simp [bind, Except.bind]⟩
    | defect d => exact absurd hr id
  | ok cs =>
    rcases hr with rfl | hr
    · exact ⟨fun d ↦ by simp [bind, Except.bind, Outcome.ofCommands],
        fun l h ↦ by simp [bind, Except.bind, Outcome.ofCommands] at h⟩
    · simp only [bind, Except.bind, hr.ofCommands]
      refine ⟨fun d ↦ by simp, fun l h ↦ ?_⟩
      cases h
      exact hr

end JobShell.Parser

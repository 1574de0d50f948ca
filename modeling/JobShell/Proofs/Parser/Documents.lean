import Mathlib.Algebra.GroupWithZero.Nat
import Mathlib.Data.List.Basic
import JobShell.Proofs.Parser.Written

namespace JobShell.Parser

/-- The line that ends a here-document, and whether tabs in front of its lines are dropped. -/
structure Delimiter where
  word : String
  stripTabs : Bool
  deriving DecidableEq, Repr

namespace Delimiter

def line (d : Delimiter) (text : String) : String :=
  if d.stripTabs then String.ofList (text.toList.dropWhile (· == '\t')) else text

def body (d : Delimiter) (lines : List String) : String :=
  String.join (lines.map fun text ↦ d.line text ++ "\n")

end Delimiter

namespace Written

def redirection (w : Written) (body : String) : Redirection :=
  match w.operator with
  | .path mode => .path mode w.source w.word
  | .hereString => .document w.source (w.word ++ "\n")
  | .hereDocument _ => .document w.source body
  | .duplicate input =>
    if w.word = "-" then .close w.source input
    else .duplicate w.source (Decimal.value w.word.toList) input

def delimiter? (w : Written) : Option Delimiter :=
  match w.operator with
  | .hereDocument stripTabs => some ⟨w.word, stripTabs⟩
  | _ => none

end Written

def delimiters (ws : List Written) : List Delimiter := ws.filterMap Written.delimiter?

/-- The redirections, with the bodies in turn for the here-documents among them. -/
def withBodies : List Written → List String → List Redirection
  | [], _ => []
  | w :: ws, bodies =>
    if w.delimiter?.isSome then w.redirection (bodies.headD "") :: withBodies ws bodies.tail
    else w.redirection "" :: withBodies ws bodies

/-- The parser waits for a line that is joined to the one before it, which ends in a backslash. -/
def Progress.joins : Progress → Bool
  | .waiting ⟨_, .joinedLine⟩ => true
  | _ => false

/-- A source of lines that says `answers` has these bodies for here-documents with these delimiters.
It is left with `rest` after so many reads. Where the input ends early, the current document has the
lines so far and each later one asks once more, in vain. -/
inductive Supplies : List Delimiter → List Answer → List String → List Answer → Nat → Prop
  | nothing (rest : List Answer) : Supplies [] rest [] rest 0
  | closed {d : Delimiter} {ds : List Delimiter} {lines : List String} {last : String}
      {answers : List Answer} {bodies : List String} {rest : List Answer} {n : Nat} :
      (∀ text ∈ lines, d.line text ≠ d.word) → d.line last = d.word →
      Supplies ds answers bodies rest n →
      Supplies (d :: ds) (lines.map .line ++ .line last :: answers) (d.body lines :: bodies) rest
        (lines.length + 1 + n)
  | ended {d : Delimiter} {ds : List Delimiter} {lines : List String} {ends : List Answer} :
      (∀ text ∈ lines, d.line text ≠ d.word) → (∀ a ∈ ends, a = .endOfInput) →
      Supplies (d :: ds) (lines.map .line ++ ends) (d.body lines :: ds.map fun _ ↦ "")
        (ends.drop (ds.length + 1)) (lines.length + (ds.length + 1))

variable {homes : HomeDirs} {line : String} {ws vs : List Written} {s t : State} {c : Char}
  {cs : List Char} {r : Request} {commands : List Command}

def State.allRedirections (s : State) : List Redirection :=
  s.commands.flatMap Command.redirections ++ s.redirections

namespace Request

def place (commands : List Command) (r : Request) : Nat :=
  ((commands.take r.command).map fun c ↦ c.redirections.length).sum + r.redirection

def toDelimiter (r : Request) : Delimiter := ⟨r.delimiter, r.stripTabs⟩

theorem trim_eq (r : Request) (text : String) : r.trim text = r.toDelimiter.line text := rfl

theorem place_append (h : r.command ≤ commands.length) (cs : List Command) :
    r.place (commands ++ cs) = r.place commands := by
  rw [place, place, List.take_append_of_le_length h]

end Request

def documentsFrom : Nat → List Written → List (Nat × Delimiter)
  | _, [] => []
  | k, w :: ws => (w.delimiter?.map fun d ↦ (k, d)).toList ++ documentsFrom (k + 1) ws

theorem documentsFrom_append (k : Nat) (ws vs : List Written) :
    documentsFrom k (ws ++ vs) = documentsFrom k ws ++ documentsFrom (k + ws.length) vs := by
  induction ws generalizing k with
  | nil => simp [documentsFrom]
  | cons w ws ih => simp [documentsFrom, ih, Nat.add_assoc, Nat.add_comm 1]

theorem map_snd_documentsFrom (k : Nat) (ws : List Written) :
    (documentsFrom k ws).map Prod.snd = delimiters ws := by
  induction ws generalizing k with
  | nil => rfl
  | cons w ws ih =>
    have hrest := ih (k + 1)
    rw [delimiters] at hrest
    cases hw : w.delimiter? <;> simp [documentsFrom, delimiters, hw, hrest]

structure Traced (s : State) (ws : List Written) : Prop where
  redirections : s.allRedirections = ws.map (·.redirection "")
  requests : (s.requests.map fun r ↦ (r.place s.commands, r.toDelimiter)) = documentsFrom 0 ws

theorem Traced.congr (h : Traced s ws) (hc : t.commands = s.commands)
    (hr : t.redirections = s.redirections) (hq : t.requests = s.requests) : Traced t ws := by
  obtain ⟨hredirections, hrequests⟩ := h
  refine ⟨?_, ?_⟩
  · rw [State.allRedirections, hc, hr]
    exact hredirections
  · rw [hc, hq]
    exact hrequests

theorem Traced.of_keeps (h : Traced s ws) (hk : State.Keeps s t) : Traced t ws :=
  h.congr hk.commands hk.redirections hk.requests

theorem Traced.length (h : Traced s ws) : s.allRedirections.length = ws.length := by
  rw [h.redirections, List.length_map]

theorem value_of_int32? {w : String} {n : Int} (hd : w.toList.all Decimal.isDigit)
    (h : Decimal.int32? w = some n) : n = Decimal.value w.toList := by
  have hdigits : ∀ c ∈ w.toList, Decimal.isDigit c := List.all_eq_true.1 hd
  simp only [Decimal.int32?, Decimal.bounded?] at h
  split at h
  · rename_i hw
    cases hdigits '+' (by simp [hw])
  · rename_i hw
    cases hdigits '-' (by simp [hw])
  · obtain ⟨hvalue, -⟩ := Option.filter_eq_some_iff.1 h
    obtain ⟨m, hm, rfl⟩ := Option.map_eq_some_iff.1 hvalue
    simp only [Decimal.natural?] at hm
    split at hm
    · cases hm
    · cases hm
      rfl

theorem duplication_ok {source : Int} {input : Bool} {w : String} {x : Redirection}
    (h : State.duplication source input w = .ok x) :
    x = (Written.mk (.duplicate input) source w).redirection "" := by
  unfold State.duplication at h
  simp only [Written.redirection]
  split at h
  · rename_i hw
    cases h
    rw [if_pos hw]
  · rename_i hw
    split at h
    · rename_i hd
      rw [Bool.and_eq_true] at hd
      split at h
      · rename_i n hn
        cases h
        rw [if_neg hw, value_of_int32? hd.2 hn]
      · cases h
    · cases h

theorem Traced.add (h : Traced s ws) (w : Written) (hc : t.commands = s.commands)
    (hr : t.redirections = s.redirections ++ [w.redirection ""])
    (hq : t.requests = s.requests ++ (w.delimiter?.map fun d ↦
      Request.mk s.commands.length s.redirections.length d.word d.stripTabs).toList) :
    Traced t (ws ++ [w]) := by
  have hlength := h.length
  obtain ⟨hredirections, hrequests⟩ := h
  have hplace : ∀ d : Delimiter,
      (Request.mk s.commands.length s.redirections.length d.word d.stripTabs).place s.commands =
        ws.length := by
    intro d
    rw [← hlength, State.allRedirections, List.length_append, List.length_flatMap, Request.place,
      List.take_length]
  refine ⟨?_, ?_⟩
  · rw [State.allRedirections, hc, hr, ← List.append_assoc, List.map_append]
    exact congrArg (· ++ [w.redirection ""]) hredirections
  · rw [hc, hq, List.map_append, hrequests, documentsFrom_append, Nat.zero_add]
    cases hw : w.delimiter? with
    | none => simp [documentsFrom, hw]
    | some d =>
      have hone := hplace d
      simp [documentsFrom, hw, hone, Request.toDelimiter]

theorem Traced.finishWord (h : Traced s ws) (hs : s.Sound) (ht : s.finishWord = .ok t) :
    Traced t (ws ++ s.current?.toList) := by
  cases hw : s.word with
  | none =>
    have hnone : s.current? = none := by
      unfold State.current?
      rw [hw]
      cases s.pending <;> rfl
    simp only [State.finishWord, hw, Except.ok.injEq] at ht
    subst ht
    simpa [hnone] using h
  | some w =>
    cases hp : s.pending with
    | none =>
      have hnone : s.current? = none := by
        simp [State.current?, hp]
      simp only [State.finishWord, hw, hp, Except.ok.injEq] at ht
      subst ht
      rw [hnone, Option.toList_none, List.append_nil]
      exact h.congr rfl rfl rfl
    | some p =>
      have hsome : s.current? = some ⟨p.operator, p.source, w.text⟩ := by
        simp [State.current?, hp, hw]
      have htarget := hs.targeted p hp
      rw [hsome, Option.toList_some]
      simp only [State.finishWord, hw, hp] at ht
      -- `Sound` gives the pending redirection the target that its operator asks for
      cases ho : p.operator with
      | duplicate input =>
        have hinput : (Operator.duplicate input == .duplicate true) = input := by
          cases input <;> rfl
        simp only [htarget, ho, Operator.target, hinput, bind, Except.bind] at ht
        split at ht
        · cases ht
        · rename_i x hx
          cases ht
          exact h.add _ rfl (by rw [duplication_ok hx]) (by simp [Written.delimiter?])
      | path mode =>
        simp only [htarget, ho, Operator.target, Except.ok.injEq] at ht
        subst ht
        exact h.add _ rfl rfl (by simp [Written.delimiter?])
      | hereString =>
        simp only [htarget, ho, Operator.target, Except.ok.injEq] at ht
        subst ht
        exact h.add _ rfl rfl (by simp [Written.delimiter?])
      | hereDocument stripTabs =>
        simp only [htarget, ho, Operator.target, Except.ok.injEq] at ht
        subst ht
        exact h.add _ rfl rfl (by simp [Written.delimiter?])

theorem Traced.closeCommand (h : Traced s ws) (hs : s.Sound) (hw : s.words ≠ []) {k : Connector}
    (ht : s.closeCommand k = .ok t) : Traced t ws := by
  rw [State.closeCommand_eq hw] at ht
  cases ht
  obtain ⟨hredirections, hrequests⟩ := h
  refine ⟨?_, ?_⟩
  · simpa [State.allRedirections] using hredirections
  · rw [← hrequests]
    refine List.map_congr_left fun r hr ↦ ?_
    rw [Request.place_append (hs.named r hr).command]

theorem Traced.link (h : Traced s ws) (hs : s.Sound) {k : Connector} (ht : s.link k = .ok t) :
    Traced t (ws ++ s.current?.toList) := by
  have hsound := hs.finishWord
  simp only [State.link, bind, Except.bind] at ht
  split at ht
  · cases ht
  · rename_i u hu
    rw [hu] at hsound
    have hended := h.finishWord hs hu
    split at ht
    · cases ht
    · split at ht
      · split at ht
        · cases ht
          exact hended
        · cases ht
      · rename_i hw
        exact hended.closeCommand hsound (by simpa using hw) ht

theorem Traced.beginRedirection (h : Traced s ws) (hs : s.Sound)
    (ht : s.beginRedirection c = .ok t) : Traced t (ws ++ s.current?.toList) := by
  simp only [State.beginRedirection] at ht
  split at ht
  · rename_i source hsource
    have hpending := State.pending_of_spelledSource? hsource
    have hnone : s.current? = none := by
      simp [State.current?, hpending]
    cases ht
    rw [hnone, Option.toList_none, List.append_nil]
    exact h.congr rfl rfl rfl
  · have hr : State.Sound { s with rest := (State.operatorAt c s.rest).2.2 } :=
      hs.of_keeps ⟨rfl, rfl, rfl, rfl, rfl⟩
    simp only [bind, Except.bind] at ht
    split at ht
    · cases ht
    · rename_i u hu
      have hsame := h.congr (t := { s with rest := (State.operatorAt c s.rest).2.2 }) rfl rfl rfl
      have hended := hsame.finishWord hr hu
      split at ht
      · cases ht
      · cases ht
        exact hended.congr rfl rfl rfl

theorem Traced.step (h : Traced s ws) (hs : s.Sound) (hr : s.rest = c :: cs)
    (ht : State.step homes c { s with rest := cs } = .ok t) :
    Traced t (ws ++ s.completed?.toList) := by
  have hread : State.Sound { s with rest := cs } := hs.of_keeps ⟨rfl, rfl, rfl, rfl, rfl⟩
  have hsame : Traced { s with rest := cs } ws := h.congr rfl rfl rfl
  rcases State.step_cases homes { s with rest := cs } c with
    ⟨hnot, u, hu, hkeeps⟩ | ⟨hends, ⟨-, heq⟩ | ⟨k, r, -, heq⟩ | ⟨-, heq⟩⟩
  · obtain rfl := Except.ok.inj (hu.symm.trans ht)
    rw [State.completed?_of_not_ends hr hnot, Option.toList_none, List.append_nil]
    exact hsame.of_keeps hkeeps
  · rw [State.completed?_of_ends hr hends]
    exact hsame.finishWord hread (heq.symm.trans ht)
  · have hlinked : State.Sound { s with rest := r } := hs.of_keeps ⟨rfl, rfl, rfl, rfl, rfl⟩
    rw [State.completed?_of_ends hr hends]
    exact (h.congr (t := { s with rest := r }) rfl rfl rfl).link hlinked (heq.symm.trans ht)
  · rw [State.completed?_of_ends hr hends]
    exact hsame.beginRedirection hread (heq.symm.trans ht)

theorem Traced.scan (h : Traced s ws) (hs : s.Sound) (ht : s.scan homes = .ok t) :
    t.Sound ∧ ∃ vs, Traced t vs ∧
      vs ++ t.current?.toList = ws ++ (s.visits homes).filterMap State.completed? := by
  fun_induction State.scan homes s generalizing ws with
  | case1 s hr =>
    have hlast : s.completed? = s.current? := by
      rw [State.completed?, hr]
    cases ht
    refine ⟨hs, ws, h, ?_⟩
    rw [State.visits_nil hr, List.filterMap_cons, hlast]
    cases t.current? <;> rfl
  | case2 => cases ht
  | case3 s c cs hr u hu _ ih =>
    have hread : State.Sound { s with rest := cs } := hs.of_keeps ⟨rfl, rfl, rfl, rfl, rfl⟩
    have hsound := hread.step homes c
    rw [hu] at hsound
    obtain ⟨hend, vs, htraced, hvs⟩ := ih (h.step hs hr hu) hsound ht
    refine ⟨hend, vs, htraced, ?_⟩
    rw [hvs, State.filterMap_visits _ hr hu, List.append_assoc]

def outline (c : Command) : Connector × List String × Nat :=
  (c.connector, c.words, c.redirections.length)

/-- Two parsers differ in nothing but what their redirections do, as far as the end of the line is
concerned. -/
structure Alike (s t : State) : Prop where
  words : t.words = s.words
  redirections : t.redirections.length = s.redirections.length
  commands : t.commands.map outline = s.commands.map outline

theorem Alike.refl (s : State) : Alike s s := ⟨rfl, rfl, rfl⟩

theorem Alike.symm (h : Alike s t) : Alike t s :=
  ⟨h.words.symm, h.redirections.symm, h.commands.symm⟩

theorem Alike.trans {u : State} (h : Alike s t) (h' : Alike t u) : Alike s u :=
  ⟨h'.words.trans h.words, h'.redirections.trans h.redirections, h'.commands.trans h.commands⟩

theorem Alike.place_eq (h : Alike s t) (r : Request) : r.place t.commands = r.place s.commands := by
  have hcounts : ∀ cs : List Command,
      (cs.take r.command).map (fun c ↦ c.redirections.length) =
        ((cs.map outline).take r.command).map fun o ↦ o.2.2 := by
    intro cs
    rw [← List.map_take, List.map_map]
    rfl
  rw [Request.place, Request.place, hcounts, hcounts, h.commands]

theorem fillDocument_append {rs rs' : List Redirection} {i : Nat} {body : String}
    (h : Command.fillDocument rs i body = .ok rs') (before behind : List Redirection) :
    Command.fillDocument (before ++ (rs ++ behind)) (before.length + i) body =
      .ok (before ++ (rs' ++ behind)) := by
  unfold Command.fillDocument at h ⊢
  split at h
  · rename_i source old hi
    cases h
    have hlt : i < rs.length := (List.getElem?_eq_some_iff.1 hi).1
    have hget : (before ++ (rs ++ behind))[before.length + i]? = some (.document source old) := by
      rw [List.getElem?_append_right (Nat.le_add_right _ _), Nat.add_sub_cancel_left,
        List.getElem?_append_left hlt, hi]
    simp only [hget]
    rw [List.set_append_right _ _ (Nat.le_add_right _ _), Nat.add_sub_cancel_left,
      List.set_append_left _ _ hlt]
  · cases h

theorem exists_append_of_getElem? {α : Type} {xs : List α} {i : Nat} {x : α} (h : xs[i]? = some x) :
    ∃ before behind, xs = before ++ x :: behind ∧ before.length = i := by
  obtain ⟨hlt, rfl⟩ := List.getElem?_eq_some_iff.1 h
  refine ⟨xs.take i, xs.drop (i + 1), ?_, by simp [Nat.le_of_lt hlt]⟩
  rw [List.getElem_cons_drop, List.take_append_drop]

theorem exists_fill (h : r.FoundIn s.commands s.redirections) (body : String) :
    ∃ t, s.fill r body = .ok t ∧ Alike s t ∧
      Command.fillDocument s.allRedirections (r.place s.commands) body = .ok t.allRedirections := by
  obtain ⟨source, hfill⟩ := fillDocument_of_hasDocument h.document body
  unfold State.fill
  cases hc : s.commands[r.command]? with
  | some c =>
    simp only [redirectionsAt, hc] at hfill ⊢
    rw [hfill]
    obtain ⟨before, behind, hsplit, hlength⟩ := exists_append_of_getElem? hc
    have hset : ∀ c', s.commands.set r.command c' = before ++ c' :: behind := by
      intro c'
      rw [hsplit, ← hlength, List.set_append_right _ _ (Nat.le_refl _), Nat.sub_self]
      rfl
    have hplace : r.place s.commands =
        (before.flatMap Command.redirections).length + r.redirection := by
      rw [Request.place, hsplit, ← hlength, List.take_left, List.length_flatMap]
    refine ⟨_, rfl, ⟨rfl, rfl, ?_⟩, ?_⟩
    · simp only [hset]
      simp [hsplit, outline]
    · have happend := fillDocument_append hfill (before.flatMap Command.redirections)
        (behind.flatMap Command.redirections ++ s.redirections)
      simp only [State.allRedirections, hplace, hset]
      simpa [hsplit] using happend
  | none =>
    simp only [redirectionsAt, hc] at hfill ⊢
    rw [hfill]
    have hlength : r.command = s.commands.length :=
      Nat.le_antisymm h.command (List.getElem?_eq_none_iff.1 hc)
    have hplace : r.place s.commands =
        (s.commands.flatMap Command.redirections).length + r.redirection := by
      rw [Request.place, hlength, List.take_length, List.length_flatMap]
    refine ⟨_, rfl, ⟨rfl, by simp, rfl⟩, ?_⟩
    have happend := fillDocument_append hfill (s.commands.flatMap Command.redirections) []
    simpa [State.allRedirections, hplace] using happend

def fillAll : List Nat → List String → List Redirection → Except Defect (List Redirection)
  | [], _, rs => .ok rs
  | p :: ps, bodies, rs => Command.fillDocument rs p (bodies.headD "") >>= fillAll ps bodies.tail

theorem fillAll_documentsFrom (ws : List Written) (bodies : List String)
    (before : List Redirection) :
    fillAll ((documentsFrom before.length ws).map Prod.fst) bodies
        (before ++ ws.map (·.redirection "")) =
      .ok (before ++ withBodies ws bodies) := by
  induction ws generalizing bodies before with
  | nil => simp [documentsFrom, fillAll, withBodies]
  | cons w ws ih =>
    have hnext : ∀ x bodies, fillAll ((documentsFrom (before.length + 1) ws).map Prod.fst) bodies
        (before ++ x :: ws.map (·.redirection "")) = .ok (before ++ x :: withBodies ws bodies) := by
      intro x bodies
      simpa using ih bodies (before ++ [x])
    cases hw : w.delimiter? with
    | none => simpa [documentsFrom, withBodies, hw] using hnext (w.redirection "") bodies
    | some d =>
      have hdocument : ∀ body, w.redirection body = .document w.source body := by
        intro body
        unfold Written.delimiter? at hw
        unfold Written.redirection
        split at hw
        · rename_i ho
          rw [ho]
        · cases hw
      have hfill : ∀ body, Command.fillDocument
          (before ++ w.redirection "" :: ws.map (·.redirection "")) before.length body =
          .ok (before ++ w.redirection body :: ws.map (·.redirection "")) := by
        intro body
        simp [Command.fillDocument, hdocument]
      simp only [documentsFrom, hw, Option.map_some, Option.toList_some, List.singleton_append,
        List.map_cons, fillAll, withBodies, Option.isSome_some, if_true, hfill]
      exact hnext _ bodies.tail

structure Filled (s t : State) (rs : List Request) (bodies : List String) : Prop where
  alike : Alike s t
  redirections :
    fillAll (rs.map (·.place s.commands)) bodies s.allRedirections = .ok t.allRedirections

theorem filled_nil (s : State) (bodies : List String) : Filled s s [] bodies := ⟨.refl s, rfl⟩

variable {later rs : List Request} {body : String} {bodies : List String}
  {answers rest : List Answer}

theorem exists_filled_cons (hs : s.Sound)
    (h : ∀ r' ∈ r :: later, r'.FoundIn s.commands s.redirections) (body : String) :
    ∃ t, s.fill r body = .ok t ∧ t.Sound ∧ (∀ r' ∈ later, r'.FoundIn t.commands t.redirections) ∧
      ∀ {u bodies}, Filled t u later bodies → Filled s u (r :: later) (body :: bodies) := by
  obtain ⟨hr, hlater⟩ := List.forall_mem_cons.1 h
  obtain ⟨t, ht, halike, hfill⟩ := exists_fill hr body
  have hfree := hs.fill body hr
  rw [ht] at hfree
  obtain ⟨hsound, -, hfound⟩ := hfree
  refine ⟨t, ht, hsound, fun r' hr' ↦ hfound r' (hlater r' hr'), fun hu ↦
    ⟨halike.trans hu.alike, ?_⟩⟩
  have hplaces : later.map (·.place t.commands) = later.map (·.place s.commands) :=
    List.map_congr_left fun r' _ ↦ halike.place_eq r'
  rw [List.map_cons, fillAll, List.headD_cons, hfill, List.tail_cons, ← hplaces]
  exact hu.redirections

theorem finish_document_lines {lines : List String}
    (h : ∀ text ∈ lines, r.toDelimiter.line text ≠ r.delimiter) (homes : HomeDirs) (s : State)
    (body : String) (later : List Request) (answers : List Answer) (whole : String) (reads : Nat) :
    ∃ whole', finish homes (.waiting ⟨s, .document r body later⟩) (lines.map .line ++ answers) whole
        reads =
      finish homes (.waiting ⟨s, .document r (body ++ r.toDelimiter.body lines) later⟩) answers
        whole' (reads + lines.length) := by
  induction lines generalizing body whole reads with
  | nil => exact ⟨whole, by simp [Delimiter.body]⟩
  | cons text lines ih =>
    obtain ⟨ht, hlines⟩ := List.forall_mem_cons.1 h
    have hresume : Waiting.resume homes ⟨s, .document r body later⟩ (.line text) =
        .waiting ⟨s, .document r (body ++ r.trim text ++ "\n") later⟩ := by
      simp only [Waiting.resume, Waiting.take, Turn.settle]
      exact if_neg ht
    have hbody : body ++ r.trim text ++ "\n" ++ r.toDelimiter.body lines =
        body ++ r.toDelimiter.body (text :: lines) := by
      simp [Delimiter.body, Request.trim_eq, String.append_assoc]
    obtain ⟨whole', hrest⟩ := ih hlines (body ++ r.trim text ++ "\n")
      (whole ++ (Answer.line text).addition) (reads + 1)
    refine ⟨whole', ?_⟩
    rw [List.map_cons, List.cons_append, finish, hresume, hrest, hbody, List.length_cons,
      Nat.add_assoc, Nat.add_comm 1]

theorem finish_delimiter (homes : HomeDirs) (s : State) {text : String}
    (h : r.toDelimiter.line text = r.delimiter) (ht : s.fill r body = .ok t) (later : List Request)
    (answers : List Answer) (whole : String) (reads : Nat) :
    finish homes (.waiting ⟨s, .document r body later⟩) (.line text :: answers) whole reads =
      finish homes (t.readDocuments later) answers (whole ++ (Answer.line text).addition)
        (reads + 1) := by
  have hresume : Waiting.resume homes ⟨s, .document r body later⟩ (.line text) =
      t.readDocuments later := by
    simp only [Waiting.resume, Waiting.take, Turn.settle, Waiting.endDocument, ht]
    exact if_pos h
  rw [finish, hresume]

theorem finish_document_ended (homes : HomeDirs) (s : State) (ht : s.fill r body = .ok t)
    (later : List Request) (ha : ∀ a ∈ answers, a = .endOfInput) (whole : String) (reads : Nat) :
    finish homes (.waiting ⟨s, .document r body later⟩) answers whole reads =
      finish homes (t.readDocuments later) (answers.drop 1) whole (reads + 1) := by
  have hresume : Waiting.resume homes ⟨s, .document r body later⟩ .endOfInput =
      t.readDocuments later := by
    simp only [Waiting.resume, Waiting.take, Turn.settle, Waiting.endDocument, ht]
  rw [finish_endOfInput ha, hresume]

theorem finish_documents_ended (homes : HomeDirs) (hs : s.Sound)
    (hrs : ∀ r ∈ rs, r.FoundIn s.commands s.redirections) (ha : ∀ a ∈ answers, a = .endOfInput)
    (whole : String) (reads : Nat) :
    ∃ t, Filled s t rs (rs.map fun _ ↦ "") ∧
      finish homes (s.readDocuments rs) answers whole reads =
        finish homes t.endLine (answers.drop rs.length) whole (reads + rs.length) := by
  induction rs generalizing s answers reads with
  | nil => exact ⟨s, filled_nil s _, rfl⟩
  | cons r later ih =>
    obtain ⟨t, ht, hsound, hlater, hcons⟩ := exists_filled_cons hs hrs ""
    obtain ⟨u, hfilled, hrest⟩ := ih hsound hlater (fun a h ↦ ha a (List.mem_of_mem_drop h))
      (reads + 1)
    refine ⟨u, hcons hfilled, ?_⟩
    rw [State.readDocuments, finish_document_ended homes s ht later ha, hrest, List.drop_drop,
      List.length_cons, Nat.add_assoc, Nat.add_comm 1]

/-- The here-documents get the bodies that the source of lines supplies. -/
theorem finish_documents (homes : HomeDirs) {n : Nat} (hs : s.Sound)
    (hrs : ∀ r ∈ rs, r.FoundIn s.commands s.redirections)
    (h : Supplies (rs.map Request.toDelimiter) answers bodies rest n) (whole : String)
    (reads : Nat) :
    ∃ t whole', Filled s t rs bodies ∧
      finish homes (s.readDocuments rs) answers whole reads =
        finish homes t.endLine rest whole' (reads + n) := by
  generalize hds : rs.map Request.toDelimiter = ds at h
  induction h generalizing s rs whole reads with
  | nothing rest =>
    obtain rfl := List.map_eq_nil_iff.1 hds
    exact ⟨s, whole, filled_nil s _, rfl⟩
  | @closed d ds lines last answers bodies rest n hlines hlast _ ih =>
    obtain ⟨r, later, rfl, rfl, rfl⟩ := List.map_eq_cons_iff.1 hds
    obtain ⟨t, ht, hsound, hlater, hcons⟩ := exists_filled_cons hs hrs (r.toDelimiter.body lines)
    obtain ⟨whole₁, hread⟩ := finish_document_lines hlines homes s "" later
      (.line last :: answers) whole reads
    obtain ⟨u, whole', hfilled, hrest⟩ := ih hsound hlater
      (whole₁ ++ (Answer.line last).addition) (reads + lines.length + 1) rfl
    refine ⟨u, whole', hcons hfilled, ?_⟩
    rw [State.readDocuments, hread, String.empty_append, finish_delimiter homes s hlast ht, hrest]
    simp only [Nat.add_assoc]
  | @ended d ds lines ends hlines hends =>
    obtain ⟨r, later, rfl, rfl, rfl⟩ := List.map_eq_cons_iff.1 hds
    obtain ⟨t, ht, hsound, hlater, hcons⟩ := exists_filled_cons hs hrs (r.toDelimiter.body lines)
    obtain ⟨whole₁, hread⟩ := finish_document_lines hlines homes s "" later ends whole reads
    obtain ⟨u, hfilled, hrest⟩ := finish_documents_ended homes hsound hlater
      (fun a h ↦ hends a (List.mem_of_mem_drop h)) whole₁ (reads + lines.length + 1)
    refine ⟨u, whole₁, ?_, ?_⟩
    · simpa [Function.comp_def] using hcons hfilled
    · rw [State.readDocuments, hread, String.empty_append,
        finish_document_ended homes s ht later hends, hrest, List.drop_drop, List.length_map]
      simp only [Nat.add_assoc, Nat.add_comm 1]

def settle (c : Command) : Command :=
  if c.connector = .sequential then { c with connector := .single } else c

theorem outline_settle {c d : Command} (h : outline c = outline d) :
    outline (settle c) = outline (settle d) := by
  simp only [outline, Prod.mk.injEq] at h
  simp only [settle, h.1]
  split <;> simp [outline, h]

theorem redirections_settle (c : Command) : (settle c).redirections = c.redirections := by
  unfold settle
  split <;> rfl

theorem commandsAtEnd_spoken (hw : s.words ≠ []) :
    s.commandsAtEnd = .ok (s.commands ++ [⟨.single, s.words, s.redirections⟩]) := by
  simp [State.commandsAtEnd, hw, State.closeCommand_eq hw, bind, Except.bind]

theorem commandsAtEnd_concat (hw : s.words = []) {cs : List Command} {c : Command}
    (hc : s.commands = cs ++ [c]) : s.commandsAtEnd = .ok (cs ++ [settle c]) := by
  simp only [State.commandsAtEnd, hw, hc, List.isEmpty_nil, if_true, bind, Except.bind,
    List.getLast?_concat, List.dropLast_concat, settle]
  split <;> rfl

theorem getLast?_connector_of_outline {cs cs' : List Command}
    (h : cs'.map outline = cs.map outline) :
    cs'.getLast?.map Command.connector = cs.getLast?.map Command.connector := by
  have hlast : ∀ cs : List Command,
      cs.getLast?.map Command.connector = (cs.map outline).getLast?.map Prod.fst := by
    intro cs
    rw [List.getLast?_map, Option.map_map]
    rfl
  rw [hlast, hlast, h]

theorem Alike.lastConnector?_eq (h : Alike s t) : t.lastConnector? = s.lastConnector? :=
  getLast?_connector_of_outline h.commands

theorem Alike.endLine (h : Alike s t) {cs : List Command} (hs : s.endLine = .finished (.ok cs)) :
    s.commandsAtEnd = .ok cs ∧ t.endLine = .finished t.commandsAtEnd ∧
      (t.words = [] → t.redirections = []) := by
  have hlength := h.redirections
  unfold State.endLine at hs ⊢
  rw [h.words, h.lastConnector?_eq]
  split at hs
  · rename_i hw
    rw [if_pos hw]
    split at hs
    · rename_i hr
      have hnil : t.redirections = [] := by
        rw [List.isEmpty_iff.1 hr] at hlength
        exact List.length_eq_zero_iff.1 hlength
      rw [hnil]
      split at hs
      · cases hs
      · cases hs
      · cases hs
      · exact ⟨Progress.finished.inj hs, by simp, by simp⟩
    · cases hs
  · rename_i hw
    rw [if_neg hw]
    exact ⟨Progress.finished.inj hs, rfl, fun hnil ↦ absurd (by simp [hnil]) hw⟩

theorem Alike.exists_commands (h : Alike s t) {cs : List Command}
    (hs : s.endLine = .finished (.ok cs)) :
    ∃ cs', t.endLine = .finished (.ok cs') ∧ cs'.map outline = cs.map outline ∧
      cs'.flatMap Command.redirections = t.allRedirections := by
  obtain ⟨hcs, ht, hnil⟩ := h.endLine hs
  have hcommands := h.commands
  rw [ht]
  by_cases hw : s.words = []
  · have hw' : t.words = [] := h.words.trans hw
    rw [State.allRedirections, hnil hw', List.append_nil]
    rcases List.eq_nil_or_concat s.commands with hsnil | ⟨before, c, hsc⟩
    · have htnil : t.commands = [] := by
        simpa [hsnil] using hcommands
      have hend : ∀ u : State, u.words = [] → u.commands = [] → u.commandsAtEnd = .ok [] := by
        intro u hu hnil
        simp [State.commandsAtEnd, hu, hnil, bind, Except.bind]
      rw [hend s hw hsnil] at hcs
      cases hcs
      exact ⟨[], congrArg Progress.finished (hend t hw' htnil), rfl, by simp [htnil]⟩
    · rw [List.concat_eq_append] at hsc
      rw [hsc, List.map_append, List.map_singleton] at hcommands
      obtain ⟨before', ends, htc, hbefore, hends⟩ := List.map_eq_append_iff.1 hcommands
      obtain ⟨c', rfl, hc⟩ := List.map_eq_singleton_iff.1 hends
      rw [commandsAtEnd_concat hw hsc] at hcs
      cases hcs
      refine ⟨_, congrArg Progress.finished (commandsAtEnd_concat hw' htc), ?_, ?_⟩
      · simp [hbefore, outline_settle hc]
      · simp [htc, redirections_settle]
  · have hw' : t.words ≠ [] := h.words ▸ hw
    rw [commandsAtEnd_spoken hw] at hcs
    cases hcs
    refine ⟨_, congrArg Progress.finished (commandsAtEnd_spoken hw'), ?_, ?_⟩
    · simp [hcommands, outline, h.words, h.redirections]
    · simp [State.allRedirections]

theorem ofCommands_of_outline {cs cs' : List Command} {l : CommandList}
    (h : Outcome.ofCommands cs = .ok (some l)) (houtline : cs'.map outline = cs.map outline) :
    l = ⟨cs⟩ ∧ Outcome.ofCommands cs' = .ok (some ⟨cs'⟩) := by
  have hempty : cs'.isEmpty = cs.isEmpty := by
    rw [← List.isEmpty_map (f := outline), houtline, List.isEmpty_map]
  unfold Outcome.ofCommands CommandList.build at h ⊢
  rw [hempty, getLast?_connector_of_outline houtline]
  split at h
  · cases h
  · rename_i hne
    rw [if_neg hne]
    generalize cs.getLast?.map Command.connector = last at h ⊢
    rcases last with _ | k
    · cases h
    · cases k <;> cases h <;> exact ⟨rfl, rfl⟩

theorem exists_commands_of_finish {whole : String} {reads : Nat} {l : CommandList}
    (h : (finish homes s.endLine [] whole reads).1.result = .ok (some l)) :
    ∃ cs, s.endLine = .finished (.ok cs) ∧ Outcome.ofCommands cs = .ok (some l) := by
  rcases s.endLine_cases with hs | hs | hs
  · rw [hs, result_required s (by simp)] at h
    cases h
  · rw [hs, result_finished] at h
    cases h
  · rw [hs, result_finished] at h
    rw [hs]
    cases hcs : s.commandsAtEnd with
    | ok cs => exact ⟨cs, rfl, by rwa [hcs] at h⟩
    | error f =>
      rw [hcs] at h
      cases h

/-- A complete line comes to the bodies of its here-documents. -/
theorem begin_eq_readDocuments {x : Option CommandList} (hline : (begin homes line).joins = false)
    (h : (parse homes line []).1.result = .ok x) :
    (written homes line).map Written.operator = operators homes line ∧
      ∃ s, s.Sound ∧ Traced s (written homes line) ∧
        begin homes line = { s with requests := [] }.readDocuments s.requests := by
  rw [parse] at h
  cases hs : State.scan homes { rest := line.toList } with
  | error f =>
    rw [begin, State.advance, hs, result_finished] at h
    cases h
  | ok s =>
    have htraced : Traced { rest := line.toList } [] := ⟨rfl, rfl⟩
    obtain ⟨hsound, ws, hws, hwritten⟩ :=
      htraced.scan ⟨by simp, by simp, by simp, by simp⟩ hs
    have hend : begin homes line = s.endBuffer := by
      have hadvance : begin homes line = s.meetEnd := by
        rw [begin, State.advance, hs]
      rw [hadvance, State.meetEnd] at hline ⊢
      by_cases hjoins : s.joinsNext
      · rw [if_pos hjoins] at hline
        cases hline
      · rw [if_neg hjoins]
    rw [hend] at h ⊢
    rcases s.endBuffer_cases with ⟨_, hwait⟩ | ⟨_, hfailed⟩ | ⟨t, -, -, ht, hpending, hdocuments⟩
    · rw [hwait, result_required s (by simp)] at h
      cases h
    · rw [hfailed, result_finished] at h
      cases h
    have hfree := hsound.finishWord
    rw [ht] at hfree
    have hfinished := hws.finishWord hsound ht
    rw [hwritten, List.nil_append] at hfinished
    exact ⟨State.operator_of_scan rfl hs ht hpending, t, hfree, hfinished, hdocuments⟩

/-- Every here-document gets its own body. Take a line that is not joined to another and parses
where the input has ended, so that nothing in it is left open. With a source of lines that has bodies
for its delimiters the parse reads them and nothing more, and gives the same list but for the bodies:
each is in the redirection whose operator asked for it, and the other redirections are as they are
written. The operators are those that the line spells. -/
theorem parse_documents (homes : HomeDirs) {line : String} {l₀ : CommandList}
    (hline : (begin homes line).joins = false)
    (h₀ : (parse homes line []).1.result = .ok (some l₀)) {answers : List Answer}
    {bodies : List String} {rest : List Answer} {n : Nat}
    (h : Supplies (delimiters (written homes line)) answers bodies rest n) :
    (written homes line).map Written.operator = operators homes line ∧
      ∃ l whole, parse homes line answers = (⟨.ok (some l), whole, n⟩, rest) ∧
        l.commands.map outline = l₀.commands.map outline ∧
        l.commands.flatMap Command.redirections = withBodies (written homes line) bodies := by
  obtain ⟨hoperators, s, hs, htraced, hbegin⟩ := begin_eq_readDocuments hline h₀
  have hsound : State.Sound { s with requests := [] } :=
    ⟨by simp, fun p hp ↦ hs.targeted p hp, hs.spoken, hs.joined⟩
  have hdelimiters : s.requests.map Request.toDelimiter = delimiters (written homes line) := by
    rw [← map_snd_documentsFrom 0, ← htraced.requests, List.map_map]
    rfl
  have hplaces : s.requests.map (·.place s.commands) =
      (documentsFrom 0 (written homes line)).map Prod.fst := by
    rw [← htraced.requests, List.map_map]
    rfl
  obtain ⟨t₀, hfilled₀, hfinish₀⟩ := finish_documents_ended homes hsound hs.named
    (List.forall_mem_nil _) line 0
  obtain ⟨t, whole, hfilled, hfinish⟩ := finish_documents homes hsound hs.named
    (hdelimiters ▸ h) line 0
  rw [parse, hbegin, hfinish₀, List.drop_nil] at h₀
  obtain ⟨cs₀, hend₀, hl₀⟩ := exists_commands_of_finish h₀
  obtain ⟨cs, hend, houtline, hredirections⟩ :=
    (hfilled₀.alike.symm.trans hfilled.alike).exists_commands hend₀
  obtain ⟨rfl, hl⟩ := ofCommands_of_outline hl₀ houtline
  -- the two parses differ in the bodies only, so that one list can be built if the other can
  refine ⟨hoperators, ⟨cs⟩, whole, ?_, houtline, ?_⟩
  · rw [parse, hbegin, hfinish, hend, finish, hl, Nat.zero_add]
  · have hfill := hfilled.redirections
    have hall : State.allRedirections { s with requests := [] } =
        (written homes line).map (·.redirection "") := htraced.redirections
    rw [hall] at hfill
    have hbodies := fillAll_documentsFrom (written homes line) bodies []
    rw [List.length_nil, List.nil_append, List.nil_append, ← hplaces] at hbodies
    rw [hredirections]
    exact Except.ok.inj (hfill.symm.trans hbodies)

theorem parse_two_documents :
    operators ⟨none, fun _ ↦ none⟩ "a<<X|b<<-Y>f" = [.hereDocument false, .hereDocument true, .path .truncate] ∧
    ∃ l whole,
      parse ⟨none, fun _ ↦ none⟩ "a<<X|b<<-Y>f"
          [.line "x", .line "X", .line "\ty", .line "\tY", .line "c"] =
        (⟨.ok (some l), whole, 4⟩, [.line "c"]) ∧
      l.commands.map outline = [(.piped, ["a"], 1), (.single, ["b"], 2)] ∧
      l.commands.flatMap Command.redirections =
        [.document 0 "x\n", .document 0 "y\n", .path .truncate 1 "f"] := by
  have hline : (begin ⟨none, fun _ ↦ none⟩ "a<<X|b<<-Y>f").joins = false := by
    cbv
  have hwithout : (parse ⟨none, fun _ ↦ none⟩ "a<<X|b<<-Y>f" []).1.result =
      .ok (some ⟨[⟨.piped, ["a"], [.document 0 ""]⟩,
        ⟨.single, ["b"], [.document 0 "", .path .truncate 1 "f"]⟩]⟩) := by
    cbv
  have hwritten : written ⟨none, fun _ ↦ none⟩ "a<<X|b<<-Y>f" =
      [⟨.hereDocument false, 0, "X"⟩, ⟨.hereDocument true, 0, "Y"⟩, ⟨.path .truncate, 1, "f"⟩] := by
    cbv
  have hx : ∀ text ∈ ["x"], Delimiter.line ⟨"X", false⟩ text ≠ "X" := by
    decide
  have hy : ∀ text ∈ ["\ty"], Delimiter.line ⟨"Y", true⟩ text ≠ "Y" := by
    decide
  have hsupplies : Supplies (delimiters (written ⟨none, fun _ ↦ none⟩ "a<<X|b<<-Y>f"))
      [.line "x", .line "X", .line "\ty", .line "\tY", .line "c"] ["x\n", "y\n"] [.line "c"] 4 := by
    rw [hwritten]
    exact .closed hx (by decide) (.closed hy (by decide) (.nothing _))
  obtain ⟨hoperators, l, whole, hparse, houtline, hredirections⟩ :=
    parse_documents ⟨none, fun _ ↦ none⟩ hline hwithout hsupplies
  rw [hwritten] at hoperators hredirections
  exact ⟨hoperators.symm, l, whole, hparse, houtline, hredirections.trans rfl⟩

end JobShell.Parser

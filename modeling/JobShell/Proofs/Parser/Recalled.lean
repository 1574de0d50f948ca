import JobShell.Proofs.Parser.Extension

namespace JobShell.Parser

def Continues (more : List Char) : Prop := ∀ c ∈ more.head?, c = '\n'

theorem continues_nil : Continues [] := by
  simp [Continues]

theorem continues_newline (text : List Char) : Continues ('\n' :: text) := by
  simp [Continues]

namespace State

def beginsComment (s : State) : Bool :=
  s.nesting.isEmpty && s.quoting == .none && s.word.isNone && s.rest.head? == some '#'

theorem beginsComment_eq_false {s : State} (h : s.rest.all (· != '#')) : s.beginsComment = false := by
  unfold beginsComment
  cases hr : s.rest with
  | nil => simp
  | cons c cs =>
    rw [hr] at h
    simp_all

/-- A here-document operator has been read and waits for its delimiter. -/
def awaitsDelimiter (s : State) : Bool :=
  match s.pending with
  | some ⟨.hereDocument _, _, _⟩ => true
  | _ => false

variable {homes : HomeDirs} {s t : State} {c : Char} {more : List Char}

structure Ended (s t : State) : Prop where
  quoting : t.quoting = s.quoting
  nesting : t.nesting = s.nesting
  nestedQuote : t.nestedQuote = s.nestedQuote
  joinsNext : t.joinsNext = s.joinsNext
  word : t.word = none

theorem ended_finishWord (h : s.finishWord = .ok t) : Ended s t := by
  simp only [finishWord, bind, Except.bind] at h
  repeat' split at h
  all_goals cases h
  · exact ⟨rfl, rfl, rfl, rfl, ‹_›⟩
  all_goals exact ⟨rfl, rfl, rfl, rfl, rfl⟩

theorem finishWord_of_none (h : s.word = none) : s.finishWord = .ok s := by
  simp [finishWord, h]

theorem requests_finishWord (hs : s.awaitsDelimiter = false) (h : s.finishWord = .ok t) :
    t.requests = s.requests := by
  simp only [finishWord] at h
  split at h
  · cases h
    rfl
  split at h
  · cases h
    rfl
  rename_i p hp
  split at h
  · simp only [bind, Except.bind] at h
    split at h <;> cases h
    rfl
  split at h
  · cases h
    rfl
  · cases h
    rfl
  · rename_i ho
    obtain ⟨operator, source, target⟩ := p
    obtain rfl : operator = _ := ho
    simp [awaitsDelimiter, hp] at hs
  · cases h

structure KeepsAside (s t : State) : Prop where
  requests : t.requests = s.requests
  nestedQuote : t.nestedQuote = s.nestedQuote

theorem keepsAside_finishWord (hs : s.awaitsDelimiter = false) (h : s.finishWord = .ok t) :
    KeepsAside s t :=
  ⟨requests_finishWord hs h, (ended_finishWord h).nestedQuote⟩

theorem keepsAside_link {k : Connector} (hs : s.awaitsDelimiter = false) (h : s.link k = .ok t) :
    KeepsAside s t := by
  simp only [link, bind, Except.bind] at h
  cases hu : s.finishWord with
  | error f =>
    rw [hu] at h
    cases h
  | ok u =>
    obtain ⟨hrequests, hquote⟩ := keepsAside_finishWord hs hu
    simp only [hu, closeCommand] at h
    repeat' split at h
    all_goals cases h
    all_goals exact ⟨hrequests, hquote⟩

theorem keepsAside_beginRedirection (hs : s.awaitsDelimiter = false)
    (h : s.beginRedirection c = .ok t) : KeepsAside s t := by
  simp only [beginRedirection, bind, Except.bind] at h
  split at h
  · cases h
    exact ⟨rfl, rfl⟩
  · split at h
    · cases h
    · rename_i u hu
      have hsame : awaitsDelimiter { s with rest := (operatorAt c s.rest).2.2 } = false := hs
      obtain ⟨hrequests, hquote⟩ := keepsAside_finishWord hsame hu
      split at h <;> cases h
      exact ⟨hrequests, hquote⟩

theorem keepsAside_unquoted (hs : s.awaitsDelimiter = false) (h : s.unquoted homes c = .ok t) :
    KeepsAside s t := by
  unfold unquoted at h
  split at h
  · exact keepsAside_finishWord hs h
  split at h
  · cases h
    exact ⟨rfl, rfl⟩
  split at h
  · cases h
    exact ⟨rfl, rfl⟩
  split at h
  · cases h
    unfold escape
    split <;> exact ⟨rfl, rfl⟩
  split at h
  · exact keepsAside_beginRedirection hs h
  split at h
  · cases h
    simp only [openSubstitution]
    split
    · exact ⟨rfl, rfl⟩
    · split <;> exact ⟨rfl, rfl⟩
  split at h
  · obtain ⟨hrequests, hquote⟩ := keepsAside_link (by exact hs) h
    exact ⟨hrequests, hquote⟩
  · simp only [ordinary, skip] at h
    repeat' split at h
    all_goals cases h
    all_goals exact ⟨rfl, rfl⟩

structure FreeOfRequests (s : State) : Prop where
  requests : s.requests = []
  nestedQuote : s.nestedQuote ≠ some '\n'

theorem FreeOfRequests.step (h : s.FreeOfRequests) (hs : s.awaitsDelimiter = false)
    (ht : s.step homes c = .ok t) : t.FreeOfRequests := by
  obtain ⟨hrequests, hquote⟩ := h
  unfold State.step at ht
  split at ht
  · cases ht
    refine ⟨(keeps_nested ..).requests.trans hrequests, ?_⟩
    simp only [nested]
    grind [push]
  split at ht
  · cases ht
    split <;> exact ⟨hrequests, hquote⟩
  · cases ht
    refine ⟨(keeps_doubleQuoted ..).requests.trans hrequests, ?_⟩
    unfold doubleQuoted openSubstitution
    grind [push]
  · obtain ⟨hrequests', hquote'⟩ := keepsAside_unquoted hs ht
    exact ⟨hrequests'.trans hrequests, hquote' ▸ hquote⟩

theorem expand?_append (hm : Continues more) (rest : List Char) :
    Tilde.expand? homes (rest ++ more) = Tilde.expand? homes rest := by
  by_cases hname : ∀ c ∈ rest, Tilde.isNameChar c
  · have hmore : ∀ c ∈ more.head?, ¬ Tilde.isNameChar c ∧ Tilde.endsPrefix c := by
      intro c hc
      rw [hm c hc]
      decide
    have hwhole := expand?_name homes hname (by simp : ∀ c ∈ [].head?, ¬ Tilde.isNameChar c)
    rw [List.append_nil] at hwhole
    rw [expand?_name homes hname fun c hc ↦ (hmore c hc).1, hwhole,
      if_pos ((Option.all_eq_true _ _).2 fun c hc ↦ (hmore c hc).2)]
    rfl
  · exact expand?_ended hname more

theorem ignores_lines (hm : Continues more)
    (hc : s.nesting = [] → s.quoting = .none → s.word = none → c ≠ '#') (hr : c = '\\' → s.rest ≠ []) :
    s.Ignores homes c more := by
  refine ⟨hr, fun _ ↦ splits_eq_false (fun x hx ↦ ?_) _, fun _ _ ↦ splits_eq_false (fun x hx ↦ ?_) _, hc,
    fun _ _ _ _ ↦ expand?_append hm s.rest⟩
  · rw [hm x hx]
    decide
  · rw [hm x hx]
    decide

/-- Where a parser that has read its buffer to the end is in a line with more text behind a newline.
A backslash at the end of the buffer takes the newline along. -/
def resumed (s : State) (text : List Char) : State :=
  s.extend (if s.joinsNext then text else '\n' :: text)

theorem nested_newline (hs : s.nestedQuote ≠ some '\n') (expected : Closer)
    (outer : List Closer) : s.nested expected outer '\n' = s.push '\n' := by
  have hquote : (s.push '\n').nestedQuote = s.nestedQuote := rfl
  have hcloser : '\n' ≠ expected.char := by
    cases expected <;> decide
  simp only [nested, hquote]
  cases hq : s.nestedQuote with
  | none => simp [hcloser]
  | some q =>
    have hne : '\n' ≠ q := fun h ↦ hs (h ▸ hq)
    simp [hne]

theorem nested_backslash (hr : s.rest = []) (expected : Closer) (outer : List Closer) :
    s.nested expected outer '\\' = s.push '\\' := by
  have hquote : (s.push '\\').nestedQuote = s.nestedQuote := rfl
  have hcloser : '\\' ≠ expected.char := by
    cases expected <;> decide
  simp only [nested, hquote, rest_push, hr]
  by_cases hq : s.nestedQuote = some '\x27' <;> simp [hq]

theorem scan_nested_backslash {expected : Closer} {outer : List Closer}
    (hn : s.nesting = expected :: outer) (hr : s.rest = []) (hs : s.nestedQuote ≠ some '\n')
    (text : List Char) :
    ((s.extend ('\n' :: text)).nested expected outer '\\').scan homes =
      ((s.push '\\').extend ('\n' :: text)).scan homes := by
  by_cases hq : s.nestedQuote = some '\x27'
  · have hquoted : (s.extend ('\n' :: text)).nested expected outer '\\' =
        (s.push '\\').extend ('\n' :: text) := by
      simp [nested, push, hq, extend]
    rw [hquoted]
  · have htaken : (s.extend ('\n' :: text)).nested expected outer '\\' =
        ((s.push '\\').push '\n').extend text := by
      simp [nested, push, hq, hr, extend]
    have hrest : ((s.push '\\').extend ('\n' :: text)).rest = '\n' :: text := by
      simp [hr]
    have hstep : State.step homes '\n' { (s.push '\\').extend ('\n' :: text) with rest := text } =
        .ok (((s.push '\\').push '\n').extend text) := by
      have hnesting : ((s.push '\\').extend ('\n' :: text)).nesting = expected :: outer := hn
      simp only [step, hnesting]
      rw [nested_newline (by exact hs)]
      simp [extend, push, hr, hn]
    rw [htaken, scan_cons hrest, hstep]
    rfl

theorem step_backslash (hj : s.joinsNext = false) (hr : s.rest = [])
    (hs : s.nestedQuote ≠ some '\n') (ht : s.step homes '\\' = .ok t) (text : List Char) :
    (s.extend ('\n' :: text)).step homes '\\' >>= scan homes = (t.resumed text).scan homes := by
  have hnesting : (s.extend ('\n' :: text)).nesting = s.nesting := rfl
  have hquoting : (s.extend ('\n' :: text)).quoting = s.quoting := rfl
  have hpush : (s.push '\\').resumed text = (s.push '\\').extend ('\n' :: text) := by
    have hsame : (s.push '\\').joinsNext = s.joinsNext := rfl
    simp [resumed, hsame, hj]
  unfold step at ht ⊢
  rw [hnesting, hquoting]
  split at ht
  · rename_i expected outer hn
    rw [nested_backslash hr] at ht
    cases ht
    rw [hpush]
    exact scan_nested_backslash hn hr hs text
  split at ht
  · cases ht
    exact congrArg (scan homes) hpush.symm
  · cases ht
    have hend : s.doubleQuoted '\\' = { s with joinsNext := true } := by
      simp only [doubleQuoted, hr]
    have hnext : (s.extend ('\n' :: text)).doubleQuoted '\\' =
        State.extend { s with joinsNext := true } text := by
      simp [doubleQuoted, hr, extend]
    rw [hend, hnext]
    rfl
  · have hescape : ∀ s : State, s.unquoted homes '\\' = .ok s.escape := fun _ ↦ rfl
    rw [hescape] at ht
    cases ht
    have hend : s.escape = { s with joinsNext := true } := by
      simp only [escape, hr]
    have hnext : (s.extend ('\n' :: text)).escape =
        State.extend { s with joinsNext := true } text := by
      simp [escape, hr, extend]
    rw [hescape, hend, hnext]
    rfl

/-- A parser that reads its buffer to the end comes to where it is in the longer line. -/
theorem scan_resumed (hj : s.joinsNext = false) (hs : s.FreeOfRequests)
    (hv : ∀ u ∈ s.visits homes, u.beginsComment = false ∧ u.awaitsDelimiter = false)
    (ht : s.scan homes = .ok t) :
    t.FreeOfRequests ∧
      ∀ text, (s.extend ('\n' :: text)).scan homes = (t.resumed text).scan homes := by
  fun_induction State.scan homes s with
  | case1 s hr =>
    cases ht
    refine ⟨hs, fun text ↦ ?_⟩
    simp [resumed, hj]
  | case2 => cases ht
  | case3 s c cs hr u hstep _ ih =>
    rw [visits_cons hr hstep] at hv
    obtain ⟨⟨hcomment, hdelimiter⟩, hvisits⟩ := List.forall_mem_cons.1 hv
    have hread : State.FreeOfRequests { s with rest := cs } := ⟨hs.requests, hs.nestedQuote⟩
    have hu : u.FreeOfRequests := hread.step hdelimiter hstep
    have hrest : ∀ more, (s.extend more).rest = c :: (cs ++ more) := by
      intro more
      rw [rest_extend, hr, List.cons_append]
    -- a backslash at the end meets the newline here, where the other reading has it join the lines
    by_cases hb : c = '\\' ∧ cs = []
    · obtain ⟨rfl, rfl⟩ := hb
      have hend : u.rest = [] := List.suffix_nil.1 (suffix_step hstep)
      rw [scan_nil hend] at ht
      cases ht
      refine ⟨hu, fun text ↦ ?_⟩
      rw [scan_cons (hrest _)]
      exact step_backslash (s := { s with rest := [] }) hj rfl hs.nestedQuote hstep text
    · have hignores : ∀ {more}, Continues more → Ignores homes { s with rest := cs } c more := by
        intro more hm
        refine ignores_lines hm (fun hn hq hw hc ↦ ?_) fun hc hcs ↦ hb ⟨hc, hcs⟩
        have hn' : s.nesting = [] := hn
        have hq' : s.quoting = .none := hq
        have hw' : s.word = none := hw
        simp [beginsComment, hn', hq', hw', hr, hc] at hcomment
      have hnext : ∀ {more}, Continues more →
          State.step homes c { s.extend more with rest := cs ++ more } = .ok (u.extend more) := by
        intro more hm
        have hextend := step_extend (hignores hm)
        rw [hstep] at hextend
        exact hextend
      have hjoins : u.joinsNext = false := joinsNext_step (s := { s with rest := cs }) hj (hignores continues_nil) hstep
      obtain ⟨hend, hscan⟩ := ih hjoins hu hvisits ht
      refine ⟨hend, fun text ↦ ?_⟩
      rw [scan_cons (hrest _), hnext (continues_newline text)]
      exact hscan text

theorem extend_rest (hr : s.rest = []) (cs more : List Char) :
    extend { s with rest := cs } more = s.extend (cs ++ more) := by
  simp [extend, hr]

theorem scan_newline (hn : s.nesting = []) (hq : s.quoting = .none) (hr : s.rest = [])
    (ht : s.finishWord = .ok t) (text : List Char) :
    (s.extend ('\n' :: text)).scan homes = (t.extend text).scan homes := by
  have hrest : (s.extend ('\n' :: text)).rest = '\n' :: text := by
    rw [rest_extend, hr, List.nil_append]
  have hread : { s.extend ('\n' :: text) with rest := text } = s.extend text := by
    simp [extend, hr]
  have hstep : (s.extend text).step homes '\n' = (s.extend text).finishWord := by
    have hnesting : (s.extend text).nesting = [] := hn
    have hquoting : (s.extend text).quoting = .none := hq
    simp only [step, hnesting, hquoting]
    rfl
  rw [scan_cons hrest, hread, hstep, finishWord_extend, ht]
  rfl

end State

theorem Waiting.take_resumed {w : Waiting} {t : State} (hr : t.rest = []) (ht : t.FreeOfRequests)
    (hd : t.awaitsDelimiter = false) (h : t.meetEnd = .waiting w) (homes : HomeDirs)
    (text : String) :
    ∃ s, w.take (.line text) = .reading s ∧ s.joinsNext = false ∧ s.FreeOfRequests ∧
      ∀ more, (t.resumed (text.toList ++ more)).scan homes = (s.extend more).scan homes := by
  unfold State.meetEnd at h
  by_cases hj : t.joinsNext
  · rw [if_pos hj] at h
    cases h
    refine ⟨_, rfl, rfl, ⟨ht.requests, ht.nestedQuote⟩, fun more ↦ ?_⟩
    rw [State.resumed, if_pos hj]
    exact congrArg (State.scan homes) (State.extend_rest hr text.toList more).symm
  rw [if_neg hj] at h
  have hresumed : ∀ more, t.resumed more = t.extend ('\n' :: more) := fun _ ↦
    congrArg t.extend (if_neg hj)
  rw [Bool.not_eq_true] at hj
  rcases t.endBuffer_cases with ⟨expected, hwait⟩ | ⟨f, hfailed⟩ | ⟨u, hn, hq, hu, -, hdocuments⟩
  · rw [hwait] at h
    cases h
    refine ⟨_, rfl, hj, ⟨ht.requests, ht.nestedQuote⟩, fun more ↦ ?_⟩
    rw [hresumed]
    exact congrArg (State.scan homes) (State.extend_rest hr ('\n' :: text.toList) more).symm
  · rw [hfailed] at h
    cases h
  -- A connector dangles at the end of the line, whose last word has been ended.
  · have hrequests : u.requests = [] := (State.requests_finishWord hd hu).trans ht.requests
    have hsame : { u with requests := [] } = u := by
      rw [← hrequests]
    rw [hdocuments, hsame, hrequests, State.readDocuments] at h
    have hended := State.ended_finishWord hu
    have hrest : u.rest = [] := (State.rest_finishWord hu).trans hr
    rcases u.endLine_cases with hwait | hend | hend
    · rw [hwait] at h
      cases h
      refine ⟨_, rfl, hended.joinsNext.trans hj, ⟨hrequests, fun hquote ↦
        ht.nestedQuote (hended.nestedQuote.symm.trans hquote)⟩, fun more ↦ ?_⟩
      rw [hresumed, State.scan_newline hn hq hr hu, ← State.scan_newline (hended.nesting.trans hn)
        (hended.quoting.trans hq) hrest (State.finishWord_of_none hended.word)]
      exact congrArg (State.scan homes) (State.extend_rest hrest ('\n' :: text.toList) more).symm
    · rw [hend] at h
      cases h
    · rw [hend] at h
      cases h

theorem exists_take_line {homes : HomeDirs} {s : State} {w : Waiting} (hj : s.joinsNext = false)
    (hs : s.FreeOfRequests)
    (hv : ∀ u ∈ s.visits homes, u.beginsComment = false ∧ u.awaitsDelimiter = false)
    (hw : s.advance homes = .waiting w) (text : String) :
    ∃ u, w.take (.line text) = .reading u ∧ u.joinsNext = false ∧ u.FreeOfRequests ∧
      ∀ more, (s.extend ('\n' :: (text.toList ++ more))).scan homes = (u.extend more).scan homes := by
  rw [State.advance] at hw
  cases ht : s.scan homes with
  | error f =>
    rw [ht] at hw
    cases hw
  | ok t =>
    rw [ht] at hw
    obtain ⟨hend, hscan⟩ := State.scan_resumed hj hs hv ht
    obtain ⟨u, htake, hju, hsu, hresumed⟩ := Waiting.take_resumed (State.rest_scan ht) hend
      (hv t (State.mem_visits_of_scan ht)).2 hw homes text
    exact ⟨u, htake, hju, hsu, fun more ↦ (hscan _).trans (hresumed more)⟩

/-- The parse that goes on from `s` and ends in `o` ends as it does with `more` behind the buffer,
and no further line then. -/
structure Recalls (homes : HomeDirs) (s : State) (whole : String) (o : Outcome) (more : List Char) :
    Prop where
  line : o.line = whole ++ String.ofList more
  finish : ∀ {ends : List Answer}, (∀ a ∈ ends, a = .endOfInput) → ∀ line n,
    ∃ m, (finish homes ((s.extend more).advance homes) ends line n).1 = ⟨o.result, line, m⟩

variable {homes : HomeDirs} {s : State} {p : Progress} {answers : List Answer}
  {whole text : String} {reads : Nat} {x : Option CommandList}

theorem finish_without_lines (ha : ∀ text, .line text ∉ answers)
    (h : (finish homes p answers whole reads).1.result = .ok x) :
    (finish homes p answers whole reads).1.line = whole ∧
      ∀ {ends : List Answer}, (∀ a ∈ ends, a = .endOfInput) → ∀ line n,
        ∃ m, (finish homes p ends line n).1 =
          ⟨(finish homes p answers whole reads).1.result, line, m⟩ := by
  fun_induction finish homes p answers whole reads with
  | case1 answers whole reads cs =>
    refine ⟨rfl, fun _ line n ↦ ⟨n, ?_⟩⟩
    rw [finish]
  | case2 => cases h
  | case3 whole reads w ih =>
    obtain ⟨hline, hends⟩ := ih ha h
    refine ⟨hline, fun he line n ↦ ?_⟩
    rw [finish_endOfInput he]
    exact hends (fun a ha ↦ he a (List.mem_of_mem_drop ha)) line (n + 1)
  | case4 whole reads w a later ih =>
    cases a with
    | line text => exact absurd List.mem_cons_self (ha text)
    | failed f =>
      have hresume : w.resume homes (.failed f) = .finished (.error (.failure f)) := rfl
      rw [hresume, finish] at h
      cases h
    | endOfInput =>
      obtain ⟨hline, hends⟩ := ih (fun text ht ↦ ha text (List.mem_cons_of_mem _ ht)) h
      refine ⟨hline.trans (by simp [Answer.addition]), fun he line n ↦ ?_⟩
      rw [finish_endOfInput he]
      exact hends (fun a ha ↦ he a (List.mem_of_mem_drop ha)) line (n + 1)

theorem recalls_nil (hj : s.joinsNext = false) (ha : ∀ text, .line text ∉ answers)
    (h : (finish homes (s.advance homes) answers whole reads).1.result = .ok x) :
    Recalls homes s whole (finish homes (s.advance homes) answers whole reads).1 [] := by
  obtain ⟨hline, hends⟩ := finish_without_lines ha h
  refine ⟨by simpa using hline, ?_⟩
  rw [State.extend_nil hj]
  exact hends

theorem Recalls.newline {u : State} {o : Outcome} {more : List Char}
    (h : Recalls homes u (whole ++ "\n" ++ text) o more)
    (hscan : (s.extend ('\n' :: (text.toList ++ more))).scan homes = (u.extend more).scan homes) :
    Recalls homes s whole o ('\n' :: (text.toList ++ more)) := by
  constructor
  · have hmore : String.ofList ('\n' :: (text.toList ++ more)) =
        "\n" ++ text ++ String.ofList more := by
      apply String.toList_injective
      simp
    rw [h.line, hmore]
    simp only [String.append_assoc]
  · rw [advance_of_scan hscan]
    exact h.finish

/-- A parse that takes lines ends as it does with a line that holds them from the beginning. -/
theorem exists_recalls
    (hends : answers.Pairwise fun a b ↦ a = .endOfInput → ∀ text, b ≠ .line text)
    (hj : s.joinsNext = false) (hs : s.FreeOfRequests)
    (hv : ∀ u ∈ Turn.visits homes (.reading s) answers,
      u.beginsComment = false ∧ u.awaitsDelimiter = false)
    (h : (finish homes (s.advance homes) answers whole reads).1.result = .ok x) :
    ∃ more, Recalls homes s whole (finish homes (s.advance homes) answers whole reads).1 more := by
  induction answers generalizing s whole reads with
  | nil => exact ⟨[], recalls_nil hj (by simp) h⟩
  | cons a later ih =>
    obtain ⟨ha, hlater⟩ := List.pairwise_cons.1 hends
    cases hp : s.advance homes with
    | finished r =>
      have hnone : ∀ answers, (finish homes (s.advance homes) answers whole reads).1 =
          (finish homes (s.advance homes) [] whole reads).1 := by
        intro answers
        rw [hp]
        cases r <;> rw [finish, finish]
      rw [hnone] at h
      rw [← hp, hnone]
      exact ⟨[], recalls_nil hj (by simp) h⟩
    | waiting w =>
      cases a with
      | failed f =>
        have hresume : w.resume homes (.failed f) = .finished (.error (.failure f)) := rfl
        rw [hp, finish, hresume, finish] at h
        cases h
      -- behind an end of input no line comes, so that the rest is as if there were no answers
      | endOfInput =>
        rw [← hp]
        exact ⟨[], recalls_nil hj (by simpa using fun text ht ↦ ha _ ht rfl text rfl) h⟩
      | line text =>
        rw [Turn.visits] at hv
        obtain ⟨hvisits, hvlater⟩ := List.forall_mem_append.1 hv
        obtain ⟨u, htake, hju, hsu, hscan⟩ := exists_take_line hj hs hvisits hp text
        have hresume : w.resume homes (.line text) = u.advance homes := by
          rw [Waiting.resume, htake, Turn.settle]
        have hline : whole ++ (Answer.line text).addition = whole ++ "\n" ++ text := by
          simp [Answer.addition, String.append_assoc]
        simp only [Turn.settle, hp, htake] at hvlater
        rw [hp, finish, hresume, hline] at h
        rw [finish, hresume, hline]
        obtain ⟨more, hmore⟩ := ih hlater hju hsu hvlater h
        exact ⟨_, hmore.newline (hscan more)⟩

/-- A command recalled from the history parses as it did when it was typed. Say that a line parses
to a list and meets no comment and no here-document on the way, with any source of lines that has no
line behind an end of input. Then the line that this leaves, with all further lines in it, parses to
the same list where the input has ended, and stays as it is. -/
theorem parse_recalled (homes : HomeDirs) {line : String} {answers : List Answer} {l : CommandList}
    (hends : answers.Pairwise fun a b ↦ a = .endOfInput → ∀ text, b ≠ .line text)
    (hmet : ∀ s ∈ visits homes line answers, s.beginsComment = false ∧ s.awaitsDelimiter = false)
    (h : (parse homes line answers).1.result = .ok (some l)) {ends : List Answer}
    (he : ∀ a ∈ ends, a = .endOfInput) :
    ∃ n, (parse homes (parse homes line answers).1.line ends).1 =
      ⟨.ok (some l), (parse homes line answers).1.line, n⟩ := by
  obtain ⟨more, hrecalls⟩ := exists_recalls hends rfl ⟨rfl, by simp⟩ hmet h
  have hbegin : begin homes (parse homes line answers).1.line =
      State.advance homes (State.extend { rest := line.toList } more) := by
    have hline : (parse homes line answers).1.line = line ++ String.ofList more := hrecalls.line
    rw [begin, hline]
    simp [State.extend]
  obtain ⟨n, hn⟩ := hrecalls.finish he (parse homes line answers).1.line 0
  refine ⟨n, ?_⟩
  rw [parse, hbegin, hn]
  exact congrArg (Outcome.mk · _ n) h

theorem parse_three_lines_recalled : ∃ n,
    (parse ⟨none, fun _ ↦ none⟩ "a 'b\nc' |\nd \\\ne" [.endOfInput]).1 =
      ⟨.ok (some ⟨[⟨.piped, ["a", "b\nc"], []⟩, ⟨.single, ["d", "e"], []⟩]⟩),
        "a 'b\nc' |\nd \\\ne", n⟩ := by
  have htyped : (parse ⟨none, fun _ ↦ none⟩ "a 'b"
      [.line "c' |", .line "d \\", .line "e", .endOfInput]).1 =
      ⟨.ok (some ⟨[⟨.piped, ["a", "b\nc"], []⟩, ⟨.single, ["d", "e"], []⟩]⟩),
        "a 'b\nc' |\nd \\\ne", 3⟩ := by
    cbv
  have hmet : ∀ s ∈ visits ⟨none, fun _ ↦ none⟩ "a 'b"
      [.line "c' |", .line "d \\", .line "e", .endOfInput],
      s.beginsComment = false ∧ s.awaitsDelimiter = false := by
    have hall : (visits ⟨none, fun _ ↦ none⟩ "a 'b"
        [.line "c' |", .line "d \\", .line "e", .endOfInput]).all
          (fun s ↦ s.rest.all (· != '#') && !s.awaitsDelimiter) = true := by
      cbv
    intro s hs
    have hread := List.all_eq_true.1 hall s hs
    rw [Bool.and_eq_true, Bool.not_eq_true'] at hread
    exact ⟨State.beginsComment_eq_false hread.1, hread.2⟩
  have hends : ∀ a ∈ [Answer.endOfInput], a = .endOfInput := by
    simp
  have hrecalled := parse_recalled ⟨none, fun _ ↦ none⟩ (by simp) hmet
    (congrArg Outcome.result htyped) hends
  rwa [htyped] at hrecalled

end JobShell.Parser

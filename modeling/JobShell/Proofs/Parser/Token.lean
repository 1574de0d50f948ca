import JobShell.Parser.Run

namespace JobShell.Parser

def isPlain (c : Char) : Bool :=
  !isBlank c && !isOperator c && c != '\x27' && c != '\x22' && c != '\\' && c != '$' && c != '\x60'

/-- A word whose characters all stand for themselves, the first one too. -/
structure PlainWord (w : String) : Prop where
  nonempty : w.toList ≠ []
  plain : w.toList.all isPlain
  noComment : w.toList.head? ≠ some '#'
  noTilde : w.toList.head? ≠ some '~'

instance (w : String) : Decidable (PlainWord w) :=
  decidable_of_iff (w.toList ≠ [] ∧ w.toList.all isPlain ∧ w.toList.head? ≠ some '#' ∧
      w.toList.head? ≠ some '~')
    ⟨fun ⟨hn, hp, hc, ht⟩ ↦ ⟨hn, hp, hc, ht⟩,
      fun h ↦ ⟨h.nonempty, h.plain, h.noComment, h.noTilde⟩⟩

structure Numeral (w : String) : Prop where
  nonempty : w.toList ≠ []
  digits : w.toList.all Decimal.isDigit
  fits : Decimal.value w.toList ≤ 2147483647

instance (w : String) : Decidable (Numeral w) :=
  decidable_of_iff
    (w.toList ≠ [] ∧ w.toList.all Decimal.isDigit ∧ Decimal.value w.toList ≤ 2147483647)
    ⟨fun ⟨hn, hd, hf⟩ ↦ ⟨hn, hd, hf⟩, fun h ↦ ⟨h.nonempty, h.digits, h.fits⟩⟩

/-- The spellings of redirection operators, here-documents aside. -/
inductive Arrow
  | write
  | clobber
  | append
  | read
  | readWrite
  | hereString
  | duplicate (input : Bool)
  deriving DecidableEq, Repr

namespace Arrow

def text : Arrow → String
  | write => ">"
  | clobber => ">|"
  | append => ">>"
  | read => "<"
  | readWrite => "<>"
  | hereString => "<<<"
  | duplicate input => if input then "<&" else ">&"

def operator : Arrow → Operator
  | write | clobber => .path .truncate
  | append => .path .append
  | read => .path .read
  | readWrite => .path .readWrite
  | hereString => .hereString
  | duplicate input => .duplicate input

def defaultSource : Arrow → Int
  | write | clobber | append => 1
  | read | readWrite | hereString => 0
  | duplicate input => if input then 0 else 1

/-- The descriptor that changes when these digits, if any, stand before the operator. -/
def source (a : Arrow) (digits : Option String) : Int :=
  digits.elim a.defaultSource fun n ↦ Decimal.value n.toList

def pending (a : Arrow) (digits : Option String) : Pending :=
  ⟨a.operator, a.source digits, a.operator.target⟩

def Takes (target : String) : Arrow → Prop
  | duplicate _ => target = "-" ∨ Numeral target
  | _ => PlainWord target

instance (target : String) : (a : Arrow) → Decidable (a.Takes target)
  | duplicate _ => inferInstanceAs (Decidable (target = "-" ∨ Numeral target))
  | write | clobber | append | read | readWrite | hereString =>
    inferInstanceAs (Decidable (PlainWord target))

def redirection (source : Int) (target : String) : Arrow → Redirection
  | write | clobber => .path .truncate source target
  | append => .path .append source target
  | read => .path .read source target
  | readWrite => .path .readWrite source target
  | hereString => .document source (target ++ "\n")
  | duplicate input =>
    if target = "-" then .close source input
    else .duplicate source (Decimal.value target.toList) input

end Arrow

inductive Token
  | word (text : String)
  | redirection (digits : Option String) (arrow : Arrow) (target : String)
  | connector (k : Connector)
  deriving DecidableEq, Repr

namespace Token

def Valid : Token → Prop
  | word w => PlainWord w
  | redirection digits arrow target => (∀ n ∈ digits, Numeral n) ∧ arrow.Takes target
  | connector k => k ≠ .single

instance : (t : Token) → Decidable t.Valid
  | word w => inferInstanceAs (Decidable (PlainWord w))
  | redirection none arrow target => decidable_of_iff (arrow.Takes target) (by simp [Valid])
  | redirection (some n) arrow target =>
    decidable_of_iff (Numeral n ∧ arrow.Takes target) (by simp [Valid])
  | connector k => inferInstanceAs (Decidable (k ≠ .single))

def IsItem : Token → Prop
  | connector _ => False
  | _ => True

def text : Token → String
  | word w => w
  | redirection digits arrow target => digits.getD "" ++ arrow.text ++ target
  | connector k => k.symbol

def words : Token → List String
  | word w => [w]
  | _ => []

def redirections : Token → List Redirection
  | redirection digits arrow target => [arrow.redirection (arrow.source digits) target]
  | _ => []

end Token

/-- A blank, a connector or nothing comes next, so that a word before it ends. -/
def Apart : List Char → Prop
  | [] => True
  | c :: _ => isBlank c ∨ c = '&' ∨ c = '|' ∨ c = ';'

theorem apart_blank {b : Char} {cs : List Char} (hb : isBlank b) : Apart (b :: cs) := .inl hb

/-- The characters spell the tokens. Blanks may stand anywhere between two tokens; they must follow a
word or a redirection that no connector follows, and a connector that the next one would lengthen. -/
inductive Spells : List Token → List Char → Prop
  | nil : Spells [] []
  | blank {ts : List Token} {cs : List Char} {b : Char} :
      isBlank b → Spells ts cs → Spells ts (b :: cs)
  | item {t : Token} {ts : List Token} {cs : List Char} :
      t.Valid → t.IsItem → Apart cs → Spells ts cs → Spells (t :: ts) (t.text.toList ++ cs)
  | connector {k : Connector} {ts : List Token} {cs : List Char} :
      k ≠ .single → (k = .background → cs.head? ≠ some '&') → (k = .piped → cs.head? ≠ some '|') →
      Spells ts cs → Spells (.connector k :: ts) (k.symbol.toList ++ cs)

theorem apart_blanks {gap cs : List Char} (hgap : ∀ b ∈ gap, isBlank b) (h : Apart cs) :
    Apart (gap ++ cs) := by
  cases gap with
  | nil => exact h
  | cons b gap => exact apart_blank (hgap b List.mem_cons_self)

theorem apart_of_head? {cs : List Char} (h : ∀ c ∈ cs.head?, isBlank c) : Apart cs := by
  cases cs with
  | nil => trivial
  | cons c cs => exact apart_blank (h c rfl)

theorem Spells.blanks {ts : List Token} {gap cs : List Char} (hgap : ∀ b ∈ gap, isBlank b)
    (h : Spells ts cs) : Spells ts (gap ++ cs) := by
  induction gap with
  | nil => exact h
  | cons b gap ih =>
    obtain ⟨hb, hgap⟩ := List.forall_mem_cons.1 hgap
    exact .blank hb (ih hgap)

theorem Spells.cons {t : Token} {ts : List Token} {cs : List Char} (ht : t.Valid)
    (hcs : ∀ c ∈ cs.head?, isBlank c) (h : Spells ts cs) :
    Spells (t :: ts) (t.text.toList ++ cs) := by
  cases t with
  | connector k =>
    refine .connector ht (fun _ hc ↦ ?_) (fun _ hc ↦ ?_) h
    · exact absurd (hcs '&' hc) (by decide)
    · exact absurd (hcs '|' hc) (by decide)
  | _ => exact .item ht trivial (apart_of_head? hcs) h

theorem spells_intercalate (gap : String) {ts : List Token} (hts : ∀ t ∈ ts, t.Valid)
    (hne : gap.toList ≠ []) (hgap : ∀ b ∈ gap.toList, isBlank b) :
    Spells ts (gap.intercalate (ts.map Token.text)).toList := by
  induction ts with
  | nil => exact .nil
  | cons t ts ih =>
    obtain ⟨ht, hts⟩ := List.forall_mem_cons.1 hts
    cases ts with
    | nil =>
      have hone := Spells.nil.cons ht (by simp)
      simpa using hone
    | cons u us =>
      have hhead : ∀ c ∈ (gap.toList ++ (gap.intercalate ((u :: us).map Token.text)).toList).head?,
          isBlank c := by
        obtain ⟨b, bs, hb⟩ := List.exists_cons_of_ne_nil hne
        rw [hb] at hgap ⊢
        exact fun c hc ↦ Option.some.inj hc ▸ hgap b List.mem_cons_self
      have hone := ((ih hts).blanks hgap).cons ht hhead
      rw [List.map_cons, List.map_cons, String.intercalate_cons_cons]
      simpa using hone

theorem Spells.items {us ts : List Token} {cs : List Char} (hne : us ≠ [])
    (hvalid : ∀ u ∈ us, u.Valid) (hitem : ∀ u ∈ us, u.IsItem) (ha : Apart cs) (h : Spells ts cs) :
    Spells (us ++ ts) ((" ".intercalate (us.map Token.text)).toList ++ cs) := by
  induction us with
  | nil => exact absurd rfl hne
  | cons u us ih =>
    obtain ⟨hu, hus⟩ := List.forall_mem_cons.1 hvalid
    obtain ⟨hi, his⟩ := List.forall_mem_cons.1 hitem
    cases us with
    | nil =>
      have hone := Spells.item hu hi ha h
      simpa using hone
    | cons u' us =>
      have hrest := ih (by simp) hus his
      have hone := Spells.item hu hi (apart_blank rfl) (.blank (b := ' ') rfl hrest)
      rw [List.map_cons, List.map_cons, String.intercalate_cons_cons]
      simpa using hone

/-- What a parser holds between two tokens: the commands it has finished, and what it has of the
next one. -/
structure Draft where
  commands : List Command := []
  words : List String := []
  redirections : List Redirection := []
  deriving DecidableEq, Repr

namespace Draft

def add (d : Draft) (ts : List Token) : Draft :=
  { d with
    words := d.words ++ ts.flatMap Token.words
    redirections := d.redirections ++ ts.flatMap Token.redirections }

def close (d : Draft) (k : Connector) : Draft := ⟨d.commands ++ [⟨k, d.words, d.redirections⟩], [], []⟩

def lastConnector? (d : Draft) : Option Connector := d.commands.getLast?.map Command.connector

def accept (d : Draft) : Token → Except Connector Draft
  | .word w => .ok (d.add [.word w])
  | .redirection digits arrow target => .ok (d.add [.redirection digits arrow target])
  | .connector k =>
    if d.words ≠ [] then .ok (d.close k)
    else if k = .sequential ∧ d.lastConnector? = some .sequential ∧ d.redirections = [] then .ok d
    else .error k

def acceptAll (d : Draft) (ts : List Token) : Except Connector Draft := ts.foldlM accept d

theorem accept_item (d : Draft) {t : Token} (ht : t.IsItem) : d.accept t = .ok (d.add [t]) := by
  cases t with
  | connector k => exact absurd ht id
  | _ => rfl

theorem accept_error {d : Draft} {t : Token} {k : Connector} (h : d.accept t = .error k) :
    t = .connector k := by
  cases t with
  | word w => cases h
  | redirection digits arrow target => cases h
  | connector k' =>
    simp only [accept] at h
    split at h
    · cases h
    · split at h <;> cases h
      rfl

theorem acceptAll_cons (d : Draft) (t : Token) (ts : List Token) :
    d.acceptAll (t :: ts) = d.accept t >>= fun d ↦ d.acceptAll ts :=
  List.foldlM_cons

theorem acceptAll_cons_ok {d d' : Draft} {t : Token} (h : d.accept t = .ok d') (ts : List Token) :
    d.acceptAll (t :: ts) = d'.acceptAll ts := by
  rw [acceptAll_cons, h]
  rfl

theorem acceptAll_cons_error {d : Draft} {t : Token} {k : Connector} (h : d.accept t = .error k)
    (ts : List Token) : d.acceptAll (t :: ts) = .error k := by
  rw [acceptAll_cons, h]
  rfl

theorem acceptAll_append {d d' : Draft} {ts : List Token} (h : d.acceptAll ts = .ok d')
    (us : List Token) : d.acceptAll (ts ++ us) = d'.acceptAll us := by
  have happend : d.acceptAll (ts ++ us) = d.acceptAll ts >>= fun d ↦ d.acceptAll us :=
    List.foldlM_append
  rw [happend, h]
  rfl

def reading (d : Draft) (p : Option Pending) (w : Option Word) (rest : List Char) : State where
  rest := rest
  pending := p
  word := w
  words := d.words
  redirections := d.redirections
  commands := d.commands

end Draft

variable {homes : HomeDirs} {d d' : Draft} {p : Option Pending} {w : Option Word} {c : Char}
  {cs : List Char} {k : Connector}

theorem isPlain_of_isDigit (h : Decimal.isDigit c) : isPlain c := by
  have hne : ∀ x : Char, Decimal.isDigit x = false → (c == x) = false := fun x hx ↦ by
    rw [beq_eq_false_iff_ne]
    rintro rfl
    rw [h] at hx
    cases hx
  simp (disch := decide) [isPlain, isBlank, isOperator, bne, hne]

theorem PlainWord.exists_cons {w : String} (h : PlainWord w) : ∃ c cs, w.toList = c :: cs ∧
    isPlain c ∧ c ≠ '#' ∧ c ≠ '~' ∧ ∀ c' ∈ cs, isPlain c' := by
  have hplain : ∀ c ∈ w.toList, isPlain c := List.all_eq_true.1 h.plain
  obtain ⟨c, cs, hw⟩ := List.exists_cons_of_ne_nil h.nonempty
  have hcomment : c ≠ '#' := by simpa [hw] using h.noComment
  have htilde : c ≠ '~' := by simpa [hw] using h.noTilde
  exact ⟨c, cs, hw, hplain c (by simp [hw]), hcomment, htilde, fun c' hc' ↦
    hplain c' (by simp [hw, hc'])⟩

theorem Numeral.plainWord {w : String} (h : Numeral w) : PlainWord w := by
  have hd : ∀ c ∈ w.toList, Decimal.isDigit c := List.all_eq_true.1 h.digits
  have hhead : ∀ c, Decimal.isDigit c = false → w.toList.head? ≠ some c := fun c hc hw ↦ by
    rw [hd c (List.mem_of_head? hw)] at hc
    cases hc
  exact ⟨h.nonempty, List.all_eq_true.2 fun c hc ↦ isPlain_of_isDigit (hd c hc), hhead '#' rfl,
    hhead '~' rfl⟩

theorem Numeral.ne_dash {w : String} (h : Numeral w) : w ≠ "-" := by
  rintro rfl
  exact absurd h (by decide)

theorem Arrow.Takes.plainWord {a : Arrow} {target : String} (h : a.Takes target) :
    PlainWord target := by
  cases a with
  | duplicate input =>
    rcases h with rfl | h
    · decide
    · exact h.plainWord
  | _ => exact h

theorem connectorAt?_plain (h : isPlain c) (cs : List Char) : State.connectorAt? c cs = none := by
  unfold State.connectorAt?
  simp [isPlain, isOperator] at h
  simp [h]

theorem unquoted_plain (h : isPlain c) (s : State) : s.unquoted homes c = s.ordinary homes c := by
  have hk := connectorAt?_plain h s.rest
  simp [isPlain, isOperator] at h
  simp [State.unquoted, hk, h]

theorem push_append_ofList (text : String) (c : Char) (cs : List Char) :
    text.push c ++ String.ofList cs = text ++ String.ofList (c :: cs) := by
  apply String.ext
  simp

theorem scan_plain {w : Word} (h : ∀ c ∈ cs, isPlain c) (rest : List Char) :
    (d.reading p (some w) (cs ++ rest)).scan homes =
      (d.reading p (some { w with text := w.text ++ String.ofList cs }) rest).scan homes := by
  induction cs generalizing w with
  | nil => simp
  | cons c cs ih =>
    have hstep : (d.reading p (some w) (cs ++ rest)).unquoted homes c =
        .ok (d.reading p (some { w with text := w.text.push c }) (cs ++ rest)) := by
      rw [unquoted_plain (h c List.mem_cons_self)]
      rfl
    rw [List.cons_append, State.scan_cons rfl]
    refine (congrArg (· >>= State.scan homes) hstep).trans ?_
    refine (ih fun c' hc' ↦ h c' (List.mem_cons_of_mem c hc')).trans ?_
    rw [push_append_ofList]

theorem scan_plainWord (homes : HomeDirs) (d : Draft) (p : Option Pending) {w : String}
    (h : PlainWord w) (rest : List Char) :
    (d.reading p none (w.toList ++ rest)).scan homes =
      (d.reading p (some ⟨w, false⟩) rest).scan homes := by
  obtain ⟨c, cs, hw, hc, hnumber, htilde, hcs⟩ := h.exists_cons
  rw [hw]
  have hstep : (d.reading p none (cs ++ rest)).unquoted homes c =
      .ok (d.reading p (some ⟨"".push c, false⟩) (cs ++ rest)) := by
    rw [unquoted_plain hc]
    simp only [State.ordinary, hnumber, htilde, if_false]
    rfl
  rw [List.cons_append, State.scan_cons rfl]
  refine (congrArg (· >>= State.scan homes) hstep).trans ?_
  refine (scan_plain hcs rest).trans ?_
  rw [push_append_ofList, ← hw, String.ofList_toList]
  rfl

def Settles (d : Draft) (p : Option Pending) (w : Option Word) (d' : Draft) : Prop :=
  ∀ cs, (d.reading p w cs).finishWord = .ok (d'.reading none none cs)

theorem settles_self (d : Draft) : Settles d none none d := fun _ ↦ rfl

theorem settles_word (d : Draft) (w : Word) :
    Settles d none (some w) (d.add [.word w.text]) := fun cs ↦ by
  simp [State.finishWord, Draft.reading, Draft.add, Token.words, Token.redirections]

theorem int32?_numeral {w : String} (h : Numeral w) :
    Decimal.int32? w = some (Decimal.value w.toList : Int) := by
  have hd : ∀ c ∈ w.toList, Decimal.isDigit c := List.all_eq_true.1 h.digits
  have hn : Decimal.natural? w.toList = some (Decimal.value w.toList) := by
    simp [Decimal.natural?, h.digits, h.nonempty]
  have hfits := h.fits
  simp only [Decimal.int32?, Decimal.bounded?]
  split
  · rename_i hw
    cases hd '+' (by simp [hw])
  · rename_i hw
    cases hd '-' (by simp [hw])
  · rw [hn, Option.map_some]
    exact Option.filter_some_pos (by simp; omega)

theorem duplication_eq {target : String} {input : Bool}
    (h : (Arrow.duplicate input).Takes target) (source : Int) :
    State.duplication source input target =
      .ok ((Arrow.duplicate input).redirection source target) := by
  unfold State.duplication Arrow.redirection
  rcases h with rfl | h
  · rfl
  · have hempty : target.isEmpty = false := by
      rw [Bool.eq_false_iff]
      intro he
      exact h.nonempty (by rw [String.isEmpty_iff.1 he, String.toList_empty])
    split
    · rfl
    · rw [int32?_numeral h, h.digits, hempty]
      rfl

theorem settles_redirection {a : Arrow} {target : String} (h : a.Takes target)
    (digits : Option String) (d : Draft) :
    Settles d (some (a.pending digits)) (some ⟨target, false⟩)
      (d.add [.redirection digits a target]) := fun cs ↦ by
  have hd : (d.add [.redirection digits a target]).reading none none cs =
      { d.reading none none cs with
        redirections := d.redirections ++ [a.redirection (a.source digits) target] } := by
    simp [Draft.reading, Draft.add, Token.words, Token.redirections]
  rw [hd]
  cases a with
  | duplicate input =>
    have hdup := duplication_eq h ((Arrow.duplicate input).source digits)
    have hinput : (Operator.duplicate input == .duplicate true) = input := by
      cases input <;> rfl
    simp only [State.finishWord, Draft.reading, Arrow.pending, Arrow.operator, Operator.target,
      hinput, hdup]
    rfl
  | _ => rfl

theorem scan_blank (hc : isBlank c) :
    (d.reading p w (c :: cs)).scan homes =
      (d.reading p w cs).finishWord >>= State.scan homes := by
  rw [State.scan_cons rfl]
  refine congrArg (· >>= State.scan homes) ?_
  exact if_pos hc

theorem unquoted_connector {s : State} {r : List Char}
    (h : State.connectorAt? c s.rest = some (k, r)) :
    s.unquoted homes c = { s with rest := r }.link k := by
  have hc : c = '&' ∨ c = '|' ∨ c = ';' := by
    unfold State.connectorAt? at h
    grind
  unfold State.unquoted
  rw [h]
  rcases hc with rfl | rfl | rfl <;> rfl

theorem scan_connector {r : List Char} (h : State.connectorAt? c cs = some (k, r)) :
    (d.reading p w (c :: cs)).scan homes = (d.reading p w r).link k >>= State.scan homes := by
  rw [State.scan_cons rfl]
  refine congrArg (· >>= State.scan homes) ?_
  exact unquoted_connector (s := d.reading p w cs) h

theorem operatorAt_write (hc : isPlain c) (cs : List Char) :
    State.operatorAt '>' (c :: cs) = (.path .truncate, ">", c :: cs) := by
  simp only [isPlain, isOperator, Bool.and_eq_true, Bool.not_eq_true', Bool.or_eq_false_iff,
    beq_eq_false_iff_ne] at hc
  simp [State.operatorAt, hc]

theorem operatorAt_read (hc : isPlain c) (cs : List Char) :
    State.operatorAt '<' (c :: cs) = (.path .read, "<", c :: cs) := by
  simp only [isPlain, isOperator, Bool.and_eq_true, Bool.not_eq_true', Bool.or_eq_false_iff,
    beq_eq_false_iff_ne] at hc
  simp [State.operatorAt, hc]

theorem operatorAt_arrow (a : Arrow) : ∃ x xs, a.text.toList = x :: xs ∧ (x = '<' ∨ x = '>') ∧
    (if x = '>' then 1 else 0) = a.defaultSource ∧
    ∀ c cs, isPlain c → State.operatorAt x (xs ++ c :: cs) = (a.operator, a.text, c :: cs) := by
  cases a with
  | write => exact ⟨'>', [], rfl, .inr rfl, rfl, fun c cs hc ↦ operatorAt_write hc cs⟩
  | clobber => exact ⟨'>', ['|'], rfl, .inr rfl, rfl, fun c cs _ ↦ rfl⟩
  | append => exact ⟨'>', ['>'], rfl, .inr rfl, rfl, fun c cs _ ↦ rfl⟩
  | read => exact ⟨'<', [], rfl, .inl rfl, rfl, fun c cs hc ↦ operatorAt_read hc cs⟩
  | readWrite => exact ⟨'<', ['>'], rfl, .inl rfl, rfl, fun c cs _ ↦ rfl⟩
  | hereString => exact ⟨'<', ['<', '<'], rfl, .inl rfl, rfl, fun c cs _ ↦ rfl⟩
  | duplicate input =>
    cases input with
    | false => exact ⟨'>', ['&'], rfl, .inr rfl, rfl, fun c cs _ ↦ rfl⟩
    | true => exact ⟨'<', ['&'], rfl, .inl rfl, rfl, fun c cs _ ↦ rfl⟩

theorem scan_arrow (homes : HomeDirs) (d : Draft) (a : Arrow) {digits : Option String}
    (hs : ∀ n ∈ digits, Numeral n) (hc : isPlain c) (cs : List Char) :
    (d.reading none (digits.map fun n ↦ ⟨n, false⟩) (a.text.toList ++ c :: cs)).scan homes =
      (d.reading (some (a.pending digits)) none (c :: cs)).scan homes := by
  obtain ⟨x, xs, hx, harrow, hdefault, hoperator⟩ := operatorAt_arrow a
  have hbegin : (d.reading none (digits.map fun n ↦ ⟨n, false⟩)
      (xs ++ c :: cs)).unquoted homes x =
      .ok (d.reading (some (a.pending digits)) none (c :: cs)) := by
    have hx : (d.reading none (digits.map fun n ↦ ⟨n, false⟩) (xs ++ c :: cs)).unquoted homes x =
        (d.reading none (digits.map fun n ↦ ⟨n, false⟩) (xs ++ c :: cs)).beginRedirection x := by
      rcases harrow with rfl | rfl <;> rfl
    rw [hx]
    unfold State.beginRedirection
    simp only [Draft.reading, hoperator c cs hc]
    cases digits with
    | none =>
      simp only [State.spelledSource?, State.finishWord, hdefault, Arrow.pending, Arrow.source]
      rfl
    | some n =>
      have hn := hs n rfl
      simp only [State.spelledSource?, hn.digits, int32?_numeral hn, Option.map_some]
      rfl
  rw [hx, List.cons_append, State.scan_cons rfl]
  exact congrArg (· >>= State.scan homes) hbegin

theorem Token.IsItem.scan {t : Token} (hi : t.IsItem) (ht : t.Valid) (homes : HomeDirs) (d : Draft)
    (cs : List Char) :
    ∃ p w, Settles d p w (d.add [t]) ∧
      (d.reading none none (t.text.toList ++ cs)).scan homes = (d.reading p w cs).scan homes := by
  cases t with
  | word w => exact ⟨none, _, settles_word d ⟨w, false⟩, scan_plainWord homes d none ht cs⟩
  | redirection digits arrow target =>
    obtain ⟨hs, htarget⟩ := ht
    refine ⟨_, _, settles_redirection htarget digits d, ?_⟩
    obtain ⟨c, cs', hc, hplain, -⟩ := htarget.plainWord.exists_cons
    have harrow := scan_arrow homes d arrow hs hplain (cs' ++ cs)
    have htail : (d.reading (some (arrow.pending digits)) none (c :: (cs' ++ cs))).scan homes =
        (d.reading (some (arrow.pending digits)) (some ⟨target, false⟩) cs).scan homes := by
      rw [← List.cons_append, ← hc]
      exact scan_plainWord homes d _ htarget.plainWord cs
    rw [← htail, ← harrow]
    cases digits with
    | none => simp [Token.text, hc]
    | some n =>
      have hn := scan_plainWord homes d none (hs n rfl).plainWord
        (arrow.text.toList ++ c :: (cs' ++ cs))
      simpa [Token.text, hc] using hn
  | connector k => exact absurd hi id

theorem exists_connectorAt? (h : c = '&' ∨ c = '|' ∨ c = ';') (cs : List Char) :
    ∃ k r, State.connectorAt? c cs = some (k, r) := by
  rcases h with rfl | rfl | rfl
  · simp only [State.connectorAt?, if_true]
    split <;> exact ⟨_, _, rfl⟩
  · simp only [State.connectorAt?, Char.reduceEq, if_true, if_false]
    split <;> exact ⟨_, _, rfl⟩
  · exact ⟨.sequential, cs, rfl⟩

theorem connectorAt?_symbol (hk : k ≠ .single) (hand : k = .background → cs.head? ≠ some '&')
    (hor : k = .piped → cs.head? ≠ some '|') :
    ∃ x xs, k.symbol.toList ++ cs = x :: xs ∧ State.connectorAt? x xs = some (k, cs) := by
  cases k with
  | single => exact absurd rfl hk
  | piped =>
    refine ⟨'|', cs, rfl, ?_⟩
    simp only [State.connectorAt?, Char.reduceEq, if_true, if_false]
    split
    · exact absurd rfl (hor rfl)
    · rfl
  | and => exact ⟨'&', '&' :: cs, rfl, rfl⟩
  | or => exact ⟨'|', '|' :: cs, rfl, rfl⟩
  | background =>
    refine ⟨'&', cs, rfl, ?_⟩
    simp only [State.connectorAt?, if_true]
    split
    · exact absurd rfl (hand rfl)
    · rfl
  | sequential => exact ⟨';', cs, rfl, rfl⟩

theorem link_reading (d : Draft) (k : Connector) (cs : List Char) :
    (d.reading none none cs).link k =
      match d.accept (.connector k) with
      | .ok d' => .ok (d'.reading none none cs)
      | .error k => State.unexpected k.symbol := by
  have hpending : (d.reading none none cs).pending.isSome = false := rfl
  have hwords : (d.reading none none cs).words = d.words := rfl
  have hredirections : (d.reading none none cs).redirections = d.redirections := rfl
  have hlast : (d.reading none none cs).lastConnector? = d.lastConnector? := rfl
  simp only [State.link, settles_self d cs, bind, Except.bind, Draft.accept, hpending, hwords,
    hredirections, hlast, List.isEmpty_iff, ne_eq, ite_not, Bool.false_eq_true, if_false]
  split
  · split <;> rfl
  · rename_i hw
    simp only [State.closeCommand, Command.build, hwords, List.isEmpty_iff, hw, if_false]
    rfl

theorem advance_of_scan {s t : State} (h : s.scan homes = t.scan homes) :
    s.advance homes = t.advance homes := by
  simp only [State.advance, h]

theorem advance_end {d₀ d : Draft} (h : Settles d₀ p w d) :
    (d₀.reading p w []).advance homes = (d.reading none none []).endLine := by
  have hend : (d₀.reading p w []).meetEnd = (d₀.reading p w []).endBuffer := rfl
  have hnesting : (d₀.reading p w []).nesting = [] := rfl
  have hquoting : (d₀.reading p w []).quoting = .none := rfl
  rw [State.advance, State.scan_nil rfl]
  refine hend.trans ?_
  simp only [State.endBuffer, hnesting, hquoting, h []]
  rfl

theorem advance_settled {d₀ d : Draft} (h : Settles d₀ p w d) (ha : Apart cs) :
    (d₀.reading p w cs).advance homes = (d.reading none none cs).advance homes := by
  cases cs with
  | nil => rw [advance_end h, advance_end (settles_self d)]
  | cons c cs =>
    refine advance_of_scan ?_
    by_cases hb : isBlank c
    · rw [scan_blank hb, scan_blank hb, h cs, settles_self d cs]
    · obtain ⟨k, r, hk⟩ := exists_connectorAt? (ha.resolve_left hb) cs
      have hlink : (d₀.reading p w r).link k = (d.reading none none r).link k := by
        simp only [State.link, h r, settles_self d r]
      rw [scan_connector hk, scan_connector hk, hlink]

/-- To read a line that spells tokens is to take the tokens one after another. -/
theorem Spells.advance {ts : List Token} (h : Spells ts cs) (homes : HomeDirs) (d : Draft) :
    (d.reading none none cs).advance homes =
      match d.acceptAll ts with
      | .ok d' => (d'.reading none none []).endLine
      | .error k => .finished (State.unexpected k.symbol) := by
  induction h generalizing d with
  | nil => exact advance_end (settles_self d)
  | @blank ts cs b hb _ ih =>
    rw [← ih d]
    refine advance_of_scan ?_
    rw [scan_blank hb, settles_self d cs]
    rfl
  | @item t ts cs ht hi ha _ ih =>
    obtain ⟨p, w, hsettles, hscan⟩ := hi.scan ht homes d cs
    rw [advance_of_scan hscan, advance_settled hsettles ha, ih,
      Draft.acceptAll_cons_ok (d.accept_item hi)]
  | @connector k ts cs hk hand hor _ ih =>
    obtain ⟨x, xs, hx, hat⟩ := connectorAt?_symbol hk hand hor
    rw [hx, State.advance, scan_connector hat, link_reading]
    cases haccept : d.accept (.connector k) with
    | error k =>
      rw [Draft.acceptAll_cons_error haccept]
      rfl
    | ok d' =>
      rw [Draft.acceptAll_cons_ok haccept]
      exact ih d'

end JobShell.Parser

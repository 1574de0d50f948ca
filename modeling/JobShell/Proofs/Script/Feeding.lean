import JobShell.Proofs.Script.Segments
import JobShell.Proofs.Sys.Calls

namespace JobShell

open Sys (Runs)

def Event.given : Event → List UInt8
  | ⟨.read _ _, .ok bytes⟩ => bytes.toList
  | _ => []

def given (t : List Event) : List UInt8 := t.flatMap Event.given

theorem given_append (t u : List Event) : given (t ++ u) = given t ++ given u := List.flatMap_append

/-- Reads of a descriptor that has these bytes to give, and those that it has left. A read gives no more bytes than are
asked for, and none at all only when none are asked for or left. A read that fails takes nothing. -/
inductive Feeds (fd : Int) : List UInt8 → List Event → List UInt8 → Prop
  | nil (input : List UInt8) : Feeds fd input [] input
  | read {count : Nat} {bytes input rest : List UInt8} {t : List Event} :
      bytes.length ≤ count → (bytes = [] → count = 0 ∨ input = []) → Feeds fd input t rest →
      Feeds fd (bytes ++ input) (⟨.read fd count, .ok ⟨bytes.toArray⟩⟩ :: t) rest
  | failed {count : Nat} {e : Errno} {input rest : List UInt8} {t : List Event} :
      Feeds fd input t rest → Feeds fd input (⟨.read fd count, .error e⟩ :: t) rest

variable {fd : Int} {input rest : List UInt8} {t u : List Event}

theorem Feeds.input_eq (h : Feeds fd input t rest) : input = given t ++ rest := by
  induction h with
  | nil => rfl
  | @read count bytes input rest t _ _ _ ih =>
    have hgiven : given (⟨.read fd count, .ok ⟨bytes.toArray⟩⟩ :: t) = bytes ++ given t :=
      congrArg (· ++ given t) (Script.toList_mk bytes)
    rw [hgiven, ih, List.append_assoc]
  | failed _ ih => exact ih

theorem Feeds.append {middle : List UInt8} (h : Feeds fd input t middle) (h' : Feeds fd middle u rest) :
    Feeds fd input (t ++ u) rest := by
  induction h with
  | nil => exact h'
  | read hlength hempty _ ih => exact .read hlength hempty (ih h')
  | failed _ ih => exact .failed (ih h')

theorem Feeds.size_le {count : Nat} {bytes : ByteArray} (h : Feeds fd input t rest)
    (ht : ⟨.read fd count, .ok bytes⟩ ∈ t) : bytes.size ≤ count := by
  induction h with
  | nil => cases ht
  | read hlength _ _ ih =>
    rcases List.mem_cons.1 ht with heq | ht
    · cases heq
      exact hlength
    · exact ih ht
  | failed _ ih => exact ih (List.mem_of_ne_of_mem (by simp) ht)

theorem Feeds.ended {count : Nat} {bytes : ByteArray} (h : Feeds fd input t rest) (hcount : 0 < count)
    (hbytes : bytes.size = 0) (ht : ⟨.read fd count, .ok bytes⟩ ∈ t) : rest = [] := by
  induction h with
  | nil => cases ht
  | read _ hempty hlater ih =>
    rcases List.mem_cons.1 ht with heq | ht
    · cases heq
      have hinput := (hempty (List.eq_nil_of_length_eq_zero hbytes)).resolve_left hcount.ne'
      exact (List.append_eq_nil_iff.1 (hlater.input_eq.symm.trans hinput)).2
    · exact ih ht
  | failed _ ih => exact ih (List.mem_of_ne_of_mem (by simp) ht)

theorem feeds_take (fd : Int) (count : Nat) (input : List UInt8) :
    Feeds fd input [⟨.read fd count, .ok ⟨(input.take count).toArray⟩⟩] (input.drop count) := by
  have hread : Feeds fd (input.take count ++ input.drop count)
      [⟨.read fd count, .ok ⟨(input.take count).toArray⟩⟩] (input.drop count) := by
    refine .read (List.length_take_le count input) (fun hnone ↦ ?_) (.nil _)
    exact (List.take_eq_nil_iff.1 hnone).imp_right fun hinput ↦ by rw [hinput, List.drop_nil]
  rwa [List.take_append_drop] at hread

namespace Script

theorem endsLine_cutLine_iff {ahead : List UInt8} : Source.endsLine (cutLine ahead).1 = true ↔ newline ∈ ahead := by
  rw [← getLast?_cutLine_iff, Source.endsLine, beq_iff_eq]

/-- A read that is made again as long as it is interrupted, with the reply that it has in the end. -/
def Replied (fd : Int) (count : Nat) (t : List Event) (x : Except Errno ByteArray) : Prop :=
  x ≠ .error .interrupted ∧
    ∃ k, t = List.replicate k ⟨.read fd count, .error .interrupted⟩ ++ [⟨.read fd count, x⟩]

variable {capacity : Nat} {x : Except Errno ByteArray}

theorem replied_of_runs (h : Runs (Sys.read fd capacity) t x) : Replied fd capacity t x := by
  unfold Sys.read at h
  generalize Sys.patience = n at h
  induction n generalizing t with
  | zero => exact absurd h Sys.not_runs_hang
  | succ n ih =>
    obtain ⟨answer, u, rfl, hnext⟩ := Sys.runs_ask_bind.1 h
    cases answer with
    | ok bytes =>
      obtain ⟨rfl, rfl⟩ := Sys.runs_pure.1 hnext
      exact ⟨by simp, 0, rfl⟩
    | error e =>
      simp only at hnext
      split at hnext
      · next he =>
        obtain ⟨hx, k, rfl⟩ := ih hnext
        exact ⟨hx, k + 1, by rw [he]; rfl⟩
      · next he =>
        obtain ⟨rfl, rfl⟩ := Sys.runs_pure.1 hnext
        exact ⟨by simpa using he, 0, rfl⟩

theorem runs_readLoop (hx : x ≠ .error .interrupted) {k n : Nat} (hk : k < n) :
    Runs (Sys.readLoop fd capacity n)
      (List.replicate k ⟨.read fd capacity, .error .interrupted⟩ ++ [⟨.read fd capacity, x⟩]) x := by
  induction n generalizing k with
  | zero => cases hk
  | succ n ih =>
    rw [Sys.readLoop]
    cases k with
    | zero =>
      refine Sys.runs_ask_bind.2 ⟨x, [], rfl, ?_⟩
      cases x with
      | ok bytes => exact .done _
      | error e =>
        have he : e ≠ .interrupted := fun he ↦ hx (congrArg _ he)
        simp only [if_neg he]
        exact .done _
    | succ k => exact Sys.runs_ask_bind.2 ⟨.error .interrupted, _, rfl, ih (Nat.lt_of_succ_lt_succ hk)⟩

theorem runs_read (bytes : ByteArray) : Runs (Sys.read fd capacity) [⟨.read fd capacity, .ok bytes⟩] (.ok bytes) :=
  runs_readLoop (by simp) (by decide : 0 < Sys.patience)

theorem Replied.mem (h : Replied fd capacity t x) : ⟨.read fd capacity, x⟩ ∈ t := by
  obtain ⟨-, k, rfl⟩ := h
  exact List.mem_append_right _ (List.mem_singleton_self _)

theorem Replied.given_eq (h : Replied fd capacity t x) : given t = Event.given ⟨.read fd capacity, x⟩ := by
  obtain ⟨-, k, rfl⟩ := h
  have hnone : given (List.replicate k ⟨.read fd capacity, .error .interrupted⟩) = [] :=
    List.flatMap_eq_nil_iff.2 fun e he ↦ by rw [List.eq_of_mem_replicate he]; rfl
  rw [given_append, hnone, given, List.flatMap_singleton, List.nil_append]

/-- How the bytes of a line come together, after those that it has and those that are ahead: up to a newline ahead,
or by reads up to one that fails or that finds the end. -/
inductive Gathers (fd : Int) (capacity : Nat) :
    List UInt8 → List UInt8 → List Event → Except Errno (List UInt8) → List UInt8 → Prop
  | line {piece ahead : List UInt8} : newline ∈ ahead →
      Gathers fd capacity piece ahead [] (.ok (piece ++ (cutLine ahead).1)) (cutLine ahead).2
  | failed {piece ahead : List UInt8} {t : List Event} {e : Errno} : newline ∉ ahead →
      Replied fd capacity t (.error e) → Gathers fd capacity piece ahead t (.error e) []
  | atEnd {piece ahead : List UInt8} {t : List Event} {bytes : ByteArray} : newline ∉ ahead →
      Replied fd capacity t (.ok bytes) → bytes.size = 0 →
      Gathers fd capacity piece ahead t (.ok (piece ++ ahead)) []
  | more {piece ahead left : List UInt8} {t u : List Event} {bytes : ByteArray}
      {r : Except Errno (List UInt8)} : newline ∉ ahead → Replied fd capacity t (.ok bytes) →
      Gathers fd capacity (piece ++ ahead) bytes.toList u r left →
      Gathers fd capacity piece ahead (t ++ u) r left

variable {piece ahead left : List UInt8} {r : Except Errno (List UInt8)}

theorem gathers_of_runs {n : Nat} (h : Runs (Source.readPiece (fd, capacity) n piece ahead) t (r, left)) :
    Gathers fd capacity piece ahead t r left := by
  induction n generalizing piece ahead t with
  | zero => exact absurd h Sys.not_runs_hang
  | succ n ih =>
    rw [Source.readPiece] at h
    simp only at h
    split at h
    · next hends =>
      obtain ⟨rfl, ⟨⟩⟩ := Sys.runs_pure.1 h
      exact .line (endsLine_cutLine_iff.1 hends)
    · next hends =>
      have hahead : newline ∉ ahead := mt endsLine_cutLine_iff.2 hends
      rw [cutLine_of_not_mem hahead] at h
      obtain ⟨t, u, x, rfl, hread, hnext⟩ := Sys.runs_bind.1 h
      have hreplied := replied_of_runs hread
      cases x with
      | error e =>
        obtain ⟨rfl, ⟨⟩⟩ := Sys.runs_pure.1 hnext
        rw [List.append_nil]
        exact .failed hahead hreplied
      | ok bytes =>
        simp only at hnext
        split at hnext
        · next hempty =>
          obtain ⟨rfl, ⟨⟩⟩ := Sys.runs_pure.1 hnext
          rw [List.append_nil]
          exact .atEnd hahead hreplied (by simpa [ByteArray.isEmpty] using hempty)
        · exact .more hahead hreplied (ih hnext)

def Fails (fd : Int) (capacity : Nat) (ahead : List UInt8) (t : List Event) (e : Errno) : Prop :=
  e ≠ .interrupted ∧ ⟨.read fd capacity, .error e⟩ ∈ t ∧ newline ∉ ahead ++ given t

/-- The first line of what was ahead and what reads gave, which ends with a newline unless a read found the end. -/
structure Brings (fd : Int) (capacity : Nat) (ahead : List UInt8) (t : List Event) (line left : List UInt8) :
    Prop where
  first : FirstLine (ahead ++ given t) line left
  ended : line.getLast? = some newline ∨ ∃ bytes, bytes.size = 0 ∧ ⟨.read fd capacity, .ok bytes⟩ ∈ t

theorem Brings.extend {line : List UInt8} (h : Brings fd capacity ahead t line left)
    (hrest : ∀ bytes, bytes.size = 0 → ⟨.read fd capacity, .ok bytes⟩ ∈ t → rest = []) :
    FirstLine (ahead ++ (given t ++ rest)) line (left ++ rest) := by
  rw [← List.append_assoc]
  refine h.first.extend fun hne ↦ ?_
  obtain hlast | ⟨bytes, hsize, hmem⟩ := h.ended
  · exact hlast
  · exact absurd (hrest bytes hsize hmem) hne

theorem Gathers.brings (h : Gathers fd capacity piece ahead t r left) :
    (∃ e, r = .error e ∧ left = [] ∧ Fails fd capacity ahead t e) ∨
      ∃ line, r = .ok (piece ++ line) ∧ Brings fd capacity ahead t line left := by
  induction h with
  | @line piece ahead hmem =>
    have hfirst : FirstLine (ahead ++ []) (cutLine ahead).1 (cutLine ahead).2 := by
      rw [List.append_nil]
      exact firstLine_cutLine ahead
    exact .inr ⟨_, rfl, hfirst, .inl (getLast?_cutLine_iff.2 hmem)⟩
  | @failed piece ahead t e hahead hreplied =>
    have hgiven : given t = [] := hreplied.given_eq
    refine .inl ⟨e, rfl, rfl, fun he ↦ hreplied.1 (congrArg _ he), hreplied.mem, ?_⟩
    rw [hgiven, List.append_nil]
    exact hahead
  | @atEnd piece ahead t bytes hahead hreplied hsize =>
    have hgiven : given t = [] := by
      have hdata : bytes.data.toList = [] := List.eq_nil_of_length_eq_zero hsize
      have hbytes : given t = bytes.toList := hreplied.given_eq
      rw [hbytes, toList_eq_data, hdata]
    refine .inr ⟨ahead, rfl, ?_, .inr ⟨bytes, hsize, hreplied.mem⟩⟩
    rw [hgiven]
    have hfirst := firstLine_nil.prepend hahead
    rwa [List.append_nil] at hfirst ⊢
  | @more piece ahead left t u bytes r hahead hreplied _ ih =>
    have hgiven : given t = bytes.toList := hreplied.given_eq
    obtain ⟨e, hr, hleft, he, hmem, hnone⟩ | ⟨line, hr, hfirst, hended⟩ := ih
    · refine .inl ⟨e, hr, hleft, he, List.mem_append_right t hmem, ?_⟩
      rw [given_append, hgiven]
      exact fun h ↦ (List.mem_append.1 h).elim hahead hnone
    · refine .inr ⟨ahead ++ line, by rw [hr, List.append_assoc], ?_, ?_⟩
      · rw [given_append, hgiven]
        exact hfirst.prepend hahead
      · obtain hlast | ⟨none, hsize, hmem⟩ := hended
        · exact .inl (by rw [List.getLast?_append, hlast, Option.some_or])
        · exact .inr ⟨none, hsize, List.mem_append_right t hmem⟩

theorem Gathers.length_lt (h : Gathers fd capacity piece ahead t r left) (hcapacity : 0 < capacity)
    (hahead : ahead.length ≤ capacity)
    (ht : ∀ bytes, ⟨.read fd capacity, .ok bytes⟩ ∈ t → bytes.size ≤ capacity) : left.length < capacity := by
  induction h with
  | line hmem => exact (length_cutLine (List.ne_nil_of_mem hmem)).trans_le hahead
  | failed => exact hcapacity
  | atEnd => exact hcapacity
  | @more piece ahead left t u bytes r _ hreplied _ ih =>
    refine ih ?_ fun bytes hmem ↦ ht bytes (List.mem_append_right t hmem)
    rw [toList_eq_data]
    exact ht bytes (List.mem_append_left u hreplied.mem)

namespace Source

/-- The script that is still to come when the descriptor of the source has these bytes to give. -/
def script (s : Source) (input : List UInt8) : Lines := ⟨s.ahead ++ input, s.number⟩

variable {s s' : Source} {result : Option (Except StreamFault String)}

def conclude : Except Errno (List UInt8) × Source → Option (Except StreamFault String) × Source
  | (.error e, s) => (some (.error (.system e)), s)
  | (.ok line, s) =>
    if line = [] then (none, s)
    else (some (lineOf line), { s with number := s.number + if (lineOf line).isOk then 1 else 0 })

theorem next_eq (s : Source) : s.next = conclude <$> s.nextPiece := by
  rw [← bind_pure_comp]
  refine congrArg (s.nextPiece >>= ·) (funext ?_)
  rintro ⟨r, s⟩
  cases r with
  | error e => rfl
  | ok line =>
    simp only [conclude, List.isEmpty_iff]
    split
    · rfl
    · cases lineOf line <;> rfl

theorem runs_next_iff : Runs s.next t (result, s') ↔ ∃ p, Runs s.nextPiece t p ∧ (result, s') = conclude p := by
  rw [next_eq]
  exact Sys.runs_map

theorem conclude_feed (p : Except Errno (List UInt8) × Source) :
    (conclude p).2.feed = p.2.feed ∧ (conclude p).2.ahead = p.2.ahead := by
  unfold conclude
  split
  · exact ⟨rfl, rfl⟩
  · split <;> exact ⟨rfl, rfl⟩

theorem next_of_conclude {bytes line left : List UInt8} (hline : FirstLine bytes line left)
    (h : (result, s') = conclude (.ok line, s)) :
    Lines.next ⟨bytes, s.number⟩ = (result, ⟨left, s'.number⟩) := by
  rw [Lines.next_of_firstLine (l := ⟨bytes, s.number⟩) hline]
  rw [conclude] at h
  split at h
  · next hnil =>
    obtain ⟨rfl, rfl⟩ := Prod.mk.inj h
    rw [if_pos hnil, hline.joined, hnil, List.nil_append]
  · next hne =>
    obtain ⟨rfl, rfl⟩ := Prod.mk.inj h
    rw [if_neg hne]

theorem nextPiece_of_text (hfeed : s.feed = none) :
    s.nextPiece = pure (.ok (cutLine s.ahead).1, { s with ahead := (cutLine s.ahead).2 }) := by
  rw [nextPiece, hfeed]

theorem next_of_text (hfeed : s.feed = none) (h : Runs s.next t (result, s')) :
    t = [] ∧ s'.feed = none ∧ (s.script []).next = (result, s'.script []) := by
  obtain ⟨p, hpiece, hresult⟩ := runs_next_iff.1 h
  rw [nextPiece_of_text hfeed] at hpiece
  obtain ⟨rfl, rfl⟩ := Sys.runs_pure.1 hpiece
  have hkept := conclude_feed (.ok (cutLine s.ahead).1, { s with ahead := (cutLine s.ahead).2 })
  rw [← hresult] at hkept
  refine ⟨rfl, hkept.1.trans hfeed, ?_⟩
  rw [script, script, List.append_nil, List.append_nil, hkept.2]
  have hnext := next_of_conclude (firstLine_cutLine s.ahead) hresult
  exact hnext

theorem nextPiece_eq {feed : Int × Nat} (hfeed : s.feed = some feed) :
    s.nextPiece = (fun p ↦ (p.1, { s with ahead := p.2 })) <$> readPiece feed Sys.patience [] s.ahead := by
  cases s
  subst hfeed
  rfl

theorem gathers_of_next (hfeed : s.feed = some (fd, capacity)) (h : Runs s.next t (result, s')) :
    ∃ r, Gathers fd capacity [] s.ahead t r s'.ahead ∧ s'.feed = s.feed ∧
      (result, s') = conclude (r, { s with ahead := s'.ahead }) := by
  obtain ⟨p, hpiece, hresult⟩ := runs_next_iff.1 h
  rw [nextPiece_eq hfeed] at hpiece
  obtain ⟨⟨r, left⟩, hread, rfl⟩ := Sys.runs_map.1 hpiece
  have hkept := conclude_feed (r, { s with ahead := left })
  rw [← hresult] at hkept
  obtain ⟨hkept, rfl⟩ : s'.feed = s.feed ∧ s'.ahead = left := hkept
  exact ⟨r, gathers_of_runs hread, hkept, hresult⟩

/-- Whatever reads give, a call for the next line fails of one of them, before a newline has come, or it does what the
script does. -/
theorem next_of_feed (hfeed : s.feed = some (fd, capacity)) (h : Runs s.next t (result, s'))
    (hrest : ∀ bytes, bytes.size = 0 → ⟨.read fd capacity, .ok bytes⟩ ∈ t → rest = []) :
    (∃ e, result = some (.error (.system e)) ∧ s'.ahead = [] ∧ Fails fd capacity s.ahead t e) ∨
      (s.script (given t ++ rest)).next = (result, s'.script rest) := by
  obtain ⟨r, hgathers, -, hresult⟩ := gathers_of_next hfeed h
  obtain ⟨e, rfl, hahead, hfails⟩ | ⟨line, rfl, hbrings⟩ := hgathers.brings
  · exact .inl ⟨e, (Prod.mk.inj hresult).1, hahead, hfails⟩
  · have hnext := next_of_conclude (hbrings.extend hrest) hresult
    exact .inr hnext

theorem ahead_eq_nil (hfeed : s.feed = some (fd, 1)) (h : Runs s.next t (result, s')) (hahead : s.ahead = [])
    (ht : ∀ bytes, ⟨.read fd 1, .ok bytes⟩ ∈ t → bytes.size ≤ 1) : s'.ahead = [] := by
  obtain ⟨r, hgathers, -⟩ := gathers_of_next hfeed h
  have hlength : s'.ahead.length < 1 := hgathers.length_lt Nat.one_pos (by rw [hahead]; exact Nat.zero_le 1) ht
  exact List.eq_nil_of_length_eq_zero (Nat.lt_one_iff.1 hlength)

theorem not_endsLine (hahead : newline ∉ ahead) : ¬ endsLine ahead = true := by
  have hends := mt endsLine_cutLine_iff.1 hahead
  rwa [cutLine_of_not_mem hahead] at hends

theorem runs_readPiece_atEnd {n : Nat} {bytes : ByteArray} (hahead : newline ∉ ahead)
    (hread : Runs (Sys.read fd capacity) t (.ok bytes)) (hsize : bytes.size = 0) :
    Runs (readPiece (fd, capacity) (n + 1) piece ahead) t (.ok (piece ++ ahead), []) := by
  rw [readPiece, cutLine_of_not_mem hahead]
  simp only [if_neg (not_endsLine hahead)]
  refine Sys.runs_bind.2 ⟨t, [], .ok bytes, (List.append_nil t).symm, hread, ?_⟩
  simp [ByteArray.isEmpty, hsize]

theorem runs_readPiece_more {n : Nat} {bytes : List UInt8} (hahead : newline ∉ ahead)
    (hread : Runs (Sys.read fd capacity) t (.ok ⟨bytes.toArray⟩)) (hbytes : bytes ≠ [])
    (hmore : Runs (readPiece (fd, capacity) n (piece ++ ahead) bytes) u (r, left)) :
    Runs (readPiece (fd, capacity) (n + 1) piece ahead) (t ++ u) (r, left) := by
  rw [readPiece, cutLine_of_not_mem hahead]
  simp only [if_neg (not_endsLine hahead)]
  refine hread.bind ?_
  simpa [ByteArray.isEmpty, ByteArray.size, hbytes] using hmore

theorem runs_readPiece_line {feed : Int × Nat} {n : Nat} (hmem : newline ∈ ahead) :
    Runs (readPiece feed (n + 1) piece ahead) [] (.ok (piece ++ (cutLine ahead).1), (cutLine ahead).2) := by
  rw [readPiece]
  simp only [if_pos (endsLine_cutLine_iff.2 hmem)]
  exact .done _

theorem exists_runs_readPiece (fd : Int) (hcapacity : 0 < capacity) {n : Nat} (hn : 0 < n)
    (ahead piece : List UInt8) (hline : newline ∉ ahead → (cutLine input).1.length < n) :
    ∃ t line left rest, Runs (readPiece (fd, capacity) n piece ahead) t (.ok line, left) ∧ Feeds fd input t rest := by
  induction n generalizing piece ahead input with
  | zero => cases hn
  | succ n ih =>
    by_cases hahead : newline ∈ ahead
    · exact ⟨[], _, _, input, runs_readPiece_line hahead, .nil input⟩
    · have hshort := hline hahead
      have hfeeds := feeds_take fd capacity input
      have hread : Runs (Sys.read fd capacity) [⟨.read fd capacity, .ok ⟨(input.take capacity).toArray⟩⟩]
        (.ok ⟨(input.take capacity).toArray⟩) := runs_read _
      by_cases hinput : input = []
      · have hsize : (ByteArray.mk (input.take capacity).toArray).size = 0 := by
          rw [hinput, List.take_nil]
          rfl
        exact ⟨_, _, _, _, runs_readPiece_atEnd hahead hread hsize, hfeeds⟩
      · have hsplit := List.take_append_drop capacity input
        have htake : input.take capacity ≠ [] := by
          rw [Ne, List.take_eq_nil_iff]
          exact fun h ↦ h.elim hcapacity.ne' hinput
        have hlater (hnone : newline ∉ input.take capacity) : (cutLine (input.drop capacity)).1.length < n := by
          have := List.length_pos_iff.2 htake
          rw [← hsplit, cutLine_append hnone, List.length_append] at hshort
          omega
        have hmore : 0 < n := by
          have := List.length_pos_iff.2 (cutLine_ne_nil hinput)
          omega
        obtain ⟨t, line, left, rest, hruns, hrest⟩ := ih hmore _ (piece ++ ahead) hlater
        exact ⟨_, line, left, rest, runs_readPiece_more hahead hread htake hruns, hfeeds.append hrest⟩

theorem runs_next_of_piece {feed : Int × Nat} (hfeed : s.feed = some feed)
    (h : Runs (readPiece feed Sys.patience [] s.ahead) t (r, left)) :
    Runs s.next t (conclude (r, { s with ahead := left })) := by
  rw [next_eq, nextPiece_eq hfeed]
  exact Sys.runs_map.2 ⟨_, Sys.runs_map.2 ⟨_, h, rfl⟩, rfl⟩

theorem conclude_ne_system (line : List UInt8) (s : Source) (e : Errno) :
    (conclude (.ok line, s)).1 ≠ some (.error (.system e)) := by
  rw [conclude]
  split
  · simp
  · exact fun h ↦ lineOf_ne_system line e (Option.some.inj h)

theorem exists_runs_next (hfeed : s.feed = some (fd, capacity)) (hcapacity : 0 < capacity)
    (hline : (cutLine input).1.length < Sys.patience) :
    ∃ t result s' rest, Runs s.next t (result, s') ∧ Feeds fd input t rest ∧
      ∀ e, result ≠ some (.error (.system e)) := by
  have hpatience : 0 < Sys.patience := Nat.zero_lt_of_lt hline
  obtain ⟨t, line, left, rest, hruns, hfeeds⟩ :=
    exists_runs_readPiece fd hcapacity hpatience s.ahead [] fun _ ↦ hline
  exact ⟨t, _, _, rest, runs_next_of_piece hfeed hruns, hfeeds, conclude_ne_system line _⟩

end Source

end Script

end JobShell

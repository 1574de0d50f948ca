import Mathlib.Data.List.Infix
import JobShell.Script.Source

namespace JobShell.Script

variable {bytes line rest : List UInt8} {segments : List (List UInt8)}

/-- `line` is the first line of some bytes, with its newline if it has one, and `rest` is what stands behind it. -/
structure FirstLine (bytes line rest : List UInt8) : Prop where
  joined : bytes = line ++ rest
  inner : newline ∉ line.dropLast
  ended : rest ≠ [] → line.getLast? = some newline

theorem firstLine_nil : FirstLine [] [] [] := ⟨rfl, List.not_mem_nil, fun h ↦ absurd rfl h⟩

theorem firstLine_newline (rest : List UInt8) : FirstLine (newline :: rest) [newline] rest :=
  ⟨rfl, List.not_mem_nil, fun _ ↦ rfl⟩

theorem FirstLine.prepend (h : FirstLine bytes line rest) {front : List UInt8} (hfront : newline ∉ front) :
    FirstLine (front ++ bytes) (front ++ line) rest where
  joined := by rw [h.joined, List.append_assoc]
  inner := by
    by_cases hline : line = []
    · rw [hline, List.append_nil]
      exact fun hmem ↦ hfront (List.mem_of_mem_dropLast hmem)
    · rw [List.dropLast_append_of_ne_nil hline]
      exact fun hmem ↦ (List.mem_append.1 hmem).elim hfront h.inner
  ended hrest := by
    have hlast := h.ended hrest
    rw [List.getLast?_append, hlast, Option.some_or]

theorem FirstLine.extend (h : FirstLine bytes line rest) {more : List UInt8}
    (hmore : more ≠ [] → line.getLast? = some newline) : FirstLine (bytes ++ more) line (rest ++ more) where
  joined := by rw [h.joined, List.append_assoc]
  inner := h.inner
  ended hne := by
    by_cases hrest : rest = []
    · exact hmore fun hnil ↦ hne (by rw [hrest, hnil, List.append_nil])
    · exact h.ended hrest

theorem firstLine_cutLine (bytes : List UInt8) : FirstLine bytes (cutLine bytes).1 (cutLine bytes).2 := by
  induction bytes with
  | nil => exact firstLine_nil
  | cons b bytes ih =>
    rw [cutLine]
    split
    · next hb => exact hb ▸ firstLine_newline bytes
    · next hb =>
      have hfront : newline ∉ [b] := by simpa using Ne.symm hb
      exact ih.prepend hfront

theorem cutLine_append {front : List UInt8} (hfront : newline ∉ front) (bytes : List UInt8) :
    cutLine (front ++ bytes) = (front ++ (cutLine bytes).1, (cutLine bytes).2) := by
  induction front with
  | nil => rfl
  | cons b front ih =>
    obtain ⟨hb, hfront⟩ := List.ne_and_not_mem_of_not_mem_cons hfront
    rw [List.cons_append, cutLine, if_neg hb.symm, ih hfront]
    rfl

theorem cutLine_of_not_mem (h : newline ∉ bytes) : cutLine bytes = (bytes, []) := by
  have hcut := cutLine_append h []
  rwa [cutLine, List.append_nil] at hcut

theorem getLast?_cutLine_iff : (cutLine bytes).1.getLast? = some newline ↔ newline ∈ bytes := by
  induction bytes with
  | nil => simp [cutLine]
  | cons b bytes ih =>
    rw [cutLine]
    split
    · next hb => simp [hb]
    · next hb =>
      rw [List.mem_cons, or_iff_right (Ne.symm hb), ← ih, List.getLast?_cons]
      cases (cutLine bytes).1.getLast? <;> simp [hb]

theorem FirstLine.cutLine_eq (h : FirstLine bytes line rest) : cutLine bytes = (line, rest) := by
  obtain ⟨rfl, hinner, hended⟩ := h
  rcases List.eq_nil_or_concat' line with rfl | ⟨front, b, rfl⟩
  · have hrest : rest = [] := by
      by_contra hne
      cases hended hne
    rw [hrest]
    rfl
  · rw [List.dropLast_concat] at hinner
    by_cases hb : b = newline
    · have hline : cutLine (b :: rest) = ([b], rest) := if_pos hb
      rw [List.append_assoc, List.singleton_append, cutLine_append hinner, hline]
    · have hrest : rest = [] := by
        by_contra hne
        have hlast := hended hne
        rw [List.getLast?_concat] at hlast
        exact hb (Option.some.inj hlast)
      have hnone : newline ∉ front ++ [b] := by
        simpa using ⟨hinner, Ne.symm hb⟩
      rw [hrest, List.append_nil, cutLine_of_not_mem hnone]

theorem FirstLine.eq_nil_iff (h : FirstLine bytes line rest) : line = [] ↔ bytes = [] := by
  constructor
  · rintro rfl
    by_contra hne
    cases h.ended fun hrest ↦ hne (by rw [h.joined, hrest, List.append_nil])
  · rintro rfl
    exact (List.append_eq_nil_iff.1 h.joined.symm).1

/-- Bytes cut after each newline: none is lost, no segment is empty, and each ends at its first newline, but for the
last, which may have none. -/
structure Cuts (bytes : List UInt8) (segments : List (List UInt8)) : Prop where
  joined : segments.flatten = bytes
  ne_nil : ∀ s ∈ segments, s ≠ []
  inner : ∀ s ∈ segments, newline ∉ s.dropLast
  ended : ∀ s ∈ segments.dropLast, s.getLast? = some newline

theorem Cuts.eq_nil_iff (h : Cuts bytes segments) : bytes = [] ↔ segments = [] := by
  rw [← h.joined, List.flatten_eq_nil_iff]
  exact ⟨fun hnil ↦ List.eq_nil_iff_forall_not_mem.2 fun s hs ↦ h.ne_nil s hs (hnil s hs), fun hnil ↦ by simp [hnil]⟩

theorem cuts_cons_iff {s : List UInt8} : Cuts bytes (s :: segments) ↔
    s ≠ [] ∧ FirstLine bytes s segments.flatten ∧ Cuts segments.flatten segments := by
  constructor
  · rintro ⟨hjoined, hne, hinner, hended⟩
    obtain ⟨hs, hnes⟩ := List.forall_mem_cons.1 hne
    obtain ⟨hsinner, hinners⟩ := List.forall_mem_cons.1 hinner
    have hdropLast (hne : segments ≠ []) : (s :: segments).dropLast = s :: segments.dropLast :=
      List.dropLast_cons_of_ne_nil hne
    refine ⟨hs, ⟨hjoined.symm, hsinner, fun hrest ↦ ?_⟩, rfl, hnes, hinners, fun x hx ↦ ?_⟩
    · have hne : segments ≠ [] := by
        rintro rfl
        exact hrest rfl
      exact hended s (hdropLast hne ▸ List.mem_cons_self)
    · have hne : segments ≠ [] := by
        rintro rfl
        cases hx
      exact hended x (hdropLast hne ▸ List.mem_cons_of_mem s hx)
  · rintro ⟨hs, hfirst, hcuts⟩
    refine ⟨hfirst.joined.symm, List.forall_mem_cons.2 ⟨hs, hcuts.ne_nil⟩,
      List.forall_mem_cons.2 ⟨hfirst.inner, hcuts.inner⟩, fun x hx ↦ ?_⟩
    by_cases hne : segments = []
    · subst hne
      cases hx
    · rw [List.dropLast_cons_of_ne_nil hne] at hx
      rcases List.mem_cons.1 hx with rfl | hx
      · exact hfirst.ended fun hnil ↦ hne (hcuts.eq_nil_iff.1 hnil)
      · exact hcuts.ended x hx

theorem Cuts.drop (h : Cuts bytes segments) (n : Nat) : Cuts (segments.drop n).flatten (segments.drop n) := by
  induction n generalizing bytes segments with
  | zero => exact h.joined.symm ▸ h
  | succ n ih =>
    cases segments with
    | nil => exact h.joined.symm ▸ h
    | cons s segments => exact ih (cuts_cons_iff.1 h).2.2

theorem cuts_pieces (bytes : List UInt8) : Cuts bytes (pieces bytes) := by
  fun_induction pieces bytes with
  | case1 => exact ⟨rfl, by simp, by simp, by simp⟩
  | case2 bytes hne _ ih =>
    refine cuts_cons_iff.2 ⟨cutLine_ne_nil hne, ?_, ?_⟩
    · rw [ih.joined]
      exact firstLine_cutLine bytes
    · rw [ih.joined]
      exact ih

/-- The line that a segment holds: its text without a newline at its end and without a carriage return before that.
A segment that is no text holds none. -/
inductive Holds : List UInt8 → Except StreamFault String → Prop
  | newline {text : String} : text.toList.getLast? ≠ some '\r' → Holds (text ++ "\n").toUTF8.toList (.ok text)
  | returned {text : String} : Holds (text ++ "\r\n").toUTF8.toList (.ok text)
  | unended {text : String} : text.toList.getLast? ≠ some '\n' → Holds text.toUTF8.toList (.ok text)
  | invalid {segment : List UInt8} : (∀ text : String, text.toUTF8.toList ≠ segment) →
      Holds segment (.error .invalidText)

theorem toList_loop (b : ByteArray) (i : Nat) (r : List UInt8) :
    ByteArray.toList.loop b i r = r.reverse ++ b.data.toList.drop i := by
  fun_induction ByteArray.toList.loop b i r with
  | case1 i r hi ih =>
    have hdrop : b.data.toList.drop i = b.get! i :: b.data.toList.drop (i + 1) := by
      have hget : b.get! i = b.data[i] := getElem!_pos b.data i hi
      rw [hget, ← Array.getElem_toList, List.drop_eq_getElem_cons]
    rw [ih, hdrop, List.reverse_cons, List.append_assoc, List.singleton_append]
  | case2 i r hi =>
    have hlength : b.data.toList.length ≤ i := Nat.not_lt.1 hi
    rw [List.drop_of_length_le hlength, List.append_nil]

theorem toList_eq_data (b : ByteArray) : b.toList = b.data.toList := by
  rw [ByteArray.toList, toList_loop, List.reverse_nil, List.nil_append, List.drop_zero]

@[simp] theorem toList_mk (bytes : List UInt8) : (ByteArray.mk bytes.toArray).toList = bytes := toList_eq_data _

theorem decode?_eq_some_iff {b : ByteArray} {text : String} : Text.decode? b = some text ↔ text.toUTF8 = b := by
  rw [Text.decode?, String.fromUTF8?]
  constructor
  · intro h
    split at h
    · cases h
      rfl
    · cases h
  · rintro rfl
    rw [String.toUTF8_eq_toByteArray, dif_pos text.isValidUTF8]
    rfl

theorem holds_chomp (text : String) : Holds text.toUTF8.toList (.ok (String.ofList (chomp text.toList))) := by
  have hsplit {r e : List Char} (h : text.toList.reverse = e.reverse ++ r) :
      text = String.ofList r.reverse ++ String.ofList e := by
    have hlist : text.toList = r.reverse ++ e := by
      rw [← List.reverse_reverse text.toList, h, List.reverse_append, List.reverse_reverse]
    rw [← String.ofList_append, ← hlist, String.ofList_toList]
  unfold chomp
  split
  · next r h =>
    have hholds : Holds (String.ofList r.reverse ++ "\r\n").toUTF8.toList (.ok (String.ofList r.reverse)) :=
      .returned
    rw [hsplit (e := ['\r', '\n']) h]
    exact hholds
  · next r hr h =>
    have hlast : (String.ofList r.reverse).toList.getLast? ≠ some '\r' := by
      rw [String.toList_ofList, List.getLast?_reverse]
      intro hhead
      obtain ⟨r', rfl⟩ := List.head?_eq_some_iff.1 hhead
      exact hr r' rfl
    have hholds := Holds.newline hlast
    rw [hsplit (e := ['\n']) h]
    exact hholds
  · next h =>
    have hlast : text.toList.getLast? ≠ some '\n' := by
      rw [← List.head?_reverse]
      intro hhead
      obtain ⟨r, hr⟩ := List.head?_eq_some_iff.1 hhead
      exact h r hr
    rw [String.ofList_toList]
    exact .unended hlast

theorem holds_lineOf (segment : List UInt8) : Holds segment (lineOf segment) := by
  rw [lineOf]
  split
  · next text htext =>
    have hbytes : text.toUTF8.toList = segment := by
      rw [decode?_eq_some_iff.1 htext, toList_mk]
    exact hbytes ▸ holds_chomp text
  · next hnone =>
    refine .invalid fun text hbytes ↦ ?_
    have htext : text.toUTF8 = ⟨segment.toArray⟩ := by
      rw [← hbytes, toList_eq_data]
    rw [decode?_eq_some_iff.2 htext] at hnone
    cases hnone

theorem lineOf_ne_system (segment : List UInt8) (e : Errno) : lineOf segment ≠ .error (.system e) := by
  intro h
  have hholds := holds_lineOf segment
  rw [h] at hholds
  cases hholds

namespace Lines

variable {l : Lines}

def after (l : Lines) : Nat → Lines
  | 0 => l
  | n + 1 => l.next.2.after n

theorem next_of_firstLine (h : FirstLine l.rest line rest) :
    l.next =
      if line = [] then (none, l)
      else (some (lineOf line), ⟨rest, l.number + if (lineOf line).isOk then 1 else 0⟩) := by
  simp only [next, h.cutLine_eq, List.isEmpty_iff, ← h.eq_nil_iff]
  split
  · rfl
  · cases lineOf line <;> rfl

theorem next_of_cuts_nil (h : Cuts l.rest []) : l.next = (none, l) := by
  have hfirst : FirstLine l.rest [] [] := h.joined.symm ▸ firstLine_nil
  exact (next_of_firstLine hfirst).trans (if_pos rfl)

theorem next_of_cuts_cons {s : List UInt8} (h : Cuts l.rest (s :: segments)) :
    l.next = (some (lineOf s), ⟨segments.flatten, l.number + if (lineOf s).isOk then 1 else 0⟩) := by
  obtain ⟨hs, hfirst, -⟩ := cuts_cons_iff.1 h
  exact (next_of_firstLine hfirst).trans (if_neg hs)

theorem after_eq (h : Cuts l.rest segments) (n : Nat) :
    l.after n =
      ⟨(segments.drop n).flatten, l.number + ((segments.map lineOf).take n).countP (·.isOk)⟩ := by
  induction n generalizing l segments with
  | zero =>
    rw [after, List.drop_zero, h.joined]
    rfl
  | succ n ih =>
    cases segments with
    | nil =>
      rw [after, next_of_cuts_nil h, ih h]
      simp
    | cons s segments =>
      have hlater := (cuts_cons_iff.1 h).2.2
      rw [after, next_of_cuts_cons h, ih hlater, List.drop_succ_cons, List.map_cons, List.take_succ_cons,
        List.countP_cons]
      simp only [Lines.mk.injEq, true_and]
      omega

theorem next_after (h : Cuts l.rest segments) (n : Nat) : (l.after n).next.1 = (segments.map lineOf)[n]? := by
  have hrest : Cuts (l.after n).rest (segments.drop n) := by
    rw [after_eq h n]
    exact h.drop n
  have hhead : segments[n]? = (segments.drop n).head? := List.head?_drop.symm
  rw [List.getElem?_map, hhead]
  cases hdrop : segments.drop n with
  | nil =>
    rw [hdrop] at hrest
    rw [next_of_cuts_nil hrest]
    rfl
  | cons s later =>
    rw [hdrop] at hrest
    rw [next_of_cuts_cons hrest]
    rfl

end Lines

end JobShell.Script

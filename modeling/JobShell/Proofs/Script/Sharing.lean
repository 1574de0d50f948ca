import JobShell.Proofs.Script.Feeding

namespace JobShell.Script

open Sys (Runs)

/-- A read of the shared input: whether the script makes it, and what it gives. -/
structure Turn where
  byScript : Bool
  event : Event

def ownReads (turns : List Turn) : List Event := (turns.filter Turn.byScript).map Turn.event

/-- What is done with the shared input: a call for the next line, with the reads that are made until it ends, or reads by
commands. -/
inductive Use
  | line (result : Option (Except StreamFault String)) (turns : List Turn)
  | command (reads : List Event)

def Use.reads : Use → List Event
  | line _ turns => turns.map Turn.event
  | command reads => reads

/-- Calls for the next line and commands that share the input, in any order. Commands may also read while a call for
the next line is under way. -/
inductive Shares : Source → List UInt8 → List Use → Source → List UInt8 → Prop
  | nil (s : Source) (input : List UInt8) : Shares s input [] s input
  | line {s s₁ s₂ : Source} {input input₁ rest : List UInt8} {result : Option (Except StreamFault String)}
      {turns : List Turn} {uses : List Use} :
      Runs s.next (ownReads turns) (result, s₁) → Feeds Sys.stdin input (turns.map Turn.event) input₁ →
      Shares s₁ input₁ uses s₂ rest → Shares s input (.line result turns :: uses) s₂ rest
  | command {s s₂ : Source} {input input₁ rest : List UInt8} {reads : List Event} {uses : List Use} :
      Feeds Sys.stdin input reads input₁ → Shares s input₁ uses s₂ rest →
      Shares s input (.command reads :: uses) s₂ rest

/-- What a call for the next line takes by its reads, when so much is left afterwards: the first line of what is there,
whose text is its result, or nothing at the end. A call that fails of a read has not come to a newline. -/
inductive Takes : Option (Except StreamFault String) → List Event → List UInt8 → Prop
  | line {t : List Event} {left : List UInt8} {line : Except StreamFault String} :
      FirstLine (given t ++ left) (given t) left → given t ≠ [] → Holds (given t) line → Takes (some line) t left
  | atEnd {t : List Event} : given t = [] → Takes none t []
  | failed {t : List Event} {left : List UInt8} {e : Errno} :
      Fails Sys.stdin 1 [] t e → Takes (some (.error (.system e))) t left

variable {s s' : Source} {input rest left : List UInt8} {result : Option (Except StreamFault String)}
  {turns : List Turn} {uses : List Use} {t : List Event}

def Unbuffered (s : Source) : Prop := s.feed = some (Sys.stdin, 1) ∧ s.ahead = []

theorem takes_next (hs : Unbuffered s) (h : Runs s.next t (result, s'))
    (hsize : ∀ bytes, ⟨.read Sys.stdin 1, .ok bytes⟩ ∈ t → bytes.size ≤ 1)
    (hended : ∀ bytes, bytes.size = 0 → ⟨.read Sys.stdin 1, .ok bytes⟩ ∈ t → left = []) :
    Unbuffered s' ∧ Takes result t left := by
  obtain ⟨hfeed, hahead⟩ := hs
  have hnone := Source.ahead_eq_nil hfeed h hahead hsize
  obtain ⟨r, hgathers, hkept, hresult⟩ := Source.gathers_of_next hfeed h
  refine ⟨⟨hkept.trans hfeed, hnone⟩, ?_⟩
  rw [hahead, hnone] at hgathers
  obtain ⟨e, rfl, -, hfails⟩ | ⟨line, rfl, hbrings⟩ := hgathers.brings
  · rw [(Prod.mk.inj hresult).1]
    exact .failed hfails
  · have hfirst := hbrings.extend hended
    have hline : line = given t := by
      have := hbrings.first.joined
      rwa [List.append_nil, List.nil_append, eq_comm] at this
    subst hline
    rw [List.nil_append, List.nil_append] at hfirst
    rw [List.nil_append, Source.conclude] at hresult
    by_cases hgiven : given t = []
    · have hleft : left = [] := (List.append_eq_nil_iff.1 (hfirst.eq_nil_iff.1 hgiven)).2
      rw [if_pos hgiven] at hresult
      rw [(Prod.mk.inj hresult).1, hleft]
      exact .atEnd hgiven
    · rw [if_neg hgiven] at hresult
      rw [(Prod.mk.inj hresult).1]
      exact .line hfirst hgiven (holds_lineOf _)

theorem Takes.firstLine (h : Takes result t left) (hresult : ∀ e, result ≠ some (.error (.system e))) :
    FirstLine (given t ++ left) (given t) left := by
  cases h with
  | line hfirst => exact hfirst
  | atEnd hgiven =>
    rw [hgiven]
    exact firstLine_nil
  | failed => exact absurd rfl (hresult _)

theorem mem_of_mem_ownReads {e : Event} (he : e ∈ ownReads turns) : e ∈ turns.map Turn.event := by
  obtain ⟨turn, hturn, rfl⟩ := List.mem_map.1 he
  exact List.mem_map_of_mem (List.mem_of_mem_filter hturn)

/-- A call takes the first line of what is there, whatever commands read in the meantime. -/
theorem takes_next_among (hs : Unbuffered s) (h : Runs s.next (ownReads turns) (result, s'))
    (hfeeds : Feeds Sys.stdin input (turns.map Turn.event) left) :
    Unbuffered s' ∧ Takes result (ownReads turns) left :=
  takes_next hs h (fun _ hmem ↦ hfeeds.size_le (mem_of_mem_ownReads hmem))
    fun _ hsize hmem ↦ hfeeds.ended Nat.one_pos hsize (mem_of_mem_ownReads hmem)

theorem Shares.unbuffered (h : Shares s input uses s' rest) (hs : Unbuffered s) : Unbuffered s' := by
  induction h with
  | nil => exact hs
  | line hruns hfeeds _ ih => exact ih (takes_next_among hs hruns hfeeds).1
  | command _ _ ih => exact ih hs

theorem Shares.input_eq (h : Shares s input uses s' rest) : input = given (uses.flatMap Use.reads) ++ rest := by
  induction h with
  | nil => rfl
  | line _ hfeeds _ ih | command hfeeds _ ih =>
    rw [List.flatMap_cons, given_append, List.append_assoc, ← ih]
    exact hfeeds.input_eq

theorem Shares.split {front behind : List Use} (h : Shares s input (front ++ behind) s' rest) :
    ∃ s₁ input₁, Shares s input front s₁ input₁ ∧ Shares s₁ input₁ behind s' rest := by
  induction front generalizing s input with
  | nil => exact ⟨s, input, .nil s input, h⟩
  | cons use front ih =>
    cases h with
    | line hruns hfeeds h =>
      obtain ⟨s₁, input₁, hfront, hbehind⟩ := ih h
      exact ⟨s₁, input₁, .line hruns hfeeds hfront, hbehind⟩
    | command hfeeds h =>
      obtain ⟨s₁, input₁, hfront, hbehind⟩ := ih h
      exact ⟨s₁, input₁, .command hfeeds hfront, hbehind⟩

theorem Shares.takes {front behind : List Use} (h : Shares s input (front ++ .line result turns :: behind) s' rest)
    (hs : Unbuffered s) :
    ∃ before left, input = given (front.flatMap Use.reads) ++ before ∧
      before = given (turns.map Turn.event) ++ left ∧ Takes result (ownReads turns) left := by
  obtain ⟨s₁, before, hfront, hbehind⟩ := h.split
  cases hbehind with
  | @line _ s₂ _ _ left _ _ _ _ hruns hfeeds _ =>
    exact ⟨before, left, hfront.input_eq, hfeeds.input_eq, (takes_next_among (hfront.unbuffered hs) hruns hfeeds).2⟩

theorem exists_takes (hs : Unbuffered s) {line : List UInt8} (hfirst : FirstLine input line left)
    (hline : line.length < Sys.patience) :
    ∃ t result s', Runs s.next t (result, s') ∧ Feeds Sys.stdin input t left ∧ given t = line := by
  have hcut : (cutLine input).1 = line := congrArg Prod.fst hfirst.cutLine_eq
  have hshort : (cutLine input).1.length < Sys.patience := by
    rw [hcut]
    exact hline
  obtain ⟨t, result, s', left', hruns, hfeeds, hresult⟩ := Source.exists_runs_next hs.1 Nat.one_pos hshort
  have htakes := (takes_next hs hruns (fun _ hmem ↦ hfeeds.size_le hmem)
    fun _ hsize hmem ↦ hfeeds.ended Nat.one_pos hsize hmem).2
  have hfirst' : FirstLine input (given t) left' := by
    rw [hfeeds.input_eq]
    exact htakes.firstLine hresult
  obtain ⟨hgiven, rfl⟩ := Prod.mk.inj (hfirst'.cutLine_eq.symm.trans hfirst.cutLine_eq)
  exact ⟨t, result, s', hruns, hfeeds, hgiven⟩

/-- Each byte of standard input goes once and in order to the script or to a command, whatever the commands read and
however often reads are interrupted, and the script holds none back. A call for the next line takes the first line of
what is there, or of what commands leave of it in the meantime, and its result is that line. If a read fails, it has
not come beyond a newline. It can always come to its end, unless the line is too long. -/
theorem script_and_commands_share_input {rest : List UInt8} (h : Shares .ofStdin input uses s rest) :
    input = given (uses.flatMap Use.reads) ++ rest ∧ s.ahead = [] ∧
      (∀ front result turns behind, uses = front ++ .line result turns :: behind →
        ∃ before left, input = given (front.flatMap Use.reads) ++ before ∧
          before = given (turns.map Turn.event) ++ left ∧ Takes result (ownReads turns) left ∧
          ((∀ turn ∈ turns, turn.byScript) → (∀ e, result ≠ some (.error (.system e))) →
            FirstLine before (given (ownReads turns)) left)) ∧
      ∀ line left, FirstLine rest line left → line.length < Sys.patience →
        ∃ t result s', Runs s.next t (result, s') ∧ Feeds Sys.stdin rest t left ∧ given t = line := by
  have hstdin : Unbuffered .ofStdin := ⟨rfl, rfl⟩
  have hs := h.unbuffered hstdin
  refine ⟨h.input_eq, hs.2, ?_, fun line left hfirst hline ↦ exists_takes hs hfirst hline⟩
  rintro front result turns behind rfl
  obtain ⟨before, left, hinput, hbefore, htakes⟩ := h.takes hstdin
  refine ⟨before, left, hinput, hbefore, htakes, fun hown hresult ↦ ?_⟩
  have hall : ownReads turns = turns.map Turn.event := by
    rw [ownReads, List.filter_eq_self.2 hown]
  rw [hbefore, ← hall]
  exact htakes.firstLine hresult

theorem script_and_cat_share_input :
    ∃ s, Shares .ofStdin [99, 97, 116, 10, 102, 111, 114, 10]
        [.line (some (.ok "cat"))
            [⟨true, ⟨.read 0 1, .ok ⟨#[99]⟩⟩⟩, ⟨true, ⟨.read 0 1, .error .interrupted⟩⟩,
              ⟨true, ⟨.read 0 1, .ok ⟨#[97]⟩⟩⟩, ⟨true, ⟨.read 0 1, .ok ⟨#[116]⟩⟩⟩, ⟨true, ⟨.read 0 1, .ok ⟨#[10]⟩⟩⟩],
          .command [⟨.read 0 65536, .ok ⟨#[102, 111, 114, 10]⟩⟩], .line none [⟨true, ⟨.read 0 1, .ok ⟨#[]⟩⟩⟩]] s [] ∧
      s.ahead = [] := by
  have hread (b : UInt8) : Runs (Sys.read 0 1) [⟨.read 0 1, .ok ⟨#[b]⟩⟩] (.ok ⟨#[b]⟩) := runs_read _
  have hagain : Runs (Sys.read 0 1) [⟨.read 0 1, .error .interrupted⟩, ⟨.read 0 1, .ok ⟨#[97]⟩⟩] (.ok ⟨#[97]⟩) :=
    runs_readLoop (x := .ok ⟨#[97]⟩) (by simp) (by decide : 1 < Sys.patience)
  have hcat (n : Nat) : Runs (Source.readPiece (0, 1) (n + 5) [] [])
      [⟨.read 0 1, .ok ⟨#[99]⟩⟩, ⟨.read 0 1, .error .interrupted⟩, ⟨.read 0 1, .ok ⟨#[97]⟩⟩,
        ⟨.read 0 1, .ok ⟨#[116]⟩⟩, ⟨.read 0 1, .ok ⟨#[10]⟩⟩] (.ok [99, 97, 116, 10], []) :=
    Source.runs_readPiece_more (by decide) (hread 99) (by decide) <|
      Source.runs_readPiece_more (by decide) hagain (by decide) <|
      Source.runs_readPiece_more (by decide) (hread 116) (by decide) <|
      Source.runs_readPiece_more (by decide) (hread 10) (by decide) <| Source.runs_readPiece_line (by decide)
  have hend (n : Nat) : Runs (Source.readPiece (0, 1) (n + 1) [] []) [⟨.read 0 1, .ok ⟨#[]⟩⟩] (.ok [], []) :=
    Source.runs_readPiece_atEnd (by decide) (runs_read _) rfl
  have hfirst := Source.runs_next_of_piece (s := .ofStdin) rfl (hcat 999999999999995)
  have hlast := Source.runs_next_of_piece (s := ⟨some (0, 1), [], 1⟩) rfl (hend 999999999999999)
  have hline : Source.conclude (.ok [99, 97, 116, 10], .ofStdin) = (some (.ok "cat"), ⟨some (0, 1), [], 1⟩) := by rfl
  have hbyte (b : UInt8) {input rest : List UInt8} {t : List Event} (h : Feeds 0 input t rest) :
      Feeds 0 (b :: input) (⟨.read 0 1, .ok ⟨#[b]⟩⟩ :: t) rest := .read (Nat.le_refl [b].length) (by simp) h
  refine ⟨⟨some (0, 1), [], 1⟩, (and_iff_left_of_imp fun h ↦ (script_and_commands_share_input h).2.1).2 ?_⟩
  refine .line (hline ▸ hfirst) (hbyte 99 (.failed (hbyte 97 (hbyte 116 (hbyte 10 (.nil _)))))) ?_
  exact .command (feeds_take 0 65536 [102, 111, 114, 10]) (.line hlast (feeds_take 0 1 []) (.nil _ []))

end JobShell.Script

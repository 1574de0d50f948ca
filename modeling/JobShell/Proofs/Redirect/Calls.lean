import JobShell.Proofs.Shell.Stillness
import JobShell.Shell.Redirect

namespace JobShell

def Call.isPlain : Call → Prop
  | .fork | .pipe | .exec _ _ _ => False
  | _ => True

theorem Call.isPlain_of_isStill (c : Call) (h : c.isStill) : c.isPlain := by
  cases c <;> trivial

theorem Call.ne_fork_of_isPlain (c : Call) (h : c.isPlain) : c ≠ .fork := by
  rintro rfl
  exact h

theorem Call.ne_pipe_of_isPlain (c : Call) (h : c.isPlain) : c ≠ .pipe := by
  rintro rfl
  exact h

namespace Redirect

variable {α : Type} (p : Prepared) (rs : List Redirection) (saved : Saved)

theorem every_drop (fd : Int) : (Sys.drop fd).Every Call.isPlain :=
  (Sys.every_ask trivial).bind fun _ ↦ trivial

theorem every_ofCall {c : Call} {f : Reply c → α} (hc : c.isPlain) :
    (f <$> Sys.ask c).Every Call.isPlain := ⟨hc, fun _ ↦ trivial⟩

theorem every_forM {f : α → Sys Unit} (hf : ∀ a, (f a).Every Call.isPlain) (as : List α) :
    (as.forM f).Every Call.isPlain := by
  induction as with
  | nil => exact Sys.every_pure ()
  | cons a as ih => exact (hf a).bind fun _ ↦ ih

theorem every_dropEach (fd : Option Int) : (fd.forM Sys.drop).Every Call.isPlain := by
  cases fd with
  | none => trivial
  | some fd => exact every_drop fd

theorem every_fillFile (fd : Int) (path document : String) :
    (fillFile fd path document).run.Every Call.isPlain := by
  -- each step may fail, which ends the filling
  have hbind {β γ : Type} {x : ExceptT Failure Sys β} {f : β → ExceptT Failure Sys γ}
      (hx : x.run.Every Call.isPlain) (hf : ∀ b, (f b).run.Every Call.isPlain) :
      (x >>= f).run.Every Call.isPlain := by
    refine Sys.Every.bind hx fun r ↦ ?_
    cases r with
    | error e => trivial
    | ok b => exact hf b
  have hlift {β : Type} {x : Sys β} (hx : x.Every Call.isPlain) :
      (monadLift x : ExceptT Failure Sys β).run.Every Call.isPlain := hx.bind fun _ ↦ trivial
  refine hbind (every_ofCall trivial) fun _ ↦ hbind (every_ofCall trivial) fun _ ↦
    hbind (hlift ((Sys.every_writeAll _ _).mono Call.isPlain_of_isStill)) fun written ↦ ?_
  obtain ⟨r, left⟩ := written
  cases r with
  | ok _ =>
    refine hbind (hlift (Sys.every_ask trivial)) fun answer ↦ ?_
    cases answer <;> trivial
  | error e => trivial

theorem every_openDocument (document : String) : (openDocument document).Every Call.isPlain := by
  refine Sys.Every.bind ⟨trivial, fun _ ↦ trivial⟩ fun directory ↦
    (Sys.every_ask trivial).bind fun made ↦ ?_
  cases made with
  | error e => trivial
  | ok made =>
    refine (every_fillFile _ _ _).bind fun filled ↦ ?_
    cases filled with
    | ok _ => trivial
    | error f => exact (every_drop _).bind fun _ ↦ trivial

theorem every_release : (release p).Every Call.isPlain := by
  refine every_forM (fun r ↦ ?_) p
  cases r.2 with
  | some fd => exact every_drop fd
  | none => trivial

theorem every_prepareFrom : (prepareFrom p rs).Every Call.isPlain := by
  induction rs generalizing p with
  | nil => trivial
  | cons r rs ih =>
    rw [prepareFrom]
    split
    · exact ih _
    · refine (every_openDocument _).bind fun opened ↦ ?_
      cases opened with
      | ok fd => exact ih _
      | error f => exact (every_release p).bind fun _ ↦ trivial

theorem every_prepare : (prepare rs).Every Call.isPlain := every_prepareFrom [] rs

theorem every_applyOne (r : Redirection × Option Int) : (applyOne r).Every Call.isPlain := by
  obtain ⟨r, fd⟩ := r
  cases r with
  | duplicate source target input =>
    rw [applyOne]
    split
    · trivial
    · exact (Sys.every_ask trivial).bind fun _ ↦ trivial
  | close source input =>
    refine (Sys.every_ask trivial).bind fun closed ↦ ?_
    cases closed with
    | ok _ => trivial
    | error e => simp only; split <;> trivial
  | document source body =>
    cases fd with
    | some fd => exact (Sys.every_ask trivial).bind fun _ ↦ trivial
    | none => trivial
  | path mode source path =>
    refine (Sys.every_ask trivial).bind fun made ↦ ?_
    cases made with
    | error e => trivial
    | ok fd =>
      simp only
      split
      · trivial
      · exact (Sys.every_ask trivial).bind fun _ ↦ (every_drop fd).bind fun _ ↦ trivial

theorem every_apply : (apply p).Every Call.isPlain := by
  induction p with
  | nil => trivial
  | cons r p ih =>
    refine (every_applyOne r).bind fun applied ↦ ?_
    cases applied with
    | ok _ => exact ih
    | error f => trivial

theorem every_saveFrom : (saveFrom saved rs).Every Call.isPlain := by
  induction rs generalizing saved with
  | nil => trivial
  | cons r rs ih =>
    rw [saveFrom]
    split
    · exact ih saved
    · refine (Sys.every_ask trivial).bind fun copied ↦ ?_
      cases copied with
      | ok copy => exact ih _
      | error e =>
        simp only
        split
        · exact ih _
        · trivial

theorem every_restore : (restore saved).Every Call.isPlain := by
  refine every_forM (fun s ↦ ?_) _
  cases s.2 with
  | none => exact every_drop s.1
  | some copy =>
    refine (Sys.every_ask trivial).bind fun moved ↦ ?_
    cases moved with
    | ok _ => exact every_drop copy
    | error e => exact (Sys.every_ask trivial).bind fun _ ↦ every_drop copy

end Redirect

end JobShell

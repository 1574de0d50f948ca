import Mathlib.Data.List.Basic
import JobShell.Proofs.Kernel.Basic

namespace JobShell

def Call.isPipe : Call → Bool
  | .pipe => true
  | _ => false

namespace Kernel

variable {refuses : Refusals} {k k' : Kernel} {first : Nat}

def calls (k : Kernel) : List Call := k.files.map (·.call)

/-- The pipe ends among some calls that opened files, by the places of the files. -/
def endsOf (first : Nat) (calls : List Call) : List Nat :=
  (calls.zipIdx.filter fun e ↦ first ≤ e.2 && e.1.isPipe).map (·.2)

/-- The ends of the pipes made since so many files had been opened, in the order in which they were
opened: of each pipe the end to read from, and then the end to write to. -/
def pipeEnds (first : Nat) (k : Kernel) : List Nat := endsOf first k.calls

theorem length_calls (k : Kernel) : k.calls.length = k.files.length := List.length_map _

theorem mem_endsOf {calls : List Call} {n : Nat} (h : n ∈ endsOf first calls) :
    first ≤ n ∧ n < calls.length := by
  obtain ⟨e, he, rfl⟩ := List.mem_map.1 h
  obtain ⟨hmem, hpipe⟩ := List.mem_filter.1 he
  have hfirst : first ≤ e.2 ∧ e.1.isPipe := by simpa using hpipe
  have hlt := List.snd_lt_of_mem_zipIdx hmem
  exact ⟨hfirst.1, by omega⟩

theorem endsOf_append (calls more : List Call) : endsOf first (calls ++ more) = endsOf first calls ++
    ((more.zipIdx calls.length).filter fun e ↦ first ≤ e.2 && e.1.isPipe).map (·.2) := by
  rw [endsOf, List.zipIdx_append, List.filter_append, List.map_append, Nat.zero_add]
  rfl

theorem endsOf_replicate {c : Call} (hc : c ≠ .pipe) (calls : List Call) (n : Nat) :
    endsOf first (calls ++ List.replicate n c) = endsOf first calls := by
  have hnone : ((List.replicate n c).zipIdx calls.length).filter
      (fun e ↦ first ≤ e.2 && e.1.isPipe) = [] := by
    refine List.filter_eq_nil_iff.2 fun e he ↦ ?_
    have hmem : e.1 ∈ List.replicate n c := List.fst_mem_of_mem_zipIdx he
    obtain rfl := List.eq_of_mem_replicate hmem
    have hpipe : e.1.isPipe = false := by
      unfold Call.isPipe
      split
      · next h => exact absurd h hc
      · rfl
    simp [hpipe]
  rw [endsOf_append, hnone, List.map_nil, List.append_nil]

theorem endsOf_pipe {calls : List Call} (h : first ≤ calls.length) :
    endsOf first (calls ++ [.pipe, .pipe]) = endsOf first calls ++ [calls.length, calls.length + 1] := by
  have hnext : first ≤ calls.length + 1 := by omega
  rw [endsOf_append]
  simp [Call.isPipe, h, hnext]

theorem calls_modifyFile (k : Kernel) (fd : Int) (f : ByteArray × Nat → ByteArray × Nat) :
    (k.modifyFile fd f).calls = k.calls := by
  unfold modifyFile
  split
  · next d hd =>
    refine List.ext_getElem? fun n ↦ ?_
    simp only [calls, List.getElem?_map, List.getElem?_modify]
    split <;> cases k.files[n]? <;> rfl
  · rfl

theorem Installed.calls {f : OpenFile} {closeOnExec : Bool} {fd : Int}
    (h : k.Installed f closeOnExec fd k') : k'.calls = k.calls ++ [f.call] := by
  rw [Kernel.calls, h.files, List.map_append]
  rfl

theorem calls_withDescriptors {d : Except Errno Descriptors} {r : Except Errno Unit}
    (h : (r, k') = k.split (k.withDescriptors d)) : k'.calls = k.calls := by
  cases d with
  | error e => cases h; rfl
  | ok d => cases h; rfl

theorem Answers.calls {c : Call} {r : Reply c} (h : k.Answers refuses c r k') :
    ∃ n, k'.calls = k.calls ++ List.replicate n c := by
  have hsame (h : k'.calls = k.calls) : ∃ n, k'.calls = k.calls ++ List.replicate n c :=
    ⟨0, by rw [h, List.replicate_zero, List.append_nil]⟩
  cases c with
  | «open» path flags mode =>
    obtain ⟨e, -, rfl⟩ | ⟨fd, -, hinstalled⟩ := answers_open h
    · exact hsame rfl
    · exact ⟨1, hinstalled.calls⟩
  | temporary template =>
    obtain ⟨e, -, rfl⟩ | ⟨fd, path, -, hinstalled⟩ := answers_temporary h
    · exact hsame rfl
    · exact ⟨1, hinstalled.calls⟩
  | openLog path level =>
    obtain ⟨e, -, rfl⟩ | ⟨fd, -, hinstalled⟩ := answers_openLog h
    · exact hsame rfl
    · exact ⟨1, hinstalled.calls⟩
  | pipe =>
    obtain ⟨e, -, rfl⟩ | ⟨input, output, k₁, -, hinput, houtput⟩ := answers_pipe h
    · exact hsame rfl
    · exact ⟨2, by rw [houtput.calls, hinput.calls, List.append_assoc]; rfl⟩
  | close fd => exact hsame (calls_withDescriptors h)
  | setCloseOnExec fd => exact hsame (calls_withDescriptors h)
  | duplicate fd target => exact hsame (calls_withDescriptors h)
  | duplicateAbove fd low =>
    by_cases hlow : Valid low
    · obtain ⟨-, -, rfl⟩ | ⟨-, -, rfl⟩ | ⟨_, _, -, -, -, -, -, hfiles, -⟩ := answers_duplicateAbove hlow h
      · exact hsame rfl
      · exact hsame rfl
      · exact hsame (by rw [Kernel.calls, hfiles]; rfl)
    · exact hsame (answers_duplicateAbove_of_invalid hlow h ▸ rfl)
  | write fd bytes =>
    cases r with
    | error e => exact hsame (congrArg Kernel.calls h)
    | ok count => exact hsame (h.2 ▸ k.calls_modifyFile fd _)
  | read fd count =>
    cases r with
    | error e => exact hsame (congrArg Kernel.calls h)
    | ok bytes => exact hsame (h.2 ▸ k.calls_modifyFile fd _)
  | seek fd place =>
    cases r with
    | error e => exact hsame (congrArg Kernel.calls h)
    | ok _ => exact hsame (h ▸ k.calls_modifyFile fd _)
  | _ => exact hsame (congrArg Kernel.calls h)

variable {t : List Event}

theorem Serves.pipeEnds (ht : ∀ e ∈ t, e.call ≠ .pipe) (h : Serves refuses k t k') :
    k'.pipeEnds first = k.pipeEnds first ∧ k.files.length ≤ k'.files.length := by
  induction h with
  | nil => exact ⟨rfl, Nat.le_refl _⟩
  | @cons k k₁ k' c r t hc _ ih =>
    obtain ⟨n, hcalls⟩ := hc.calls
    obtain ⟨hends, hle⟩ := ih fun e he ↦ ht e (List.mem_cons_of_mem _ he)
    have hlength := congrArg List.length hcalls
    rw [List.length_append, length_calls, length_calls] at hlength
    refine ⟨hends.trans ?_, by omega⟩
    rw [Kernel.pipeEnds, hcalls]
    exact endsOf_replicate (ht _ List.mem_cons_self) _ _

theorem Ends.pipeEnds {α : Type} {x : Sys α} {a : α} (hx : Sys.Only (· ≠ .pipe) x)
    (h : Ends refuses k x a k') : k'.pipeEnds first = k.pipeEnds first ∧ k.files.length ≤ k'.files.length :=
  let ⟨_, hruns, hserves⟩ := h
  hserves.pipeEnds (hx _ _ hruns)

theorem Installed.pipeEnds {f : OpenFile} {closeOnExec : Bool} {fd : Int} (hf : f.call ≠ .pipe)
    (h : k.Installed f closeOnExec fd k') : k'.pipeEnds first = k.pipeEnds first := by
  rw [Kernel.pipeEnds, h.calls]
  exact endsOf_replicate hf k.calls 1

theorem pipeEnds_of_piped {k₁ : Kernel} {input output : Int} (hfirst : first ≤ k.files.length)
    (hinput : k.Installed ⟨.pipe, none⟩ false input k₁)
    (houtput : k₁.Installed ⟨.pipe, none⟩ false output k') :
    k'.pipeEnds first = k.pipeEnds first ++ [k.files.length, k.files.length + 1] := by
  have hcalls : k'.calls = k.calls ++ [.pipe, .pipe] := by
    rw [houtput.calls, hinput.calls, List.append_assoc]
    rfl
  rw [Kernel.pipeEnds, hcalls, endsOf_pipe (by rwa [length_calls]), length_calls]
  rfl

theorem mem_pipeEnds {n : Nat} (h : n ∈ k.pipeEnds first) : first ≤ n ∧ n < k.files.length := by
  have hmem := mem_endsOf h
  rwa [length_calls] at hmem

theorem Sound.not_mem_pipeEnds {fd : Int} {file : Nat} (h : k.Sound) (hfile : k.file? fd = some file) :
    file ∉ k'.pipeEnds k.files.length := by
  intro hmem
  obtain ⟨d, hd, rfl⟩ := Option.map_eq_some_iff.1 hfile
  have hold := (h fd d hd).2
  have hnew := (mem_pipeEnds hmem).1
  omega

theorem pipeEnds_self (k : Kernel) : k.pipeEnds k.files.length = [] := by
  refine List.eq_nil_iff_forall_not_mem.2 fun n hn ↦ ?_
  obtain ⟨hfirst, hlt⟩ := mem_pipeEnds hn
  omega

end Kernel

end JobShell

import JobShell.Proofs.Redirect.Effect
import JobShell.Proofs.Shell.Placing
import JobShell.Proofs.Sys.Progress

namespace JobShell

open Kernel (Ends Serves ends_bind ends_pure ends_ask streams sound_streams)

variable {refuses : Refusals} {k k₁ k₂ k₃ k' : Kernel} {n : Int} {d : Descriptor} {α β : Type}

namespace Kernel

variable {P : Call → Prop} {x : Sys α} {f : α → Sys β} {c : Call}

/-- The program may come to this call, and then has left the kernel so. -/
def Reaches (refuses : Refusals) (k : Kernel) (x : Sys α) (c : Call) (k' : Kernel) : Prop :=
  ∃ t next, Sys.Leads x t (.call c next) ∧ Serves refuses k t k'

theorem not_reaches (hx : x.Every P) (hc : ¬ P c) : ¬ Reaches refuses k x c k' :=
  fun ⟨_, _, hleads, _⟩ ↦ Sys.not_leads hx hc hleads

theorem Reaches.later (hx : x.Every P) (hc : ¬ P c) (h : Reaches refuses k (x >>= f) c k') :
    ∃ a k₁, Ends refuses k x a k₁ ∧ Reaches refuses k₁ (f a) c k' := by
  obtain ⟨t, next, hleads, hserves⟩ := h
  obtain ⟨u, v, a, rfl, hruns, hrest⟩ := Sys.leads_bind hx hc hleads
  obtain ⟨k₁, hu, hv⟩ := serves_append.1 hserves
  exact ⟨a, k₁, ⟨u, hruns, hu⟩, v, next, hrest, hv⟩

theorem Reaches.before (hf : ∀ a, (f a).Every P) (hc : ¬ P c) (h : Reaches refuses k (x >>= f) c k') :
    Reaches refuses k x c k' :=
  let ⟨t, _, hleads, hserves⟩ := h
  let ⟨next, hleads⟩ := Sys.leads_of_bind hf hc hleads
  ⟨t, next, hleads, hserves⟩

theorem Reaches.bind (h : Reaches refuses k x c k') (f : α → Sys β) : Reaches refuses k (x >>= f) c k' :=
  let ⟨t, _, hleads, hserves⟩ := h
  ⟨t, _, hleads.bind f, hserves⟩

theorem Reaches.after {a : α} (hx : Ends refuses k x a k₁) (h : Reaches refuses k₁ (f a) c k') :
    Reaches refuses k (x >>= f) c k' :=
  let ⟨t, hruns, ht⟩ := hx
  let ⟨u, _, hleads, hu⟩ := h
  ⟨t ++ u, _, hleads.after hruns, serves_append.2 ⟨_, ht, hu⟩⟩

end Kernel

namespace Redirect

variable {p : Prepared} {e : Redirection × Option Int}

def Stays : Redirection × Option Int → Prop
  | (.duplicate source target _, _) => target = source
  | (.document source _, some fd) => fd = source
  | _ => False

theorem closeOnExec_of_effect {obstacle : Call → Option Errno} {opened : Nat}
    {v : Int → Option Descriptor} (h : effect obstacle opened v e = .ok (some d))
    (hd : d.closeOnExec = true) : Stays e ∧ v e.1.source = some d := by
  have hput {what : String} {fd source : Int} (h : put what v fd source = .ok (some d)) :
      fd = source ∧ v source = some d := by
    rw [put] at h
    cases hopen : v fd with
    | none =>
      rw [hopen] at h
      cases h
    | some c =>
      rw [hopen] at h
      simp only at h
      split_ifs at h with _ hsame
      · cases h
        exact ⟨hsame, hsame ▸ hopen⟩
      · cases h
        cases hd
  obtain ⟨redirection, fd⟩ := e
  cases redirection with
  | path mode source name =>
    rw [effect] at h
    split at h
    · cases h
    · split_ifs at h
      cases h
      cases hd
  | duplicate source target input =>
    rw [effect] at h
    split_ifs at h with hsame
    · exact ⟨hsame, Except.ok.inj h⟩
    · exact hput h
  | close source input => cases h
  | document source body =>
    cases fd with
    | none => cases h
    | some fd => exact hput h

theorem closeOnExec_of_apply (h : Ends refuses k (apply p) (.ok ()) k')
    (hd : k'.descriptor? n = some d) (hmarked : d.closeOnExec = true) :
    k.descriptor? n = some d ∧ ∀ e ∈ p, e.1.source = n → Stays e := by
  induction p generalizing k with
  | nil =>
    obtain ⟨-, rfl⟩ := ends_pure.1 h
    exact ⟨hd, fun _ he ↦ nomatch he⟩
  | cons e p ih =>
    obtain ⟨applied, k₁, hone, hrest⟩ := ends_bind.1 h
    have htakes := takes_applyOne hone
    cases heffect : effect (k.obstacle refuses) k.files.length k.descriptor? e with
    | error f =>
      rw [heffect] at htakes
      obtain ⟨rfl, -⟩ := htakes
      obtain ⟨⟨⟩, -⟩ := ends_pure.1 hrest
    | ok c =>
      rw [heffect] at htakes
      obtain ⟨rfl, hk₁, -⟩ := htakes
      obtain ⟨hbefore, hlater⟩ := ih hrest
      rw [hk₁] at hbefore
      by_cases hsource : e.1.source = n
      · subst hsource
        rw [Function.update_self] at hbefore
        subst hbefore
        obtain ⟨hstays, hopen⟩ := closeOnExec_of_effect heffect hmarked
        exact ⟨hopen, List.forall_mem_cons.2 ⟨fun _ ↦ hstays, hlater⟩⟩
      · rw [Function.update_of_ne (Ne.symm hsource)] at hbefore
        exact ⟨hbefore, List.forall_mem_cons.2 ⟨fun h ↦ absurd h hsource, hlater⟩⟩

end Redirect

namespace Shell

open Redirect (Prepares Stays)
open Kernel (Reaches)

variable {s s' : Shell} {hidden : List Int}

/-- All that numbers stand for was there before, or has been copied from a number that is not hidden. -/
def Passes (hidden : List Int) (k k' : Kernel) : Prop :=
  ∀ n d, k'.descriptor? n = some d → k.descriptor? n = some d ∨
    d.closeOnExec = false ∧ ∃ m, m ∉ hidden ∧ k.file? m = some d.file

theorem passes_of_eq (h : k'.descriptor? = k.descriptor?) : Passes hidden k k' :=
  fun _ _ hd ↦ .inl (h ▸ hd)

theorem Passes.trans (h : Passes hidden k k₁) (h' : Passes hidden k₁ k') : Passes hidden k k' := by
  intro n d hd
  obtain hd | ⟨hmark, m, hm, hfile⟩ := h' n d hd
  · exact h n d hd
  · obtain ⟨c, hc, hsame⟩ := Option.map_eq_some_iff.1 hfile
    refine .inr ⟨hmark, ?_⟩
    obtain hc | ⟨-, m', hm', hfile'⟩ := h m c hc
    · exact ⟨m, hm, by rw [← hsame, Kernel.file?, hc]; rfl⟩
    · exact ⟨m', hm', hsame ▸ hfile'⟩

theorem passes_drop {fd : Int} (h : Ends refuses k (Sys.drop fd) () k') : Passes hidden k k' := by
  intro n d hd
  rw [(Kernel.ends_drop h).1] at hd
  by_cases hn : n = fd
  · rw [hn, Function.update_self] at hd
    cases hd
  · rw [Function.update_of_ne hn] at hd
    exact .inl hd

theorem passes_dropEach {fd : Option Int} (h : Ends refuses k (fd.forM Sys.drop) () k') :
    Passes hidden k k' := by
  cases fd with
  | none => exact passes_of_eq (by rw [(ends_pure.1 h).2])
  | some fd => exact passes_drop h

theorem passes_attach {fd : Option Int} {stream : Int} (hfd : ∀ m, fd = some m → m ∉ hidden)
    (h : Ends refuses k (attach fd stream) () k') : Passes hidden k k' := by
  cases fd with
  | none => exact passes_of_eq (by rw [(ends_pure.1 h).2])
  | some fd =>
    obtain ⟨reply, k₁, hmove, hnext⟩ := ends_bind.1 h
    cases reply with
    | error e => exact absurd hnext fun ⟨_, hruns, _⟩ ↦ Sys.not_runs_exit hruns
    | ok _ =>
      refine Passes.trans (fun n d hd ↦ ?_) (passes_drop hnext)
      obtain ⟨-, ⟨⟩, -⟩ | ⟨c, hc, -, -, -, -, hnumbers⟩ := Redirect.answers_put "" (ends_ask.1 hmove)
      rw [hnumbers] at hd
      by_cases hn : n = stream
      · subst hn
        rw [Function.update_self] at hd
        cases hd
        split
        · next hsame => exact .inl (hsame ▸ hc)
        · exact .inr ⟨rfl, fd, hfd fd rfl, congrArg (Option.map Descriptor.file) hc⟩
      · rw [Function.update_of_ne hn] at hd
        exact .inl hd

theorem passes_takePlace {st : Stage} {r : Except Defect Unit}
    (hinput : ∀ fd, st.input = some fd → fd ∉ hidden) (houtput : ∀ fd, st.output = some fd → fd ∉ hidden)
    (h : Ends refuses k ((takePlace st).run.run s) (r, s') k') : Passes hidden k k' := by
  obtain ⟨k₁, k₂, hnumbers, -, hin, hout⟩ := ends_takePlace h 0
  exact ((passes_of_eq hnumbers).trans (passes_attach hinput hin)).trans (passes_attach houtput hout)

variable {P : Call → Prop} {call : Call}

theorem reaches_act_later {x : Act α} {f : α → Act β} (hx : Calls P x) (hc : ¬ P call)
    (h : Reaches refuses k ((x >>= f).run.run s) call k') :
    ∃ a s₁ k₁, Ends refuses k (x.run.run s) (.ok a, s₁) k₁ ∧
      Reaches refuses k₁ ((f a).run.run s₁) call k' := by
  obtain ⟨⟨r, s₁⟩, k₁, hx, hf⟩ := Reaches.later (hx s) hc h
  cases r with
  | error d => exact absurd hf (Kernel.not_reaches (Sys.every_pure _) hc)
  | ok a => exact ⟨a, s₁, k₁, hx, hf⟩

theorem reaches_act_before {x : Act α} {f : α → Act β} (hf : ∀ a, Calls P (f a)) (hc : ¬ P call)
    (h : Reaches refuses k ((x >>= f).run.run s) call k') : Reaches refuses k (x.run.run s) call k' := by
  refine Reaches.before (fun ⟨r, s₁⟩ ↦ ?_) hc h
  cases r with
  | error d => exact Sys.every_pure _
  | ok a => exact hf a s₁

theorem reaches_system {x : Sys α} (h : Reaches refuses k ((system x).run.run s) call k') :
    Reaches refuses k x call k' :=
  have hend {γ : Type} (a : γ) : (pure a : Sys γ).Every fun _ ↦ False := Sys.every_pure a
  (h.before (fun _ ↦ hend _) id).before (fun _ ↦ hend _) id

theorem calls_takePlace (st : Stage) : Calls Call.isPlain (takePlace st) :=
  ((calls_joinGroup st).mono Call.isPlain_of_isStill).bind fun _ ↦
    (calls_resetSignals.mono Call.isPlain_of_isStill).bind fun _ ↦ (calls_modify _).bind fun _ ↦
      (calls_system (every_attach _ _)).bind fun _ ↦ calls_system (every_attach _ _)

theorem calls_leave (code : Int) : Calls Call.isStill (leave code : Act α) :=
  calls_system ⟨trivial, fun r ↦ r.elim⟩

theorem calls_giveUp (d : Defect) : Calls Call.isStill (giveUp d : Act α) := by
  refine calls_get.bind fun s ↦ ?_
  split
  · exact (calls_system (Sys.every_writeAll _ _)).bind fun _ _ ↦ trivial
  · exact fun _ ↦ trivial

theorem calls_report (f : Failure) : Calls Call.isStill (report f) := by
  refine (calls_system (Sys.every_writeAll _ _)).bind fun wrote ↦ ?_
  split
  · exact calls_pure _
  · split
    · exact calls_pure _
    · exact calls_giveUp _

def isExecuting : Call → Prop
  | .environment | .exec _ _ _ => True
  | _ => False

theorem every_executePath (path : String) (words : List String) (environment : Environment) :
    (Sys.executePath path words environment).Every isExecuting := by
  refine (Sys.every_ask trivial).bind fun e ↦ ?_
  split
  · exact Sys.every_ask trivial
  · exact Sys.every_pure _

theorem every_searchIn (name : String) (words : List String) (environment : Environment) (denied : Bool)
    (last : Errno) (directories : List String) :
    (Sys.searchIn name words environment denied last directories).Every isExecuting := by
  induction directories generalizing denied last with
  | nil => exact Sys.every_pure _
  | cons directory rest ih =>
    refine (every_executePath _ _ _).bind fun e ↦ ?_
    split
    · exact ih _ _
    · split
      · exact ih _ _
      · exact Sys.every_pure _

theorem every_executeCommand (c : Command) : (executeCommand c).Every isExecuting := by
  rw [executeCommand]
  split
  · exact Sys.every_pure _
  · refine (Sys.every_ask trivial).bind fun environment ↦ Sys.Every.bind ?_ fun _ ↦ Sys.every_pure _
    rw [Sys.execute]
    split_ifs
    · exact Sys.every_pure _
    · exact every_executePath _ _ _
    · exact Sys.every_pure _
    · exact every_searchIn _ _ _ _ _ _

theorem reaches_executing {x : Sys α} (hx : x.Every isExecuting) (h : Reaches refuses k x call k') :
    k' = k := by
  obtain ⟨t, next, hleads, hserves⟩ := h
  have ht := hleads.every hx
  clear hleads
  induction hserves with
  | nil => rfl
  | @cons k k₁ k' c r t hc _ ih =>
    have hcall := ht ⟨c, r⟩ List.mem_cons_self
    have hsame : k₁ = k := by
      cases c with
      | environment | exec => exact hc
      | _ => cases hcall
    rw [ih fun e he ↦ ht e (List.mem_cons_of_mem _ he), hsame]

variable {c : Command} {st : Stage} {next : Option Int} {p : Redirect.Prepared} {path : String}
  {words : List String} {environment : Environment}

theorem reaches_carryOut (hprogram : Builtin.ofName? c.program = none)
    (h : Reaches refuses k ((carryOut c p : Act α).run.run s) (.exec path words environment) k') :
    Ends refuses k (Redirect.apply p) (.ok ()) k' := by
  have hplain : ¬ (Call.exec path words environment).isPlain := id
  have hstill : ¬ (Call.exec path words environment).isStill := id
  obtain ⟨applied, _, k₁, happlied, hrest⟩ :=
    reaches_act_later (calls_system (Redirect.every_apply p)) hplain h
  obtain ⟨_, ⟨⟩, -, happly⟩ := ends_system happlied
  cases applied with
  | error f =>
    have hcalls : Calls Call.isStill (do report f; leave 1 : Act α) :=
      (calls_report f).bind fun _ ↦ calls_leave _
    exact absurd hrest (Kernel.not_reaches (hcalls _) hstill)
  | ok _ =>
    simp only [hprogram] at hrest
    have hexecute := reaches_system (reaches_act_before
      (fun f ↦ (calls_report f).bind fun _ ↦ calls_leave _) hstill hrest)
    obtain rfl := reaches_executing (every_executeCommand c) hexecute
    exact happly

theorem reaches_runChild (hprogram : Builtin.ofName? c.program = none)
    (h : Reaches refuses k ((runChild c st p : Act α).run.run s) (.exec path words environment) k') :
    ∃ s₁ k₁, Ends refuses k ((takePlace st).run.run s) (.ok (), s₁) k₁ ∧
      Ends refuses k₁ (Redirect.apply p) (.ok ()) k' := by
  -- what follows a defect executes nothing
  have hwork : Reaches refuses k ((do takePlace st; carryOut c p : Act α).run.run s)
      (.exec path words environment) k' := by
    refine Reaches.before (P := Call.isStill) (fun ⟨r, s₁⟩ ↦ ?_) id h
    cases r with
    | ok _ => exact Sys.every_pure _
    | error d => exact (calls_flush.bind fun _ ↦ calls_leave _) s₁
  obtain ⟨_, s₁, k₁, hplace, hrest⟩ := reaches_act_later (calls_takePlace st) id hwork
  exact ⟨s₁, k₁, hplace, reaches_carryOut hprogram hrest⟩

/-- When a child comes to execute a program, it has taken its place and all its redirections have been
applied. -/
theorem reaches_forkStage (hprogram : Builtin.ofName? c.program = none)
    (h : Reaches refuses k ((forkStage c st p next).run.run s) (.exec path words environment) k') :
    ∃ k₁ s₁ k₂, Ends refuses k (next.forM Sys.drop) () k₁ ∧
      Ends refuses k₁ ((takePlace st).run.run s) (.ok (), s₁) k₂ ∧
      Ends refuses k₂ (Redirect.apply p) (.ok ()) k' := by
  have hplain : ¬ (Call.exec path words environment).isPlain := id
  obtain ⟨answer, _, k₁, hforked, hrest⟩ :=
    reaches_act_later (calls_ask (P := (· = .fork)) rfl) (by simp) h
  obtain ⟨_, ⟨⟩, rfl, hfork⟩ := ends_system hforked
  replace hfork := ends_ask.1 hfork
  obtain rfl : k₁ = k := hfork
  match answer with
  | .error e => exact absurd hrest (Kernel.not_reaches (calls_pure _ _) hplain)
  | .ok (.parent pid) => exact absurd hrest (Kernel.not_reaches (calls_pure _ _) hplain)
  | .ok .child =>
    obtain ⟨_, _, k₁, hdropped, hchild⟩ :=
      reaches_act_later (calls_system (Redirect.every_dropEach next)) hplain hrest
    obtain ⟨_, ⟨⟩, rfl, hdrop⟩ := ends_system hdropped
    obtain ⟨s₁, k₂, hplace, happly⟩ := reaches_runChild hprogram hchild
    exact ⟨k₁, s₁, k₂, hdrop, hplace, happly⟩

/-- Whenever a child comes to execute a program, each of its redirections that is in place will be there
for the program, if it is not all onto itself or its source was not to be closed on execution anyway;
whatever else has been opened for the command is closed then, as are the here-documents. -/
theorem execute_inherits_redirections (hk : k.Sound) (hprogram : Builtin.ofName? c.program = none)
    (hprepare : Ends refuses k (Redirect.prepare c.redirections) (.ok p) k₁)
    (hends : ∀ fd, st.input = some fd ∨ st.output = some fd → k.descriptor? fd ≠ none)
    (hfork : k₂.descriptor? = k₁.descriptor?)
    (hexec : Reaches refuses k₂ ((forkStage c st p next).run.run s) (.exec path words environment) k') :
    (∀ r ∈ c.redirections,
      ((∃ e ∈ p, e.1.source = r.source ∧ ¬ Stays e) ∨
        ∀ d, k₁.descriptor? r.source = some d → d.closeOnExec = false) →
      ∀ d, k'.descriptor? r.source = some d → d.closeOnExec = false) ∧
      ∀ n d, k'.descriptor? n = some d → k.files.length ≤ d.file →
        (∀ r ∈ c.redirections, r.source ≠ n) → d.closeOnExec = true := by
  obtain ⟨_, ⟨⟩, hp⟩ | ⟨⟨f, hf⟩, -⟩ := Redirect.ends_prepare hprepare
  · obtain ⟨hfree, hothers⟩ := hp.numbers
    -- the ends of pipes are not among the numbers of documents
    have hpipe (fd : Int) (hfd : st.input = some fd ∨ st.output = some fd) :
        fd ∉ Redirect.documents p := fun hmem ↦ hends fd hfd (hfree fd hmem)
    obtain ⟨u₁, s₁, u₂, hdrop, hplace, happly⟩ := reaches_forkStage hprogram hexec
    have hpasses : Passes (Redirect.documents p) k₁ u₂ :=
      ((passes_of_eq hfork).trans (passes_dropEach hdrop)).trans
        (passes_takePlace (fun fd hfd ↦ hpipe fd (.inl hfd)) (fun fd hfd ↦ hpipe fd (.inr hfd)) hplace)
    have hold (m : Int) (hm : m ∉ Redirect.documents p) (file : Nat) (hfile : k₁.file? m = some file) :
        file < k.files.length := by
      obtain ⟨d, hd, rfl⟩ := Option.map_eq_some_iff.1 hfile
      exact (hk m d (hothers m hm ▸ hd)).2
    constructor
    · intro r hr hmoved d hd
      by_contra hmarked
      rw [Bool.not_eq_false] at hmarked
      obtain ⟨hplaced, hstays⟩ := Redirect.closeOnExec_of_apply happly hd hmarked
      rcases hmoved with ⟨e, he, hsource, hmoves⟩ | hunmarked
      · exact hmoves (hstays e he hsource)
      · have hd : d.closeOnExec = false := by
          obtain hbefore | ⟨hcopied, -⟩ := hpasses _ d hplaced
          · exact hunmarked d hbefore
          · exact hcopied
        rw [hmarked] at hd
        cases hd
    · intro n d hd hnew hother
      have hframe : k'.descriptor? n = u₂.descriptor? n := by
        refine Redirect.ends_apply_frame happly fun e he ↦ Ne.symm (hother e.1 ?_)
        rw [← hp.redirections]
        exact List.mem_map_of_mem he
      rw [hframe] at hd
      -- what is new is a document, and no copy of a document is made
      obtain hbefore | ⟨-, m, hm, hfile⟩ := hpasses n d hd
      · by_cases hn : n ∈ Redirect.documents p
        · obtain ⟨file, hmarked⟩ := hp.marked hn
          rw [hbefore] at hmarked
          cases hmarked
          rfl
        · have hfile : k₁.file? n = some d.file := congrArg (Option.map Descriptor.file) hbefore
          exact absurd (hold n hn _ hfile) (Nat.not_lt.2 hnew)
      · exact absurd (hold m hm _ hfile) (Nat.not_lt.2 hnew)
  · cases hf

/-- A command that is to find an empty here-document at some number. -/
def reading (source : Int) : Command := ⟨.single, ["/bin/cat"], [.document source ""]⟩

def alone : Stage := ⟨none, none, none, false, false⟩

theorem exists_prepare_reading (source : Int) :
    ∃ k₁, Ends (fun _ _ ↦ none) streams (Redirect.prepare (reading source).redirections)
        (.ok [(.document source "", some 3)]) k₁ ∧
      k₁.descriptor? = Function.update streams.descriptor? 3 (some ⟨3, true⟩) := by
  have hprepare : Ends (fun _ _ ↦ none) streams (Redirect.prepare (reading source).redirections)
      (.ok [(.document source "", some 3)]) _ :=
    ⟨[⟨.environment, []⟩, ⟨.temporary (Redirect.joinPath "/tmp" "psh-heredoc-XXXXXX"), .ok (3, "")⟩,
      ⟨.unlink "", .ok ()⟩, ⟨.setCloseOnExec 3, .ok ()⟩, ⟨.seek 3 .start, .ok ()⟩],
      .call (.call (.call (.call (.call (.done _))))),
      .cons rfl (.cons ⟨"", rfl⟩ (.cons rfl (.cons rfl (.cons rfl (.nil _)))))⟩
  refine ⟨_, hprepare, ?_⟩
  obtain ⟨_, ⟨⟩, hp⟩ | ⟨⟨f, hf⟩, -⟩ := Redirect.ends_prepare hprepare
  · cases hp with
    | document _ hinstalled hrest =>
      cases hrest
      exact hinstalled.descriptors
  · cases hf

theorem reading_reaches {source fd : Int} (h : k.Answers refuses (.duplicate fd source) (.ok ()) k')
    (s : Shell) :
    Reaches refuses k
      ((forkStage (reading source) alone [(.document source "", some fd)] none).run.run s)
      (.exec (Text.spell "/bin/cat") [Text.spell "/bin/cat"] []) k' := by
  have hfound : Reaches refuses k' (Sys.execute (Text.spell "/bin/cat") [Text.spell "/bin/cat"] [])
      (.exec (Text.spell "/bin/cat") [Text.spell "/bin/cat"] []) k' := ⟨[], _, .refl _, .nil _⟩
  have hexecute : Reaches refuses k' (executeCommand (reading source)) _ k' :=
    .after (ends_ask.2 rfl) (hfound.bind _)
  have hfork : Ends refuses k (Sys.ask .fork) (.ok .child) k := ends_ask.2 rfl
  have hplace : Ends refuses k ((takePlace alone).run.run s) (.ok (), _) k :=
    ends_then (ends_of_system (ends_joinGroup _ _ _)) (ends_then (ends_resetSignals _ _ _)
      (ends_then (ends_pure.2 ⟨rfl, rfl⟩) (ends_then (ends_of_system (ends_pure.2 ⟨rfl, rfl⟩))
        (ends_of_system (ends_pure.2 ⟨rfl, rfl⟩)))))
  have happly : Ends refuses k (Redirect.apply [(.document source "", some fd)]) (.ok ()) k' :=
    ⟨[⟨.duplicate fd source, .ok ()⟩], .call (.done _), .cons h (.nil _)⟩
  have hcarry (s : Shell) : Reaches refuses k ((carryOut (reading source)
      [(.document source "", some fd)] : Act (Except Failure Int)).run.run s) _ k' :=
    .after (ends_of_system happly) (((hexecute.bind _).bind _).bind _)
  have hchild : Reaches refuses k ((runChild (reading source) alone [(.document source "", some fd)] :
      Act (Except Failure Int)).run.run s) _ k' :=
    .bind (.after hplace (hcarry _)) _
  exact .after (ends_of_system hfork) (.after (ends_of_system (ends_pure.2 ⟨rfl, rfl⟩)) hchild)

theorem exists_reading {source : Int} (hvalid : Kernel.Valid source) (s : Shell) :
    ∃ k₁ k', Ends (fun _ _ ↦ none) streams (Redirect.prepare (reading source).redirections)
        (.ok [(.document source "", some 3)]) k₁ ∧
      Reaches (fun _ _ ↦ none) k₁
        ((forkStage (reading source) alone [(.document source "", some 3)] none).run.run s)
        (.exec (Text.spell "/bin/cat") [Text.spell "/bin/cat"] []) k' ∧
      k'.descriptor? source = some ⟨3, decide (source = 3)⟩ ∧ k'.descriptor? 3 = some ⟨3, true⟩ := by
  obtain ⟨k₁, hprepare, hnumbers⟩ := exists_prepare_reading source
  have hopen : k₁.descriptor? 3 = some ⟨3, true⟩ := by rw [hnumbers, Function.update_self]
  have hduplicate : k₁.Answers (fun _ _ ↦ none) (.duplicate 3 source) _ _ := rfl
  obtain ⟨hinvalid, -⟩ | ⟨-, hok, -, hmoved⟩ := Kernel.answers_duplicate hduplicate hopen
  · exact absurd hvalid hinvalid
  · rw [hok] at hduplicate
    refine ⟨k₁, _, hprepare, reading_reaches hduplicate s, ?_⟩
    rw [hmoved]
    by_cases hsource : source = 3
    · subst hsource
      exact ⟨hopen, hopen⟩
    · rw [if_neg (Ne.symm hsource), Function.update_self, Function.update_of_ne (Ne.symm hsource),
        decide_eq_false hsource]
      exact ⟨rfl, hopen⟩

theorem execute_inherits_redirections_moved :
    let c := reading 5
    let s : Shell := { history := ⟨0, [], 0⟩, config := .script, isInteractive := false }
    ∃ p k₁ k', Builtin.ofName? c.program = none ∧
      Ends (fun _ _ ↦ none) streams (Redirect.prepare c.redirections) (.ok p) k₁ ∧
      (∀ r ∈ c.redirections, ∃ e ∈ p, e.1.source = r.source ∧ ¬ Stays e) ∧
      Reaches (fun _ _ ↦ none) k₁ ((forkStage c alone p none).run.run s)
        (.exec (Text.spell "/bin/cat") [Text.spell "/bin/cat"] []) k' ∧
      k'.descriptor? 5 = some ⟨3, false⟩ ∧ k'.descriptor? 3 = some ⟨3, true⟩ ∧
      (∀ r ∈ c.redirections, ∀ d, k'.descriptor? r.source = some d → d.closeOnExec = false) ∧
      ∀ n d, k'.descriptor? n = some d → 3 ≤ d.file →
        (∀ r ∈ c.redirections, r.source ≠ n) → d.closeOnExec = true := by
  intro c s
  obtain ⟨k₁, k', hprepare, hreaches, hfive, hthree⟩ := exists_reading (by decide : Kernel.Valid 5) s
  have hmoves : ∀ r ∈ c.redirections,
      ∃ e ∈ [(Redirection.document 5 "", some (3 : Int))], e.1.source = r.source ∧ ¬ Stays e := by
    intro r hr
    obtain rfl := List.mem_singleton.1 hr
    exact ⟨_, List.mem_singleton.2 rfl, rfl, (by decide : (3 : Int) ≠ 5)⟩
  obtain ⟨hkept, hclosed⟩ := execute_inherits_redirections sound_streams rfl hprepare
    (fun fd hfd ↦ by cases hfd <;> contradiction) rfl hreaches
  exact ⟨_, k₁, k', rfl, hprepare, hmoves, hreaches, hfive, hthree,
    fun r hr ↦ hkept r hr (.inl (hmoves r hr)), hclosed⟩

/-- A document whose file is opened at the number to which it is redirected is closed when the program
that is to read it is executed. -/
theorem execute_closes_document :
    let c := reading 3
    let s : Shell := { history := ⟨0, [], 0⟩, config := .script, isInteractive := false }
    ∃ p k₁ k', streams.Sound ∧ Builtin.ofName? c.program = none ∧
      Ends (fun _ _ ↦ none) streams (Redirect.prepare c.redirections) (.ok p) k₁ ∧
      Reaches (fun _ _ ↦ none) k₁ ((forkStage c alone p none).run.run s)
        (.exec (Text.spell "/bin/cat") [Text.spell "/bin/cat"] []) k' ∧
      ∃ r ∈ c.redirections, ∃ d, k'.descriptor? r.source = some d ∧ d.closeOnExec = true := by
  intro c s
  obtain ⟨k₁, k', hprepare, hreaches, hthree, -⟩ := exists_reading (by decide : Kernel.Valid 3) s
  exact ⟨_, k₁, k', sound_streams, rfl, hprepare, hreaches, _, List.mem_singleton.2 rfl, _, hthree, rfl⟩

end Shell

end JobShell

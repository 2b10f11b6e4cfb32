import ScriptVault.Host.Start
import ScriptVault.Proofs.Async.Alone
import ScriptVault.Proofs.Host.Meant

/-!
# Later — what a specifier means, where that may take its time

While nothing else runs, files are asked for as at once, but for those that can only be read now.  A module that is
made from a file goes by its path; it fails only where the compiler does.
-/

namespace ScriptVault.Host

open Async

variable {ev : Evaluator} {α : Type}

/-- A host at rest: nothing can run, no task is to be started, and what was begun to be made has ended. -/
structure Rests (s : Schedule Host Work) : Prop where
  /-- Nothing can run. -/
  still : s.Still
  /-- No task is to be started. -/
  asked : s.state.asked = []
  /-- The modules that are kept were made, or could not be made. -/
  drafts : ∀ origin id, s.state.workshop.modules.at? origin = some (.pending id) →
    s.shares.at? id = none ∧ ∃ result, s.state.outcome? id = some (.code result)

/-- A host goes on to rest where nothing changes that decides what a specifier means. -/
theorem Rests.unmoved {s : Schedule Host Work} (hs : Rests s) {h : Host} (a : Unmoved s.state h) :
    Rests { s with state := h } where
  still := hs.still.withState h
  asked := a.asked.trans hs.asked
  drafts origin id hid := by
    obtain ⟨hshare, result, hresult⟩ := hs.drafts origin id (a.drafts _ _ hid)
    refine ⟨hshare, result, ?_⟩
    show Table.at? h.outcomes id = _
    rw [a.outcomes]
    exact hresult

theorem collect_of_asked {h : Host} (ha : h.asked = []) : (plan ev).collect h = ([], h) := by
  cases h
  cases ha
  rfl

/-! ### Steps that do not wait -/

variable {h : Host} {s : Schedule Host Work} {n : Nat}

theorem ends_viewing (f : Host → α) :
    ExceptT.run ((Async.view f : Async Host Work α) : Errand α) |>.Ends (plan ev) 0 s fun r s' =>
      r = .ok (f s.state) ∧ s' = s := ends_lift (Async.ends_view ⟨rfl, rfl⟩)

theorem ends_changing (f : Host → Host) (ha : (f s.state).asked = []) :
    ExceptT.run ((Async.change f : Async Host Work Unit) : Errand Unit) |>.Ends (plan ev) 0 s fun r s' =>
      r = .ok () ∧ s' = { s with state := f s.state } :=
  ends_lift (ends_change (by rw [adopt_of_none (collect_of_asked ha)]; exact ⟨rfl, rfl⟩))

theorem gives_filesLater (act : Files → α × Files) (ha : h.asked = []) :
    (KeepsFiles.withFiles act : Errand α).run.Gives (plan ev) h fun r h' => r = .ok (act h.files).1 ∧
      h' = { h with files := (act h.files).2 } :=
  gives_lift (gives_step (collect_of_asked (by exact ha)) ⟨rfl, rfl⟩)

theorem gives_trackLater (n : Nat) (id : String) (ha : h.asked = []) :
    (Files.track n id : Errand Unit).run.Gives (plan ev) h fun r h' => r = .ok () ∧
      h' = { h with files := h.files.onResolver n (·.track id) } := gives_filesLater _ ha

theorem gives_viewLater (f : Files → α) (ha : h.asked = []) :
    (Files.view f : Errand α).run.Gives (plan ev) h fun r h' => r = .ok (f h.files) ∧ h' = h := gives_filesLater _ ha

theorem gives_lookupLater (n : Nat) (identity : Identity) (form : Compile.Form) (ha : h.asked = []) :
    (Files.lookup n identity form : Errand _).run.Gives (plan ev) h fun r h' =>
      r = .ok ((h.files.resolver n).lookup h.files.snapshot identity form).1 ∧
      h' = { h with files := h.files.onResolver n fun r => (r.lookup h.files.snapshot identity form).2 } :=
  gives_filesLater _ ha

theorem ends_filesLater (act : Files → α × Files) (ha : s.state.asked = []) :
    (KeepsFiles.withFiles act : Errand α).run.Ends (plan ev) 0 s fun r s' => r = .ok (act s.state.files).1 ∧
      s' = { s with state := { s.state with files := (act s.state.files).2 } } := by
  obtain ⟨_, _, ⟨rfl, rfl⟩, hrun⟩ := @gives_filesLater ev _ _ act ha
  exact Gives.ends ⟨_, _, ⟨rfl, rfl⟩, hrun⟩

theorem ends_trackLater (n : Nat) (id : String) (ha : s.state.asked = []) :
    (Files.track n id : Errand Unit).run.Ends (plan ev) 0 s fun r s' => r = .ok () ∧
      s' = { s with state := { s.state with files := s.state.files.onResolver n (·.track id) } } :=
  ends_filesLater _ ha

theorem ends_viewLater (f : Files → α) (ha : s.state.asked = []) :
    (Files.view f : Errand α).run.Ends (plan ev) 0 s fun r s' => r = .ok (f s.state.files) ∧ s' = s :=
  ends_filesLater _ ha

theorem ends_lookupLater (n : Nat) (identity : Identity) (form : Compile.Form) (ha : s.state.asked = []) :
    (Files.lookup n identity form : Errand _).run.Ends (plan ev) 0 s fun r s' =>
      r = .ok ((s.state.files.resolver n).lookup s.state.files.snapshot identity form).1 ∧
      s' = { s with state := { s.state with
        files := s.state.files.onResolver n fun r => (r.lookup s.state.files.snapshot identity form).2 } } :=
  ends_filesLater _ ha

theorem ends_compiled {id : Nat} {Q : Except Failure (Option String) → Schedule Host Work → Prop}
    (hq : Q (Outcome.asCode (s.state.outcome? id)) s) : (compiled id).run.Ends (plan ev) 0 s Q := Async.ends_view hq

/-! ### Making modules -/

/-- A source fails to become a module: it did before, or its compiler fails. -/
def DraftFails (h : Host) (source : Source) (given : Option Header) (e : Failure) : Prop :=
  (∃ id, h.workshop.draft? source.origin = some (.pending id) ∧ h.outcome? id = some (.code (.error e))) ∨
    ∃ request, Compile.Workshop.request? source given .module = some request ∧
      (h.workshop.compile request).1 = .error e

/-- A file that was read ahead fails to become a module. -/
def FailsAsModule (h : Host) (path : String) (e : Failure) : Prop :=
  ∃ identity content, h.files.snapshot.get? path = some identity ∧ identity.content = some content ∧
    h.DraftFails (h.world.toCompile (World.sourceOf path content identity)).1
      (h.world.toCompile (World.sourceOf path content identity)).2 e

theorem Unmoved.draftFails {h' : Host} (a : Unmoved h h') {source : Source} {given : Option Header} {e : Failure}
    (hf : h'.DraftFails source given e) : h.DraftFails source given e := by
  rcases hf with ⟨id, hid, he⟩ | ⟨request, hr, he⟩
  · refine Or.inl ⟨id, ?_, ?_⟩
    · cases ho : source.origin with
      | none => rw [ho] at hid; cases hid
      | some origin => rw [ho] at hid; exact a.drafts _ _ hid
    · rw [← he]
      show Table.at? h.outcomes id = Table.at? h'.outcomes id
      rw [a.outcomes]
  · refine Or.inr ⟨request, hr, ?_⟩
    rw [compile_fst, a.compiler, ← compile_fst] at he
    exact he

/-- What comes of making a module from a source: if it fails, the compiler does. -/
def Makes (h : Host) (source : Source) (given : Option Header) (r : Except Failure α) (s : Schedule Host Work) : Prop :=
  Rested s ∧ ∀ e, r = .error e → h.DraftFails source given e
where
  /-- Nothing can run, and no task is to be started. -/
  Rested (s : Schedule Host Work) : Prop := s.Still ∧ s.state.asked = []

/-- A module that is kept was made already. -/
theorem ends_drafted (hs : Rests s) {source : Source} {given : Option Header} {id : Nat}
    (hid : s.state.workshop.draft? source.origin = some (.pending id)) :
    (drafted id).run.Ends (plan ev) 0 s (Makes s.state source given) := by
  obtain ⟨origin, ho, hid'⟩ : ∃ origin, source.origin = some origin ∧
      s.state.workshop.modules.at? origin = some (.pending id) := by
    unfold Compile.Workshop.draft? at hid
    cases ho : source.origin with
    | none => rw [ho] at hid; cases hid
    | some origin => rw [ho] at hid; exact ⟨origin, rfl, hid⟩
  obtain ⟨hshare, result, hresult⟩ := hs.drafts origin id hid'
  refine ends_then (ends_lift (ends_await hshare ⟨rfl, rfl⟩)) ?_
  refine ends_compiled ⟨⟨hs.still, hs.asked⟩, fun e he => Or.inl ⟨id, hid, ?_⟩⟩
  rw [hresult] at he ⊢
  rw [← he]
  rfl

/-- Making a module from a source with an origin, while nothing else runs. -/
theorem ends_moduleOf (hs : Rests s) (hready : s.rootReady = false) (source : Source) (given : Option Header)
    (ho : source.origin.isSome = true) : (moduleOf source given).run.Ends (plan ev) 1 s (Makes s.state source given) := by
  unfold moduleOf
  refine ends_then (ends_viewing _) ?_
  cases hkept : s.state.workshop.draft? source.origin with
  | some draft =>
    cases draft with
    | asIs => exact ends_pure ⟨⟨hs.still, hs.asked⟩, nofun⟩
    | pending id => exact (ends_drafted hs hkept).mono (Nat.zero_le 1) fun _ _ hm => hm
  | none =>
    dsimp only
    cases hrequest : Compile.Workshop.request? source given .module with
    | none => exact ends_then (ends_changing _ hs.asked) (ends_pure ⟨⟨hs.still.withState _, hs.asked⟩, nofun⟩)
    | some request =>
      simp only [ho, if_true]
      -- the draft is begun, waited for and told in one go
      show Ends (plan ev) (0 + (0 + (1 + 0))) (do
        let id ← fresh
        Async.change fun h => { h with workshop := h.workshop.keep source.origin (.pending id) }
        (do share id (.compiling request); await id)
        (compiled id).run) s _
      set h₁ : Host := { s.state with nextWork := s.state.nextWork + 1 } with hh₁
      refine ends_bind (P := fun id t => id = s.state.nextWork ∧ t = { s with state := h₁ }) (ends_step ?_) ?_
      · rw [adopt_of_none (collect_of_asked (by exact hs.asked))]
        exact ⟨rfl, rfl⟩
      rintro id _ ⟨rfl, rfl⟩
      set h₂ : Host := { h₁ with workshop := h₁.workshop.keep source.origin (.pending s.state.nextWork) } with hh₂
      refine ends_bind (P := fun _ t => t = { s with state := h₂ }) (ends_change ?_) ?_
      · rw [adopt_of_none (collect_of_asked (by exact hs.asked))]
      rintro _ _ rfl
      have hperform (id : Nat) : (plan ev).perform id (.compiling request) = .offload (fun h =>
          { h with workshop := (h.workshop.compile request).2 }.tell id
            (.code ((h.workshop.compile request).1.map some))) .done := rfl
      refine ends_bind (ends_shared (hperform _) (hs.still.withState h₂) hready (collect_of_asked (by exact hs.asked))) ?_
      rintro _ s₃ ⟨hstill, hstate, -⟩
      refine ends_compiled ⟨⟨hstill, by rw [hstate]; exact hs.asked⟩, fun e he => Or.inr ⟨request, hrequest, ?_⟩⟩
      rw [hstate] at he
      have hcompiler : h₂.workshop.compiler = s.state.workshop.compiler := by
        rw [hh₂]
        show (h₁.workshop.keep source.origin (.pending s.state.nextWork)).compiler = _
        unfold Compile.Workshop.keep
        split <;> rfl
      have hresult : (h₂.workshop.compile request).1 = (s.state.workshop.compile request).1 := by
        rw [compile_fst, hcompiler, ← compile_fst]
      have hmade : (h₂.workshop.compile request).1.map some = .error e :=
        (congrArg Outcome.asCode (Table.at?_put_same ..)).symm.trans he
      rw [← hresult]
      cases hcompile : (h₂.workshop.compile request).1 with
      | error e' => rw [hcompile] at hmade; cases hmade; rfl
      | ok code => rw [hcompile] at hmade; cases hmade

/-! ### Making code -/

theorem Makes.ok {source : Source} {given : Option Header} {β : Type} {r : Except Failure α} {s' : Schedule Host Work}
    (hm : Makes h source given r s') (b : β) : Makes h source given (.ok b : Except Failure β) s' := ⟨hm.1, nofun⟩

theorem Makes.error {source : Source} {given : Option Header} {β : Type} {e : Failure} {s' : Schedule Host Work}
    (hm : Makes h source given (.error e : Except Failure α) s') :
    Makes h source given (.error e : Except Failure β) s' := ⟨hm.1, fun _ he => hm.2 _ (by cases he; rfl)⟩

/-- The code of a version of a file, while nothing else runs. -/
theorem ends_codeLater (hs : Rests s) (hready : s.rootReady = false) (n : Nat) (path content : String)
    (identity : Identity) (source : Source) (hsource : source = World.sourceOf path content identity) :
    (Files.code transpilersLater n source).run.Ends (plan ev) 1 s
      (Makes s.state (s.state.world.toCompile source).1 (s.state.world.toCompile source).2) := by
  set post : Except Failure String → Schedule Host Work → Prop :=
    Makes s.state (s.state.world.toCompile source).1 (s.state.world.toCompile source).2 with hpost
  have horigin : source.origin = some (.file identity.token) := by rw [hsource]; rfl
  -- a transpiler that does not pass gives the code, and remembers that it did
  have done (i : Nat) (code : String) {s' : Schedule Host Work} (hr : Makes.Rested s') :
      ExceptT.run (do
        Files.noteTranspiled n i source.origin
        return code : Errand String) |>.Ends (plan ev) 0 s' post := by
    rw [horigin]
    exact ends_then (ends_filesLater _ hr.2) (ends_pure ⟨⟨hr.1.withState _, hr.2⟩, fun _ he => by cases he⟩)
  show (Files.codeFrom n source 0 [moduleOfNote, fun s => moduleOf s none]).run.Ends (plan ev) 1 s post
  unfold Files.codeFrom
  by_cases hnote : source.isNote = true
  · rw [toCompile_of_isNote (w := s.state.world) hnote] at hpost
    refine ends_except (m := 1) (n := 0) (P := fun r s' => Makes s.state (source.ofNote s.state.settings).1
      (some (source.ofNote s.state.settings).2) r s' ∧ r ≠ .ok none) ?_ ?_ fun e s' hm => hpost ▸ hm.1.error
    · unfold moduleOfNote
      rw [if_pos hnote]
      have ho : (source.ofNote s.state.settings).1.origin.isSome = true := by
        rw [show (source.ofNote s.state.settings).1.origin = source.origin from rfl, horigin]
        rfl
      exact ends_then (ends_viewing _) (ends_except (m := 1) (n := 0) (ends_moduleOf hs hready _ _ ho)
        (fun made s' hm => ends_pure ⟨hm.ok _, by simp⟩) fun e s' hm => ⟨hm.error, by simp⟩)
    · rintro made s' ⟨hm, hsome⟩
      cases made with
      | none => exact absurd rfl hsome
      | some code => exact done 0 code hm.1
  · rw [toCompile_of_not_isNote (w := s.state.world) hnote] at hpost
    have hpass : (moduleOfNote source).run.Ends (plan ev) 0 s fun r s' => r = .ok none ∧ s' = s := by
      unfold moduleOfNote
      rw [if_neg hnote]
      exact ends_pure ⟨rfl, rfl⟩
    refine ends_then hpass ?_
    dsimp only
    unfold Files.codeFrom
    refine ends_except (m := 1) (n := 0) (ends_moduleOf hs hready source none (by rw [horigin]; rfl)) (fun made s' hm => ?_)
      fun e s' hm => hpost ▸ hm.error
    cases made with
    | some code => exact done 1 code hm.1
    | none =>
      unfold Files.codeFrom
      exact ends_pure (hpost ▸ hm.ok _)

/-! ### Files -/

theorem unmoved_forgetToken (h : Host) (n token : Nat) :
    Unmoved h ({ h with files := h.files.onResolver n (·.forgetToken token) }.forget (.file token)) := by
  have a := unmoved_onResolver h n (·.forgetToken token) (fun _ => rfl) fun r _ =>
    congrArg Prod.fst (lookup_of_entries (show (r.forgetToken token).entries = r.entries from rfl) ..)
  refine a.trans ⟨rfl, rfl, rfl, rfl, fun _ => rfl, fun _ _ => rfl, rfl, rfl, rfl, fun origin draft hd => ?_, rfl, rfl⟩
  exact at?_of_at?_erase hd

theorem gives_forgetTokenLater (n token : Nat) (ha : h.asked = []) :
    ExceptT.run ((Files.forgetToken transpilersLater n token : Async Host Work Unit) : Errand Unit) |>.Gives (plan ev) h
      fun r h' => r = .ok () ∧ h' = { h with files := h.files.onResolver n (·.forgetToken token) }.forget (.file token) := by
  unfold Files.forgetToken
  refine gives_lift (gives_bind (P := fun _ h' => h' = { h with files := h.files.onResolver n (·.forgetToken token) })
    (gives_step (collect_of_asked (by exact ha)) rfl) ?_)
  rintro _ _ rfl
  exact gives_change (collect_of_asked (by exact ha)) ⟨rfl, rfl⟩

theorem ends_forgetTokenLater (n token : Nat) (ha : s.state.asked = []) :
    ExceptT.run ((Files.forgetToken transpilersLater n token : Async Host Work Unit) : Errand Unit) |>.Ends (plan ev) 0 s
      fun r s' => r = .ok () ∧ s' = { s with
        state := { s.state with files := s.state.files.onResolver n (·.forgetToken token) }.forget (.file token) } := by
  obtain ⟨_, _, ⟨rfl, rfl⟩, hrun⟩ := @gives_forgetTokenLater ev _ n token ha
  exact Gives.ends ⟨_, _, ⟨rfl, rfl⟩, hrun⟩

theorem toCompile_of_settings {w w' : World} (h : w'.settings = w.settings) (source : Source) :
    w'.toCompile source = w.toCompile source := by
  unfold World.toCompile
  rw [h]

theorem Unmoved.failsAsModule {h' : Host} (a : Unmoved h h') {path : String} {e : Failure}
    (hf : h'.FailsAsModule path e) : h.FailsAsModule path e := by
  obtain ⟨identity, content, hget, hcontent, hf⟩ := hf
  rw [toCompile_of_settings (show h'.world.settings = h.world.settings from a.settings)] at hf
  exact ⟨identity, content, by rwa [a.snapshot] at hget, hcontent, a.draftFails hf⟩

/-- What is answered for a file that was read ahead: its module, or why it fails to become one. -/
def AnswersLater (h : Host) (path : String) (r : Except Failure (Option Resolved)) : Prop :=
  match r with
  | .ok none => False
  | .ok (some found) => found.Is path (some (Path.directory path))
  | .error e => h.FailsAsModule path e

theorem Unmoved.answersLater {h' : Host} (a : Unmoved h h') {path : String} {r : Except Failure (Option Resolved)}
    (hr : h'.AnswersLater path r) : h.AnswersLater path r := by
  match r with
  | .ok none => exact hr
  | .ok (some _) => exact hr
  | .error e => exact a.failsAsModule hr

/-- The module of a version that no resolver keeps: it is made anew, and kept if the file is still as it was. -/
def makeVersion (n : Nat) (path : String) (identity : Identity) (cache : Bool) : Errand (Option Resolved) := do
  match ← Files.view fun f => identity.content.elim (f.vault.read path) .ok with
  | .error _ => return none
  | .ok content =>
    let code ← Files.code transpilersLater n ⟨content, some path, some (.file identity.token)⟩
    if ← Files.view (·.snapshot.isCurrent identity.token) then
      Files.change (Files.onResolver n (·.store identity code .module))
      return some (.ofFile path code cache)
    else
      (Files.forgetToken transpilersLater n identity.token : Async Host Work Unit)
      return some (.ofFile path code false)

theorem ends_makeVersion (hs : Rests s) (hready : s.rootReady = false) (n : Nat) (cache : Bool) {path content : String}
    {identity : Identity} (hget : s.state.files.snapshot.get? path = some identity)
    (hcontent : identity.content = some content) :
    (makeVersion n path identity cache).run.Ends (plan ev) 1 s fun r s' =>
      Makes.Rested s' ∧ s.state.AnswersLater path r := by
  refine ends_then (ends_viewLater _ hs.asked) ?_
  rw [hcontent]
  dsimp only [Option.elim]
  refine ends_except (m := 1) (n := 0) (ends_codeLater hs hready n path content identity _ rfl) (fun code s' hm => ?_)
    fun e s' hm => ⟨hm.1, identity, content, hget, hcontent, hm.2 e rfl⟩
  obtain ⟨hstill, hasked⟩ := hm.1
  refine ends_then (ends_viewLater _ hasked) ?_
  split
  · exact ends_then (ends_filesLater _ hasked) (ends_pure ⟨⟨hstill.withState _, hasked⟩, Resolved.is_ofFile ..⟩)
  · exact ends_then (ends_forgetTokenLater n _ hasked) (ends_pure ⟨⟨hstill.withState _, hasked⟩, Resolved.is_ofFile ..⟩)

/-- A resolver answers for a file that was read ahead, while nothing else runs. -/
theorem ends_resolveVersion (hs : Rests s) (hready : s.rootReady = false) (n : Nat) {path content : String}
    {identity : Identity} (hget : s.state.files.snapshot.get? path = some identity)
    (hcontent : identity.content = some content) :
    (Files.resolveVersion transpilersLater n path identity).run.Ends (plan ev) 1 s fun r s' =>
      Makes.Rested s' ∧ s.state.AnswersLater path r := by
  unfold Files.resolveVersion
  refine ends_then (ends_trackLater n path hs.asked) ?_
  have a₁ := unmoved_track s.state n path
  set h₁ : Host := { s.state with files := s.state.files.onResolver n (·.track path) } with hh₁
  have r₁ := hs.unmoved a₁
  refine ends_then (ends_lookupLater n identity .module r₁.asked) ?_
  have a₂ := a₁.trans (unmoved_lookup h₁ n identity .module)
  set h₂ : Host := { h₁ with
    files := h₁.files.onResolver n fun r => (r.lookup h₁.files.snapshot identity .module).2 } with hh₂
  have r₂ := hs.unmoved a₂
  rcases ((h₁.files.resolver n).lookup h₁.files.snapshot identity .module).1 with ⟨kept, stale⟩
  cases kept with
  | some code => exact ends_pure ⟨⟨r₂.still, r₂.asked⟩, Resolved.is_ofFile ..⟩
  | none =>
    -- whether or not other code was dropped, the code is made anew
    have making (cache : Bool) {h₃ : Host} (a₃ : Unmoved s.state h₃) :
        (makeVersion n path identity cache).run.Ends (plan ev) 1 { s with state := h₃ } fun r s' =>
          Makes.Rested s' ∧ s.state.AnswersLater path r :=
      (ends_makeVersion (hs.unmoved a₃) hready n cache (a₃.snapshot ▸ hget) hcontent).mono (Nat.le_refl 1)
        fun _ _ hr => And.imp_right a₃.answersLater hr
    cases stale with
    | false => exact making true a₂
    | true =>
      exact ends_then (ends_forgetTokenLater n identity.token r₂.asked)
        (making false (a₂.trans (unmoved_forgetToken h₂ n identity.token)))

/-- How a file resolver begins: it finds the path that a specifier means. -/
theorem ends_resolveLater {rounds : Nat} (hs : Rests s) (n : Nat) (id : String) (context : Context)
    {Q : Except Failure (Option Resolved) → Schedule Host Work → Prop}
    (hq : ∀ h, Unmoved s.state h → (ExceptT.run (match s.state.meantBy? id context n with
      | none => return none
      | some path =>
        match h.files.snapshot.get? path with
        | none => Files.resolveUnknown transpilersLater n path
        | some identity => Files.resolveVersion transpilersLater n path identity : Errand (Option Resolved))).Ends
          (plan ev) rounds { s with state := h } Q) :
    (Files.resolveLater transpilersLater n id context).run.Ends (plan ev) rounds s Q := by
  unfold Files.resolveLater
  refine ends_then (ends_trackLater n id hs.asked) ?_
  have a := unmoved_track s.state n id
  have hmade := hq _ a
  set h : Host := { s.state with files := s.state.files.onResolver n (·.track id) } with hh
  refine ends_then (ends_viewLater _ (hs.unmoved a).asked) ?_
  rw [← a.meantBy?] at hmade
  revert hmade
  dsimp only
  rw [path?_eq_meantBy?]
  cases h.meantBy? id context n with
  | none => exact fun hmade => hmade
  | some path => exact fun hmade => ends_then (ends_viewLater _ (hs.unmoved a).asked) hmade

/-- A resolver answers for the file that a specifier means to it, if that was read ahead. -/
theorem ends_resolveLater_answers (hs : Rests s) (hready : s.rootReady = false) (n : Nat) (id : String)
    (context : Context) {path : String} (hmeant : s.state.meantBy? id context n = some path)
    (hahead : s.state.isReadAhead path = true) :
    (Files.resolveLater transpilersLater n id context).run.Ends (plan ev) 1 s fun r s' =>
      Makes.Rested s' ∧ s.state.AnswersLater path r := by
  refine ends_resolveLater hs n id context fun h a => ?_
  rw [hmeant]
  dsimp only
  rw [← a.isReadAhead] at hahead
  cases hget : h.files.snapshot.get? path with
  | none => simp [isReadAhead, textAhead?, hget] at hahead
  | some identity =>
    cases hcontent : identity.content with
    | none => simp [isReadAhead, textAhead?, hget, hcontent] at hahead
    | some content =>
      exact (ends_resolveVersion (hs.unmoved a) hready n hget hcontent).mono (Nat.le_refl 1) fun _ _ hr =>
        And.imp_right a.answersLater hr

/-- A resolver that does not know the file that a specifier means leaves the question to others, at once. -/
theorem gives_resolveLater_passes (ha : h.asked = []) (n : Nat) (id : String) (context : Context)
    (hpass : (h.meantBy? id context n).filter (h.canImport n) = none) :
    (Files.resolveLater transpilersLater n id context).run.Gives (plan ev) h fun r h' =>
      r = .ok none ∧ Unmoved h h' ∧ h'.watched = h.watched := by
  unfold Files.resolveLater
  refine gives_then (gives_trackLater n id ha) ?_
  have a : Unmoved h { h with files := h.files.onResolver n (·.track id) } := unmoved_track h n id
  set h₁ : Host := { h with files := h.files.onResolver n (·.track id) } with hh₁
  have ha₁ : h₁.asked = [] := ha
  refine gives_then (gives_viewLater _ ha₁) ?_
  rw [path?_eq_meantBy?, a.meantBy?]
  cases hpath : h.meantBy? id context n with
  | none => exact gives_pure ⟨rfl, a, rfl⟩
  | some path =>
    have hcannot : h₁.canImport n path = false := by
      rw [a.canImport]
      rw [hpath] at hpass
      simpa [Option.filter] using hpass
    obtain ⟨hunread, hkept⟩ := Bool.or_eq_false_iff.1 hcannot
    obtain ⟨hunread, hgone⟩ := Bool.or_eq_false_iff.1 hunread
    obtain ⟨e, hread⟩ : ∃ e, h₁.files.vault.read path = .error e := by
      cases hread : h₁.files.vault.read path with
      | error e => exact ⟨e, rfl⟩
      | ok text => rw [hread] at hgone; cases hgone
    refine gives_then (gives_viewLater _ ha₁) ?_
    cases hget : h₁.files.snapshot.get? path with
    | none =>
      refine gives_then (gives_viewLater _ ha₁) ?_
      rw [hread]
      exact gives_pure ⟨rfl, a, rfl⟩
    | some identity =>
      have hcontent : identity.content = none := by
        cases hcontent : identity.content with
        | none => rfl
        | some content => simp [isReadAhead, textAhead?, hget, hcontent] at hunread
      unfold Files.resolveVersion
      refine gives_then (gives_trackLater n path ha₁) ?_
      have a₁ := unmoved_track h₁ n path
      set h₂ : Host := { h₁ with files := h₁.files.onResolver n (·.track path) } with hh₂
      refine gives_then (gives_lookupLater n identity .module (show h₂.asked = [] from ha)) ?_
      have a₂ := a₁.trans (unmoved_lookup h₂ n identity .module)
      have hkept₁ : ((h₂.files.resolver n).lookup h₂.files.snapshot identity .module).1.1 = none := by
        rw [← a₁.kept] at hkept
        simpa [keepsModule, show h₂.files.snapshot.get? path = some identity from hget] using hkept
      rcases hlookup : ((h₂.files.resolver n).lookup h₂.files.snapshot identity .module).1 with ⟨kept, stale⟩
      rw [hlookup] at hkept₁
      dsimp only at hkept₁
      subst hkept₁
      have unread (cache : Bool) {h₃ : Host} (a₃ : Unmoved h h₃) (hw : h₃.watched = h.watched) :
          (makeVersion n path identity cache).run.Gives (plan ev) h₃ fun r h' =>
            r = .ok none ∧ Unmoved h h' ∧ h'.watched = h.watched := by
        refine gives_then (gives_viewLater _ (a₃.asked.trans ha)) ?_
        rw [hcontent, a₃.vault, ← a.vault, Option.elim, hread]
        exact gives_pure ⟨rfl, a₃, hw⟩
      have a₃ := a.trans a₂
      cases stale with
      | false => exact unread true a₃ rfl
      | true =>
        exact gives_then (gives_forgetTokenLater n identity.token (a₃.asked.trans ha))
          (unread false (a₃.trans (unmoved_forgetToken _ n identity.token)) rfl)

/-- A resolver that does not know the file that a specifier means leaves the question to others. -/
def Passes (s : Schedule Host Work) (r : Except Failure (Option Resolved)) (s' : Schedule Host Work) : Prop :=
  r = .ok none ∧ ∃ h, s' = { s with state := h } ∧ Unmoved s.state h

theorem ends_resolveLater_passes (hs : Rests s) (n : Nat) (id : String) (context : Context)
    (hpass : (s.state.meantBy? id context n).filter (s.state.canImport n) = none) :
    (Files.resolveLater transpilersLater n id context).run.Ends (plan ev) 0 s (Passes s) := by
  obtain ⟨_, h, ⟨rfl, a, -⟩, hrun⟩ := @gives_resolveLater_passes ev _ hs.asked n id context hpass
  exact Gives.ends ⟨_, h, ⟨rfl, h, rfl, a⟩, hrun⟩

end ScriptVault.Host

import ScriptVault.Proofs.Host.Resolution

/-!
# Meant — what a specifier means

The resolvers are asked in turn, and the first that knows what a specifier means answers.  Files are asked for by
several strategies, and whether a path that is meant is known depends on who asks: at once only files that were read
ahead are, and later all that can be read too.
-/

namespace ScriptVault

/-- What a specifier means. -/
inductive Meant where
  /-- A value that the host lends. -/
  | lent (value : Value)
  /-- A file. -/
  | file (path : String)
  /-- Neither; so it may be a module from the network. -/
  | remote

/-- A module of this name and working directory, whatever its code. -/
def Resolved.Is (r : Resolved) (id : String) (cwd : Option String) : Prop := r.id = id ∧ r.cwd = cwd

/-- A file goes by its path, and works in its directory. -/
theorem Resolved.is_ofFile (path code : String) (cache : Bool) :
    (ofFile path code cache).Is path (some (Path.directory path)) := ⟨rfl, rfl⟩

namespace Host

/-- The path that a specifier means to a file resolver. -/
def meantBy? (h : Host) (id : String) (context : Context) (n : Nat) : Option String :=
  (h.files.resolver n).strategy.path? h.files.snapshot id (context.cwd.getD "")

theorem path?_eq_meantBy? (h : Host) (id : String) (context : Context) (n : Nat) :
    (h.files.resolver n).strategy.path? h.files.snapshot id (context.cwd.getD "") = h.meantBy? id context n := rfl

/-- The first path that a specifier means to one of some file resolvers which knows the path. -/
def firstFile? (h : Host) (known : Nat → String → Bool) (id : String) (context : Context) : List Nat → Option String
  | [] => none
  | n :: rest =>
    match (h.meantBy? id context n).filter (known n) with
    | some path => some path
    | none => firstFile? h known id context rest

/-- What a specifier means where each file resolver knows some paths. -/
def meant (h : Host) (known : Nat → String → Bool) (id : String) (context : Context) : Meant :=
  match if h.settings.exposeInternalModules then h.natives.modules.at? id else none with
  | some value => .lent value
  | none => (h.firstFile? known id context (List.range strategies.length)).elim .remote .file

/-- The text of a file that was read ahead. -/
def textAhead? (h : Host) (path : String) : Option String := (h.files.snapshot.get? path).bind (·.content)

/-- A file was read ahead. -/
def isReadAhead (h : Host) (path : String) : Bool := (h.textAhead? path).isSome

/-- A resolver keeps the module of a file as it is known. -/
def keepsModule (h : Host) (n : Nat) (path : String) : Bool :=
  (h.files.snapshot.get? path).any fun identity =>
    ((h.files.resolver n).lookup h.files.snapshot identity .module).1.1.isSome

/-- A file was read ahead, or can be read now, or its module is kept. -/
def canImport (h : Host) (n : Nat) (path : String) : Bool :=
  h.isReadAhead path || (h.files.vault.read path).toOption.isSome || h.keepsModule n path

/-- What decides what a specifier means, and what is made of it, is the same; only drafts may be gone. -/
structure Unmoved (h h' : Host) : Prop where
  /-- The settings. -/
  settings : h'.settings = h.settings
  /-- The modules of the host. -/
  natives : h'.natives.modules = h.natives.modules
  /-- The files. -/
  vault : h'.files.vault = h.files.vault
  /-- The files as they are known. -/
  snapshot : h'.files.snapshot = h.files.snapshot
  /-- The strategies. -/
  strategy : ∀ n, (h'.files.resolver n).strategy = (h.files.resolver n).strategy
  /-- The modules that resolvers keep. -/
  kept : ∀ n path, h'.keepsModule n path = h.keepsModule n path
  /-- The modules from the network. -/
  remote : h'.remote = h.remote
  /-- The network. -/
  network : h'.network = h.network
  /-- The compiler. -/
  compiler : h'.workshop.compiler = h.workshop.compiler
  /-- The modules that are kept or being made. -/
  drafts : ∀ origin draft, h'.workshop.modules.at? origin = some draft → h.workshop.modules.at? origin = some draft
  /-- What came of work. -/
  outcomes : h'.outcomes = h.outcomes
  /-- The tasks that are to be started. -/
  asked : h'.asked = h.asked

theorem Unmoved.refl (h : Host) : Unmoved h h :=
  ⟨rfl, rfl, rfl, rfl, fun _ => rfl, fun _ _ => rfl, rfl, rfl, rfl, fun _ _ hd => hd, rfl, rfl⟩

theorem Unmoved.trans {h h' h'' : Host} (a : Unmoved h h') (b : Unmoved h' h'') : Unmoved h h'' where
  settings := b.settings.trans a.settings
  natives := b.natives.trans a.natives
  vault := b.vault.trans a.vault
  snapshot := b.snapshot.trans a.snapshot
  strategy n := (b.strategy n).trans (a.strategy n)
  kept n path := (b.kept n path).trans (a.kept n path)
  remote := b.remote.trans a.remote
  network := b.network.trans a.network
  compiler := b.compiler.trans a.compiler
  drafts origin draft hd := a.drafts origin draft (b.drafts origin draft hd)
  outcomes := b.outcomes.trans a.outcomes
  asked := b.asked.trans a.asked

/-- A resolver may be changed where it keeps its strategy and its modules. -/
theorem unmoved_onResolver (h : Host) (n : Nat) (change : FileResolver → FileResolver)
    (hstrategy : ∀ r, (change r).strategy = r.strategy)
    (hkept : ∀ r identity, ((change r).lookup h.files.snapshot identity .module).1.1 =
      (r.lookup h.files.snapshot identity .module).1.1) :
    Unmoved h { h with files := h.files.onResolver n change } := by
  have hresolver (m : Nat) : (h.files.onResolver n change).resolver m = h.files.resolver m ∨
      (h.files.onResolver n change).resolver m = change (h.files.resolver m) := by
    unfold Files.onResolver Files.resolver
    by_cases hm : n = m
    · subst hm
      by_cases hn : n < h.files.resolvers.length <;> simp [hn]
    · exact Or.inl (by simp [hm])
  refine ⟨rfl, rfl, rfl, rfl, fun m => ?_, fun m path => ?_, rfl, rfl, rfl, fun _ _ hd => hd, rfl, rfl⟩
  · show ((h.files.onResolver n change).resolver m).strategy = _
    rcases hresolver m with hm | hm <;> rw [hm]
    exact hstrategy _
  · show Option.any (fun identity => (((h.files.onResolver n change).resolver m).lookup h.files.snapshot identity
      .module).1.1.isSome) (h.files.snapshot.get? path) = _
    rcases hresolver m with hm | hm <;> rw [hm]
    · rfl
    · simp only [hkept]
      rfl

theorem lookup_of_entries {r r' : FileResolver} (hr : r'.entries = r.entries) (s : Snapshot) (identity : Identity)
    (form : Compile.Form) : (r'.lookup s identity form).1 = (r.lookup s identity form).1 := by
  unfold FileResolver.lookup
  rw [hr]
  split
  · rfl
  · split
    · rfl
    · split <;> rfl

/-- To look again gives the same code. -/
theorem lookup_lookup (r : FileResolver) (s : Snapshot) (identity other : Identity) (form form' : Compile.Form) :
    ((r.lookup s other form').2.lookup s identity form).1.1 = (r.lookup s identity form).1.1 := by
  by_cases hsame : (r.lookup s other form').2 = r
  · rw [hsame]
  · -- what was dropped was not told before either
    unfold FileResolver.lookup at hsame
    cases hentry : r.entries.at? other.path with
    | none => rw [hentry] at hsame; exact absurd rfl hsame
    | some entry =>
      rw [hentry] at hsame
      dsimp only at hsame
      split at hsame
      · exact absurd rfl hsame
      · next htoken =>
        split at hsame
        · exact absurd rfl hsame
        · next hall =>
          have hdropped : (r.lookup s other form').2 = { r with entries := r.entries.erase other.path } := by
            unfold FileResolver.lookup
            simp only [hentry, htoken, hall, if_false, Bool.false_eq_true]
          rw [hdropped]
          by_cases hp : identity.path = other.path
          · unfold FileResolver.lookup
            simp only [hp, Table.at?_erase_same, hentry]
            split <;> rfl
          · unfold FileResolver.lookup
            simp only [Table.at?_erase_ne (Ne.symm hp)]
            split
            · rfl
            · split
              · rfl
              · split <;> rfl

theorem unmoved_track (h : Host) (n : Nat) (id : String) :
    Unmoved h { h with files := h.files.onResolver n (·.track id) } :=
  unmoved_onResolver h n _ (fun _ => rfl) fun r _ => congrArg Prod.fst (lookup_of_entries (show (r.track id).entries = r.entries from rfl) ..)

theorem unmoved_lookup (h : Host) (n : Nat) (identity : Identity) (form : Compile.Form) :
    Unmoved h { h with
      files := h.files.onResolver n fun r => (r.lookup h.files.snapshot identity form).2 } :=
  unmoved_onResolver h n _ (fun r => (lookup_tracked r _ identity form).2) fun r other => lookup_lookup r _ other _ _ _

theorem unmoved_natives (h : Host) (lent : Bool) (id : String) :
    Unmoved h { h with natives := (h.natives.resolve lent id).2 } :=
  ⟨rfl, rfl, rfl, rfl, fun _ => rfl, fun _ _ => rfl, rfl, rfl, rfl, fun _ _ hd => hd, rfl, rfl⟩

variable {h h' : Host}

theorem Unmoved.meantBy? (a : Unmoved h h') (id : String) (context : Context) (n : Nat) :
    h'.meantBy? id context n = h.meantBy? id context n := by
  unfold Host.meantBy?
  rw [a.strategy, a.snapshot]

theorem Unmoved.textAhead? (a : Unmoved h h') (path : String) : h'.textAhead? path = h.textAhead? path := by
  unfold Host.textAhead?
  rw [a.snapshot]

theorem Unmoved.isReadAhead (a : Unmoved h h') : h'.isReadAhead = h.isReadAhead := by
  funext path
  unfold Host.isReadAhead
  rw [a.textAhead?]

theorem Unmoved.canImport (a : Unmoved h h') : h'.canImport = h.canImport := by
  funext n path
  unfold Host.canImport
  rw [a.isReadAhead, a.vault, a.kept]

theorem Unmoved.firstFile? (a : Unmoved h h') (known : Nat → String → Bool) (id : String) (context : Context)
    (ns : List Nat) : h'.firstFile? known id context ns = h.firstFile? known id context ns := by
  induction ns with
  | nil => rfl
  | cons n rest ih =>
    unfold Host.firstFile?
    rw [a.meantBy?, ih]

theorem Unmoved.meant (a : Unmoved h h') (known : Nat → String → Bool) (id : String) (context : Context) :
    h'.meant known id context = h.meant known id context := by
  unfold Host.meant
  rw [a.firstFile?, a.settings, a.natives]

/-! ### At once -/

/-- What a file resolver answers at once. -/
def AnswersFile (h : Host) (id : String) (context : Context) (n : Nat) (r : Except Failure (Option Resolved))
    (h' : Host) : Prop :=
  match (h.meantBy? id context n).filter h.isReadAhead with
  | none => r = .ok none ∧ Unmoved h h'
  | some path => r ≠ .ok none ∧ ∀ found, r = .ok (some found) → found.Is path (some (Path.directory path))

theorem ends_forgetToken_any (h : Host) (n token : Nat) :
    Action.Ends (liftM (Files.forgetToken transpilers n token)) h fun r _ => ∃ a : Unit, r = .ok a :=
  (ends_forgetToken h n token).mono fun _ _ ⟨a, hr, _⟩ => ⟨a, hr⟩

/-- A transpiler comes to an end. -/
theorem ends_transpiler (source : Source) {transpiler : Source → Action (Option String)}
    (ht : transpiler ∈ transpilers.row) (h : Host) : Action.Ends (transpiler source) h fun _ _ => True := by
  have script (source : Source) (given : Option Header) (h : Host) :
      Action.Ends (scriptOf source given) h fun _ _ => True := ⟨_, _, exec_scriptOf .., trivial⟩
  rcases List.mem_cons.1 ht with rfl | ht
  · unfold scriptOfNote
    split
    · refine Action.ends_bind ⟨_, _, Action.exec_get h, Action.ends_bind ((script _ _ h).mono fun r h' _ => ?_)⟩
      cases r with
      | error e => trivial
      | ok made => exact Action.ends_pure trivial
    · exact Action.ends_pure trivial
  · rw [List.mem_singleton.1 ht]
    exact script source none h

/-- The code of a source is told in the end, or why there is none. -/
theorem ends_codeFrom (n : Nat) (source : Source) (row : List (Source → Action (Option String)))
    (hrow : ∀ transpiler ∈ row, transpiler ∈ transpilers.row) (i : Nat) (h : Host) :
    Action.Ends (Files.codeFrom n source i row) h fun _ _ => True := by
  induction row generalizing i h with
  | nil => exact Action.ends_pure trivial
  | cons transpiler rest ih =>
    unfold Files.codeFrom
    refine Action.ends_bind ((ends_transpiler source (hrow _ (List.mem_cons_self ..)) h).mono fun r h' _ => ?_)
    cases r with
    | error e => trivial
    | ok made =>
      cases made with
      | none => exact ih (fun t ht => hrow t (List.mem_cons_of_mem _ ht)) (i + 1) h'
      | some code =>
        refine Action.ends_bind (p := fun _ _ => True) ?_
        unfold Files.noteTranspiled
        split
        · exact Action.ends_withFiles (Action.ends_pure trivial)
        · exact Action.ends_pure (Action.ends_pure trivial)

/-- A file resolver answers for the file that it means, if that was read ahead. -/
theorem ends_filesResolve_any (h : Host) (n : Nat) (id : String) (context : Context) :
    Action.Ends (Files.resolve transpilers n id context) h (h.AnswersFile id context n) := by
  have a := unmoved_track h n id
  unfold Files.resolve
  refine Action.ends_bind (Action.ends_withFiles (Action.ends_bind (Action.ends_withFiles ?_)))
  set h₁ : Host := { h with files := h.files.onResolver n (·.track id) } with hh₁
  have hmeant : (h₁.files.resolver n).strategy.path? h₁.files.snapshot id (context.cwd.getD "") =
      h.meantBy? id context n := a.meantBy? id context n
  unfold AnswersFile
  dsimp only
  rw [hmeant]
  cases hpath : h.meantBy? id context n with
  | none => exact Action.ends_pure ⟨rfl, a⟩
  | some path =>
    have hfilter : (some path).filter h.isReadAhead = if h.isReadAhead path then some path else none := by
      simp [Option.filter]
    rw [hfilter]
    refine Action.ends_bind (Action.ends_withFiles ?_)
    dsimp only
    have hahead : h.isReadAhead path = ((h₁.files.snapshot.get? path).bind (·.content)).isSome := rfl
    rw [hahead]
    cases hget : h₁.files.snapshot.get? path with
    | none => exact Action.ends_pure ⟨rfl, a⟩
    | some identity =>
      cases hcontent : identity.content with
      | none =>
        simp only [hcontent, Option.bind_some, Option.isSome_none, Bool.false_eq_true, if_false]
        exact Action.ends_pure ⟨rfl, a⟩
      | some content =>
        simp only [hcontent, Option.bind_some, Option.isSome_some, if_true]
        refine Action.ends_bind (Action.ends_withFiles (Action.ends_bind (Action.ends_withFiles ?_)))
        dsimp only
        split
        · refine Action.ends_pure ⟨by simp, ?_⟩
          rintro _ ⟨⟩
          exact Resolved.is_ofFile ..
        · -- the code is made anew, whether or not other code was dropped
          have making (cache : Bool) (h : Host) : Action.Ends (do
              let code ← Files.code transpilers n ⟨content, some path, some (.file identity.token)⟩
              Files.change (Files.onResolver n (·.store identity code .script))
              return some (Resolved.ofFile path code cache)) h fun r _ => r ≠ .ok none ∧
                ∀ found, r = .ok (some found) → found.Is path (some (Path.directory path)) := by
            refine Action.ends_bind ((ends_codeFrom n _ _ (fun _ ht => ht) 0 h).mono fun r h' _ => ?_)
            cases r with
            | error e => exact ⟨by simp, fun _ hr => by cases hr⟩
            | ok code =>
              refine Action.ends_bind (Action.ends_withFiles (Action.ends_pure ⟨by simp, ?_⟩))
              rintro _ ⟨⟩
              exact Resolved.is_ofFile ..
          split
          · refine Action.ends_bind ((ends_forgetToken_any _ n identity.token).mono ?_)
            rintro r h' ⟨_, rfl⟩
            exact making _ h'
          · exact making _ _

/-- A module is what a specifier means. -/
def Says (h : Host) (id : String) (context : Context) : Meant → Resolved → Prop
  | .lent value, r => r = { id := id, value := some value }
  | .file path, r => r.Is path (some (Path.directory path))
  | .remote, r => h.settings.enableExternalLinks = true ∧ ∃ href module,
      h.remote.address? id context.cwd = some href ∧ h.remote.modules.at? href = some (.ready module) ∧
        r = Remote.resolved href module

theorem Unmoved.said (a : Unmoved h h') {id : String} {context : Context} {meant : Meant} {found : Resolved} :
    h'.Says id context meant found ↔ h.Says id context meant found := by
  cases meant with
  | lent value => rfl
  | file path => rfl
  | remote =>
    unfold Says
    rw [a.settings, a.remote]

/-- An attempt that answers for what a specifier means, once those before it did not. -/
def Tells (h : Host) (x : Action (Option Resolved)) (post : Resolved → Prop) : Prop :=
  ∀ h', Unmoved h h' → x.Ends h' fun r _ => ∀ found, r = .ok (some found) → post found

theorem tells_firstFile (h : Host) (id : String) (context : Context) (last : List (Action (Option Resolved)))
    (post : Resolved → Prop) (ns : List Nat)
    (hfile : ∀ path, h.firstFile? (fun _ => h.isReadAhead) id context ns = some path →
      ∀ found : Resolved, found.Is path (some (Path.directory path)) → post found)
    (hlast : h.firstFile? (fun _ => h.isReadAhead) id context ns = none → h.Tells (firstAnswer last) post) :
    h.Tells (firstAnswer (ns.map (fun n => Files.resolve transpilers n id context) ++ last)) post := by
  induction ns with
  | nil => exact hlast rfl
  | cons n rest ih =>
    intro h' a
    refine Action.ends_bind ((ends_filesResolve_any h' n id context).mono fun r h'' hr => ?_)
    unfold AnswersFile at hr
    unfold firstFile? at hfile hlast
    rw [a.meantBy?, a.isReadAhead] at hr
    cases hknown : (h.meantBy? id context n).filter h.isReadAhead with
    | none =>
      rw [hknown] at hr hfile hlast
      obtain ⟨rfl, a'⟩ := hr
      exact ih hfile hlast h'' (a.trans a')
    | some path =>
      rw [hknown] at hr hfile
      obtain ⟨hnone, hfound⟩ := hr
      match r with
      | .error e => exact nofun
      | .ok none => exact absurd rfl hnone
      | .ok (some found) =>
        refine Action.ends_pure ?_
        rintro _ ⟨⟩
        exact hfile path rfl found (hfound found rfl)

theorem ends_resolveNative_any (h : Host) (id : String) :
    Action.Ends (resolveNative id) h fun r h' => Unmoved h h' ∧
      r = .ok ((if h.settings.exposeInternalModules then h.natives.modules.at? id else none).map fun value =>
        { id := id, value := some value }) := by
  refine ⟨_, _, Action.exec_modifyGet _ h, unmoved_natives .., ?_⟩
  show Except.ok (if _ then _ else none) = _
  split <;> rfl

/-- What the network's modules answer. -/
theorem says_of_remote {h : Host} {id : String} {context : Context} {found : Resolved}
    (hr : (h.remote.resolve h.settings.enableExternalLinks id context.cwd).1 = .ok (some found)) :
    h.Says id context .remote found := by
  unfold Remote.resolve at hr
  cases haddress : h.remote.address? id context.cwd with
  | none => rw [haddress] at hr; cases hr
  | some href =>
    rw [haddress] at hr
    dsimp only [Remote.track] at hr
    split at hr
    · cases hr
    · next hallowed =>
      refine ⟨by simpa using hallowed, href, ?_⟩
      split at hr
      · next module hmodule => cases hr; exact ⟨module, haddress, hmodule, rfl⟩
      · cases hr
      · cases hr
      · cases hr

/-- What a specifier is resolved to at once is what it means where the files are known that were read ahead. -/
theorem ends_resolve_meant (h : Host) (id : String) (context : Context) :
    Action.Ends (resolve id context) h fun r _ =>
      ∀ found, r = .ok (some found) → h.Says id context (h.meant (fun _ => h.isReadAhead) id context) found := by
  unfold resolve meant
  refine Action.ends_bind ((ends_resolveNative_any h id).mono fun r h' ⟨a, hr⟩ => ?_)
  subst hr
  cases (if h.settings.exposeInternalModules then h.natives.modules.at? id else none) with
  | some value =>
    refine Action.ends_pure ?_
    rintro _ ⟨⟩
    rfl
  | none =>
    refine tells_firstFile h id context _ _ _ (fun path hpath found hfound => ?_) (fun hnone h₁ a₁ => ?_) h' a
    · rw [hpath]
      exact hfound
    · rw [hnone]
      unfold firstAnswer
      refine Action.ends_bind ⟨_, _, exec_resolveRemote .., ?_⟩
      cases hanswer : (h₁.remote.resolve h₁.settings.enableExternalLinks id context.cwd).1 with
      | error e => exact nofun
      | ok answer =>
        cases answer with
        | none => exact Action.ends_pure nofun
        | some found =>
          refine Action.ends_pure ?_
          rintro _ ⟨⟩
          exact a₁.said.1 (says_of_remote hanswer)

end Host

end ScriptVault

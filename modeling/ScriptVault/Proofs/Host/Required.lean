import ScriptVault.Proofs.Host.Current

/-!
# Required — what modules require was asked for

A module's requirement is recorded before anybody looks for it, and the first resolver of files that is asked for it
remembers it, whether or not there is such a file.  So whatever is recorded is followed, unless a value is lent
under this name; and loading keeps it so.
-/

namespace ScriptVault

/-- To insert a name twice is to insert it once. -/
theorem Names.insert_insert (names : Names) (name : String) : (names.insert name).insert name = names.insert name := by
  induction names with
  | nil => simp [insert]
  | cons n rest ih =>
    by_cases hn : n = name
    · simp [insert, hn]
    · by_cases hlt : name < n
      · simp [insert, hn, hlt]
      · simp only [insert, if_neg hn, if_neg hlt, ih]

namespace Loader

/-- The specifiers that a module requires. -/
def requires (loader : Loader) (p : String) : Names := Graph.namesAt loader.graph.dependencies p

variable {loader : Loader} {p s : String}

theorem requires_depend {context : Context} {id : String} (h : s ∈ (loader.depend context id).requires p) :
    s ∈ loader.requires p ∨ s = id := by
  unfold depend at h
  cases hp : context.parent with
  | none =>
    rw [hp] at h
    exact Or.inl h
  | some parent =>
    rw [hp] at h
    exact (Graph.mem_namesAt_addName.1 h).elim (fun h => Or.inr h.2) Or.inl

/-- To invalidate a module adds no requirement. -/
theorem requires_invalidate {g : Graph Slots} {id : String}
    (h : s ∈ Graph.namesAt (g.invalidate id).2.dependencies p) : s ∈ Graph.namesAt g.dependencies p := by
  obtain ⟨ids, he⟩ := g.exists_evicted_invalidate id
  rw [he] at h
  exact ((Graph.mem_evicted_dependencies g ids).1 h).2

/-- To let a specifier stand for a module adds no requirement. -/
theorem requires_settled {raw : String} {resolved : Resolved} (h : s ∈ (loader.settled raw resolved).2.requires p) :
    s ∈ loader.requires p := by
  have hassign : s ∈ (loader.assign raw resolved.id).2.requires p := by
    unfold settled at h
    split at h <;> exact h
  have hframe := (loader.graph.assign_frame raw resolved.id).2.1
  by_cases hr : loader.Repoints raw resolved.id
  · rw [assign_eq_of_repoints hr] at hassign
    have := requires_invalidate hassign
    rwa [hframe] at this
  · rw [assign_eq_of_steady hr, requires, hframe] at hassign
    exact hassign

end Loader

namespace Host

/-! ### Resolvers that are asked -/

theorem exec_track (h : Host) (n : Nat) (id : String) :
    (Files.track n id : Action Unit).exec h = some (.ok (), { h with files := h.files.onResolver n (·.track id) }) :=
  rfl

/-- To ask a resolver twice is to ask it once. -/
theorem onResolver_track_track (f : Files) (n : Nat) (id : String) :
    (f.onResolver n (·.track id)).onResolver n (·.track id) = f.onResolver n (·.track id) := by
  unfold Files.onResolver
  by_cases hn : n < f.resolvers.length
  · simp [Files.resolver, FileResolver.track, hn, Names.insert_insert]
  · simp [List.set_eq_of_length_le (Nat.le_of_not_lt hn)]

variable {l : Nat} {h h' : Host}

/-- A resolver of files remembers what it is asked for. -/
theorem ends_filesResolve_tracked (hk : h.Kept) {n : Nat} (hn : n < strategies.length) (id : String)
    (context : Context) :
    Action.Ends (Files.resolve transpilers n id context) h fun _ h' => Asked h h' ∧ h'.Tracked id := by
  set h₁ : Host := { h with files := h.files.onResolver n (·.track id) } with hh₁
  have hagain : { h₁ with files := h₁.files.onResolver n (·.track id) } = h₁ := by
    rw [hh₁]
    exact congrArg (fun f => { h with files := f }) (onResolver_track_track h.files n id)
  have hsame : Action.exec (Files.resolve transpilers n id context) h =
      Action.exec (Files.resolve transpilers n id context) h₁ := by
    unfold Files.resolve
    rw [Action.exec_bind, Action.exec_bind, exec_track, exec_track, hagain]
  obtain ⟨r, h', hr, ha, -, -⟩ := ends_filesResolve ((asked_track h n id).kept hk) hn id context
  exact ⟨r, h', hsame.trans hr, (asked_track h n id).trans ha, ha.tracked id (hk.tracked_track hn id)⟩

/-- Whatever is looked for is remembered, unless a value is lent under this name. -/
theorem ends_resolve_tracked (hk : h.Kept) (id : String) (context : Context) (hlent : h.world.lent id = none) :
    (resolve id context).Ends h fun _ h' => h'.Tracked id := by
  cases attempts_row h.world id context with
  | cons _ hfiles => cases hfiles with
  | cons _ hrest =>
  refine Action.ends_bind ((ends_resolveNative h id).mono fun r h₁ ⟨ha, hr⟩ => ?_)
  rw [World.lentAnswer, hlent] at hr
  subst hr
  refine Action.ends_bind ((ends_filesResolve_tracked (ha.kept hk) (by decide) id context).mono
    fun r h₂ ⟨ha₂, ht⟩ => ?_)
  cases r with
  | error e => exact ht
  | ok found =>
    cases found with
    | some resolved => exact Action.ends_pure ht
    | none =>
      exact (attempts_first hrest h₂ ((ha.trans ha₂).kept hk) (ha.trans ha₂).world).mono fun _ _ ⟨ha₃, _⟩ =>
        ha₃.tracked id ht

/-! ### Loads that record what they ask for -/

/-- Whatever is required newly was asked for. -/
structure Records (l : Nat) (h h' : Host) : Prop extends Loads l h h' where
  /-- A requirement was there before, or it is followed. -/
  asked : ∀ p, ∀ s ∈ (h'.loader l).requires p, s ∈ (h.loader l).requires p ∨ (h.world.lent s = none → h'.Tracked s)

namespace Records

variable {h'' : Host}

theorem of_requires (a : Loads l h h') (hr : ∀ p, ∀ s ∈ (h'.loader l).requires p, s ∈ (h.loader l).requires p) :
    Records l h h' := ⟨a, fun p s hs => Or.inl (hr p s hs)⟩

theorem trans (a : Records l h h') (b : Records l h' h'') : Records l h h'' where
  toLoads := a.toLoads.trans b.toLoads
  asked p s hs := by
    rcases b.asked p s hs with hs | ht
    · exact (a.asked p s hs).imp id fun ht hlent => b.tracked s (ht hlent)
    · exact Or.inr (a.world ▸ ht)

/-- A loader may be changed that goes on to require what it required. -/
theorem onLoader (h : Host) {f : Loader → Loader} (hlisten : ∀ loader, (f loader).listening = loader.listening)
    (hf : ∀ loader p, (f loader).requires p = loader.requires p) : Records l h (h.onLoader l f) := by
  refine of_requires (Loads.onLoader l h f hlisten) fun p s hs => ?_
  by_cases hl : l < h.loaders.length
  · rwa [loader_onLoader hl, hf] at hs
  · simpa [Host.onLoader, loader, hl] using hs

theorem heap (l : Nat) (h : Host) (heap : Heap) (hheap : h.heap.records.size ≤ heap.records.size) :
    Records l h { h with heap := heap } := of_requires (Loads.heap l h heap hheap) fun _ _ hs => hs

theorem entered (l : Nat) (cwd : Option String) (h : Host) : Records l h (h.entered l cwd) :=
  onLoader h (fun _ => rfl) fun _ _ => rfl

theorem opened (l : Nat) (resolved : Resolved) (h : Host) : Records l h (h.opened l resolved) :=
  (onLoader h (f := (·.enter [resolved.cwd] [resolved.id])) (fun _ => rfl) fun _ _ => rfl).trans
    (of_requires (Returns.scripts l _ _).toLoads fun _ _ hs => hs)

theorem closed (l : Nat) (h : Host) : Records l h (h.closed l) := onLoader h (fun _ => rfl) fun _ _ => rfl

theorem fill (l : Nat) (id : String) (slot : ScriptSlot) (h : Host) : Records l h (h.fill l id slot) :=
  onLoader h (fun _ => rfl) fun _ _ => rfl

theorem claim (l : Nat) (resolved : Resolved) (h : Host) : Records l h (Host.claim l resolved h).2 := by
  unfold Host.claim
  split
  · exact of_requires (Loads.refl l h) fun _ _ hs => hs
  · split
    · exact fill ..
    · exact (heap l h _ (newModule_grows h.heap)).trans (fill ..)

theorem fail (l : Nat) (id : String) (object : Nat) (e : Failure) (h : Host) :
    Records l h (Host.fail l id object e h) := by
  have same : Records l h h := of_requires (Loads.refl l h) fun _ _ hs => hs
  unfold Host.fail
  split
  · split
    · exact fill ..
    · exact same
  · exact same

theorem close (l object : Nat) (h : Host) : Records l h (Host.close object h).2 := by
  refine of_requires (returns_close l object h).toLoads fun p s hs => ?_
  unfold Host.close at hs
  split at hs <;> exact hs

theorem put (l : Nat) (exports : Value) (specifier : String) (v : Value) (h : Host) :
    Records l h (h.put exports specifier v) := of_requires (returns_put ..).toLoads fun _ _ hs => hs

end Records

/-- To look for a module records the specifier that is asked for. -/
theorem records_find (hk : h.Kept) (hl : l < h.loaders.length) {id : String} {r : Except Failure Resolved}
    (hr : (find l id).exec h = some (r, h')) : Records l h h' := by
  refine ⟨(returns_find hk hl hr).toLoads, fun p s hs => ?_⟩
  rw [exec_find] at hr
  obtain ⟨⟨found, h₁⟩, hfound, hr⟩ := Option.bind_eq_some_iff.1 hr
  have hkept := depend_kept hk l (h.contextOf l) id
  obtain ⟨_, _, hfound', ha, -⟩ := attempts_resolve _ id (h.contextOf l) _ hkept rfl
  cases hfound'.symm.trans hfound
  have hl₁ : l < h₁.loaders.length := by
    rw [ha.loaders]
    simpa [depend, Host.onLoader] using hl
  have hloader : h₁.loader l = (h.loader l).depend (h.contextOf l) id := by
    rw [loader, ha.loaders]
    exact loader_onLoader hl _
  have htracked (hlent : h.world.lent id = none) : h₁.Tracked id := by
    obtain ⟨_, _, hx, ht⟩ := ends_resolve_tracked hkept id (h.contextOf l) hlent
    cases hx.symm.trans hfound
    exact ht
  -- what is required now was required before, or it is what is being looked for
  have asked (hs : s ∈ (h₁.loader l).requires p) (hkeeps : h₁.Tracked id → h'.Tracked id) :
      s ∈ (h.loader l).requires p ∨ (h.world.lent s = none → h'.Tracked s) := by
    rw [hloader] at hs
    refine (Loader.requires_depend hs).imp (fun hs => hs) fun he hlent => ?_
    subst he
    exact hkeeps (htracked hlent)
  cases found with
  | error e =>
    cases hr
    exact asked hs fun ht => ht
  | ok found =>
    rcases exec_known hr with ⟨-, -, rfl⟩ | ⟨resolved, -, -, rfl⟩
    · exact asked hs fun ht => ht
    · rw [settle_loader hl₁] at hs
      exact asked (Loader.requires_settled hs) ((returns_settle hl₁ id resolved _).tracked id)

/-- To load a module records whatever is asked for. -/
theorem records_require (depth : Nat) {id : String} {cwd : Option String} (hk : h.Kept) (hl : l < h.loaders.length)
    {r : Except Failure Value} (hr : (require Scan.evaluator depth l id cwd).exec h = some (r, h')) :
    Records l h h' := by
  induction depth generalizing h h' id cwd r with
  | zero => cases hr
  | succ depth ih =>
    obtain ⟨h₁, hcourse, rfl⟩ := course_of_exec hr
    suffices hbefore : Records l h h₁ from hbefore.trans (Records.onLoader h₁ (fun _ => rfl) fun _ _ => rfl)
    have hin := Records.entered l cwd h
    have found {x : Except Failure Resolved} {h₂ : Host} (hf : (find l id).exec (h.entered l cwd) = some (x, h₂)) :
        Records l h h₂ := hin.trans (records_find (hin.kept hk) (by rw [hin.count]; exact hl) hf)
    have claimed {resolved : Resolved} {h₂ : Host} {x : Except Failure Value ⊕ Nat} {h₃ : Host}
        (hf : Finds l h id cwd resolved h₂) (hc : claim l resolved h₂ = (x, h₃)) : Records l h h₃ := by
      have := Records.claim l resolved h₂
      rw [hc] at this
      exact (found hf).trans this
    have loaded {resolved : Resolved} {h₂ : Host} {object : Nat} {calls : List Script.Call} {x : Except Failure Unit}
        {h₃ : Host} (ha : Records l h h₂)
        (hloads : (loading depth l object h₂ calls).exec (h₂.opened l resolved) = some (x, h₃)) :
        Records l h (h₃.closed l) := by
      have nested {s : String} {h₄ h₅ : Host} {y : Except Failure Value} (ha : Records l h h₄)
          (hy : (require Scan.evaluator depth l s none).exec h₄ = some (y, h₅)) : Records l h h₅ :=
        ha.trans (ih (ha.kept hk) (by rw [ha.count]; exact hl) hy)
      rcases loadAll_walk (fun _ h₄ => Records l h h₄)
        (fun _ _ _ _ _ _ _ ha hy => (nested ha hy).trans (Records.put ..)) (ha.trans (Records.opened ..)) hloads with
        ⟨-, ha⟩ | ⟨_, _, _, _, _, -, -, ha, hy⟩
      · exact ha.trans (Records.closed ..)
      · exact (nested ha hy).trans (Records.closed ..)
    cases hcourse with
    | unfound hf => exact found hf
    | served hf hc => exact claimed hf hc
    | unreadable hf hc _ he =>
      refine Records.trans ?_ (Records.fail ..)
      rcases he with rfl | rfl
      · exact claimed hf hc
      · exact ((claimed hf hc).trans (Records.opened ..)).trans (Records.closed ..)
    | finished hf hc _ hloads => exact (loaded (claimed hf hc) hloads).trans (Records.close ..)
    | broken hf hc _ hloads => exact (loaded (claimed hf hc) hloads).trans (Records.fail ..)

/-! ### Hosts that heed what their modules require -/

/-- Whatever the modules of a loader require is followed, unless a value is lent under this name. -/
def Heeds (l : Nat) (h : Host) : Prop :=
  ∀ p, ∀ s ∈ (h.loader l).requires p, h.world.lent s = none → h.Tracked s

theorem Heeds.records (hh : h.Heeds l) (a : Records l h h') : h'.Heeds l := fun p s hs hlent => by
  rw [a.world] at hlent
  exact (a.asked p s hs).elim (fun hs => a.tracked s (hh p s hs hlent)) fun ht => ht hlent

end Host

end ScriptVault

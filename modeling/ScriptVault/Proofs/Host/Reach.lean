import ScriptVault.Host.Session
import ScriptVault.Proofs.Host.Lifetime

/-!
# Reach — what is done at once is made of moves

An announcement is a row of evictions, and so is whatever forgets, follows a change or takes over settings.  What
resolvers, compilers and the network keep is beside the loaders, and nothing that tells of startup modules.  None of this
touches the stacks of a loader, so it is allowed by every relation that allows the moves which keep them.
-/

namespace ScriptVault

/-- A loader is told of what the innermost module asked for beside its slots. -/
theorem Loader.depend_cache (context : Context) (id : String) (loader : Loader) :
    (loader.depend context id).graph.cache = loader.graph.cache := by
  unfold depend
  split <;> rfl

theorem Loader.depend_context (context : Context) (id : String) (loader : Loader) :
    (loader.depend context id).context = loader.context := by
  unfold depend
  split <;> rfl

/-- A move that keeps the stacks of all loaders. -/
def Move.Quiet : Move → Prop
  | .around _ f _ => ∀ loader, (f loader).context = loader.context
  | _ => True

/-- A move within the loaders. -/
def Move.Inside : Move → Prop
  | .aside _ _ => False
  | _ => True

/-- Only what is beside the loaders is changed, and nothing that tells of startup modules. -/
structure Host.Offstage (h h' : Host) : Prop extends Host.Beside h h' where
  /-- The startup modules are as they were. -/
  startup : h'.startup = h.startup
  /-- The settings are the same. -/
  settings : h'.settings = h.settings
  /-- Nothing is announced. -/
  announced : h'.announced = h.announced
  /-- No task is asked for. -/
  asked : h'.asked = h.asked

/-- A relation that allows what tells nothing of startup modules, the moves within loaders which keep their stacks, and
to do what it allows with some more entries on the stacks of one. -/
class Permits (R : Host → Host → Prop) : Prop extends IsPreorder Host R where
  /-- It allows what is beside the loaders and tells nothing of startup modules. -/
  offstage : ∀ {h h' : Host}, h.Offstage h' → R h h'
  /-- It allows the moves within loaders that keep all stacks. -/
  inside : ∀ m : Move, m.Quiet → m.Inside → ∀ h, R h (m.act h)
  /-- It allows to push entries before and to take as many off afterwards. -/
  around : ∀ {h h' : Host} (l : Nat) (cwds : List (Option String)) (parents : List String),
    R (h.onLoader l (·.enter cwds parents)) h' → R h (h'.onLoader l (·.leave cwds.length parents.length))

/-- A relation that allows all moves which keep the stacks of loaders, and to do what it allows with some more entries
on the stacks of one. -/
class Allows (R : Host → Host → Prop) : Prop extends IsPreorder Host R where
  /-- It allows the moves that keep all stacks. -/
  quiet : ∀ m : Move, m.Quiet → ∀ h, R h (m.act h)
  /-- It allows to push entries before and to take as many off afterwards. -/
  around : ∀ {h h' : Host} (l : Nat) (cwds : List (Option String)) (parents : List String),
    R (h.onLoader l (·.enter cwds parents)) h' → R h (h'.onLoader l (·.leave cwds.length parents.length))

namespace Host

variable {h h' h'' : Host}

theorem Reaches.refl (h : Host) : Reaches h h := refl_of Reaches h

theorem Reaches.trans (a : Reaches h h') (b : Reaches h' h'') : Reaches h h'' := trans_of Reaches a b

/-- A loader changes beside its slots in one move. -/
theorem reaches_onLoader (h : Host) (l : Nat) {f : Loader → Loader}
    (hf : ∀ loader, (f loader).graph.cache = loader.graph.cache) : Reaches h (h.onLoader l f) :=
  Reaches.act (.around l f hf) h

instance : Allows Reaches where
  quiet m _ h := Reaches.act m h
  around {h h'} l cwds parents hr := by
    have henter := reaches_onLoader h l (f := (·.enter cwds parents)) fun _ => rfl
    have hleave := reaches_onLoader h' l (f := (·.leave cwds.length parents.length)) fun _ => rfl
    exact henter.trans (hr.trans hleave)

variable {R : Host → Host → Prop}

/-- All that is beside the loaders may change in one move. -/
theorem Beside.allowed [Allows R] (hb : Beside h h') : R h h' := by
  classical
  have hbeside (g : Host) : g.Beside (if g = h then h' else g) := by
    by_cases hg : g = h
    · rw [if_pos hg, hg]
      exact hb
    · rw [if_neg hg]
      exact Beside.refl g
  have hact := Allows.quiet (R := R) (.aside (fun g => if g = h then h' else g) hbeside) trivial h
  rwa [Move.act, if_pos rfl] at hact

instance [Allows R] : Permits R where
  offstage hb := hb.toBeside.allowed
  inside m hm _ := Allows.quiet m hm
  around := Allows.around

theorem allows_startup [Allows R] (h : Host) (startup : Startup) : R h { h with startup := startup } :=
  Beside.allowed ⟨rfl, Nat.le_refl _, Nat.le_refl _⟩

variable [Permits R]

/-- Where no object is given up, and no number, all else may change that is neither a loader nor tells of startup
modules. -/
theorem allows_rest (hbeside : Beside h h')
    (hrest : (h'.startup, h'.settings, h'.announced, h'.asked) = (h.startup, h.settings, h.announced, h.asked)) :
    R h h' := by
  simp only [Prod.mk.injEq] at hrest
  obtain ⟨hstartup, hsettings, hannounced, hasked⟩ := hrest
  exact Permits.offstage ⟨hbeside, hstartup, hsettings, hannounced, hasked⟩

theorem allows_foldl {α : Type} {step : Host → α → Host} (hstep : ∀ h x, R h (step h x)) (xs : List α)
    (h : Host) : R h (xs.foldl step h) := by
  induction xs generalizing h with
  | nil => exact refl_of R h
  | cons x xs ih => exact trans_of R (hstep h x) (ih _)

/-- A loader changes beside its slots and its stacks in one move. -/
theorem allows_onLoader (h : Host) (l : Nat) {f : Loader → Loader}
    (hf : ∀ loader, (f loader).graph.cache = loader.graph.cache)
    (hcontext : ∀ loader, (f loader).context = loader.context) : R h (h.onLoader l f) :=
  Permits.inside (.around l f hf) hcontext trivial h

theorem allows_depend (l : Nat) (context : Context) (id : String) (h : Host) :
    R h (depend l context id h) :=
  allows_onLoader (R := R) h l (Loader.depend_cache context id) (Loader.depend_context context id)

theorem allows_files (h : Host) (files : Files) : R h { h with files := files } :=
  allows_rest ⟨rfl, Nat.le_refl _, Nat.le_refl _⟩ rfl

theorem allows_heap (h : Host) (heap : Heap) (hheap : h.heap.records.size ≤ heap.records.size) :
    R h { h with heap := heap } := allows_rest ⟨rfl, hheap, Nat.le_refl _⟩ rfl

/-! ### Announcing -/

theorem allows_announce (h : Host) (id : String) : R h (h.announce id) :=
  allows_foldl (fun h l => Permits.inside (.evict l id) trivial trivial h) h.listeners h

theorem allows_forget (h : Host) (origin : Origin) : R h (h.forget origin) :=
  allows_rest ⟨rfl, Nat.le_refl _, Nat.le_refl _⟩ rfl

theorem allows_absorb (h : Host) (change : Ripple × Files) : R h (h.absorb change) := by
  have hforgotten := allows_foldl (R := R) (fun h token => allows_forget h (.file token)) change.1.forgotten
    { h with files := change.2 }
  exact trans_of R (allows_files h change.2) (trans_of R hforgotten (allows_foldl allows_announce change.1.announced _))

theorem allows_forgetLoads (h : Host) (tokens : List Nat) : R h (h.forgetLoads tokens) :=
  allows_foldl (fun h token => allows_forget h (.remote token)) tokens h

theorem allows_natives (h : Host) (natives : Natives) : R h { h with natives := natives } :=
  allows_rest ⟨rfl, Nat.le_refl _, Nat.le_refl _⟩ rfl

theorem allows_remote (h : Host) (remote : Remote) : R h { h with remote := remote } :=
  allows_rest ⟨rfl, Nat.le_refl _, Nat.le_refl _⟩ rfl

theorem allows_workshop (h : Host) (workshop : Compile.Workshop) : R h { h with workshop := workshop } :=
  allows_rest ⟨rfl, Nat.le_refl _, Nat.le_refl _⟩ rfl

theorem allows_tell (id : Nat) (outcome : ScriptVault.Outcome) (h : Host) : R h (h.tell id outcome) :=
  allows_rest (beside_tell h id outcome) rfl

theorem allows_number (h : Host) : R h h.number.2 := allows_rest ⟨rfl, Nat.le_refl _, Nat.le_succ _⟩ rfl

/-- Resolvers that forget something change what they keep, and announce what they ask for. -/
theorem allows_forgetting (h : Host) (natives : Natives) (ripple : Host → Ripple × Files)
    (loads : Host → List Nat × Remote) :
    let h₁ := { h with natives := natives }
    let h₂ := h₁.absorb (ripple h₁)
    R h ({ h₂ with remote := (loads h₂).2 }.forgetLoads (loads h₂).1) := by
  intro h₁ h₂
  have hnatives : R h h₁ := allows_natives h natives
  have habsorb : R h₁ h₂ := allows_absorb h₁ (ripple h₁)
  have hremote : R h₂ { h₂ with remote := (loads h₂).2 } := allows_remote h₂ (loads h₂).2
  exact trans_of R hnatives (trans_of R habsorb (trans_of R hremote (allows_forgetLoads _ _)))

theorem allows_forgetId (id : String) (h : Host) : R h (h.forgetId id) :=
  allows_forgetting h (h.natives.invalidate id) (·.files.invalidate id) (·.remote.invalidate id)

theorem allows_forgetAll (h : Host) : R h h.forgetAll :=
  allows_forgetting h h.natives.invalidateAll.2 (·.files.invalidateAll) (·.remote.invalidateAll)

theorem allows_invalidate (l : Nat) (id : String) (h : Host) : R h (h.invalidate l id) :=
  trans_of R (Permits.inside (.evict l id) trivial trivial h) (allows_forgetId id _)

theorem allows_invalidateAll (l : Nat) (h : Host) : R h (h.invalidateAll l) :=
  trans_of R (Permits.inside (.clear l) trivial trivial h) (allows_forgetAll _)

theorem allows_follow (change : Change) (h : Host) : R h (h.follow change) := allows_absorb _ _

theorem allows_refreshNatives (h : Host) : R h h.refreshNatives :=
  trans_of R (allows_natives h _) (allows_foldl allows_announce _ _)

theorem allows_languagesChanged (h : Host) : R h h.languagesChanged := allows_absorb _ _

/-! ### The network -/

theorem allows_announceRemote (href : String) (h : Host) : R h (h.announceRemote href) :=
  trans_of R (allows_remote h _) (allows_foldl allows_announce _ _)

theorem allows_askNetwork (href : String) (h : Host) : R h (askNetwork href h).2 := by
  unfold askNetwork
  split
  · exact refl_of R h
  · exact trans_of R (allows_announceRemote _ h) (allows_remote _ _)

theorem allows_claimRemote (href : String) (wait : Bool) (h : Host) : R h (claimRemote href wait h).2 := by
  have hbegin (h : Host) : R h { h.number.2 with remote := (h.number.2.remote.beginLoad href h.nextWork).2 } :=
    trans_of R (allows_number h) (allows_remote _ _)
  unfold claimRemote
  dsimp only
  split
  · exact refl_of R h
  · exact refl_of R h
  · exact refl_of R h
  · exact trans_of R (hbegin h) (allows_announceRemote href _)
  · exact hbegin h

/-! ### Loaders -/

theorem allows_addLoader (app : Value) (stream : Nat) (held : Bool) (h : Host) :
    R h (h.addLoader app stream held).2 := Permits.inside (.add app stream held) trivial trivial h

theorem allows_release (h : Host) (l : Nat) : R h (h.release l) := by
  refine allows_onLoader (R := R) h l (fun loader => ?_) fun loader => ?_ <;> split <;> rfl

theorem allows_realms (h : Host) (realms : Table Nat Nat) : R h { h with realms := realms } :=
  allows_rest ⟨rfl, Nat.le_refl _, Nat.le_refl _⟩ rfl

theorem allows_replaceLoader (h : Host) (realm : Nat) : R h (h.replaceLoader realm) := by
  unfold replaceLoader
  split
  · exact refl_of R h
  · exact trans_of R (allows_addLoader _ _ _ h) (trans_of R (allows_realms _ _) (allows_release _ _))

theorem allows_clearCache (realm : Nat) (h : Host) : R h (h.clearCache realm).2 := by
  unfold clearCache
  split
  · exact refl_of R h
  · exact allows_invalidateAll _ h

theorem allows_createRealm (app : Value) (h : Host) : R h (h.createRealm app).2 := by
  have hrealm : R (h.addLoader app h.nextRealm true).2 (h.createRealm app).2 :=
    allows_rest ⟨rfl, Nat.le_refl _, Nat.le_refl _⟩ rfl
  exact trans_of R (allows_addLoader app h.nextRealm true h) hrealm

theorem allows_teardownRealm (realm : Nat) (h : Host) : R h (h.teardownRealm realm).2 := by
  unfold teardownRealm
  split
  · exact refl_of R h
  · exact trans_of R (allows_realms h _) (allows_release _ _)

/-! ### Settings -/

theorem allows_unless {p : Prop} [Decidable p] (hr : R h h') : R h (if p then h else h') := by
  split
  · exact refl_of R h
  · exact hr

theorem allows_applyLocal (old : Settings) (rules : Rules) (h : Host) : R h (applyLocal old rules h) := by
  have hrules (h : Host) : R h
      (if old.preloadingRules = h.settings.preloadingRules then h else h.absorb (h.files.setRules rules)) :=
    allows_unless (allows_absorb _ _)
  have hlanguages {p : Prop} [Decidable p] (h : Host) : R h (if p then h else h.languagesChanged) :=
    allows_unless (allows_languagesChanged h)
  have hnatives {p : Prop} [Decidable p] (h : Host) : R h (if p then h else h.refreshNatives) :=
    allows_unless (allows_refreshNatives h)
  exact trans_of R (hrules h) (trans_of R (hlanguages _) (hnatives _))

theorem allows_refreshRemote (h : Host) : R h h.refreshRemote :=
  trans_of R (allows_remote h _) (allows_foldl allows_announce _ _)

theorem allows_applyLoaders (old new : Settings) (h : Host) : R h (applyLoaders old new h) := by
  unfold applyLoaders
  split
  · exact refl_of R h
  · exact allows_foldl allows_replaceLoader _ h

end Host

end ScriptVault

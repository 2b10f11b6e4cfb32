import ScriptVault.Proofs.Host.Pending

/-!
# Reentry — a module that is being run is not run again

The only guard against running a module inside itself is its slot.  As long as no module that is being run is
asked for after it lost its slot, each nested call runs a module that is not being run yet; there are
finitely many, so every load comes to an end.  A slot is lost when a specifier comes to stand for another
module, since all that was built on it is evicted then, whether it is being run or not.
-/

namespace ScriptVault.Host

/-- Whenever a module is asked for that is being run, its exports are given as they are, and nothing is run. -/
def NeverReenters (l : Nat) (h : Host) (id : String) (cwd : Option String) : Prop :=
  ∀ running h₁ s d resolved h₂, Pending l h id cwd running h₁ s d → Finds l h₁ s d resolved h₂ →
    resolved.id ∈ (h₂.contextOf l).parents →
      ∃ object, (resolved.id, object) ∈ running ∧
        claim l resolved h₂ = (.inl (.ok (h₂.heap.get object (.text "exports"))), h₂)

/-- Whenever a module is asked for that is being run, it still has its slot. -/
def KeepsSlots (l : Nat) (h : Host) (id : String) (cwd : Option String) : Prop :=
  ∀ running h₁ s d resolved h₂, Pending l h id cwd running h₁ s d → Finds l h₁ s d resolved h₂ →
    resolved.id ∈ (h₂.contextOf l).parents → h₂.slotOf l resolved.id ≠ none

/-- No call finds another module than its specifier stood for, or one that must not be used again. -/
def Steady (l : Nat) (h : Host) (id : String) (cwd : Option String) : Prop :=
  ∀ running h₁ s d resolved h₂, Pending l h id cwd running h₁ s d → Finds l h₁ s d resolved h₂ →
    ¬(h₁.loader l).Repoints s resolved.id ∧ resolved.cache = true

/-- Nothing is being run for a loader. -/
structure AtRest (l : Nat) (h : Host) : Prop where
  /-- What is kept is true. -/
  kept : h.Kept
  /-- There is the loader. -/
  there : l < h.loaders.length
  /-- No module is being run. -/
  idle : (h.contextOf l).parents = []

/-! ### The modules that are being run -/

/-- Some modules are being run, the innermost first, and their slots are as `P` says of their objects. -/
structure Running (l : Nat) (h₀ : Host) (P : Nat → Option ScriptSlot → Prop) (running : List (String × Nat))
    (h : Host) : Prop where
  /-- The host came about by loading. -/
  loads : Loads l h₀ h
  /-- The stack of the loader tells the modules. -/
  parents : (h.contextOf l).parents = (running.map Prod.fst).reverse
  /-- Their slots are as they should be. -/
  slots : ∀ p ∈ running, P p.2 (h.slotOf l p.1)

section

variable {l : Nat} {h₀ : Host} {id₀ : String} {cwd₀ : Option String} {P : Nat → Option ScriptSlot → Prop}
  {running : List (String × Nat)} {h h' : Host} {id : String} {cwd : Option String}

/-- What comes back with its slots as they were leaves the same modules running. -/
theorem Running.returns (hrun : Running l h₀ P running h) (a : Returns l h h')
    (hslots : ∀ p ∈ running, P p.2 (h'.slotOf l p.1)) : Running l h₀ P running h' :=
  ⟨hrun.loads.trans a.toLoads, by rw [a.context, hrun.parents], hslots⟩

theorem Running.there (hrun : Running l h₀ P running h) (h0 : AtRest l h₀) : l < h.loaders.length := by
  rw [hrun.loads.count]; exact h0.there

/-- To look for a module does not change which ones are being run. -/
theorem Running.finds_parents (hrun : Running l h₀ P running h) (h0 : AtRest l h₀) {resolved : Resolved}
    (hf : Finds l h id cwd resolved h') : (h'.contextOf l).parents = (running.map Prod.fst).reverse := by
  have hl := hrun.there h0
  have hin := Loads.entered l cwd h
  rw [(returns_find (hin.kept (hrun.loads.kept h0.kept)) (by rwa [hin.count]) hf).context, ← hrun.parents]
  unfold contextOf entered
  rw [loader_onLoader hl, Loader.enter_context]
  exact List.append_nil _

/-- While slots are as `P` says each call keeps them so, and a running module that is asked for has a slot. -/
structure Guarded (l : Nat) (h₀ : Host) (id₀ : String) (cwd₀ : Option String) (P : Nat → Option ScriptSlot → Prop) :
    Prop where
  /-- The object of a running module may be in its slot. -/
  held : ∀ object, P object (some (.module object))
  /-- To look for a module keeps the slots. -/
  found : ∀ running h id cwd resolved h', Pending l h₀ id₀ cwd₀ running h id cwd → Running l h₀ P running h →
    Finds l h id cwd resolved h' → ∀ object i, P object (h.slotOf l i) → P object (h'.slotOf l i)
  /-- A running module that is asked for has a slot. -/
  guard : ∀ running h id cwd resolved h', Pending l h₀ id₀ cwd₀ running h id cwd → Running l h₀ P running h →
    Finds l h id cwd resolved h' → resolved.id ∈ running.map Prod.fst → h'.slotOf l resolved.id ≠ none

/-- A call of a module that was made leaves one more call done. -/
theorem loading_concat {depth : Nat} {object : Nat} {resolved : Resolved} {h₂ h₃ h₄ : Host}
    {before : List Script.Call} {call : Script.Call} {v : Value}
    (hdone : (loading depth l object h₂ before).exec (h₂.opened l resolved) = some (.ok (), h₃))
    (hr : (require Scan.evaluator depth l call.specifier none).exec h₃ = some (.ok v, h₄)) :
    (loading depth l object h₂ (before ++ [call])).exec (h₂.opened l resolved) =
      some (.ok (), h₄.put (h₂.heap.get object (.text "exports")) call.specifier v) := by
  unfold loading at hdone ⊢
  rw [exec_loadAll_append, hdone]
  simp only [Option.bind_some, exec_loadAll_cons, hr, exec_loadAll_nil]
  rfl

/-- How far a module has been run: the calls before have been made, and it is still being run. -/
structure Midway (depth l : Nat) (h₀ : Host) (P : Nat → Option ScriptSlot → Prop) (running : List (String × Nat))
    (resolved : Resolved) (object : Nat) (h₂ : Host) (before : List Script.Call) (h : Host) : Prop where
  /-- It is the innermost module that is being run. -/
  running : Running l h₀ P ((resolved.id, object) :: running) h
  /-- The calls were made one after the other. -/
  done : (loading depth l object h₂ before).exec (h₂.opened l resolved) = some (.ok (), h)

/-- A further call brings a module further, if the call leaves the same modules running. -/
theorem Midway.concat {depth object : Nat} {resolved : Resolved} {h₂ h₃ h₄ : Host} {before : List Script.Call}
    {call : Script.Call} {v : Value} (hmid : Midway depth l h₀ P running resolved object h₂ before h₃)
    (hr : (require Scan.evaluator depth l call.specifier none).exec h₃ = some (.ok v, h₄))
    (hrun : Running l h₀ P ((resolved.id, object) :: running) h₄) :
    Midway depth l h₀ P running resolved object h₂ (before ++ [call])
      (h₄.put (h₂.heap.get object (.text "exports")) call.specifier v) where
  running := hrun.returns (returns_put ..) hrun.slots
  done := loading_concat hmid.done hr

variable (h0 : AtRest l h₀) (hg : Guarded l h₀ id₀ cwd₀ P)

include h0 hg

/-- Once a module was found and served, the same modules are being run. -/
theorem Guarded.claimed (hp : Pending l h₀ id₀ cwd₀ running h id cwd) (hrun : Running l h₀ P running h)
    {resolved : Resolved} {h₁ : Host} (hf : Finds l h id cwd resolved h₁) {x : Except Failure Value ⊕ Nat} {h₂ : Host}
    (hc : claim l resolved h₁ = (x, h₂)) :
    Returns l (h.entered l cwd) h₂ ∧ ∀ p ∈ running, P p.2 (h₂.slotOf l p.1) := by
  have hl := hrun.there h0
  have hback := returns_claimed (hrun.loads.kept h0.kept) hl hf hc
  have hl₁ : l < h₁.loaders.length := by
    have hin := Loads.entered l cwd h
    rw [(returns_find (hin.kept (hrun.loads.kept h0.kept)) (by rwa [hin.count]) hf).count, hin.count]
    exact hl
  refine ⟨hback, fun p hpr => ?_⟩
  have hslot := hg.found _ _ _ _ _ _ hp hrun hf p.2 p.1 (hrun.slots p hpr)
  by_cases hid : p.1 = resolved.id
  · -- a running module is served from its slot
    obtain ⟨slot, hs⟩ := Option.ne_none_iff_exists'.1
      (hg.guard _ _ _ _ _ _ hp hrun hf (hid ▸ List.mem_map_of_mem hpr))
    rw [claim_of_slot hs] at hc
    cases hc
    exact hslot
  · rwa [claim_slotOf hl₁ hc hid]

/-- A module that is to be run is not being run yet, and joins those that are. -/
theorem Guarded.opened (hp : Pending l h₀ id₀ cwd₀ running h id cwd) (hrun : Running l h₀ P running h)
    {resolved : Resolved} {h₁ : Host} (hf : Finds l h id cwd resolved h₁) {object : Nat} {h₂ : Host}
    (hc : claim l resolved h₁ = (.inr object, h₂)) :
    resolved.id ∉ running.map Prod.fst ∧
      Running l h₀ P ((resolved.id, object) :: running) (h₂.opened l resolved) := by
  have hl := hrun.there h0
  obtain ⟨hback, hslots⟩ := hg.claimed h0 hp hrun hf hc
  obtain ⟨hnone, -, -, hfill⟩ := claim_inr hc
  have hin := Loads.entered l cwd h
  have hl₂ : l < h₂.loaders.length := by rw [hback.count, hin.count]; exact hl
  refine ⟨fun hmem => hg.guard _ _ _ _ _ _ hp hrun hf hmem hnone, ?_, ?_, ?_⟩
  · exact ((hrun.loads.trans hin).trans hback.toLoads).trans (Loads.opened l resolved h₂)
  · have hparents := hback.context
    unfold contextOf entered at hparents
    rw [loader_onLoader hl, Loader.enter_context] at hparents
    show ((h₂.onLoader l (·.enter [resolved.cwd] [resolved.id])).contextOf l).parents = _
    unfold contextOf
    rw [loader_onLoader hl₂, Loader.enter_context, hparents]
    have := hrun.parents
    unfold contextOf at this
    simp [this]
  · have hsame (i : String) : (h₂.opened l resolved).slotOf l i = h₂.slotOf l i := enter_slotOf l h₂ _ _ i
    intro p hp
    rw [hsame]
    rcases List.mem_cons.1 hp with rfl | hp
    · have hl₁ : l < h₁.loaders.length := by simpa [hfill, fill, onLoader] using hl₂
      rw [hfill, fill_slotOf (h := { h₁ with heap := (newModule h₁.heap).2 }) hl₁, if_pos rfl]
      exact hg.held object
    · exact hslots p hp

/-- A load leaves the same modules running. -/
theorem Guarded.comes_back (depth : Nat) {r : Except Failure Value}
    (hp : Pending l h₀ id₀ cwd₀ running h id cwd) (hrun : Running l h₀ P running h)
    (hr : (require Scan.evaluator depth l id cwd).exec h = some (r, h')) : Running l h₀ P running h' := by
  induction depth generalizing running h h' id cwd r with
  | zero => cases hr
  | succ depth ih =>
    refine hrun.returns (returns_require _ _ _ (hrun.loads.kept h0.kept) (hrun.there h0) hr) ?_
    obtain ⟨h₁, hcourse, rfl⟩ := course_of_exec hr
    intro p hmem
    rw [leave_slotOf]
    have running' {resolved : Resolved} {h₂ : Host} {object : Nat} {h₃ : Host} {calls : List Script.Call}
        {x : Except Failure Unit} {h₄ : Host} (hf : Finds l h id cwd resolved h₂)
        (hc : claim l resolved h₂ = (.inr object, h₃)) (hcalls : h₃.world.calls resolved = .ok calls)
        (hloads : (loading depth l object h₃ calls).exec (h₃.opened l resolved) = some (x, h₄)) :
        Running l h₀ P ((resolved.id, object) :: running) h₄ := by
      have hopened := (hg.opened h0 hp hrun hf hc).2
      have nested {before call after h₅ y h₆} (hcalls' : calls = before ++ call :: after)
          (hmid : Midway depth l h₀ P running resolved object h₃ before h₅)
          (hr : (Host.require Scan.evaluator depth l call.specifier none).exec h₅ = some (y, h₆)) :
          Running l h₀ P ((resolved.id, object) :: running) h₆ :=
        ih (Pending.nested hp hf hc (hcalls' ▸ hcalls) hmid.done) hmid.running hr
      rcases loadAll_walk (Midway depth l h₀ P running resolved object h₃)
        (fun _ _ _ _ _ _ hcalls' hmid hr => hmid.concat hr (nested hcalls' hmid hr)) ⟨hopened, rfl⟩ hloads with
        ⟨-, hmid⟩ | ⟨_, _, _, _, _, -, hcalls', hmid, hr⟩
      · exact hmid.running
      · exact nested hcalls' hmid hr
    have failed {resolved : Resolved} {h₂ : Host} {object : Nat} {h₃ : Host} (hf : Finds l h id cwd resolved h₂)
        (hc : claim l resolved h₂ = (.inr object, h₃)) {h₄ : Host} (hl : l < h₄.loaders.length) (e : Failure)
        (hslot : P p.2 (h₄.slotOf l p.1)) : P p.2 ((fail l resolved.id object e h₄).slotOf l p.1) := by
      have hne : p.1 ≠ resolved.id := fun he =>
        (hg.opened h0 hp hrun hf hc).1 (he ▸ List.mem_map_of_mem hmem)
      rwa [fail_slotOf hl _ _ _ hne]
    have closing (h₄ : Host) : (h₄.closed l).slotOf l p.1 = h₄.slotOf l p.1 := leave_slotOf ..
    cases hcourse with
    | unfound hf =>
      have hslot := hrun.slots p hmem
      have hin := Loads.entered l cwd h
      have hl : l < (h.entered l cwd).loaders.length := by rw [hin.count]; exact hrun.there h0
      rwa [find_slotOf_of_error (hin.kept (hrun.loads.kept h0.kept)) hl hf, entered, enter_slotOf]
    | served hf hc => exact (hg.claimed h0 hp hrun hf hc).2 p hmem
    | @unreadable resolved h₂ object h₃ e h₄ hf hc _ he =>
      have hopened := (hg.opened h0 hp hrun hf hc).2
      have hslot := (hg.claimed h0 hp hrun hf hc).2 p hmem
      have hl : l < (h₃.opened l resolved).loaders.length := hopened.there h0
      rcases he with rfl | rfl
      · exact failed hf hc (by simpa [Host.opened, onLoader] using hl) e hslot
      · refine failed hf hc (by simpa [closed, onLoader] using hl) e ?_
        rwa [closing, show (h₃.opened l resolved).slotOf l p.1 = h₃.slotOf l p.1 from enter_slotOf ..]
    | finished hf hc hcalls hloads =>
      rw [close_slotOf, closing]
      exact (running' hf hc hcalls hloads).slots p (List.mem_cons_of_mem _ hmem)
    | @broken resolved _ _ _ _ e h₄ hf hc hcalls hloads =>
      have hrun' := running' hf hc hcalls hloads
      refine failed hf hc (by simpa [closed, onLoader] using hrun'.there h0) e ?_
      rw [closing]
      exact hrun'.slots p (List.mem_cons_of_mem _ hmem)

/-- With every call some modules are being run. -/
theorem Guarded.running_of_pending (hp : Pending l h₀ id₀ cwd₀ running h id cwd) : Running l h₀ P running h := by
  induction hp with
  | root => exact ⟨Loads.refl l h₀, h0.idle, fun _ hp => nomatch hp⟩
  | @nested running h id cwd resolved h₁ object h₂ before call after depth h₃ hp hf hc hcalls hloads ih =>
    have nested {before' call' after' h₄ y h₅} (hcalls' : before = before' ++ call' :: after')
        (hmid : Midway depth l h₀ P running resolved object h₂ before' h₄)
        (hr : (require Scan.evaluator depth l call'.specifier none).exec h₄ = some (y, h₅)) :
        Running l h₀ P ((resolved.id, object) :: running) h₅ :=
      hg.comes_back h0 depth
        (Pending.nested hp hf hc (by rw [hcalls, hcalls', List.append_assoc]; rfl) hmid.done) hmid.running hr
    rcases loadAll_walk (Midway depth l h₀ P running resolved object h₂)
      (fun _ _ _ _ _ _ hcalls' hmid hr => hmid.concat hr (nested hcalls' hmid hr))
      ⟨(hg.opened h0 hp ih hf hc).2, rfl⟩ hloads with ⟨-, hmid⟩ | ⟨_, _, _, _, _, he, -⟩
    · exact hmid.running
    · cases he

/-- Every call comes to an end: each one that is nested in it runs a module that is not being run yet. -/
theorem Guarded.ends (ids : List String) (hids : ∀ id, h₀.Loadable id → id ∈ ids) (n : Nat)
    (hp : Pending l h₀ id₀ cwd₀ running h id cwd)
    (hn : (ids.filter (!(running.map Prod.fst).contains ·)).length < n) :
    ∃ x, (require Scan.evaluator n l id cwd).exec h = some x := by
  induction n generalizing running h id cwd with
  | zero => omega
  | succ n ih =>
    have hrun := hg.running_of_pending h0 hp
    have hk := hrun.loads.kept h0.kept
    refine ends_require hk fun resolved h₁ object h₂ calls hf hc hcalls => ?_
    obtain ⟨hnew, hopened⟩ := hg.opened h0 hp hrun hf hc
    have hid : resolved.id ∈ ids :=
      hids _ (hrun.loads.loadable (loadable_of_find ((Loads.entered l cwd h).kept hk) hf (claim_inr hc).2.1))
    have hfewer := filter_not_contains_lt hid hnew
    have nested {before call after h₃} (hcalls' : calls = before ++ call :: after)
        (hmid : Midway n l h₀ P running resolved object h₂ before h₃) :=
      Pending.nested hp hf hc (hcalls' ▸ hcalls) hmid.done
    refine ends_loadAll (Midway n l h₀ P running resolved object h₂) ?_ ?_ ⟨hopened, rfl⟩
    · exact fun before call after h v h' hcalls' hmid hr =>
        hmid.concat hr (hg.comes_back h0 n (nested hcalls' hmid) hmid.running hr)
    · exact fun before call after h hcalls' hmid => ih (nested hcalls' hmid) (Nat.lt_of_lt_of_le hfewer (Nat.le_of_lt_succ hn))

end

variable {l : Nat} {h : Host}

/-- To look for a module keeps slots or empties them, so modules that lose none are guarded. -/
theorem guarded_of_keepsSlots (h0 : AtRest l h) {id : String} {cwd : Option String}
    (hkeeps : KeepsSlots l h id cwd) :
    Guarded l h id cwd fun object slot => slot = none ∨ slot = some (.module object) where
  held _ := Or.inr rfl
  found running h₁ s d resolved h₂ _ hrun hf object i hslot := by
    have hin := Loads.entered l d h₁
    have hentered : (h₁.entered l d).slotOf l i = h₁.slotOf l i := enter_slotOf ..
    rcases find_slotOf (hin.kept (hrun.loads.kept h0.kept)) (by rw [hin.count]; exact hrun.there h0) hf i with he | he
    · exact Or.inl he
    · rw [he, hentered]; exact hslot
  guard running h₁ s d resolved h₂ hp hrun hf hmem := by
    refine hkeeps _ _ _ _ _ _ hp hf ?_
    rw [hrun.finds_parents h0 hf]
    exact List.mem_reverse.2 hmem

/-- Where no specifier is repointed no slot is emptied. -/
theorem guarded_of_steady (h0 : AtRest l h) {id : String} {cwd : Option String} (hsteady : Steady l h id cwd) :
    Guarded l h id cwd fun object slot => slot = some (.module object) := by
  have found {running h₁ s d resolved h₂} (hp : Pending l h id cwd running h₁ s d)
      (hrun : Running l h (fun object slot => slot = some (.module object)) running h₁)
      (hf : Finds l h₁ s d resolved h₂) (i : String) : h₂.slotOf l i = h₁.slotOf l i := by
    have hin := Loads.entered l d h₁
    obtain ⟨hnot, hcache⟩ := hsteady _ _ _ _ _ _ hp hf
    have hl : l < (h₁.entered l d).loaders.length := by rw [hin.count]; exact hrun.there h0
    have hgraph : ((h₁.entered l d).loader l).graph = (h₁.loader l).graph := by
      unfold entered
      rw [loader_onLoader (hrun.there h0)]
      rfl
    rw [find_slotOf_of_steady (hin.kept (hrun.loads.kept h0.kept)) hl hf
      (by unfold Loader.Repoints at hnot ⊢; rwa [hgraph]) hcache]
    exact enter_slotOf ..
  refine ⟨fun _ => rfl, fun _ _ _ _ _ _ hp hrun hf object i hslot => ?_, fun _ _ _ _ resolved _ hp hrun hf hmem => ?_⟩
  · rw [found hp hrun hf]; exact hslot
  · obtain ⟨p, hpr, he⟩ := List.mem_map.1 hmem
    rw [found hp hrun hf, ← he, hrun.slots p hpr]
    exact Option.some_ne_none _

/-- A module that is asked for while it is being run, and has a slot, has its own object there. -/
theorem neverReenters_of_keepsSlots (h0 : AtRest l h) {id : String} {cwd : Option String}
    (hkeeps : KeepsSlots l h id cwd) : NeverReenters l h id cwd := by
  intro running h₁ s d resolved h₂ hp hf hmem
  have hg := guarded_of_keepsSlots h0 hkeeps
  have hrun := hg.running_of_pending h0 hp
  have hne := hkeeps _ _ _ _ _ _ hp hf hmem
  rw [hrun.finds_parents h0 hf, List.mem_reverse] at hmem
  obtain ⟨⟨i, object⟩, hpr, rfl⟩ := List.mem_map.1 hmem
  rcases hg.found _ _ _ _ _ _ hp hrun hf object _ (hrun.slots _ hpr) with hslot | hslot
  · exact absurd hslot hne
  · exact ⟨object, hpr, claim_of_slot hslot⟩

/-- A module that is served as it is has a slot. -/
theorem slot_of_claim {resolved : Resolved} (hl : l < h.loaders.length) {found : Except Failure Value}
    (hc : claim l resolved h = (.inl found, h)) : h.slotOf l resolved.id ≠ none := by
  intro hnone
  have hslot : ((h.loader l).slots resolved.id).script = none := hnone
  unfold claim at hc
  rw [hslot] at hc
  dsimp only at hc
  cases hv : resolved.value with
  | none => rw [hv] at hc; cases hc
  | some v =>
    rw [hv] at hc
    have hfilled := fill_slotOf hl resolved.id (.value v) resolved.id
    rw [show h.fill l resolved.id (.value v) = h from congrArg Prod.snd hc, hnone, if_pos rfl] at hfilled
    cases hfilled

/-- A load comes to an end, and gives the exports of every module that is being run as they are when it is asked
for, exactly if each of these modules still has its slot then; and they all do if no specifier is repointed. -/
theorem never_reenters_iff_keepsSlots (h0 : AtRest l h) (id : String) (cwd : Option String) :
    (((∃ depth x, (require Scan.evaluator depth l id cwd).exec h = some x) ∧ NeverReenters l h id cwd) ↔
        KeepsSlots l h id cwd) ∧
      (Steady l h id cwd → KeepsSlots l h id cwd) := by
  refine ⟨⟨fun ⟨_, hnever⟩ => ?_, fun hkeeps => ⟨?_, neverReenters_of_keepsSlots h0 hkeeps⟩⟩, fun hsteady => ?_⟩
  · intro running h₁ s d resolved h₂ hp hf hmem
    obtain ⟨object, -, hc⟩ := hnever _ _ _ _ _ _ hp hf hmem
    have hloads := hp.loads h0.kept h0.there
    have hl₁ : l < h₁.loaders.length := by rw [hloads.count]; exact h0.there
    have hback := returns_claimed (hloads.kept h0.kept) hl₁ hf hc
    exact slot_of_claim (by rw [hback.count, (Loads.entered l d h₁).count]; exact hl₁) hc
  · obtain ⟨ids, hids⟩ := h.exists_loadable
    exact ⟨_, (guarded_of_keepsSlots h0 hkeeps).ends h0 ids hids _ Pending.root (Nat.lt_succ_self _)⟩
  · intro running h₁ s d resolved h₂ hp hf hmem
    have hg := guarded_of_steady h0 hsteady
    have hrun := hg.running_of_pending h0 hp
    rw [hrun.finds_parents h0 hf, List.mem_reverse] at hmem
    exact hg.guard _ _ _ _ _ _ hp hrun hf hmem

/-! ### Two vaults -/

/-- A module that is asked for is not being run, or has its slot, and if it is run it makes one call. -/
def callsOnce (l : Nat) (h : Host) (id : String) (cwd : Option String) : Bool :=
  match (find l id).exec (h.entered l cwd) with
  | some (.ok resolved, h₁) =>
    (!(h₁.contextOf l).parents.contains resolved.id || (h₁.slotOf l resolved.id).isSome) &&
      match claim l resolved h₁ with
      | (.inr _, h₂) =>
        match h₂.world.calls resolved with
        | .ok calls => calls.length ≤ 1
        | .error _ => true
      | _ => true
  | _ => true

theorem slot_of_callsOnce {l : Nat} {h h₁ : Host} {id : String} {cwd : Option String} {resolved : Resolved}
    (hone : callsOnce l h id cwd = true) (hf : Finds l h id cwd resolved h₁)
    (hmem : resolved.id ∈ (h₁.contextOf l).parents) : h₁.slotOf l resolved.id ≠ none := by
  unfold Finds at hf
  unfold callsOnce at hone
  rw [hf] at hone
  have hslot := (Bool.and_eq_true_iff.1 hone).1
  rw [List.contains_eq_mem, decide_eq_true hmem, Bool.not_true, Bool.false_or] at hslot
  exact Option.isSome_iff_ne_none.1 hslot

/-- The only call of a module is the one that comes after none. -/
theorem descend_of_callsOnce {l : Nat} {h : Host} {id : String} {cwd : Option String}
    (hone : callsOnce l h id cwd = true) {resolved : Resolved} {h₁ : Host} {object : Nat} {h₂ : Host}
    {before : List Script.Call} {call : Script.Call} {after : List Script.Call} {depth : Nat} {h₃ : Host}
    (hf : Finds l h id cwd resolved h₁) (hc : claim l resolved h₁ = (.inr object, h₂))
    (hcalls : h₂.world.calls resolved = .ok (before ++ call :: after))
    (hloads : (loading depth l object h₂ before).exec (h₂.opened l resolved) = some (.ok (), h₃)) :
    descend 0 l h id cwd 0 = some ((resolved.id, object), h₃, call.specifier) := by
  unfold Finds at hf
  unfold callsOnce at hone
  unfold descend
  simp only [hf, hc, hcalls] at hone ⊢
  have hlength : (before ++ call :: after).length ≤ 1 := by simpa using (Bool.and_eq_true_iff.1 hone).2
  rw [List.length_append, List.length_cons] at hlength
  obtain rfl : before = [] := List.length_eq_zero_iff.1 (by omega)
  cases hloads
  rfl

/-- Two files that load each other. -/
def circle : Parts where
  vault := .memory { texts := [("a.js", "require('./b.js')"), ("b.js", "require('./a.js')")] }

theorem never_reenters_circle :
    ∃ h, build circle = .ok h ∧ AtRest 0 (h.absorb h.files.rebuild) ∧
      (∃ depth x, (require Scan.evaluator depth 0 "a.js" none).exec (h.absorb h.files.rebuild) = some x) ∧
      NeverReenters 0 (h.absorb h.files.rebuild) "a.js" none := by
  have hrun : ((build circle).toOption.bind fun h =>
      let h₀ := h.absorb h.files.rebuild
      (descend 0 0 h₀ "a.js" none 0).bind fun (_, h₁, s₁) =>
        (descend 0 0 h₁ s₁ none 0).filter fun (_, h₂, s₂) => 
          0 < h₀.loaders.length && (h₀.contextOf 0).parents.isEmpty && callsOnce 0 h₀ "a.js" none && callsOnce 0 h₁ s₁ none && callsOnce 0 h₂ s₂ none && (descend 0 0 h₂ s₂ none 0).isNone).isSome = true := by
    decide +kernel
  obtain ⟨x, hx⟩ := Option.isSome_iff_exists.1 hrun
  obtain ⟨h, hb, hx⟩ := Option.bind_eq_some_iff.1 hx
  obtain ⟨⟨p₁, h₁, s₁⟩, hd₁, hx⟩ := Option.bind_eq_some_iff.1 hx
  obtain ⟨hd₂, hr⟩ := Option.filter_eq_some_iff.1 hx
  obtain ⟨p₂, h₂, s₂⟩ := x
  simp only [Bool.and_eq_true, decide_eq_true_iff, List.isEmpty_iff, Option.isNone_iff_eq_none] at hr
  obtain ⟨⟨⟨⟨⟨hl, hidle⟩, hone₀⟩, hone₁⟩, hone₂⟩, hend⟩ := hr
  have hrest : AtRest 0 (h.absorb h.files.rebuild) := ⟨kept_of_build (eq_ok_of_toOption hb), hl, hidle⟩
  have calls {running h₃ s d} (hp : Pending 0 (h.absorb h.files.rebuild) "a.js" none running h₃ s d) :
      (h₃ = h.absorb h.files.rebuild ∧ s = "a.js" ∧ d = none) ∨ (h₃ = h₁ ∧ s = s₁ ∧ d = none) ∨
        (h₃ = h₂ ∧ s = s₂ ∧ d = none) := by
    induction hp with
    | root => exact Or.inl ⟨rfl, rfl, rfl⟩
    | nested _ hf hc hcalls hloads ih =>
      rcases ih with ⟨rfl, rfl, rfl⟩ | ⟨rfl, rfl, rfl⟩ | ⟨rfl, rfl, rfl⟩
      · have := (descend_of_callsOnce hone₀ hf hc hcalls hloads).symm.trans hd₁
        cases this
        exact Or.inr (Or.inl ⟨rfl, rfl, rfl⟩)
      · have := (descend_of_callsOnce hone₁ hf hc hcalls hloads).symm.trans hd₂
        cases this
        exact Or.inr (Or.inr ⟨rfl, rfl, rfl⟩)
      · have := (descend_of_callsOnce hone₂ hf hc hcalls hloads).symm.trans hend
        cases this
  refine ⟨h, eq_ok_of_toOption hb, hrest, (never_reenters_iff_keepsSlots hrest _ _).1.2 ?_⟩
  intro running h₃ s d resolved h₄ hp hf hmem
  rcases calls hp with ⟨rfl, rfl, rfl⟩ | ⟨rfl, rfl, rfl⟩ | ⟨rfl, rfl, rfl⟩
  · exact slot_of_callsOnce hone₀ hf hmem
  · exact slot_of_callsOnce hone₁ hf hmem
  · exact slot_of_callsOnce hone₂ hf hmem

/-- A call runs a module that is being run. -/
def reenters (l : Nat) (h : Host) (id : String) (cwd : Option String) : Bool :=
  match (find l id).exec (h.entered l cwd) with
  | some (.ok resolved, h₁) =>
    (h₁.contextOf l).parents.contains resolved.id && (claim l resolved h₁).1.isRight
  | _ => false

theorem not_neverReenters {l : Nat} {h₀ : Host} {id₀ : String} {cwd₀ : Option String}
    {running : List (String × Nat)} {h : Host} {id : String} {cwd : Option String}
    (hp : Pending l h₀ id₀ cwd₀ running h id cwd) (hr : reenters l h id cwd = true) :
    ¬NeverReenters l h₀ id₀ cwd₀ := by
  intro hnever
  unfold reenters at hr
  split at hr
  · next resolved h₁ hf =>
    rw [Bool.and_eq_true, List.contains_eq_mem, decide_eq_true_iff] at hr
    obtain ⟨object, -, hc⟩ := hnever _ _ _ _ _ _ hp hf hr.1
    rw [hc] at hr
    cases hr.2
  · cases hr

/-- The file `lib/x.js` is nearer to `lib/q.js` than the file `x.js` that loads it. -/
def shadowed : Parts where
  vault := .memory
    { texts := [("lib/q.js", "require('x.js'); require('../x.js')"), ("lib/x.js", ""),
        ("x.js", "require('./lib/q.js')")] }

/-- A module is run inside itself if its own id was repointed meanwhile. -/
theorem reenters_shadowed :
    ∃ h, build shadowed = .ok h ∧ ¬NeverReenters 0 (h.absorb h.files.rebuild) "x.js" none := by
  have hrun : ((build shadowed).toOption.bind fun h =>
      (descend 3 0 (h.absorb h.files.rebuild) "x.js" none 0).bind fun (_, h₁, s₁) =>
        (descend 3 0 h₁ s₁ none 1).filter fun (_, h₂, s₂) => reenters 0 h₂ s₂ none).isSome = true := by
    decide +kernel
  obtain ⟨x, hx⟩ := Option.isSome_iff_exists.1 hrun
  obtain ⟨h, hb, hx⟩ := Option.bind_eq_some_iff.1 hx
  obtain ⟨⟨p₁, h₁, s₁⟩, hd₁, hx⟩ := Option.bind_eq_some_iff.1 hx
  obtain ⟨hd₂, hr⟩ := Option.filter_eq_some_iff.1 hx
  refine ⟨h, eq_ok_of_toOption hb, not_neverReenters ((Pending.root.descend hd₁).descend hd₂) hr⟩

end ScriptVault.Host

import ScriptVault.Proofs.Host.Call
import ScriptVault.Proofs.Value.Exports

/-!
# Loads — what loading leaves alone

Whatever is loaded through a loader, the world stays, and so do the vault, the other loaders and what was asked
for; objects are added to the heap, and none is taken away.
-/

namespace ScriptVault

namespace Loader

/-! ### The stacks and the modules of a loader -/

theorem enter_context (loader : Loader) (cwds : List (Option String)) (parents : List String) :
    (loader.enter cwds parents).context =
      ⟨loader.context.cwds ++ cwds, loader.context.parents ++ parents⟩ := by
  have hcwds (c : Context) : cwds.foldl Context.pushCwd c = { c with cwds := c.cwds ++ cwds } := by
    induction cwds generalizing c with
    | nil => simp
    | cons d rest ih => simp [ih, Context.pushCwd]
  have hparents (c : Context) :
      parents.foldl Context.pushParent c = { c with parents := c.parents ++ parents } := by
    induction parents generalizing c with
    | nil => simp
    | cons d rest ih => simp [ih, Context.pushParent]
  simp [Loader.enter, hcwds, hparents]

theorem leave_context {loader loader' : Loader} {cwds : List (Option String)} {parents : List String}
    (h : loader'.context = (loader.enter cwds parents).context) :
    (loader'.leave cwds.length parents.length).context = loader.context := by
  simp [Loader.leave, h, enter_context, Context.pop]

theorem assign_rest (loader : Loader) (raw canonical : String) :
    ∃ graph, (loader.assign raw canonical).2 = { loader with graph := graph } := by
  unfold Loader.assign
  split <;> exact ⟨_, rfl⟩

/-- The loader after a specifier was let stand for a module, with what it evicts. -/
def settled (loader : Loader) (raw : String) (resolved : Resolved) : List String × Loader :=
  ((loader.assign raw resolved.id).1,
    if resolved.cache then (loader.assign raw resolved.id).2
    else (loader.assign raw resolved.id).2.drop resolved.id)

theorem settled_rest (loader : Loader) (raw : String) (resolved : Resolved) :
    ∃ graph, (loader.settled raw resolved).2 = { loader with graph := graph } := by
  obtain ⟨graph, hg⟩ := loader.assign_rest raw resolved.id
  unfold settled
  rw [hg]
  split <;> exact ⟨_, rfl⟩

theorem depend_rest (loader : Loader) (context : Context) (id : String) :
    ∃ graph, loader.depend context id = { loader with graph := graph } := by
  unfold Loader.depend
  split <;> exact ⟨_, rfl⟩

end Loader

namespace Host

/-! ### Loaders -/

theorem loader_onLoader {l : Nat} {h : Host} (hl : l < h.loaders.length) (change : Loader → Loader) :
    (h.onLoader l change).loader l = change (h.loader l) := by
  simp [onLoader, loader, hl]

theorem loader_onLoader_ne {l k : Nat} (hk : k ≠ l) (h : Host) (change : Loader → Loader) :
    (h.onLoader l change).loader k = h.loader k := by
  simp [onLoader, loader, Ne.symm hk]

/-- An announcement changes nothing that loading looks at. -/
theorem emit_rest (stream : Nat) (h : Host) (id : String) :
    ∃ announced asked nextWork startup, emit stream h id =
      { h with announced := announced, asked := asked, nextWork := nextWork, startup := startup } := by
  unfold emit startupEvicted ask
  dsimp only
  split
  · split
    · exact ⟨_, _, _, _, rfl⟩
    · split <;> exact ⟨_, _, _, _, rfl⟩
  · exact ⟨_, _, _, _, rfl⟩

theorem emits_rest (stream : Nat) (ids : List String) (h : Host) :
    ∃ announced asked nextWork startup, ids.foldl (emit stream) h =
      { h with announced := announced, asked := asked, nextWork := nextWork, startup := startup } := by
  induction ids generalizing h with
  | nil => exact ⟨_, _, _, _, rfl⟩
  | cons id ids ih =>
    obtain ⟨_, _, _, _, h1⟩ := emit_rest stream h id
    obtain ⟨a, b, c, d, h2⟩ := ih (emit stream h id)
    refine ⟨a, b, c, d, ?_⟩
    rw [List.foldl_cons, h2, h1]

/-- To let a loader evict changes that loader, besides what is announced. -/
theorem evicting_rest (l : Nat) (act : Loader → List String × Loader) (h : Host) :
    ∃ announced asked nextWork startup, evicting l act h =
      { h with
        loaders := h.loaders.set l (act (h.loader l)).2
        announced := announced, asked := asked, nextWork := nextWork, startup := startup } := by
  obtain ⟨a, b, c, d, h'⟩ := emits_rest (act (h.loader l)).2.stream (act (h.loader l)).1
    { h with loaders := h.loaders.set l (act (h.loader l)).2 }
  exact ⟨a, b, c, d, h'⟩

theorem evicting_eq_onLoader (l : Nat) (act : Loader → List String × Loader) (h : Host) :
    ∃ announced asked nextWork startup, evicting l act h =
      { h.onLoader l fun loader => (act loader).2 with
        announced := announced, asked := asked, nextWork := nextWork, startup := startup } :=
  evicting_rest l act h

/-! ### Loading -/

/-- What may come of a host by loading through a loader. -/
structure Loads (l : Nat) (h h' : Host) : Prop where
  /-- The world is the same. -/
  world : h'.world = h.world
  /-- There are the same remote modules. -/
  ready : ∀ href module, h'.remote.modules.at? href = some (.ready module) ↔
    h.remote.modules.at? href = some (.ready module)
  /-- What was asked for stays so. -/
  tracked : ∀ id, h.Tracked id → h'.Tracked id
  /-- What is kept stays true. -/
  kept : h.Kept → h'.Kept
  /-- The files are the same. -/
  vault : h'.files.vault = h.files.vault
  /-- There are as many loaders. -/
  count : h'.loaders.length = h.loaders.length
  /-- The other loaders are the same. -/
  others : ∀ k, k ≠ l → h'.loader k = h.loader k
  /-- The loader goes on to listen, or not. -/
  listening : (h'.loader l).listening = (h.loader l).listening
  /-- No object is taken away. -/
  grown : h.heap.records.size ≤ h'.heap.records.size

namespace Loads

variable {l : Nat} {h h' h'' : Host}

theorem refl (l : Nat) (h : Host) : Loads l h h :=
  ⟨rfl, fun _ _ => Iff.rfl, fun _ h => h, fun h => h, rfl, rfl, fun _ _ => rfl, rfl, Nat.le_refl _⟩

theorem trans (a : Loads l h h') (b : Loads l h' h'') : Loads l h h'' where
  world := b.world.trans a.world
  ready href m := (b.ready href m).trans (a.ready href m)
  tracked id hid := b.tracked id (a.tracked id hid)
  kept hk := b.kept (a.kept hk)
  vault := b.vault.trans a.vault
  count := b.count.trans a.count
  others k hk := (b.others k hk).trans (a.others k hk)
  listening := b.listening.trans a.listening
  grown := Nat.le_trans a.grown b.grown

theorem asked (l : Nat) (a : Asked h h') : Loads l h h' := by
  have hloader (k : Nat) : h'.loader k = h.loader k := by simp [loader, a.loaders]
  refine ⟨a.world, a.ready, a.tracked, a.kept, ?_, by rw [a.loaders], fun k _ => hloader k, by rw [hloader],
    Nat.le_of_eq (by rw [a.heap])⟩
  obtain ⟨_, _, _, _, rfl⟩ := a.rest
  rfl

/-- A host may be changed in its loader, its objects and what it counts and announces. -/
theorem change (l : Nat) (h : Host) (f : Loader → Loader)
    (hf : ∀ loader, (f loader).listening = loader.listening) (heap : Heap)
    (hheap : h.heap.records.size ≤ heap.records.size) (announced : List (Nat × String))
    (asked : List (Nat × Work)) (nextWork : Nat) (startup : Startup) (scripts : Nat) :
    Loads l h { h.onLoader l f with
      heap := heap, announced := announced, asked := asked, nextWork := nextWork, startup := startup
      scripts := scripts } := by
  refine ⟨rfl, fun _ _ => Iff.rfl, fun _ h => h, fun hk => ⟨hk.row, hk.sound, hk.entries, hk.scripts⟩, rfl,
    by simp [onLoader], fun k hk => loader_onLoader_ne hk h f, ?_, hheap⟩
  show ((h.onLoader l f).loader l).listening = _
  by_cases hl : l < h.loaders.length
  · rw [loader_onLoader hl, hf]
  · simp [onLoader, loader, hl]

theorem onLoader (l : Nat) (h : Host) (f : Loader → Loader)
    (hf : ∀ loader, (f loader).listening = loader.listening) : Loads l h (h.onLoader l f) :=
  change l h f hf h.heap (Nat.le_refl _) _ _ _ _ _

theorem evicting (l : Nat) (h : Host) (act : Loader → List String × Loader)
    (hact : ∀ loader, (act loader).2.listening = loader.listening) : Loads l h (Host.evicting l act h) := by
  obtain ⟨a, b, c, d, he⟩ := evicting_eq_onLoader l act h
  rw [he]
  exact change l h _ hact h.heap (Nat.le_refl _) a b c d _

theorem heap (l : Nat) (h : Host) (heap : Heap) (hheap : h.heap.records.size ≤ heap.records.size) :
    Loads l h { h with heap := heap } := by
  refine ⟨rfl, fun _ _ => Iff.rfl, fun _ h => h, fun hk => ⟨hk.row, hk.sound, hk.entries, hk.scripts⟩, rfl, rfl,
    fun _ _ => rfl, rfl, hheap⟩

end Loads

/-! ### What a module was built on -/

theorem at?_update {κ α : Type} [DecidableEq κ] (t : Table κ α) (key k : κ) (change : α → α) :
    (t.update key change).at? k = (t.at? k).map fun v => if k = key then change v else v := by
  induction t with
  | nil => rfl
  | cons b t ih =>
    obtain ⟨j, v⟩ := b
    have hcons : Table.update ((j, v) :: t) key change =
        (if j = key then (j, change v) else (j, v)) :: Table.update t key change := rfl
    rw [hcons]
    by_cases hk : j = key
    · rw [if_pos hk, Table.at?_cons, Table.at?_cons, ih]
      by_cases hj : j = k
      · subst hj; rw [if_pos rfl, if_pos rfl]; simp [hk]
      · rw [if_neg hj, if_neg hj]
    · rw [if_neg hk, Table.at?_cons, Table.at?_cons, ih]
      by_cases hj : j = k
      · subst hj; rw [if_pos rfl, if_pos rfl]; simp [hk]
      · rw [if_neg hj, if_neg hj]

/-- To remember what a module was built on keeps all code. -/
theorem Loads.files_depend (l : Nat) (h : Host) (parent dependency : String) :
    Loads l h { h with files := h.files.depend parent dependency } := by
  unfold Files.depend
  split
  · exact Loads.refl l h
  · next identity _ =>
    refine ⟨rfl, fun _ _ => Iff.rfl, fun id hid => ?_, fun hk => ?_, rfl, rfl, fun _ _ => rfl, rfl, Nat.le_refl _⟩
    · obtain ⟨r, hr, hid⟩ := hid
      exact ⟨_, List.mem_map_of_mem hr, hid⟩
    · refine ⟨?_, hk.sound, fun r hr path entry he => ?_, hk.scripts⟩
      · rw [← hk.row, List.map_map]; rfl
      · obtain ⟨r₀, hr₀, rfl⟩ := List.mem_map.1 hr
        simp only [FileResolver.depend, at?_update] at he
        obtain ⟨entry₀, he₀, rfl⟩ := Option.map_eq_some_iff.1 he
        have := hk.entries r₀ hr₀ path entry₀ he₀
        split <;> exact this

/-! ### Coming back -/

/-- Loading that leaves the stacks of the loader as they were. -/
structure Returns (l : Nat) (h h' : Host) : Prop extends Loads l h h' where
  /-- The stacks are the same. -/
  context : h'.contextOf l = h.contextOf l

namespace Returns

variable {l : Nat} {h h' h'' : Host}

theorem refl (l : Nat) (h : Host) : Returns l h h := ⟨Loads.refl l h, rfl⟩

theorem trans (a : Returns l h h') (b : Returns l h' h'') : Returns l h h'' :=
  ⟨a.toLoads.trans b.toLoads, b.context.trans a.context⟩

theorem asked (l : Nat) (a : Asked h h') : Returns l h h' :=
  ⟨Loads.asked l a, by simp [contextOf, loader, a.loaders]⟩

/-- To change what a loader knows of modules leaves its stacks alone. -/
theorem onGraph (hl : l < h.loaders.length) (f : Loader → Loader)
    (hf : ∀ loader, ∃ graph, f loader = { loader with graph := graph }) : Returns l h (h.onLoader l f) := by
  refine ⟨Loads.onLoader l h f fun loader => ?_, ?_⟩
  · obtain ⟨graph, he⟩ := hf loader
    rw [he]
  · obtain ⟨graph, he⟩ := hf (h.loader l)
    rw [contextOf, loader_onLoader hl, he]
    rfl

theorem heap (l : Nat) (h : Host) (heap : Heap) (hheap : h.heap.records.size ≤ heap.records.size) :
    Returns l h { h with heap := heap } := ⟨Loads.heap l h heap hheap, rfl⟩

theorem scripts (l : Nat) (h : Host) (scripts : Nat) : Returns l h { h with scripts := scripts } :=
  ⟨⟨rfl, fun _ _ => Iff.rfl, fun _ h => h, fun hk => ⟨hk.row, hk.sound, hk.entries, hk.scripts⟩, rfl, rfl,
    fun _ _ => rfl, rfl, Nat.le_refl _⟩, rfl⟩

/-- What is done between entering and leaving comes back if it does so itself. -/
theorem within (hl : l < h.loaders.length) (cwds : List (Option String)) (parents : List String)
    (a : Returns l (h.onLoader l (·.enter cwds parents)) h') :
    Returns l h (h'.onLoader l (·.leave cwds.length parents.length)) := by
  have hl' : l < h'.loaders.length := by rw [a.count]; simpa [Host.onLoader] using hl
  have hin := Loads.onLoader l h (·.enter cwds parents) fun _ => rfl
  have hout := Loads.onLoader l h' (·.leave cwds.length parents.length) fun _ => rfl
  refine ⟨(hin.trans a.toLoads).trans hout, ?_⟩
  have hcontext := a.context
  unfold contextOf at hcontext ⊢
  rw [loader_onLoader hl] at hcontext
  rw [loader_onLoader hl', Loader.leave_context hcontext]

end Returns

/-! ### The steps of a load -/

variable {l : Nat} {h h' : Host}

theorem Loads.entered (l : Nat) (cwd : Option String) (h : Host) : Loads l h (h.entered l cwd) :=
  Loads.onLoader l h (·.enter (cwd.toList.map some) []) fun _ => rfl

theorem Loads.opened (l : Nat) (resolved : Resolved) (h : Host) : Loads l h (h.opened l resolved) :=
  (Loads.onLoader l h (·.enter [resolved.cwd] [resolved.id]) fun _ => rfl).trans (Returns.scripts l _ _).toLoads

theorem settle_eq (l : Nat) (id : String) (resolved : Resolved) (context : Context) (h : Host) :
    settle l id resolved context h =
      match context.parent with
      | some parent =>
        { evicting l (·.settled id resolved) h with
          files := (evicting l (·.settled id resolved) h).files.depend parent resolved.id }
      | none => evicting l (·.settled id resolved) h := rfl

/-- To let a specifier stand for a module comes back. -/
theorem returns_settle (hl : l < h.loaders.length) (id : String) (resolved : Resolved) (context : Context) :
    Returns l h (settle l id resolved context h) := by
  have hevict : Returns l h (evicting l (·.settled id resolved) h) := by
    obtain ⟨a, b, c, d, he⟩ := evicting_eq_onLoader l (·.settled id resolved) h
    have hgraph (loader : Loader) := Loader.settled_rest loader id resolved
    rw [he]
    refine ⟨Loads.change l h _ (fun loader => ?_) h.heap (Nat.le_refl _) a b c d _,
      (Returns.onGraph hl _ hgraph).context⟩
    obtain ⟨graph, hg⟩ := hgraph loader
    rw [hg]
  rw [settle_eq]
  split
  · exact hevict.trans ⟨Loads.files_depend l _ _ _, rfl⟩
  · exact hevict

/-- To look for a module comes back. -/
theorem returns_find (hk : h.Kept) (hl : l < h.loaders.length) {id : String} {r : Except Failure Resolved}
    (hr : (find l id).exec h = some (r, h')) : Returns l h h' := by
  have hdepend : Returns l h (depend l (h.contextOf l) id h) := Returns.onGraph hl _ fun _ => Loader.depend_rest _ _ _
  cases finding_of_exec hk hr with
  | unknown ha _ => exact hdepend.trans (Returns.asked l ha)
  | failed ha _ => exact hdepend.trans (Returns.asked l ha)
  | settled ha _ _ =>
    have hback := hdepend.trans (Returns.asked l ha)
    exact hback.trans (returns_settle (by rw [hback.count]; exact hl) _ _ _)

theorem returns_fill (hl : l < h.loaders.length) (id : String) (slot : ScriptSlot) :
    Returns l h (h.fill l id slot) := Returns.onGraph hl _ fun _ => ⟨_, rfl⟩

theorem returns_fail (hl : l < h.loaders.length) (id : String) (object : Nat) (failure : Failure) :
    Returns l h (fail l id object failure h) := by
  unfold fail
  split
  · split
    · exact returns_fill hl ..
    · exact Returns.refl l h
  · exact Returns.refl l h

/-- What a slot holds is served as the host is, and else only the slot and the heap are changed. -/
theorem returns_claim (hl : l < h.loaders.length) (resolved : Resolved) :
    Returns l h (claim l resolved h).2 := by
  unfold claim
  split
  · exact Returns.refl l h
  · split
    · exact returns_fill hl ..
    · have hmade := Returns.heap l h _ (newModule_grows h.heap)
      exact hmade.trans (returns_fill (h := { h with heap := (newModule h.heap).2 }) hl _ _)

theorem returns_close (l object : Nat) (h : Host) : Returns l h (close object h).2 := by
  have hsize := close_grows object h
  unfold close at hsize ⊢
  split
  · next he => rw [he] at hsize; exact Returns.heap l h _ (Nat.le_of_eq hsize.symm)
  · exact Returns.refl l h

theorem returns_put (l : Nat) (exports : Value) (specifier : String) (v : Value) (h : Host) :
    Returns l h (h.put exports specifier v) :=
  Returns.heap l h _ (Nat.le_of_eq (Heap.write_size h.heap exports (.text specifier) v).symm)

/-- What is done while a script runs comes back if it does so itself. -/
theorem Returns.opened (hl : l < h.loaders.length) (resolved : Resolved)
    (a : Returns l (h.opened l resolved) h') : Returns l h (h'.closed l) :=
  Returns.within hl [resolved.cwd] [resolved.id] ((Returns.scripts l _ _).trans a)

/-- To find a module and look into its slot comes back. -/
theorem returns_claimed (hk : h.Kept) (hl : l < h.loaders.length) {id : String} {cwd : Option String}
    {resolved : Resolved} (hf : Finds l h id cwd resolved h') {x : Except Failure Value ⊕ Nat} {h'' : Host}
    (hc : claim l resolved h' = (x, h'')) : Returns l (h.entered l cwd) h'' := by
  have hin := Loads.entered l cwd h
  have hback := returns_find (hin.kept hk) (by rw [hin.count]; exact hl) hf
  have hclaim := returns_claim (by rw [hback.count, hin.count]; exact hl) resolved
  rw [hc] at hclaim
  exact hback.trans hclaim

/-- To load what a module calls for comes back if each call does. -/
theorem returns_loading_of {depth : Nat} (hrequire : ∀ {h h' : Host} {s : String} {r : Except Failure Value},
      h.Kept → l < h.loaders.length → (require Scan.evaluator depth l s none).exec h = some (r, h') →
        Returns l h h') {object : Nat} {h₂ : Host} {calls : List Script.Call} (hk : h.Kept)
    (hl : l < h.loaders.length) {r : Except Failure Unit}
    (hr : (loading depth l object h₂ calls).exec h = some (r, h')) : Returns l h h' := by
  have nested {h₃ h₄ : Host} {s : String} {x : Except Failure Value} (hb : Returns l h h₃)
      (hr : (require Scan.evaluator depth l s none).exec h₃ = some (x, h₄)) : Returns l h h₄ :=
    hb.trans (hrequire (hb.kept hk) (by rw [hb.count]; exact hl) hr)
  rcases loadAll_walk (fun _ h₃ => Returns l h h₃)
    (fun _ _ _ _ _ _ _ hb hr => (nested hb hr).trans (returns_put ..)) (Returns.refl _ _) hr with
    ⟨-, hb⟩ | ⟨_, _, _, _, _, -, -, hb, hr⟩
  · exact hb
  · exact nested hb hr

/-- A load comes back. -/
theorem returns_require (depth : Nat) (id : String) (cwd : Option String) (hk : h.Kept)
    (hl : l < h.loaders.length) {r : Except Failure Value}
    (hr : (require Scan.evaluator depth l id cwd).exec h = some (r, h')) : Returns l h h' := by
  induction depth generalizing h h' id cwd r with
  | zero => cases hr
  | succ depth ih =>
    obtain ⟨h₁, hcourse, rfl⟩ := course_of_exec hr
    have hin := Loads.entered l cwd h
    suffices hback : Returns l (h.entered l cwd) h₁ by
      simpa using Returns.within hl (cwd.toList.map some) [] hback
    have hl' : l < (h.entered l cwd).loaders.length := by rw [hin.count]; exact hl
    have loaded {resolved : Resolved} {h₂ : Host} {object : Nat} {calls : List Script.Call}
        {x : Except Failure Unit} {h₃ : Host} (hback : Returns l (h.entered l cwd) h₂)
        (hloads : (loading depth l object h₂ calls).exec (h₂.opened l resolved) = some (x, h₃)) :
        Returns l (h.entered l cwd) (h₃.closed l) := by
      have hl₂ : l < h₂.loaders.length := by rw [hback.count]; exact hl'
      have hopen := Loads.opened l resolved h₂
      exact hback.trans (Returns.opened hl₂ resolved
        (returns_loading_of (fun hk hl hr => ih _ _ hk hl hr) (hopen.kept (hback.kept (hin.kept hk)))
          (by rw [hopen.count]; exact hl₂) hloads))
    have failed {h₂ : Host} (hback : Returns l (h.entered l cwd) h₂) (id : String) (object : Nat) (e : Failure) :
        Returns l (h.entered l cwd) (fail l id object e h₂) :=
      hback.trans (returns_fail (by rw [hback.count]; exact hl') ..)
    cases hcourse with
    | unfound hfind => exact returns_find (hin.kept hk) hl' hfind
    | served hfind hclaim => exact returns_claimed hk hl hfind hclaim
    | unreadable hfind hclaim _ he =>
      have hback := returns_claimed hk hl hfind hclaim
      rcases he with rfl | rfl
      · exact failed hback ..
      · exact failed (hback.trans (Returns.opened (by rw [hback.count]; exact hl') _ (Returns.refl _ _))) ..
    | finished hfind hclaim _ hloads =>
      exact (loaded (returns_claimed hk hl hfind hclaim) hloads).trans (returns_close ..)
    | broken hfind hclaim _ hloads => exact failed (loaded (returns_claimed hk hl hfind hclaim) hloads) ..

/-- To load what a module calls for comes back. -/
theorem returns_loading {depth object : Nat} {h₂ : Host} {calls : List Script.Call} (hk : h.Kept)
    (hl : l < h.loaders.length) {r : Except Failure Unit}
    (hr : (loading depth l object h₂ calls).exec h = some (r, h')) : Returns l h h' :=
  returns_loading_of (fun hk hl hr => returns_require _ _ _ hk hl hr) hk hl hr

end Host

end ScriptVault

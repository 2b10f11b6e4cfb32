import ScriptVault.Proofs.Fresh.Agrees
import ScriptVault.Proofs.Host.Slots

/-!
# Load — loading keeps the books true

Each step of a load keeps what the loader has in agreement with the meaning of its world: to look for a module may
evict others with all that was built on them, and to run one adds its exports.  So what a load gives is the picture
of the module, or the reason why the module fails.
-/

namespace ScriptVault

/-! ### Looking for a module -/

namespace Graph

variable {g : Graph Slots} {ids : String → Prop}

theorem scriptOf_evicted (g : Graph Slots) (evicted : List String) (id : String) :
    (g.evicted evicted).scriptOf id = if id ∈ evicted then none else g.scriptOf id := by
  simp only [scriptOf, slots?, evicted_cache_at?]
  split <;> rfl

end Graph

namespace Host

theorem sheds_depend (g : Graph Slots) (parent specifier : String) :
    Sheds (fun _ => False) g (g.depend parent specifier) :=
  ⟨g.evolves_depend parent specifier, fun _ _ => rfl, fun _ h => h.elim⟩

/-- To invalidate a module sheds it with all that was built on it. -/
theorem sheds_invalidate {g : Graph Slots} {ids : String → Prop} (hg : g.Orderly ids) (id : String) :
    Sheds (· ∈ (g.invalidate id).1) g (g.invalidate id).2 := by
  refine ⟨g.evolves_invalidate hg id, fun i hi => ?_, fun i hi => ?_⟩
  · rw [(hg.consistent.invalidate_spec id).2, Graph.scriptOf_evicted, if_neg hi]
  · rw [(hg.consistent.invalidate_spec id).2, Graph.scriptOf_evicted, if_pos hi]

/-- To let a specifier stand for a module sheds what required it, if it stood for another one. -/
theorem sheds_assigned {loader : Loader} {ids : String → Prop} (ho : loader.graph.Orderly ids) {raw c : String}
    (hc : ids c) (hraw : ids raw → c = raw) :
    ∃ gone, Sheds gone loader.graph (loader.assign raw c).2.graph ∧ (loader.assign raw c).2.graph.Orderly ids ∧
      (loader.assign raw c).2.graph.aliased.at? raw = some c := by
  have ho' := ho.assign hc hraw
  have hstands : (loader.graph.assign raw c).2.aliased.at? raw = some c := by
    rw [Graph.assign_aliased, Table.at?_put_same]
  have hscript (id : String) : (loader.graph.assign raw c).2.scriptOf id = loader.graph.scriptOf id := by
    simp only [Graph.scriptOf, Graph.slots?, (loader.graph.assign_frame raw c).1]
  by_cases h : loader.Repoints raw c
  · rw [Loader.assign_eq_of_repoints h]
    have hspec := (ho'.consistent.invalidate_spec raw).2
    refine ⟨_, ⟨Graph.evolves_repoint ho', fun id hid => ?_, fun id hid => ?_⟩, ho'.invalidate raw, ?_⟩
    · rw [(sheds_invalidate ho' raw).kept id hid, hscript]
    · exact (sheds_invalidate ho' raw).lost id hid
    · rw [hspec, Graph.evicted_aliased, hstands]
  · rw [Loader.assign_eq_of_steady h]
    refine ⟨_, ⟨Graph.evolves_assign fun m hm => ?_, fun id _ => hscript id, fun _ h => h.elim⟩, ho', hstands⟩
    by_contra hne
    exact h ⟨m, hm, hne⟩

/-- What is known once a specifier was let stand for a module; the slot of the module may be dropped. -/
theorem Agrees.settled {m : Meaning} {own : Nat → Option Resolved} {frames : List Frame} {loader : Loader}
    {heap : Heap} {ids : String → Prop} (h : Agrees m own frames none loader.graph heap ids) {s : String}
    {resolved : Resolved} (hc : ids resolved.id) (hraw : ids s → resolved.id = s) :
    Agrees m own frames (some resolved.id) (loader.settled s resolved).2.graph heap ids ∧
      ∀ r t, m.Leads r s t → t.id = resolved.id → s ∈ Graph.namesAt loader.graph.dependencies r.id →
        (loader.settled s resolved).2.graph.scriptOf r.id ≠ none →
          Linked m (some t.id) (loader.settled s resolved).2.graph r s t := by
  obtain ⟨gone, hsheds, ho, hstands⟩ := sheds_assigned h.orderly hc hraw
  have hopen := (h.sheds hsheds ho).opened resolved.id
  have hrefill : Refills resolved.id (loader.assign s resolved.id).2.graph (loader.settled s resolved).2.graph := by
    unfold Loader.settled
    dsimp only
    split
    · exact ⟨⟨_, rfl⟩, fun _ _ => rfl⟩
    · refine ⟨⟨_, rfl⟩, fun id hid => ?_⟩
      simp only [Graph.scriptOf, Graph.slots?, Loader.drop, Table.at?_erase_ne (Ne.symm hid)]
  have hsame : (loader.settled s resolved).2.graph.scriptOf resolved.id = none ∨
      (loader.settled s resolved).2.graph = (loader.assign s resolved.id).2.graph := by
    unfold Loader.settled
    dsimp only
    split
    · exact Or.inr rfl
    · left
      simp only [Graph.scriptOf, Graph.slots?, Loader.drop, Table.at?_erase_same]
      rfl
  constructor
  · rcases hsame with hnone | hsame
    · refine hopen.refilled hrefill (fun slot hs => ?_) (fun _ _ _ hs => ?_)
        fun _ _ _ hs => ?_
      · cases hnone.symm.trans hs
      · cases hnone.symm.trans hs
      · cases hnone.symm.trans hs
    · rw [hsame]
      exact hopen
  · intro r t hl ht hreq hslot
    have hgone : ¬gone r.id := fun hg => by
      rcases hsame with hnone | hsame
      · by_cases hr : r.id = resolved.id
        · exact hslot (hr ▸ hnone)
        · exact hslot ((hrefill.kept _ hr).trans (hsheds.lost _ hg))
      · exact hslot (hsame ▸ hsheds.lost _ hg)
    refine ⟨hl, ?_, ?_, Or.inr rfl⟩
    · rw [hrefill.dependencies]
      exact hsheds.required _ hgone s hreq
    · rw [hrefill.aliased, hstands, ht]

/-! ### Loaders -/

/-- What a loader keeps is true of a world, while some modules are being run for it. -/
structure Truthful (w : World) (ids : String → Prop) (l : Nat) (own : Nat → Option Resolved) (frames : List Frame)
    (h : Host) : Prop where
  /-- What is kept is true. -/
  kept : h.Kept
  /-- There is the loader. -/
  there : l < h.loaders.length
  /-- The host has this world. -/
  world : h.world = w
  /-- What the loader keeps agrees with the meaning of the world. -/
  agrees : Agrees w.meaning own frames none (h.loader l).graph h.heap ids
  /-- Changes of the files that it keeps are announced. -/
  followed : ∀ r, w.meaning.Knows r → r.InVault → h.slotOf l r.id ≠ none → h.Tracked r.id

/-- A call for a specifier is made by the innermost module that is being run. -/
structure Calling (m : Meaning) (ids : String → Prop) (l : Nat) (frames : List Frame) (h : Host) (s : String)
    (cwd d : Option String) : Prop where
  /-- The innermost module is on the stack. -/
  parent : ((h.entered l cwd).contextOf l).parent = frames.head?.map (·.module.id)
  /-- The specifier is seen from this working directory. -/
  cwd : ((h.entered l cwd).contextOf l).cwd = d
  /-- The module calls for the specifier. -/
  calls : ∀ f, frames.head? = some f → d = f.module.cwd ∧
    ∃ calls c, m.calls f.module = .ok calls ∧ c ∈ calls ∧ c.specifier = s
  /-- A known id leads to the module with this id. -/
  named : ∀ t, m.answer s d = .ok (some t) → ids s → t.id = s

/-- What a call gives: the exports of a module that can be loaded, or the reason why there are none; and as long as
the caller has its slot, the module is linked to it. -/
def Outcome (m : Meaning) (own : Nat → Option Resolved) (frames : List Frame) (g : Graph Slots) (s : String)
    (d : Option String) : Except Failure Value → Prop
  | .ok v => ∃ t, m.answer s d = .ok (some t) ∧ m.Good t ∧ Stands own t v ∧
      ∀ f, frames.head? = some f → g.scriptOf f.module.id = some (.module f.object) → Linked m none g f.module s t
  | .error e =>
    (((m.answer s d = .ok none ∧ e = .moduleNotFound s) ∨ m.answer s d = .error e) ∧
        ∀ f, frames.head? = some f → s ∈ Graph.namesAt g.dependencies f.module.id) ∨
      ∃ t, m.answer s d = .ok (some t) ∧ m.Breaks t e ∧
        ∀ f, frames.head? = some f → g.scriptOf f.module.id = some (.module f.object) →
          Linked m none g f.module s t ∧ Failing m none g t e

variable {w : World} {ids : String → Prop} {l : Nat} {own own' : Nat → Option Resolved} {frames frames' : List Frame}
  {h h' h₁ h₂ : Host} {s : String} {cwd d : Option String} {resolved : Resolved}

theorem Failing.breaks {m : Meaning} {hole : Option String} {g : Graph Slots} {r : Resolved} {e : Failure}
    (h : Failing m hole g r e) : m.Breaks r e :=
  Meaning.Fails.carry (fun _ => True) (fun _ _ => rfl) (fun _ _ _ _ => trivial) (fun _ _ _ _ _ _ _ _ h => h)
    (fun _ _ _ ⟨t, hl, hg⟩ => ⟨t, hl.leads, hg⟩) (fun _ _ _ _ hl => ⟨trivial, hl.leads⟩) h trivial

/-- A loader goes on to be truthful where what it keeps goes on to agree. -/
theorem Truthful.moved (ht : Truthful w ids l own frames h) (a : Loads l h h')
    (hagrees : Agrees w.meaning own' frames' none (h'.loader l).graph h'.heap ids)
    (hslots : ∀ r, w.meaning.Knows r → r.InVault → h'.slotOf l r.id ≠ none →
      h.slotOf l r.id ≠ none ∨ h'.Tracked r.id) : Truthful w ids l own' frames' h' where
  kept := a.kept ht.kept
  there := a.count ▸ ht.there
  world := a.world.trans ht.world
  agrees := hagrees
  followed r hk hv hs := (hslots r hk hv hs).elim (fun hs => a.tracked _ (ht.followed r hk hv hs)) id

theorem Calling.callsFor {m : Meaning} (hc : Calling m ids l frames h s cwd d) {f : Frame}
    (hf : frames.head? = some f) (hv : f.module.value = none) {t : Resolved} (ht : m.answer s d = .ok (some t)) :
    m.CallsFor f.module t := by
  obtain ⟨rfl, calls, c, hcalls, hmem, rfl⟩ := hc.calls f hf
  exact ⟨hv, calls, hcalls, c, hmem, ht⟩

/-! ### Finding a module -/

theorem settle_heap (l : Nat) (id : String) (resolved : Resolved) (context : Context) (h : Host) :
    (settle l id resolved context h).heap = h.heap := by
  obtain ⟨_, _, _, _, he⟩ := evicting_rest l (·.settled id resolved) h
  rw [settle_eq]
  split <;> rw [he]

theorem find_heap (hk : h.Kept) {x : Except Failure Resolved} (hr : (find l s).exec h = some (x, h')) :
    h'.heap = h.heap := by
  cases finding_of_exec hk hr with
  | unknown ha _ => exact ha.heap
  | failed ha _ => exact ha.heap
  | settled ha _ _ => exact (settle_heap ..).trans ha.heap

/-- What is known once a module was found. -/
structure Located (w : World) (ids : String → Prop) (l : Nat) (own : Nat → Option Resolved) (frames : List Frame)
    (s : String) (d : Option String) (resolved : Resolved) (h h₁ : Host) : Prop where
  /-- The host came about by loading. -/
  loads : Loads l h h₁
  /-- No object was changed. -/
  heap : h₁.heap = h.heap
  /-- No slot was filled. -/
  slots : ∀ id, h₁.slotOf l id ≠ none → h.slotOf l id ≠ none
  /-- The specifier stands for the module. -/
  answer : w.meaning.answer s d = .ok (some resolved.anew)
  /-- A file is followed. -/
  tracked : resolved.anew.InVault → h₁.Tracked resolved.id
  /-- What is kept agrees, but for the slot of the module. -/
  agrees : Agrees w.meaning own frames (some resolved.id) (h₁.loader l).graph h₁.heap ids
  /-- The module is linked to the caller, if that one has its slot. -/
  linked : ∀ f, frames.head? = some f → (h₁.loader l).graph.scriptOf f.module.id ≠ none →
    Linked w.meaning (some resolved.id) (h₁.loader l).graph f.module s resolved.anew

theorem entered_loader (hl : l < h.loaders.length) (cwd : Option String) :
    ((h.entered l cwd).loader l).graph = (h.loader l).graph := by
  rw [entered, loader_onLoader hl]
  rfl

/-- The loader after a module was looked for and its specifier was recorded. -/
theorem Truthful.depended (ht : Truthful w ids l own frames h) (hc : Calling w.meaning ids l frames h s cwd d)
    {loader : Loader}
    (hloader : loader = ((h.entered l cwd).loader l).depend ((h.entered l cwd).contextOf l) s) :
    Agrees w.meaning own frames none loader.graph h.heap ids ∧
      (∀ id, loader.graph.scriptOf id = h.slotOf l id) ∧
      ∀ f, frames.head? = some f → s ∈ Graph.namesAt loader.graph.dependencies f.module.id := by
  have hgraph := entered_loader ht.there cwd
  unfold Loader.depend at hloader
  rw [hc.parent] at hloader
  cases hhead : frames.head? with
  | none =>
    rw [hhead] at hloader
    dsimp only [Option.map_none] at hloader
    subst hloader
    rw [hgraph]
    exact ⟨ht.agrees, fun _ => rfl, nofun⟩
  | some f =>
    rw [hhead] at hloader
    dsimp only [Option.map_some] at hloader
    subst hloader
    dsimp only
    rw [hgraph]
    refine ⟨ht.agrees.sheds (sheds_depend _ _ _) (ht.agrees.orderly.depend _ _), fun _ => rfl, fun f' hf' => ?_⟩
    cases hf'
    exact Graph.mem_namesAt_addName.2 (Or.inl ⟨rfl, rfl⟩)

/-- To find a module keeps what is known. -/
theorem Truthful.located (ht : Truthful w ids l own frames h) (hc : Calling w.meaning ids l frames h s cwd d)
    (hplain : w.meaning.Plain ids) (hf : Finds l h s cwd resolved h₁) :
    Located w ids l own frames s d resolved h h₁ := by
  have hin := Loads.entered l cwd h
  have hk := hin.kept ht.kept
  have hl : l < (h.entered l cwd).loaders.length := by rw [hin.count]; exact ht.there
  have hloader := find_loader hk hl hf
  obtain ⟨hagrees, hslots, hrequired⟩ := ht.depended hc rfl
  have hanswer : w.meaning.answer s d = .ok (some resolved.anew) ∧
      (resolved.InVault → h₁.Tracked resolved.id) := by
    have hworld : (h.entered l cwd).world = w := hin.world.trans ht.world
    cases finding_of_exec hk hf with
    | settled ha hanswer htrack =>
      rw [hc.cwd, hworld] at hanswer
      have hback := returns_settle (by rw [ha.loaders]; simpa [depend, onLoader] using hl) s resolved
        ((h.entered l cwd).contextOf l)
      exact ⟨hanswer, fun hv => hback.tracked _ (htrack hv)⟩
  obtain ⟨hanswer, htracked⟩ := hanswer
  have hids : ids resolved.id := hplain.inside resolved.anew ⟨s, d, hanswer⟩
  obtain ⟨hsettled, hlinked⟩ := hagrees.settled hids (hc.named resolved.anew hanswer)
  rw [← hloader] at hsettled hlinked
  refine ⟨hin.trans (returns_find hk hl hf).toLoads, (find_heap hk hf).trans rfl, fun id hs => ?_, hanswer,
    htracked, ?_, fun f hhead hs => ?_⟩
  · rcases find_slotOf hk hl hf id with he | he
    · exact absurd he hs
    · rw [he, entered, enter_slotOf] at hs
      exact hs
  · rw [find_heap hk hf]
    exact hsettled
  · obtain ⟨rfl, -⟩ := hc.calls f hhead
    exact hlinked f.module resolved.anew hanswer rfl (hrequired f hhead) hs

/-! ### Serving a module -/

theorem get_module {heap : Heap} {o p : Nat} (h : heap.record o = moduleRecord p) :
    heap.get o (.text "exports") = .object p := by
  rw [Heap.get_own (lt_size_of_record h) (by rw [h]; rfl), h]
  rfl

theorem fill_loader (hl : l < h.loaders.length) (id : String) (slot : ScriptSlot) :
    Refills id (h.loader l).graph ((h.fill l id slot).loader l).graph ∧
      ((h.fill l id slot).loader l).graph.scriptOf id = some slot := by
  have hslot (i : String) : ((h.fill l id slot).loader l).graph.scriptOf i = if i = id then some slot else h.slotOf l i :=
    fill_slotOf hl id slot i
  refine ⟨⟨?_, fun i hi => by rw [hslot, if_neg hi]; rfl⟩, by rw [hslot, if_pos rfl]⟩
  rw [fill, loader_onLoader hl]
  exact ⟨_, rfl⟩

/-- Whoever runs the module that was found again waits for a module that can be loaded. -/
theorem Located.good_of_running (a : Located w ids l own frames s d resolved h h₁)
    (hc : Calling w.meaning ids l frames h s cwd d) (hplain : w.meaning.Plain ids) (hu : w.meaning.Untangled)
    {f : Frame} (hf : f ∈ frames) (hid : f.module.id = resolved.id) :
    f.module = resolved.anew ∧ w.meaning.Good f.module := by
  have hknown : w.meaning.Knows resolved.anew := ⟨s, d, a.answer⟩
  have hsame := hplain.coherent _ _ (a.agrees.running f hf).knows hknown hid
  refine ⟨hsame, a.agrees.good_of_running hu hf fun f₀ hf₀ => ?_⟩
  rw [hsame]
  exact hc.callsFor hf₀ (a.agrees.running f₀ (List.mem_of_mem_head? hf₀)).value a.answer

/-- A true slot gives what stands for its module, or the reason why it fails. -/
theorem SlotTrue.valueOf {m : Meaning} {g : Graph Slots} {t : Resolved} {slot : ScriptSlot}
    (ht : SlotTrue m own frames none g h.heap t slot) (hgood : ∀ f ∈ frames, f.module = t → m.Good t) :
    match h.valueOf slot with
    | .ok v => m.Good t ∧ Stands own t v
    | .error e => Failing m none g t e := by
  cases slot with
  | failed e => exact ht
  | value v => exact ⟨Meaning.good_of_value (by rw [show t.value = some v from ht]; nofun), Or.inl ht⟩
  | module object =>
    obtain ⟨hv, p, hp, ho, hopen⟩ := ht
    have hget : h.valueOf (.module object) = .ok (.object p) := by
      rw [Host.valueOf, get_module hp]
    rw [hget]
    refine ⟨?_, Or.inr ⟨hv, p, rfl, ho⟩⟩
    rcases hopen with ⟨f, hf, -, hm⟩ | hfinished
    · exact hgood f hf hm
    · exact hfinished.good

/-- What is found in the slot of a module is what a call for it gives. -/
theorem Agrees.outcome {m : Meaning} {g : Graph Slots} (hagrees : Agrees m own frames none g h.heap ids)
    (hplain : m.Plain ids) {t : Resolved} (hanswer : m.answer s d = .ok (some t)) {slot : ScriptSlot}
    (hslot : g.scriptOf t.id = some slot) (hgood : ∀ f ∈ frames, f.module = t → m.Good t)
    (hlinked : ∀ f, frames.head? = some f → g.scriptOf f.module.id ≠ none → Linked m none g f.module s t) :
    Outcome m own frames g s d (h.valueOf slot) := by
  obtain ⟨r, hk, hid, htrue⟩ := hagrees.slots _ _ hslot
  obtain rfl := hplain.coherent r t hk ⟨s, d, hanswer⟩ hid
  have hvalue := htrue.valueOf hgood
  have hlinked' (f : Frame) (hf : frames.head? = some f) (hs : g.scriptOf f.module.id = some (.module f.object)) :=
    hlinked f hf (by rw [hs]; nofun)
  cases hv : h.valueOf slot with
  | ok v =>
    rw [hv] at hvalue
    exact ⟨r, hanswer, hvalue.1, hvalue.2, hlinked'⟩
  | error e =>
    rw [hv] at hvalue
    exact Or.inr ⟨r, hanswer, Failing.breaks hvalue, fun f hf hs => ⟨hlinked' f hf hs, hvalue⟩⟩

theorem Linked.closed {m : Meaning} {c : String} {g : Graph Slots} {r t : Resolved}
    (h : Linked m (some c) g r s t) (hc : g.scriptOf c ≠ none) : Linked m none g r s t :=
  ⟨h.leads, h.required, h.standing, Or.inl (h.filled.elim id fun he => Option.some.inj he ▸ hc)⟩

/-- A module that is served without being run gives what a call for it gives. -/
theorem Located.served (a : Located w ids l own frames s d resolved h h₁) (ht : Truthful w ids l own frames h)
    (hc : Calling w.meaning ids l frames h s cwd d) (hplain : w.meaning.Plain ids) (hu : w.meaning.Untangled)
    {found : Except Failure Value} (hclaim : claim l resolved h₁ = (.inl found, h₂)) :
    Truthful w ids l own frames h₂ ∧ Outcome w.meaning own frames (h₂.loader l).graph s d found := by
  have hl : l < h₁.loaders.length := by rw [a.loads.count]; exact ht.there
  have hgood (f : Frame) (hf : f ∈ frames) (hm : f.module = resolved.anew) : w.meaning.Good resolved.anew :=
    hm ▸ (a.good_of_running hc hplain hu hf (congrArg Resolved.id hm : f.module.id = resolved.anew.id)).2
  cases hslot : h₁.slotOf l resolved.id with
  | some slot =>
    rw [claim_of_slot hslot] at hclaim
    cases hclaim
    have hfilled : (h₁.loader l).graph.scriptOf resolved.id ≠ none := fun he => nomatch he.symm.trans hslot
    have hagrees := a.agrees.closed hfilled fun f hf hid => Or.inr (a.good_of_running hc hplain hu hf hid).2
    exact ⟨ht.moved a.loads hagrees fun r _ _ hs => Or.inl (a.slots _ hs),
      hagrees.outcome hplain a.answer hslot hgood fun f hf hs => (a.linked f hf hs).closed hfilled⟩
  | none =>
    unfold claim at hclaim
    rw [show ((h₁.loader l).slots resolved.id).script = none from hslot] at hclaim
    dsimp only at hclaim
    cases hv : resolved.value with
    | none => rw [hv] at hclaim; cases hclaim
    | some v =>
      rw [hv] at hclaim
      cases hclaim
      obtain ⟨hrefill, hfill⟩ := fill_loader hl resolved.id (.value v)
      have hfilled := a.agrees.refilled hrefill
        (fun slot hs => ⟨resolved.anew, ⟨s, d, a.answer⟩, rfl, by rw [hfill] at hs; cases hs; exact hv⟩)
        (fun _ _ _ hs => nomatch hfill.symm.trans hs) fun _ _ _ hs => nomatch hfill.symm.trans hs
      have hne : ((h₁.fill l resolved.id (.value v)).loader l).graph.scriptOf resolved.id ≠ none := by
        rw [hfill]; nofun
      have hagrees := hfilled.closed hne fun f hf hid => Or.inr (a.good_of_running hc hplain hu hf hid).2
      have hloads := a.loads.trans (returns_fill hl resolved.id (.value v)).toLoads
      refine ⟨ht.moved hloads hagrees fun r hk hin hs => ?_,
        hagrees.outcome (h := h₁.fill l resolved.id (.value v)) hplain a.answer hfill hgood fun f hf hs => ?_⟩
      · rw [fill_slotOf hl] at hs
        by_cases hid : r.id = resolved.id
        · have := hplain.coherent r resolved.anew hk ⟨s, d, a.answer⟩ hid
          rw [this] at hin
          cases hin.1.symm.trans hv
        · rw [if_neg hid] at hs
          exact Or.inl (a.slots _ hs)
      · refine (hrefill.linked (a.linked f hf fun he => ?_)).closed hne
        by_cases hid : f.module.id = resolved.id
        · have hm := (a.good_of_running hc hplain hu (List.mem_of_mem_head? hf) hid).1
          have hvalue := (a.agrees.running f (List.mem_of_mem_head? hf)).value
          rw [hm] at hvalue
          cases hvalue.symm.trans hv
        · exact hs ((hrefill.kept _ hid).trans he)

/-! ### Running a module -/

/-- Labels are added, and none is changed. -/
def Extends (own own' : Nat → Option Resolved) : Prop := ∀ p r, own p = some r → own' p = some r

theorem Extends.trans {own'' : Nat → Option Resolved} (a : Extends own own') (b : Extends own' own'') :
    Extends own own'' := fun p r h => b p r (a p r h)

/-- A module that is to be run joins those that are being run. -/
theorem Located.run (a : Located w ids l own frames s d resolved h h₁) (ht : Truthful w ids l own frames h)
    (hc : Calling w.meaning ids l frames h s cwd d) (hplain : w.meaning.Plain ids) (hu : w.meaning.Untangled)
    {object : Nat} (hclaim : claim l resolved h₁ = (.inr object, h₂)) :
    ∃ f own', f.module = resolved.anew ∧ f.object = object ∧ f.asked = s ∧ f.done = [] ∧ Extends own own' ∧
      Loads l h h₂ ∧ Truthful w ids l own' (f :: frames) h₂ := by
  have hl : l < h₁.loaders.length := by rw [a.loads.count]; exact ht.there
  obtain ⟨hslot, hv, hobject, rfl⟩ := claim_inr hclaim
  rw [newModule_eq] at hobject
  have hknown : w.meaning.Knows resolved.anew := ⟨s, d, a.answer⟩
  have hpushed := Agrees.pushed (t := resolved.anew) (s := s) a.agrees hknown hv fun f hf =>
    ⟨hc.callsFor hf (a.agrees.running f (List.mem_of_mem_head? hf)).value a.answer,
      fun hs => a.linked f hf (by rw [hs]; nofun)⟩
  have hown : Extends own (Function.update own h₁.heap.records.size (some resolved.anew)) := fun p r hp => by
    have := (a.agrees.labels p r hp).1
    rwa [Function.update_of_ne (by omega)]
  set h₂ : Host := { h₁ with heap := (newModule h₁.heap).2 } with hh₂
  obtain ⟨hrefill, hfill⟩ := fill_loader (h := h₂) hl resolved.id (.module object)
  -- the object is new, so no other module that is being run has it
  have hnew (f : Frame) (hf : f ∈ frames) : object ≠ f.object := by
    have := lt_size_of_record (a.agrees.running f hf).object
    dsimp only at hobject
    omega
  have hfilled := hpushed.refilled hrefill (fun slot hs => ?_) (fun f hf _ hs => ?_) fun f hf _ hs => ?_
  · have hagrees := hfilled.closed (by rw [show resolved.anew.id = resolved.id from rfl, hfill]; nofun)
      fun f hf hid => ?_
    · have hloads : Loads l h (h₂.fill l resolved.id (.module object)) :=
        a.loads.trans ((Loads.heap l h₁ _ (newModule_grows h₁.heap)).trans
          (returns_fill (h := h₂) hl resolved.id (.module object)).toLoads)
      refine ⟨_, _, rfl, hobject.symm, rfl, rfl, hown, hloads, ht.moved hloads hagrees fun r hk hin hs => ?_⟩
      rw [fill_slotOf (h := h₂) hl] at hs
      by_cases hid : r.id = resolved.id
      · obtain rfl := hplain.coherent r resolved.anew hk hknown hid
        exact Or.inr ((Loads.heap l h₁ _ (newModule_grows h₁.heap)).trans
          (returns_fill (h := h₂) hl resolved.id (.module object)).toLoads |>.tracked _ (a.tracked hin))
      · rw [if_neg hid] at hs
        exact Or.inl (a.slots _ hs)
    · rcases List.mem_cons.1 hf with rfl | hf
      · exact Or.inl (hfill.trans (by rw [hobject]))
      · exact Or.inr (a.good_of_running hc hplain hu hf hid).2
  · cases hfill.symm.trans hs
    have htrue := hpushed.running _ (List.mem_cons_self ..)
    exact ⟨resolved.anew, hknown, rfl, hv, _, hobject ▸ htrue.object, htrue.owned,
      Or.inl ⟨_, List.mem_cons_self .., hobject.symm, rfl⟩⟩
  · rcases List.mem_cons.1 hf with rfl | hf
    · rfl
    · cases hfill.symm.trans hs
      exact absurd rfl (hnew f hf)
  · cases hfill.symm.trans hs
    exact hnew f hf rfl

variable {f : Frame} {e : Failure}

theorem fail_loader (hl : l < h.loaders.length) (id : String) (object : Nat) (e : Failure) :
    (fail l id object e h).heap = h.heap ∧
      ((h.slotOf l id = some (.module object) ∧
          Refills id (h.loader l).graph ((fail l id object e h).loader l).graph ∧
          ((fail l id object e h).loader l).graph.scriptOf id = some (.failed e)) ∨
        (h.slotOf l id ≠ some (.module object) ∧ fail l id object e h = h)) := by
  by_cases hs : h.slotOf l id = some (.module object)
  · have he : fail l id object e h = h.fill l id (.failed e) := by
      unfold fail
      rw [show ((h.loader l).slots id).script = some (.module object) from hs]
      simp
    rw [he]
    exact ⟨rfl, Or.inl ⟨hs, fill_loader hl id _⟩⟩
  · have he : fail l id object e h = h := by
      unfold fail
      split
      · next current hcurrent =>
        refine if_neg fun hobject => hs ?_
        rw [← hobject]
        exact hcurrent
      · rfl
    rw [he]
    exact ⟨rfl, Or.inr ⟨hs, rfl⟩⟩

/-- A module that fails leaves the reason to whoever called for it. -/
theorem Truthful.failed (ht : Truthful w ids l own (f :: frames) h) (hplain : w.meaning.Plain ids)
    (hu : w.meaning.Untangled) (hanswer : w.meaning.answer f.asked d = .ok (some f.module))
    (hbreaks : w.meaning.Breaks f.module e)
    (hfailing : h.slotOf l f.module.id = some (.module f.object) →
      Failing w.meaning none (h.loader l).graph f.module e) :
    Truthful w ids l own frames (fail l f.module.id f.object e h) ∧
      Outcome w.meaning own frames ((fail l f.module.id f.object e h).loader l).graph f.asked d (.error e) := by
  obtain ⟨hheap, hgraph⟩ := fail_loader ht.there f.module.id f.object e
  have htrue := ht.agrees.running f (List.mem_cons_self ..)
  have hagrees := ht.agrees.failed hplain hu hbreaks.not_good hfailing
    (hgraph.imp id fun ⟨hs, he⟩ => ⟨hs, by rw [he]⟩)
  have hloads := (returns_fail ht.there f.module.id f.object e).toLoads
  refine ⟨ht.moved hloads (hheap ▸ hagrees) fun r hk hin hs => ?_, Or.inr ⟨f.module, hanswer, hbreaks, ?_⟩⟩
  · left
    by_cases hid : r.id = f.module.id
    · rcases hgraph with ⟨hslot, -⟩ | ⟨-, he⟩
      · rw [hid, hslot]; nofun
      · rwa [he] at hs
    · rwa [fail_slotOf ht.there _ _ _ hid] at hs
  · intro f₀ hf₀ hs
    have hwaits := (List.isChain_cons.1 ht.agrees.chain).1 f₀ hf₀
    -- whoever calls for itself is on a circle
    have hne : f₀.module.id ≠ f.module.id := fun hid => by
      have hsame := hplain.coherent _ _
        (ht.agrees.running f₀ (List.mem_cons_of_mem _ (List.mem_of_mem_head? hf₀))).knows htrue.knows hid
      exact hbreaks.not_good (hu _ htrue.knows (Relation.TransGen.single (hsame ▸ hwaits.calls)))
    have hs₀ : (h.loader l).graph.scriptOf f₀.module.id = some (.module f₀.object) := by
      have := fail_slotOf (h := h) ht.there f.module.id f.object e hne
      exact this.symm.trans hs
    obtain ⟨hlink, hslot⟩ := hwaits.held hs₀
    have hslot : (h.loader l).graph.scriptOf f.module.id = some (.module f.object) :=
      hslot.resolve_right fun h => h.elim hbreaks.not_good nofun
    rcases hgraph with ⟨-, hrefill, hfilled⟩ | ⟨hn, -⟩
    · refine ⟨(hrefill.linked (carries_opened.linked _ _ _ trivial hlink).2).closed (by rw [hfilled]; nofun), ?_⟩
      obtain ⟨r, hk, hid, hr⟩ := hagrees.slots _ _ hfilled
      exact hplain.coherent _ _ hk htrue.knows hid ▸ hr
    · exact absurd hslot hn

/-- A module that has made all its calls gives its exports to whoever called for it. -/
theorem Truthful.finished (ht : Truthful w ids l own (f :: frames) h)
    (hanswer : w.meaning.answer f.asked d = .ok (some f.module)) (hcalls : w.meaning.calls f.module = .ok f.done) :
    Truthful w ids l own frames (close f.object h).2 ∧
      Outcome w.meaning own frames ((close f.object h).2.loader l).graph f.asked d (.ok (close f.object h).1) := by
  have htrue := ht.agrees.running f (List.mem_cons_self ..)
  have hclose : close f.object h =
      (.object f.exports, { h with heap := (h.heap.define f.exports .tag closedTag).2 }) := by
    unfold close
    rw [get_module htrue.object]
  rw [hclose]
  refine ⟨ht.moved ?_ (ht.agrees.finished hcalls) fun _ _ _ hs => Or.inl hs, f.module, hanswer, htrue.good hcalls,
    Or.inr ⟨htrue.value, _, rfl, htrue.owned⟩, fun f₀ hf₀ hs => ?_⟩
  · exact Loads.heap l h _ (Nat.le_of_eq (Heap.define_rest ..).1.symm)
  · exact (((List.isChain_cons.1 ht.agrees.chain).1 f₀ hf₀).held hs).1

/-! ### The calls of a module -/

/-- What a call gave is put into the exports of the caller. -/
theorem Truthful.put (ht : Truthful w ids l own (f :: frames) h) {call : Script.Call} {rest : List Script.Call}
    (hcalls : w.meaning.calls f.module = .ok (f.done ++ call :: rest)) {v : Value}
    (ho : Outcome w.meaning own (f :: frames) (h.loader l).graph call.specifier f.module.cwd (.ok v)) :
    Truthful w ids l own ({ f with done := f.done ++ [call] } :: frames)
      (h.put (.object f.exports) call.specifier v) := by
  obtain ⟨t, hl, hg, hs, hlink⟩ := ho
  exact ht.moved (returns_put ..).toLoads (ht.agrees.put hcalls hl hg hs (hlink f rfl)) fun _ _ _ hs => Or.inl hs

/-- While a module is being run, its calls are seen from it. -/
theorem calling_of_returns {m : Meaning} (hplain : m.Plain ids) (hl : l < h₂.loaders.length)
    (hf : f.module = resolved.anew) (hk : m.Knows f.module) (hback : Returns l (h₂.opened l resolved) h)
    {calls : List Script.Call} (hcalls : m.calls f.module = .ok calls) {call : Script.Call} (hmem : call ∈ calls)
    (done : List Script.Call) :
    Calling m ids l ({ f with done := done } :: frames) h call.specifier none f.module.cwd := by
  have hlh : l < h.loaders.length := by
    rw [hback.count]; simpa [Host.opened, onLoader] using hl
  have hcontext : (h.entered l none).contextOf l = (h₂.opened l resolved).contextOf l := by
    rw [← hback.context]
    unfold contextOf entered
    rw [loader_onLoader hlh, Loader.enter_context]
    simp
  have hopened : (h₂.opened l resolved).contextOf l =
      ⟨(h₂.contextOf l).cwds ++ [resolved.cwd], (h₂.contextOf l).parents ++ [resolved.id]⟩ := by
    show ((h₂.onLoader l (·.enter [resolved.cwd] [resolved.id])).contextOf l) = _
    unfold contextOf
    rw [loader_onLoader hl, Loader.enter_context]
  refine ⟨?_, ?_, ?_, fun t ht hids => hplain.named _ _ _ _ hk hcalls hmem ht hids⟩
  · rw [hcontext, hopened]
    simp [Context.parent, hf, Resolved.anew]
  · rw [hcontext, hopened]
    simp [Context.cwd, hf, Resolved.anew]
  · rintro f' hf'
    cases hf'
    exact ⟨rfl, calls, call, hcalls, hmem, rfl⟩

/-- A module fails for the reason that a call of it gives. -/
theorem Truthful.breaks (ht : Truthful w ids l own (f :: frames) h) {call : Script.Call} {after : List Script.Call}
    (hcalls : w.meaning.calls f.module = .ok (f.done ++ call :: after))
    (ho : Outcome w.meaning own (f :: frames) (h.loader l).graph call.specifier f.module.cwd (.error e)) :
    w.meaning.Breaks f.module e ∧
      (h.slotOf l f.module.id = some (.module f.object) → Failing w.meaning none (h.loader l).graph f.module e) := by
  have htrue := ht.agrees.running f (List.mem_cons_self ..)
  have hdone : ∀ c ∈ f.done, ∃ t, w.meaning.Leads f.module c.specifier t ∧ w.meaning.Good t := by
    obtain ⟨_, -, hall⟩ := htrue.exports
    intro c hc
    obtain ⟨t, hl, hg, -⟩ := hall c hc
    exact ⟨t, hl, hg⟩
  rcases ho with ⟨hn, hrecorded⟩ | ⟨t, hl, hb, hlink⟩
  · exact ⟨.unanswered htrue.value hcalls hdone trivial hn, fun hs =>
      .unanswered htrue.value hcalls (htrue.progress hs) (hrecorded f rfl) hn⟩
  · refine ⟨.passed htrue.value hcalls hdone hl hb, fun hs => ?_⟩
    obtain ⟨hlinked, hfailing⟩ := hlink f rfl hs
    exact .passed htrue.value hcalls (htrue.progress hs) hlinked hfailing

/-- What is known of a call that ends. -/
def Served (w : World) (ids : String → Prop) (l : Nat) (own : Nat → Option Resolved) (frames : List Frame) (s : String)
    (d : Option String) (x : Except Failure Value) (h' : Host) : Prop :=
  ∃ own', Extends own own' ∧ Truthful w ids l own' frames h' ∧
    Outcome w.meaning own' frames (h'.loader l).graph s d x

/-- The calls of a module are made one after the other, until one of them fails. -/
theorem Truthful.loading {depth : Nat} (hrequire : ∀ {own frames h s cwd d x h'}, Truthful w ids l own frames h →
      Calling w.meaning ids l frames h s cwd d →
        (Host.require Scan.evaluator depth l s cwd).exec h = some (x, h') → Served w ids l own frames s d x h')
    (hplain : w.meaning.Plain ids) (hl : l < h₂.loaders.length)
    (ht : Truthful w ids l own (f :: frames) (h₂.opened l resolved)) (hf : f.module = resolved.anew)
    (hdone : f.done = []) {calls : List Script.Call} (hcalls : w.meaning.calls f.module = .ok calls)
    {x : Except Failure Unit}
    (hr : (Host.loading depth l f.object h₂ calls).exec (h₂.opened l resolved) = some (x, h')) :
    ∃ own', Extends own own' ∧
      ((x = .ok () ∧ Truthful w ids l own' ({ f with done := calls } :: frames) h') ∨
        ∃ e before call after, x = .error e ∧ calls = before ++ call :: after ∧
          Truthful w ids l own' ({ f with done := before } :: frames) h' ∧
          Outcome w.meaning own' ({ f with done := before } :: frames) (h'.loader l).graph call.specifier f.module.cwd
            (.error e)) := by
  have htrue := ht.agrees.running f (List.mem_cons_self ..)
  have hobject : h₂.heap.get f.object (.text "exports") = .object f.exports := get_module htrue.object
  unfold Host.loading at hr
  rw [hobject] at hr
  -- what each call keeps: the calls before are done, and the stacks are as they were
  let inv (before : List Script.Call) (h : Host) : Prop :=
    Returns l (h₂.opened l resolved) h ∧
      ∃ own', Extends own own' ∧ Truthful w ids l own' ({ f with done := before } :: frames) h
  have nested {before : List Script.Call} {call : Script.Call} {after : List Script.Call} {h₃ : Host}
      {y : Except Failure Value} {h₄ : Host} (hsplit : calls = before ++ call :: after) (hinv : inv before h₃)
      (hr : (Host.require Scan.evaluator depth l call.specifier none).exec h₃ = some (y, h₄)) :
      Returns l (h₂.opened l resolved) h₄ ∧ ∃ own', Extends own own' ∧
        Truthful w ids l own' ({ f with done := before } :: frames) h₄ ∧
        Outcome w.meaning own' ({ f with done := before } :: frames) (h₄.loader l).graph call.specifier f.module.cwd y := by
    obtain ⟨hback, own₁, hext, ht₁⟩ := hinv
    have hmem : call ∈ calls := by simp [hsplit]
    have hcalling : Calling w.meaning ids l ({ f with done := before } :: frames) h₃ call.specifier none
        f.module.cwd :=
      calling_of_returns hplain hl hf htrue.knows hback hcalls hmem before
    obtain ⟨own₂, hext', ht₂, ho⟩ := hrequire ht₁ hcalling hr
    exact ⟨hback.trans (returns_require _ _ _ ht₁.kept ht₁.there hr), own₂, hext.trans hext', ht₂, ho⟩
  have start : inv [] (h₂.opened l resolved) := ⟨Returns.refl _ _, own, fun _ _ h => h, by
    rw [← hdone]; exact ht⟩
  rcases loadAll_walk inv (fun before call after h₃ v h₄ hsplit hinv hr => by
      obtain ⟨hback, own₁, hext, ht₁, ho⟩ := nested hsplit hinv hr
      exact ⟨hback.trans (returns_put ..), own₁, hext, ht₁.put (hsplit ▸ hcalls) ho⟩) start hr with
    ⟨rfl, -, own₁, hext, ht₁⟩ | ⟨e, before, call, after, h₃, rfl, hsplit, hinv, hr⟩
  · exact ⟨own₁, hext, Or.inl ⟨rfl, ht₁⟩⟩
  · obtain ⟨-, own₁, hext, ht₁, ho⟩ := nested hsplit hinv hr
    exact ⟨own₁, hext, Or.inr ⟨e, before, call, after, rfl, hsplit, ht₁, ho⟩⟩

theorem Truthful.context (ht : Truthful w ids l own frames h) (change : Loader → Loader)
    (hchange : ∀ loader, (change loader).graph = loader.graph ∧ (change loader).listening = loader.listening) :
    Truthful w ids l own frames (h.onLoader l change) ∧
      ((h.onLoader l change).loader l).graph = (h.loader l).graph := by
  have hgraph : ((h.onLoader l change).loader l).graph = (h.loader l).graph := by
    rw [loader_onLoader ht.there, (hchange _).1]
  refine ⟨ht.moved (Loads.onLoader l h change fun loader => (hchange loader).2) ?_ fun r _ _ hs => Or.inl ?_, hgraph⟩
  · rw [hgraph]
    exact ht.agrees
  · have : (h.onLoader l change).slotOf l r.id = h.slotOf l r.id := congrArg (Graph.scriptOf · r.id) hgraph
    rwa [this] at hs

/-- Around the script of a module only the stacks are changed. -/
theorem Truthful.opened (ht : Truthful w ids l own frames h) (resolved : Resolved) :
    Truthful w ids l own frames (h.opened l resolved) := by
  obtain ⟨ht', -⟩ := ht.context (·.enter [resolved.cwd] [resolved.id]) fun _ => ⟨rfl, rfl⟩
  exact ht'.moved (Returns.scripts l _ _).toLoads ht'.agrees fun _ _ _ hs => Or.inl hs

theorem Truthful.closed (ht : Truthful w ids l own frames h) :
    Truthful w ids l own frames (h.closed l) ∧ ((h.closed l).loader l).graph = (h.loader l).graph :=
  ht.context (·.leave 1 1) fun _ => ⟨rfl, rfl⟩

/-- A load that ends gives what the meaning of the world says, and keeps the loader truthful. -/
theorem truthful_require (hplain : w.meaning.Plain ids) (hu : w.meaning.Untangled) (depth : Nat)
    (ht : Truthful w ids l own frames h) (hc : Calling w.meaning ids l frames h s cwd d) {x : Except Failure Value}
    (hr : (Host.require Scan.evaluator depth l s cwd).exec h = some (x, h')) : Served w ids l own frames s d x h' := by
  induction depth generalizing own frames h s cwd d x h' with
  | zero => cases hr
  | succ depth ih =>
    obtain ⟨h₁, hcourse, rfl⟩ := course_of_exec hr
    suffices hserved : Served w ids l own frames s d x h₁ by
      obtain ⟨own₁, hext, ht₁, ho⟩ := hserved
      obtain ⟨ht₂, hgraph⟩ := ht₁.context (·.leave cwd.toList.length 0) fun _ => ⟨rfl, rfl⟩
      exact ⟨own₁, hext, ht₂, hgraph ▸ ho⟩
    have running {resolved : Resolved} {h₂ : Host} {object : Nat} {h₃ : Host}
        (hf : Finds l h s cwd resolved h₂) (hclaim : claim l resolved h₂ = (.inr object, h₃)) :
        w.meaning.answer s d = .ok (some resolved.anew) ∧
          ∃ f own', f.module = resolved.anew ∧ f.object = object ∧ f.asked = s ∧ f.done = [] ∧ Extends own own' ∧
            Loads l h h₃ ∧ Truthful w ids l own' (f :: frames) h₃ := by
      have hlocated := ht.located hc hplain hf
      exact ⟨hlocated.answer, hlocated.run ht hc hplain hu hclaim⟩
    cases hcourse with
    | @unfound e h₁ hf =>
      have hin := Loads.entered l cwd h
      have hworld : (h.entered l cwd).world = w := hin.world.trans ht.world
      have hl : l < (h.entered l cwd).loaders.length := by rw [hin.count]; exact ht.there
      have unfound (ha : Asked (depend l ((h.entered l cwd).contextOf l) s (h.entered l cwd)) h₁)
          (hn : (w.meaning.answer s d = .ok none ∧ e = .moduleNotFound s) ∨ w.meaning.answer s d = .error e) :
          Served w ids l own frames s d (.error e) h₁ := by
        have hloader : h₁.loader l =
            ((h.entered l cwd).loader l).depend ((h.entered l cwd).contextOf l) s := by
          rw [loader, ha.loaders]
          exact loader_onLoader hl _
        obtain ⟨hagrees, hslots, hrecorded⟩ := ht.depended hc hloader
        refine ⟨own, fun _ _ h => h, ?_, Or.inl ⟨hn, hrecorded⟩⟩
        refine ht.moved (hin.trans (returns_find (hin.kept ht.kept) hl hf).toLoads) ?_ fun r _ _ hs => Or.inl ?_
        · rw [find_heap (hin.kept ht.kept) hf]
          exact hagrees
        · rw [← hslots]
          exact hs
      cases finding_of_exec (hin.kept ht.kept) hf with
      | unknown ha hanswer =>
        rw [hc.cwd, hworld] at hanswer
        exact unfound ha (Or.inl ⟨hanswer, rfl⟩)
      | failed ha hanswer =>
        rw [hc.cwd, hworld] at hanswer
        exact unfound ha (Or.inr hanswer)
    | served hf hclaim =>
      obtain ⟨ht', ho⟩ := (ht.located hc hplain hf).served ht hc hplain hu hclaim
      exact ⟨own, fun _ _ h => h, ht', ho⟩
    | @unreadable resolved h₂ object h₃ e h₄ hf hclaim hcalls he =>
      obtain ⟨hanswer, f, own₁, hm, rfl, rfl, -, hext, -, ht₁⟩ := running hf hclaim
      have hid : resolved.id = f.module.id := by rw [hm]; rfl
      rw [ht₁.world] at hcalls
      have hcalls : w.meaning.calls f.module = .error e := hm ▸ hcalls
      have hvalue := (ht₁.agrees.running f (List.mem_cons_self ..)).value
      have ht₂ : Truthful w ids l own₁ (f :: frames) h₄ := by
        rcases he with rfl | rfl
        · exact ht₁
        · exact (ht₁.opened resolved).closed.1
      obtain ⟨ht₃, ho⟩ := ht₂.failed hplain hu (hm ▸ hanswer) (.unread hvalue hcalls) fun _ => .unread hvalue hcalls
      rw [hid]
      exact ⟨own₁, hext, ht₃, ho⟩
    | @finished resolved h₂ object h₃ calls h₄ hf hclaim hcalls hloading =>
      obtain ⟨hanswer, f, own₁, hm, rfl, rfl, hdone, hext, hloads, ht₁⟩ := running hf hclaim
      rw [ht₁.world] at hcalls
      have hcalls : w.meaning.calls f.module = .ok calls := hm ▸ hcalls
      obtain ⟨own₂, hext', ⟨-, ht₂⟩ | ⟨_, _, _, _, he, -⟩⟩ :=
        (ht₁.opened resolved).loading (fun ht hc hr => ih ht hc hr) hplain ht₁.there hm hdone hcalls hloading
      · obtain ⟨ht₃, ho⟩ := Truthful.finished (f := { f with done := calls }) ht₂.closed.1 (hm ▸ hanswer) hcalls
        exact ⟨own₂, hext.trans hext', ht₃, ho⟩
      · cases he
    | @broken resolved h₂ object h₃ calls e h₄ hf hclaim hcalls hloading =>
      obtain ⟨hanswer, f, own₁, hm, rfl, rfl, hdone, hext, hloads, ht₁⟩ := running hf hclaim
      have hid : resolved.id = f.module.id := by rw [hm]; rfl
      rw [ht₁.world] at hcalls
      have hcalls : w.meaning.calls f.module = .ok calls := hm ▸ hcalls
      obtain ⟨own₂, hext', ⟨he, -⟩ | ⟨_, before, call, after, he, hsplit, ht₂, ho⟩⟩ :=
        (ht₁.opened resolved).loading (fun ht hc hr => ih ht hc hr) hplain ht₁.there hm hdone hcalls hloading
      · cases he
      · cases he
        obtain ⟨ht₃, hgraph⟩ := ht₂.closed
        obtain ⟨hbreaks, hfailing⟩ := Truthful.breaks (f := { f with done := before }) ht₃ (hsplit ▸ hcalls)
          (hgraph ▸ ho)
        obtain ⟨ht₄, ho'⟩ := Truthful.failed (f := { f with done := before }) ht₃ hplain hu (hm ▸ hanswer) hbreaks
          hfailing
        rw [hid]
        exact ⟨own₂, hext.trans hext', ht₄, ho'⟩

end Host

end ScriptVault

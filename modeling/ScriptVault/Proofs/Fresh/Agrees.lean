import Mathlib.Data.List.Chain
import ScriptVault.Loader.Basic
import ScriptVault.Proofs.Fresh.Evolve
import ScriptVault.Proofs.Fresh.Pictures

/-!
# Agrees — what a loader keeps agrees with what modules mean

While modules are loaded, each slot tells the truth about its module: it can be loaded, and all that it called for
is linked to it, or it fails for the reason that is kept.  Modules that are being run have made some of their calls,
and what they wait for is linked to them as long as they have their slots.
-/

namespace ScriptVault

/-- What the script slot of a module holds. -/
def Graph.scriptOf (g : Graph Slots) (id : String) : Option ScriptSlot := ((g.slots? id).getD {}).script

namespace Host

/-- A module that is being run. -/
structure Frame where
  /-- The module. -/
  module : Resolved
  /-- Its object. -/
  object : Nat
  /-- Its exports. -/
  exports : Nat
  /-- The specifier that it was called for by. -/
  asked : String
  /-- The calls that it has made. -/
  done : List Script.Call

section

variable (m : Meaning) (own : Nat → Option Resolved) (frames : List Frame) (hole : Option String) (g : Graph Slots)
  (heap : Heap)

/-- A module called for another one, which is kept; the slot of one module may be left out. -/
structure Linked (r : Resolved) (s : String) (t : Resolved) : Prop where
  /-- The specifier leads to the other module. -/
  leads : m.Leads r s t
  /-- The specifier was required. -/
  required : s ∈ Graph.namesAt g.dependencies r.id
  /-- It stands for the other module. -/
  standing : g.aliased.at? s = some t.id
  /-- The other module has a slot. -/
  filled : g.scriptOf t.id ≠ none ∨ hole = some t.id

/-- A call was made and led to a module that can be loaded. -/
def Done (r : Resolved) (call : Script.Call) : Prop := ∃ t, Linked m hole g r call.specifier t ∧ m.Good t

/-- All calls of a module were made. -/
def Finished (r : Resolved) : Prop := ∃ calls, m.calls r = .ok calls ∧ ∀ c ∈ calls, Done m hole g r c

/-- A module fails for a reason, as far as it is linked to others and its requirements are recorded. -/
def Failing (r : Resolved) (e : Failure) : Prop :=
  m.Fails (fun r c => c.specifier ∈ Graph.namesAt g.dependencies r.id) (Done m hole g)
    (fun r c t => Linked m hole g r c.specifier t) r e

/-- A slot tells the truth about its module. -/
def SlotTrue (r : Resolved) : ScriptSlot → Prop
  | .value v => r.value = some v
  | .module object =>
    r.value = none ∧ ∃ p, heap.record object = moduleRecord p ∧ own p = some r ∧
      ((∃ f ∈ frames, f.object = object ∧ f.module = r) ∨ Finished m hole g r)
  | .failed e => Failing m hole g r e

/-- How far a module has been run. -/
structure FrameTrue (f : Frame) : Prop where
  /-- It is known. -/
  knows : m.Knows f.module
  /-- It is no value. -/
  value : f.module.value = none
  /-- Its exports are labelled. -/
  owned : own f.exports = some f.module
  /-- Its object holds its exports. -/
  object : heap.record f.object = moduleRecord f.exports
  /-- Its calls are made in their order. -/
  calls : ∀ calls, m.calls f.module = .ok calls → f.done <+: calls
  /-- What they gave is in the exports. -/
  exports : ∃ val, heap.record f.exports = exportsRecord openTag (keysOf f.done) val ∧
    ∀ c ∈ f.done, ∃ t, m.Leads f.module c.specifier t ∧ m.Good t ∧ Stands own t (val c.specifier)
  /-- They are linked to it as long as it has its slot. -/
  progress : g.scriptOf f.module.id = some (.module f.object) → ∀ c ∈ f.done, Done m hole g f.module c

/-- A module is run for another one, to which it is linked as long as the other one has its slot. -/
structure Waits (f f' : Frame) : Prop where
  /-- The other one calls for it. -/
  calls : m.CallsFor f'.module f.module
  /-- It is linked to the other one, and has its slot if it fails. -/
  held : g.scriptOf f'.module.id = some (.module f'.object) →
    Linked m hole g f'.module f.asked f.module ∧
      (g.scriptOf f.module.id = some (.module f.object) ∨ m.Good f.module ∨ hole = some f.module.id)

/-- What is kept agrees with what modules mean. -/
structure Agrees (ids : String → Prop) : Prop where
  /-- No known id stands for another module. -/
  orderly : g.Orderly ids
  /-- Slots tell the truth. -/
  slots : ∀ id slot, g.scriptOf id = some slot →
    ∃ r, m.Knows r ∧ r.id = id ∧ SlotTrue m own frames hole g heap r slot
  /-- Exports are complete, but for modules that cannot be loaded and those that are being run. -/
  labels : ∀ p r, own p = some r →
    p < heap.records.size ∧ (¬m.Good r ∨ Complete m own heap p r ∨ ∃ f ∈ frames, f.exports = p)
  /-- Modules that are being run have made some calls. -/
  running : ∀ f ∈ frames, FrameTrue m own hole g heap f
  /-- They have exports of their own. -/
  apart : (frames.map Frame.exports).Nodup
  /-- Each is run for the next one. -/
  chain : frames.IsChain (Waits m hole g)

end

variable {m m' : Meaning} {own own' : Nat → Option Resolved} {frames : List Frame} {hole hole' : Option String}
  {g g' : Graph Slots} {heap heap' : Heap} {ids : String → Prop} {r t : Resolved} {c : String}

/-- A module whose calls were all made can be loaded. -/
theorem Finished.good (h : Finished m hole g r) : m.Good r := by
  obtain ⟨calls, hcalls, hall⟩ := h
  refine Meaning.good_of_callsFor (fun _ => ⟨calls, hcalls, fun c hc => ?_⟩) fun t ht => ?_
  · obtain ⟨t, hl, -⟩ := hall c hc
    exact ⟨t, hl.leads⟩
  · obtain ⟨-, calls', hcalls', c, hc, hl⟩ := ht
    cases hcalls.symm.trans hcalls'
    obtain ⟨t', hl', hg⟩ := hall c hc
    exact hl.unique hl'.leads ▸ hg

/-! ### Carrying what is linked -/

/-- What modules that stay are linked to stays, and goes on to be linked to them. -/
structure Carries (stays : Resolved → Prop) (m : Meaning) (hole : Option String) (g : Graph Slots) (m' : Meaning)
    (hole' : Option String) (g' : Graph Slots) : Prop where
  /-- Modules make the same calls. -/
  calls : ∀ r, m'.calls r = m.calls r
  /-- Requirements stay recorded. -/
  required : ∀ r s, stays r → s ∈ Graph.namesAt g.dependencies r.id → s ∈ Graph.namesAt g'.dependencies r.id
  /-- Calls that were made and have no answer get none. -/
  unanswered : ∀ r calls (c : Script.Call) e, stays r → m.calls r = .ok calls → c ∈ calls →
    c.specifier ∈ Graph.namesAt g.dependencies r.id → m.Unanswered r c.specifier e → m'.Unanswered r c.specifier e
  /-- Links are kept. -/
  linked : ∀ r s t, stays r → Linked m hole g r s t → stays t ∧ Linked m' hole' g' r s t
  /-- What can be loaded and is linked can still be loaded. -/
  good : ∀ r s t, stays r → Linked m hole g r s t → m.Good t → m'.Good t

section

variable {stays : Resolved → Prop} (k : Carries stays m hole g m' hole' g')

include k

theorem Carries.done {call : Script.Call} (hr : stays r) (h : Done m hole g r call) : Done m' hole' g' r call := by
  obtain ⟨t, hl, hg⟩ := h
  exact ⟨t, (k.linked _ _ _ hr hl).2, k.good _ _ _ hr hl hg⟩

theorem Carries.finished (hr : stays r) (h : Finished m hole g r) : Finished m' hole' g' r := by
  obtain ⟨calls, hcalls, hall⟩ := h
  exact ⟨calls, (k.calls r).trans hcalls, fun c hc => k.done hr (hall c hc)⟩

theorem Carries.failing {e : Failure} (hr : stays r) (h : Failing m hole g r e) : Failing m' hole' g' r e :=
  h.carry stays (fun r _ => k.calls r) (fun r c hr => k.required r c.specifier hr) k.unanswered
    (fun _ _ hr hd => k.done hr hd) (fun _ _ _ hr hl => k.linked _ _ _ hr hl) hr

/-- A slot of a module that stays stays true, if its object does. -/
theorem Carries.slotTrue {frames' : List Frame} {slot : ScriptSlot} (hr : stays r)
    (hmodule : ∀ object p, slot = .module object → heap.record object = moduleRecord p → own p = some r →
      heap'.record object = moduleRecord p ∧ own' p = some r)
    (hframes : ∀ f ∈ frames, slot = .module f.object → f.module = r →
      (∃ f' ∈ frames', f'.object = f.object ∧ f'.module = r) ∨ Finished m hole g r)
    (h : SlotTrue m own frames hole g heap r slot) : SlotTrue m' own' frames' hole' g' heap' r slot := by
  cases slot with
  | value v => exact h
  | failed e => exact k.failing hr h
  | module object =>
    obtain ⟨hv, p, hp, ho, hopen⟩ := h
    obtain ⟨hp', ho'⟩ := hmodule object p rfl hp ho
    refine ⟨hv, p, hp', ho', ?_⟩
    rcases hopen with ⟨f, hf, rfl, hm⟩ | hfin
    · exact (hframes f hf rfl hm).imp id (k.finished hr)
    · exact Or.inr (k.finished hr hfin)

end

/-- Within one meaning only links have to be carried. -/
theorem Carries.of_linked {stays : Resolved → Prop}
    (hd : ∀ r s, stays r → s ∈ Graph.namesAt g.dependencies r.id → s ∈ Graph.namesAt g'.dependencies r.id)
    (h : ∀ r s t, stays r → Linked m hole g r s t → stays t ∧ Linked m hole' g' r s t) :
    Carries stays m hole g m hole' g' :=
  ⟨fun _ => rfl, hd, fun _ _ _ _ _ _ _ _ h => h, h, fun _ _ _ _ _ h => h⟩

/-! ### Evolving -/

/-- Slots go with what is gone, and the others stay. -/
structure Sheds (gone : String → Prop) (g g' : Graph Slots) : Prop extends g.Evolves gone g' where
  /-- The others keep their slots. -/
  kept : ∀ id, ¬gone id → g'.scriptOf id = g.scriptOf id
  /-- What is gone has no slot. -/
  lost : ∀ id, gone id → g'.scriptOf id = none

variable {gone : String → Prop}

theorem Sheds.linked (a : Sheds gone g g') {s : String} (hr : ¬gone r.id) (h : Linked m hole g r s t) :
    ¬gone t.id ∧ Linked m hole g' r s t := by
  have ht : ¬gone t.id := fun hg => hr (a.closed r.id s h.required t.id h.standing hg)
  refine ⟨ht, h.leads, a.required r.id hr s h.required, a.standing r.id hr s h.required _ h.standing, ?_⟩
  rw [a.kept _ ht]
  exact h.filled

theorem Sheds.carries (a : Sheds gone g g') : Carries (fun r => ¬gone r.id) m hole g m hole g' :=
  Carries.of_linked (fun r s hr => a.required r.id hr s) fun _ _ _ hr h => a.linked hr h

theorem Sheds.not_gone (a : Sheds gone g g') {id : String} {slot : ScriptSlot} (h : g'.scriptOf id = some slot) :
    ¬gone id := fun hg => nomatch (a.lost id hg).symm.trans h

theorem Agrees.sheds (h : Agrees m own frames hole g heap ids) (a : Sheds gone g g') (ho : g'.Orderly ids) :
    Agrees m own frames hole g' heap ids where
  orderly := ho
  slots id slot hs := by
    have hid := a.not_gone hs
    obtain ⟨r, hk, rfl, ht⟩ := h.slots id slot (a.kept id hid ▸ hs)
    exact ⟨r, hk, rfl, a.carries.slotTrue hid (fun _ _ _ hp hq => ⟨hp, hq⟩)
      (fun f hf _ hm => Or.inl ⟨f, hf, rfl, hm⟩) ht⟩
  labels := h.labels
  running f hf := by
    refine { h.running f hf with progress := fun hs c hc => ?_ }
    have hid := a.not_gone hs
    exact a.carries.done hid ((h.running f hf).progress (a.kept _ hid ▸ hs) c hc)
  apart := h.apart
  chain := h.chain.imp fun f f' hw => by
    refine ⟨hw.calls, fun hs => ?_⟩
    have hid := a.not_gone hs
    obtain ⟨hlink, hslot⟩ := hw.held (a.kept _ hid ▸ hs)
    obtain ⟨hf, hlink'⟩ := a.linked hid hlink
    refine ⟨hlink', ?_⟩
    rwa [a.kept _ hf]

/-! ### Filling the hole -/

/-- Only the slot of one module is changed. -/
structure Refills (c : String) (g g' : Graph Slots) : Prop where
  /-- The rest of the graph is the same. -/
  rest : ∃ cache, g' = { g with cache := cache }
  /-- The other slots are the same. -/
  kept : ∀ id, id ≠ c → g'.scriptOf id = g.scriptOf id

theorem Refills.dependencies (a : Refills c g g') : g'.dependencies = g.dependencies := by
  obtain ⟨_, rfl⟩ := a.rest; rfl

theorem Refills.aliased (a : Refills c g g') : g'.aliased = g.aliased := by
  obtain ⟨_, rfl⟩ := a.rest; rfl

theorem Refills.orderly (a : Refills c g g') (h : g.Orderly ids) : g'.Orderly ids := by
  obtain ⟨_, rfl⟩ := a.rest
  exact ⟨⟨h.consistent.mirrored, h.consistent.foreign, h.consistent.kept, h.consistent.own⟩, h.aliased, h.aliases⟩

theorem Refills.linked (a : Refills c g g') {s : String} (h : Linked m (some c) g r s t) :
    Linked m (some c) g' r s t := by
  refine ⟨h.leads, a.dependencies ▸ h.required, a.aliased ▸ h.standing, ?_⟩
  by_cases ht : t.id = c
  · exact Or.inr (ht ▸ rfl)
  · rw [a.kept _ ht]
    exact h.filled

theorem Refills.carries (a : Refills c g g') : Carries (fun _ => True) m (some c) g m (some c) g' :=
  Carries.of_linked (fun _ _ _ h => a.dependencies ▸ h) fun _ _ _ _ h => ⟨trivial, a.linked h⟩

theorem carries_opened : Carries (fun _ => True) m none g m hole g :=
  Carries.of_linked (fun _ _ _ h => h) fun _ _ _ _ h => ⟨trivial, h.leads, h.required, h.standing, Or.inl (h.filled.resolve_right nofun)⟩

/-- The slot of one module may be left out. -/
theorem Agrees.opened (h : Agrees m own frames none g heap ids) (c : String) :
    Agrees m own frames (some c) g heap ids := by
  have k : Carries (fun _ => True) m none g m (some c) g := carries_opened
  refine ⟨h.orderly, fun id slot hs => ?_, h.labels, fun f hf => ?_, h.apart, h.chain.imp fun f f' hw => ?_⟩
  · obtain ⟨r, hk, hid, ht⟩ := h.slots id slot hs
    exact ⟨r, hk, hid, k.slotTrue trivial (fun _ _ _ hp hq => ⟨hp, hq⟩) (fun f hf _ hm => Or.inl ⟨f, hf, rfl, hm⟩) ht⟩
  · exact { h.running f hf with progress := fun hs c hc => k.done trivial ((h.running f hf).progress hs c hc) }
  · refine ⟨hw.calls, fun hs => ?_⟩
    obtain ⟨hlink, hslot⟩ := hw.held hs
    exact ⟨(k.linked _ _ _ trivial hlink).2, hslot.imp id (·.imp id nofun)⟩

/-- A slot that is left out may be emptied, or filled with the truth. -/
theorem Agrees.refilled (h : Agrees m own frames (some c) g heap ids) (a : Refills c g g')
    (htrue : ∀ slot, g'.scriptOf c = some slot →
      ∃ r, m.Knows r ∧ r.id = c ∧ SlotTrue m own frames (some c) g' heap r slot)
    (hnew : ∀ f ∈ frames, f.module.id = c → g'.scriptOf c = some (.module f.object) → f.done = [])
    (hlow : ∀ f ∈ frames.tail, f.module.id = c → g'.scriptOf c ≠ some (.module f.object)) :
    Agrees m own frames (some c) g' heap ids where
  orderly := a.orderly h.orderly
  slots id slot hs := by
    by_cases hid : id = c
    · subst hid
      exact htrue slot hs
    · obtain ⟨r, hk, hr, ht⟩ := h.slots id slot (a.kept id hid ▸ hs)
      exact ⟨r, hk, hr, a.carries.slotTrue trivial (fun _ _ _ hp hq => ⟨hp, hq⟩)
        (fun f hf _ hm => Or.inl ⟨f, hf, rfl, hm⟩) ht⟩
  labels := h.labels
  running f hf := by
    refine { h.running f hf with progress := fun hs d hd => ?_ }
    by_cases hid : f.module.id = c
    · rw [hnew f hf hid (hid ▸ hs)] at hd
      cases hd
    · exact a.carries.done trivial ((h.running f hf).progress (a.kept _ hid ▸ hs) d hd)
  apart := h.apart
  chain := h.chain.imp_of_mem_tail_imp fun f f' _ hf' hw => by
    refine ⟨hw.calls, fun hs => ?_⟩
    have hid : f'.module.id ≠ c := fun hid => hlow f' hf' hid (hid ▸ hs)
    obtain ⟨hlink, hslot⟩ := hw.held (a.kept _ hid ▸ hs)
    refine ⟨a.linked hlink, ?_⟩
    by_cases hf : f.module.id = c
    · exact Or.inr (Or.inr (hf ▸ rfl))
    · rwa [a.kept _ hf]

/-- A slot is no longer left out once it is filled, and all others that run its module wait for no failure. -/
theorem Agrees.closed (h : Agrees m own frames (some c) g heap ids) (hc : g.scriptOf c ≠ none)
    (hframes : ∀ f ∈ frames, f.module.id = c → g.scriptOf c = some (.module f.object) ∨ m.Good f.module) :
    Agrees m own frames none g heap ids := by
  have k : Carries (fun _ => True) m (some c) g m none g := Carries.of_linked (fun _ _ _ h => h) fun _ _ t _ h =>
    ⟨trivial, h.leads, h.required, h.standing, Or.inl (h.filled.elim id fun he => Option.some.inj he ▸ hc)⟩
  refine ⟨h.orderly, fun id slot hs => ?_, h.labels, fun f hf => ?_, h.apart,
    h.chain.imp_of_mem_imp fun f f' hf _ hw => ?_⟩
  · obtain ⟨r, hk, hid, ht⟩ := h.slots id slot hs
    exact ⟨r, hk, hid, k.slotTrue trivial (fun _ _ _ hp hq => ⟨hp, hq⟩) (fun f hf _ hm => Or.inl ⟨f, hf, rfl, hm⟩) ht⟩
  · exact { h.running f hf with progress := fun hs d hd => k.done trivial ((h.running f hf).progress hs d hd) }
  · refine ⟨hw.calls, fun hs => ?_⟩
    obtain ⟨hlink, hslot⟩ := hw.held hs
    refine ⟨(k.linked _ _ _ trivial hlink).2, ?_⟩
    rcases hslot with hslot | hgood | hhole
    · exact Or.inl hslot
    · exact Or.inr (Or.inl hgood)
    · have hid : f.module.id = c := (Option.some.inj hhole).symm
      rcases hframes f hf hid with hslot | hgood
      · exact Or.inl (hid ▸ hslot)
      · exact Or.inr (Or.inl hgood)

/-! ### Running a module -/

/-- At most one object is changed that is no module, and others may be added. -/
structure Writes (e : Nat) (heap heap' : Heap) : Prop where
  /-- The other objects are the same. -/
  same : ∀ q, q < heap.records.size → q ≠ e → heap'.record q = heap.record q
  /-- No object is taken away. -/
  grown : heap.records.size ≤ heap'.records.size
  /-- The object is no module. -/
  plain : ∀ p, heap.record e ≠ moduleRecord p

variable {e : Nat}

theorem lt_size_of_record {o p : Nat} (h : heap.record o = moduleRecord p) : o < heap.records.size := by
  by_contra hn
  rw [Heap.record, Array.getD_eq_getD_getElem?, Array.getElem?_eq_none (Nat.le_of_not_lt hn)] at h
  cases congrArg Record.properties h

theorem Writes.object (a : Writes e heap heap') {o p : Nat} (h : heap.record o = moduleRecord p) :
    heap'.record o = moduleRecord p := by
  rw [a.same o (lt_size_of_record h) fun he => a.plain p (he ▸ h), h]

theorem Writes.complete (a : Writes e heap heap') {p : Nat} (hp : p < heap.records.size) (hne : p ≠ e)
    (hown : ∀ q t, own q = some t → own' q = some t) (h : Complete m own heap p r) : Complete m own' heap' p r :=
  h.mono (a.same p hp hne) hown

theorem Writes.frameTrue (a : Writes e heap heap') {f : Frame} (hp : f.exports < heap.records.size)
    (hne : f.exports ≠ e) (hown : ∀ q t, own q = some t → own' q = some t)
    (h : FrameTrue m own hole g heap f) : FrameTrue m own' hole g heap' f := by
  obtain ⟨val, hval, hall⟩ := h.exports
  refine { h with owned := hown _ _ h.owned, object := a.object h.object, exports := ?_ }
  refine ⟨val, (a.same _ hp hne).trans hval, fun c hc => ?_⟩
  obtain ⟨t, hl, hg, hs⟩ := hall c hc
  exact ⟨t, hl, hg, hs.mono fun q => hown q t⟩

/-- Slots stay true while only exports are written. -/
theorem Writes.slotTrue (a : Writes e heap heap') (hown : ∀ q t, own q = some t → own' q = some t)
    {frames' : List Frame} {slot : ScriptSlot}
    (hframes : ∀ f ∈ frames, slot = .module f.object → f.module = r →
      (∃ f' ∈ frames', f'.object = f.object ∧ f'.module = r) ∨ Finished m hole g r)
    (h : SlotTrue m own frames hole g heap r slot) : SlotTrue m own' frames' hole g heap' r slot :=
  (Carries.of_linked (fun _ _ _ h => h) fun _ _ _ _ h => ⟨trivial, h⟩ : Carries (fun _ => True) m hole g m hole g).slotTrue trivial
    (fun _ p _ hp hq => ⟨a.object hp, hown p r hq⟩) hframes h

theorem Agrees.exports_lt (h : Agrees m own frames hole g heap ids) {f : Frame} (hf : f ∈ frames) :
    f.exports < heap.records.size := (h.labels _ _ (h.running f hf).owned).1

/-- A module that is to be run gets its objects. -/
theorem Agrees.pushed (h : Agrees m own frames (some t.id) g heap ids) (hk : m.Knows t) (hv : t.value = none)
    {s : String} (hwait : ∀ f, frames.head? = some f → m.CallsFor f.module t ∧
      (g.scriptOf f.module.id = some (.module f.object) → Linked m (some t.id) g f.module s t)) :
    Agrees m (Function.update own heap.records.size (some t))
      (⟨t, heap.records.size + 1, heap.records.size, s, []⟩ :: frames) (some t.id) g (newModule heap).2 ids := by
  have hrecord (o : Nat) : (newModule heap).2.record o =
      if o = heap.records.size + 1 then moduleRecord heap.records.size
      else if o = heap.records.size then blankExports else heap.record o := by
    simp only [newModule_eq, Heap.record, Array.getD_eq_getD_getElem?, Array.getElem?_push, Array.size_push]
    split
    · rfl
    · split <;> rfl
  have a : Writes heap.records.size heap (newModule heap).2 := by
    refine ⟨fun q hq _ => ?_, newModule_grows heap, fun p hp => absurd (lt_size_of_record hp) (Nat.lt_irrefl _)⟩
    rw [hrecord, if_neg (by omega), if_neg (by omega)]
  have hown : ∀ q r, own q = some r → Function.update own heap.records.size (some t) q = some r := fun q r hq => by
    have := (h.labels q r hq).1
    rwa [Function.update_of_ne (by omega)]
  refine ⟨h.orderly, fun id slot hs => ?_, fun p r hp => ?_, fun f hf => ?_, ?_, ?_⟩
  · obtain ⟨r, hk, hid, ht⟩ := h.slots id slot hs
    exact ⟨r, hk, hid, a.slotTrue hown (fun f hf _ hm => Or.inl ⟨f, List.mem_cons_of_mem _ hf, rfl, hm⟩) ht⟩
  · by_cases he : p = heap.records.size
    · refine ⟨?_, Or.inr (Or.inr ⟨_, List.mem_cons_self .., he.symm⟩)⟩
      simp only [newModule_eq, he, Array.size_push]
      omega
    · rw [Function.update_of_ne he] at hp
      obtain ⟨hlt, hlabel⟩ := h.labels p r hp
      refine ⟨Nat.lt_of_lt_of_le hlt a.grown, ?_⟩
      rcases hlabel with hbad | hcomplete | ⟨f, hf, hp⟩
      · exact Or.inl hbad
      · exact Or.inr (Or.inl (a.complete hlt he hown hcomplete))
      · exact Or.inr (Or.inr ⟨f, List.mem_cons_of_mem _ hf, hp⟩)
  · rcases List.mem_cons.1 hf with rfl | hf
    · refine ⟨hk, hv, Function.update_self .., ?_, fun _ _ => List.nil_prefix, ⟨fun _ => .undefined, ?_, ?_⟩,
        fun _ => ?_⟩
      · rw [hrecord, if_pos rfl]
      · have hne : heap.records.size ≠ heap.records.size + 1 := by omega
        exact (hrecord _).trans (by rw [if_neg hne, if_pos rfl]; rfl)
      · exact fun _ hmem => absurd hmem List.not_mem_nil
      · exact fun _ hmem => absurd hmem List.not_mem_nil
    · have := h.exports_lt hf
      exact a.frameTrue this (by omega) hown (h.running f hf)
  · refine List.nodup_cons.2 ⟨fun hmem => ?_, h.apart⟩
    obtain ⟨f, hf, he⟩ := List.mem_map.1 hmem
    have := h.exports_lt hf
    dsimp only at he
    omega
  · refine List.isChain_cons.2 ⟨fun f hf => ?_, h.chain⟩
    obtain ⟨hcalls, hheld⟩ := hwait f hf
    exact ⟨hcalls, fun hs => ⟨hheld hs, Or.inr (Or.inr rfl)⟩⟩

variable {f : Frame}

/-- What a call gave is put into the exports. -/
theorem Agrees.put (h : Agrees m own (f :: frames) none g heap ids) {call : Script.Call} {rest : List Script.Call}
    (hcalls : m.calls f.module = .ok (f.done ++ call :: rest)) (hl : m.Leads f.module call.specifier t)
    (hg : m.Good t) {v : Value} (hs : Stands own t v)
    (hlink : g.scriptOf f.module.id = some (.module f.object) → Linked m none g f.module call.specifier t) :
    Agrees m own ({ f with done := f.done ++ [call] } :: frames) none g
      (heap.write (.object f.exports) (.text call.specifier) v).2 ids := by
  obtain ⟨val, hval, hall⟩ := (h.running f (List.mem_cons_self ..)).exports
  have hheap : (heap.write (.object f.exports) (.text call.specifier) v).2 =
      heap.putRecord f.exports
        (exportsRecord openTag (keysOf (f.done ++ [call])) (Function.update val call.specifier v)) :=
    set_exports hval call v
  have hlt := h.exports_lt (List.mem_cons_self ..)
  obtain ⟨hfresh, hapart⟩ := List.nodup_cons.1 h.apart
  have a : Writes f.exports heap (heap.write (.object f.exports) (.text call.specifier) v).2 := by
    rw [hheap]
    exact ⟨fun q _ hq => Heap.record_putRecord_ne hq heap _, Nat.le_of_eq (Heap.size_putRecord ..).symm,
      fun p hp => exportsRecord_ne_moduleRecord _ _ _ p (hval.symm.trans hp)⟩
  refine ⟨h.orderly, fun id slot hs => ?_, fun p r hp => ?_, fun f' hf => ?_, h.apart, ?_⟩
  · obtain ⟨r, hk, hid, ht⟩ := h.slots id slot hs
    refine ⟨r, hk, hid, a.slotTrue (fun _ _ h => h) (fun f' hf _ hm => Or.inl ?_) ht⟩
    rcases List.mem_cons.1 hf with rfl | hf
    · exact ⟨_, List.mem_cons_self .., rfl, hm⟩
    · exact ⟨f', List.mem_cons_of_mem _ hf, rfl, hm⟩
  · obtain ⟨hlt', hlabel⟩ := h.labels p r hp
    refine ⟨Nat.lt_of_lt_of_le hlt' a.grown, ?_⟩
    by_cases he : p = f.exports
    · exact Or.inr (Or.inr ⟨_, List.mem_cons_self .., he.symm⟩)
    · rcases hlabel with hbad | hcomplete | ⟨f', hf, hp⟩
      · exact Or.inl hbad
      · exact Or.inr (Or.inl (a.complete hlt' he (fun _ _ h => h) hcomplete))
      · refine Or.inr (Or.inr ⟨f', List.mem_cons_of_mem _ ((List.mem_cons.1 hf).resolve_left ?_), hp⟩)
        rintro rfl
        exact he hp.symm
  · rcases List.mem_cons.1 hf with rfl | hf
    · have htrue := h.running f (List.mem_cons_self ..)
      refine ⟨htrue.knows, htrue.value, htrue.owned, a.object htrue.object, fun calls hc => ?_, ?_, fun hs c hc => ?_⟩
      · cases hcalls.symm.trans hc
        exact ⟨rest, by simp⟩
      · refine ⟨_, by rw [hheap, Heap.record_putRecord _ hlt, if_pos rfl], fun c hc => ?_⟩
        by_cases he : c.specifier = call.specifier
        · rw [he, Function.update_self]
          exact ⟨t, hl, hg, hs⟩
        · rw [Function.update_of_ne he]
          rcases List.mem_append.1 hc with hc | hc
          · exact hall c hc
          · exact absurd (congrArg _ (List.mem_singleton.1 hc)) he
      · rcases List.mem_append.1 hc with hc | hc
        · exact htrue.progress hs c hc
        · rw [List.mem_singleton.1 hc]
          exact ⟨t, hlink hs, hg⟩
    · refine a.frameTrue (h.exports_lt (List.mem_cons_of_mem _ hf)) (fun he => hfresh ?_) (fun _ _ h => h)
        (h.running f' (List.mem_cons_of_mem _ hf))
      exact he ▸ List.mem_map_of_mem hf
  · cases frames with
    | nil => exact List.isChain_singleton _
    | cons f' frames =>
      obtain ⟨hw, hchain⟩ := List.isChain_cons_cons.1 h.chain
      exact List.isChain_cons_cons.2 ⟨⟨hw.calls, hw.held⟩, hchain⟩

/-- A module that was run is run no longer. -/
theorem Agrees.popped (h : Agrees m own (f :: frames) hole g heap ids) (a : Writes f.exports heap heap')
    (hslot : g.scriptOf f.module.id = some (.module f.object) → Finished m hole g f.module)
    (hlabel : ¬m.Good f.module ∨ Complete m own heap' f.exports f.module) :
    Agrees m own frames hole g heap' ids := by
  obtain ⟨hfresh, hapart⟩ := List.nodup_cons.1 h.apart
  refine ⟨h.orderly, fun id slot hs => ?_, fun p r hp => ?_, fun f' hf => ?_, hapart, h.chain.tail⟩
  · obtain ⟨r, hk, hid, ht⟩ := h.slots id slot hs
    refine ⟨r, hk, hid, a.slotTrue (fun _ _ h => h) (fun f' hf hslot' hm => ?_) ht⟩
    rcases List.mem_cons.1 hf with rfl | hf
    · refine Or.inr (hm ▸ hslot ?_)
      rw [hm, hid, hs, hslot']
    · exact Or.inl ⟨f', hf, rfl, hm⟩
  · obtain ⟨hlt, hor⟩ := h.labels p r hp
    refine ⟨Nat.lt_of_lt_of_le hlt a.grown, ?_⟩
    by_cases he : p = f.exports
    · subst he
      obtain rfl : r = f.module := Option.some.inj (hp.symm.trans (h.running f (List.mem_cons_self ..)).owned)
      exact hlabel.imp id Or.inl
    · rcases hor with hbad | hcomplete | ⟨f', hf, hp⟩
      · exact Or.inl hbad
      · exact Or.inr (Or.inl (a.complete hlt he (fun _ _ h => h) hcomplete))
      · refine Or.inr (Or.inr ⟨f', (List.mem_cons.1 hf).resolve_left ?_, hp⟩)
        rintro rfl
        exact he hp.symm
  · refine a.frameTrue (h.exports_lt (List.mem_cons_of_mem _ hf)) (fun he => hfresh ?_) (fun _ _ h => h)
      (h.running f' (List.mem_cons_of_mem _ hf))
    exact he ▸ List.mem_map_of_mem hf

/-- A module that has made all its calls can be loaded. -/
theorem FrameTrue.good (h : FrameTrue m own hole g heap f) (hcalls : m.calls f.module = .ok f.done) :
    m.Good f.module := by
  obtain ⟨_, -, hall⟩ := h.exports
  refine Meaning.good_of_callsFor (fun _ => ⟨f.done, hcalls, fun c hc => ?_⟩) fun t ht => ?_
  · obtain ⟨t, hl, -⟩ := hall c hc
    exact ⟨t, hl⟩
  · obtain ⟨-, calls, hcalls', c, hc, hl⟩ := ht
    cases hcalls.symm.trans hcalls'
    obtain ⟨t', hl', hg, -⟩ := hall c hc
    exact hl.unique hl' ▸ hg

/-- A module that has made all its calls is complete. -/
theorem Agrees.finished (h : Agrees m own (f :: frames) none g heap ids) (hcalls : m.calls f.module = .ok f.done) :
    Agrees m own frames none g (heap.define f.exports .tag closedTag).2 ids := by
  have htrue := h.running f (List.mem_cons_self ..)
  obtain ⟨val, hval, hall⟩ := htrue.exports
  have hdefine := define_exports hval
  refine h.popped ?_ (fun hs => ⟨f.done, hcalls, htrue.progress hs⟩) (Or.inr ⟨f.done, val, hcalls, ?_, fun c hc => ?_⟩)
  · rw [hdefine]
    exact ⟨fun q _ hq => Heap.record_putRecord_ne hq heap _, Nat.le_of_eq (Heap.size_putRecord ..).symm,
      fun p hp => exportsRecord_ne_moduleRecord _ _ _ p (hval.symm.trans hp)⟩
  · rw [hdefine, Heap.record_putRecord _ (h.exports_lt (List.mem_cons_self ..)), if_pos rfl]
  · obtain ⟨t, hl, -, hs⟩ := hall c hc
    exact ⟨t, hl, hs⟩

/-- Whatever is being run reaches the innermost module that is being run. -/
theorem reaches_head {f₀ : Frame} (h : (f₀ :: frames).IsChain (Waits m hole g)) (hf : f ∈ f₀ :: frames) :
    m.Reaches f.module f₀.module := by
  induction frames generalizing f₀ with
  | nil => rw [List.mem_singleton.1 hf]; exact Relation.ReflTransGen.refl
  | cons f₁ frames ih =>
    obtain ⟨hw, hchain⟩ := List.isChain_cons_cons.1 h
    rcases List.mem_cons.1 hf with rfl | hf
    · exact Relation.ReflTransGen.refl
    · exact (ih hchain hf).tail hw.calls

/-- A module that is being run can be loaded if it is called for again. -/
theorem Agrees.good_of_running (h : Agrees m own frames hole g heap ids) (hu : m.Untangled) (hf : f ∈ frames)
    (hcall : ∀ f₀, frames.head? = some f₀ → m.CallsFor f₀.module f.module) : m.Good f.module := by
  cases frames with
  | nil => cases hf
  | cons f₀ frames =>
    exact hu _ (h.running f hf).knows (Relation.TransGen.tail' (reaches_head h.chain hf) (hcall f₀ rfl))

/-- A module that fails keeps the failure, if it still has its slot. -/
theorem Agrees.failed (h : Agrees m own (f :: frames) none g heap ids) (hplain : m.Plain ids) (hu : m.Untangled)
    (hbad : ¬m.Good f.module) {e : Failure}
    (hfailing : g.scriptOf f.module.id = some (.module f.object) → Failing m none g f.module e)
    (hg : (g.scriptOf f.module.id = some (.module f.object) ∧ Refills f.module.id g g' ∧
        g'.scriptOf f.module.id = some (.failed e)) ∨
      (g.scriptOf f.module.id ≠ some (.module f.object) ∧ g' = g)) :
    Agrees m own frames none g' heap ids := by
  have htrue := h.running f (List.mem_cons_self ..)
  obtain ⟨val, hval, -⟩ := htrue.exports
  have a : Writes f.exports heap heap :=
    ⟨fun _ _ _ => rfl, Nat.le_refl _, fun p hp => exportsRecord_ne_moduleRecord _ _ _ p (hval.symm.trans hp)⟩
  rcases hg with ⟨hs, hr, hs'⟩ | ⟨hs, rfl⟩
  · have hfail := hr.carries.failing trivial (carries_opened.failing trivial (hfailing hs))
    have hfilled : Agrees m own (f :: frames) (some f.module.id) g' heap ids := by
      refine (h.opened f.module.id).refilled hr (fun slot hslot => ⟨f.module, htrue.knows, rfl, ?_⟩)
        (fun f' _ _ hslot => ?_) fun f' _ _ hslot => ?_
      · cases hs'.symm.trans hslot
        exact hfail
      · cases hs'.symm.trans hslot
      · cases hs'.symm.trans hslot
    have hpopped := hfilled.popped a (fun hslot => nomatch hs'.symm.trans hslot) (Or.inl hbad)
    refine hpopped.closed (by rw [hs']; nofun) fun f' hf' hid => ?_
    -- a module that is being run twice is on a circle
    have hsame := hplain.coherent _ _ (hpopped.running f' hf').knows htrue.knows hid
    refine Or.inr (hpopped.good_of_running hu hf' fun f₀ hf₀ => ?_)
    rw [hsame]
    exact ((List.isChain_cons.1 h.chain).1 f₀ hf₀).calls
  · exact h.popped a (fun hs' => absurd hs' hs) (Or.inl hbad)

end Host

end ScriptVault

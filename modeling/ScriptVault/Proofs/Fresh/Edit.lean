import ScriptVault.Proofs.Fresh.Load
import ScriptVault.Proofs.Fresh.Locality

/-!
# Edit — changes of files keep the books true

When a file changes, all loaders evict it with everything that was built on it.  What is left was built on files
that are as they were, so it goes on to agree with what modules mean.
-/

namespace ScriptVault.Host

/-! ### What is left after an edit -/

/-- A known module that has its slot and is not among those that are gone. -/
structure Left (gone : String → Prop) (g : Graph Slots) (m : Meaning) (r : Resolved) : Prop where
  /-- It is known. -/
  knows : m.Knows r
  /-- It has its slot. -/
  kept : g.scriptOf r.id ≠ none
  /-- It is not gone. -/
  stays : ¬gone r.id

/-- To another meaning a module that is left asked for what it asked for. -/
structure Spares (gone : String → Prop) (g : Graph Slots) (m m' : Meaning) : Prop where
  /-- Modules make the same calls. -/
  calls : ∀ r, m'.calls r = m.calls r
  /-- What is left is still known. -/
  knows : ∀ r, Left gone g m r → m'.Knows r
  /-- Calls that were made and have no answer get none. -/
  unanswered : ∀ r calls (c : Script.Call) e, Left gone g m r → m.calls r = .ok calls → c ∈ calls →
    c.specifier ∈ Graph.namesAt g.dependencies r.id → m.Unanswered r c.specifier e → m'.Unanswered r c.specifier e
  /-- What was required and is left is still led to. -/
  leads : ∀ r s t, Left gone g m r → s ∈ Graph.namesAt g.dependencies r.id → m.Leads r s t → Left gone g m t →
    m'.Leads r s t

/-- A module that can be loaded and has its slot. -/
def Lasts (m : Meaning) (g : Graph Slots) (t : Resolved) : Prop := m.Good t ∧ m.Knows t ∧ g.scriptOf t.id ≠ none

section

variable {m m' : Meaning} {own : Nat → Option Resolved} {gone gone' : String → Prop} {g g' g'' : Graph Slots}
  {heap : Heap} {ids : String → Prop} {r t : Resolved}

theorem Sheds.trans (a : Sheds gone g g') (b : Sheds gone' g' g'') : Sheds (fun id => gone id ∨ gone' id) g g'' where
  toEvolves := a.toEvolves.trans b.toEvolves
  kept id h := (b.kept id fun hg => h (Or.inr hg)).trans (a.kept id fun hg => h (Or.inl hg))
  lost id h := by
    by_cases hg : gone' id
    · exact b.lost id hg
    · exact (b.kept id hg).trans (a.lost id (h.resolve_right hg))

/-- At rest, a module that can be loaded and has its slot has made all its calls. -/
theorem Agrees.finished_of_good (h : Agrees m own [] none g heap ids) (hplain : m.Plain ids) (hr : Lasts m g r)
    (hv : r.value = none) : Finished m none g r := by
  obtain ⟨hgood, hknows, hslot⟩ := hr
  obtain ⟨slot, hslot⟩ := Option.ne_none_iff_exists'.1 hslot
  obtain ⟨r', hk, hid, htrue⟩ := h.slots _ _ hslot
  obtain rfl := hplain.coherent r' r hk hknows hid
  cases slot with
  | value v => cases hv.symm.trans htrue
  | failed e => exact absurd hgood (Failing.breaks htrue).not_good
  | module object =>
    obtain ⟨-, _, -, -, ⟨_, hf, -⟩ | hfinished⟩ := htrue
    · cases hf
    · exact hfinished

variable (h : Agrees m own [] none g heap ids) (hplain : m.Plain ids) (a : Sheds gone g g') (b : Spares gone g m m')

include h hplain a b

/-- What lasts leads to what lasts, as it did. -/
theorem Lasts.leads (hr : Lasts m g' r) (hv : r.value = none) :
    ∃ calls, m'.calls r = .ok calls ∧ ∀ c ∈ calls, ∃ t, m.Leads r c.specifier t ∧ m'.Leads r c.specifier t ∧
      Lasts m g' t := by
  obtain ⟨hgood, hknows, hslot⟩ := hr
  have hgone : ¬gone r.id := fun hg => hslot (a.lost _ hg)
  obtain ⟨calls, hcalls, hall⟩ :=
    h.finished_of_good hplain ⟨hgood, hknows, by rwa [← a.kept _ hgone]⟩ hv
  refine ⟨calls, (b.calls r).trans hcalls, fun c hc => ?_⟩
  obtain ⟨t, hlinked, ht⟩ := hall c hc
  have hfilled := hlinked.filled.resolve_right nofun
  have htgone := (a.linked hgone hlinked).1
  have hr : Left gone g m r := ⟨hknows, by rwa [← a.kept _ hgone], hgone⟩
  exact ⟨t, hlinked.leads, b.leads _ _ _ hr hlinked.required hlinked.leads ⟨hlinked.leads.knows, hfilled, htgone⟩, ht,
    hlinked.leads.knows, by rwa [a.kept _ htgone]⟩

/-- What lasts can still be loaded. -/
theorem Lasts.good (hr : Lasts m g' r) : m'.Good r := by
  refine Meaning.good_of_closed (Lasts m g') (fun r hr hv => ?_) (fun r t hr ht => ?_) hr
  · obtain ⟨calls, hcalls, hall⟩ := hr.leads h hplain a b hv
    refine ⟨calls, hcalls, fun c hc => ?_⟩
    obtain ⟨t, -, hl, -⟩ := hall c hc
    exact ⟨t, hl⟩
  · obtain ⟨hv, calls, hcalls, c, hc, hl⟩ := ht
    obtain ⟨calls', hcalls', hall⟩ := hr.leads h hplain a b hv
    cases hcalls.symm.trans hcalls'
    obtain ⟨t', -, hl', ht⟩ := hall c hc
    exact hl.unique hl' ▸ ht

theorem carries_edited : Carries (Left gone g m) m none g m' none g' where
  calls := b.calls
  required r s hr := a.required r.id hr.stays s
  unanswered := b.unanswered
  linked r s t hr hl := by
    obtain ⟨ht, hl'⟩ := a.linked hr.stays hl
    have hleft : Left gone g m t := ⟨hl.leads.knows, hl.filled.resolve_right nofun, ht⟩
    exact ⟨hleft, b.leads _ _ _ hr hl.required hl.leads hleft, hl'.required, hl'.standing, hl'.filled⟩
  good r s t hr hl ht := by
    have htgone := (a.linked hr.stays hl).1
    exact Lasts.good h hplain a b ⟨ht, hl.leads.knows, by
      rw [a.kept _ htgone]; exact hl.filled.resolve_right nofun⟩

open Classical in
/-- What is left after an edit agrees with what modules mean then. -/
theorem Agrees.edited (ho : g'.Orderly ids) : ∃ own', Agrees m' own' [] none g' heap ids := by
  -- only the exports of modules that last go on to be looked at
  obtain ⟨own', hown⟩ : ∃ own' : Nat → Option Resolved, ∀ p t, own' p = some t ↔
      own p = some t ∧ t.value = none ∧ Lasts m g' t :=
    ⟨fun p => (own p).filter fun t => t.value = none ∧ Lasts m g' t, fun p t => by
      simp only [Option.filter_eq_some_iff, decide_eq_true_eq]⟩
  refine ⟨own', ho, fun id slot hs => ?_, fun p r hp => ?_, nofun, List.nodup_nil, List.isChain_nil⟩
  · have hgone := a.not_gone hs
    obtain ⟨r, hk, rfl, htrue⟩ := h.slots id slot (a.kept id hgone ▸ hs)
    have hlasts : g'.scriptOf r.id ≠ none := by rw [hs]; nofun
    have hleft : Left gone g m r := ⟨hk, by rwa [← a.kept _ hgone], hgone⟩
    refine ⟨r, b.knows r hleft, rfl, ?_⟩
    have k := carries_edited h hplain a b
    refine k.slotTrue hleft (fun object p hslot hp ho => ⟨hp, ?_⟩) (fun f hf => (List.not_mem_nil hf).elim) htrue
    rw [hslot] at htrue
    obtain ⟨hv, _, -, -, ⟨_, hf, -⟩ | hfinished⟩ := htrue
    · cases hf
    · exact (hown p r).2 ⟨ho, hv, hfinished.good, hk, hlasts⟩
  · obtain ⟨hp, hv, hlasts⟩ := (hown p r).1 hp
    obtain ⟨hlt, hbad | ⟨calls, val, hcalls, hrecord, hall⟩ | ⟨_, hf, -⟩⟩ := h.labels p r hp
    · exact absurd hlasts.1 hbad
    · obtain ⟨calls', hcalls', hleads⟩ := hlasts.leads h hplain a b hv
      cases ((b.calls r).trans hcalls).symm.trans hcalls'
      refine ⟨hlt, Or.inr (Or.inl ⟨calls, val, hcalls', hrecord, fun c hc => ?_⟩)⟩
      obtain ⟨t, hl, hstands⟩ := hall c hc
      obtain ⟨t', hl', hl'', ht'⟩ := hleads c hc
      obtain rfl := hl.unique hl'
      exact ⟨t, hl'', hstands.imp id fun ⟨hv, q, hq, ho⟩ => ⟨hv, q, hq, (hown q t).2 ⟨ho, hv, ht'⟩⟩⟩
    · cases hf

end

/-! ### What is announced -/

theorem announced_foldl (ripples : List Ripple) (ripple : Ripple) :
    (ripples.foldl Ripple.append ripple).announced = ripple.announced ++ ripples.flatMap Ripple.announced := by
  induction ripples generalizing ripple with
  | nil => simp
  | cons r ripples ih => rw [List.foldl_cons, ih, Ripple.append, List.flatMap_cons, List.append_assoc]

/-- What follows a notice is announced if it was asked for. -/
theorem mem_announced_adopt {f : Files} {notice : Notice} {s : Snapshot} {id : String} :
    id ∈ (f.adopt ([notice], s)).1.announced ↔ id = notice.path ∧ ∃ r ∈ f.resolvers, id ∈ r.tracked := by
  have hrow : (f.adopt ([notice], s)).1.announced =
      (f.resolvers.map fun r => (r.follow notice).1).flatMap Ripple.announced := by
    show ((((f.resolvers.map (·.follow notice)).map Prod.fst).foldl Ripple.append {}).append {}).announced = _
    rw [Ripple.append, announced_foldl, List.map_map, List.append_nil]
    rfl
  rw [hrow]
  simp only [List.mem_flatMap, List.mem_map]
  constructor
  · rintro ⟨_, ⟨r, hr, rfl⟩, hid⟩
    rw [(resolver_follow r notice).2.2.2] at hid
    split at hid
    · next ht =>
      obtain rfl := List.mem_singleton.1 hid
      exact ⟨rfl, r, hr, List.contains_iff_mem.1 ht⟩
    · cases hid
  · rintro ⟨rfl, r, hr, hid⟩
    refine ⟨_, ⟨r, hr, rfl⟩, ?_⟩
    rw [(resolver_follow r notice).2.2.2, if_pos (List.contains_iff_mem.2 hid)]
    exact List.mem_singleton_self _

/-- What follows a notice goes on to be followed, but for the path itself. -/
theorem tracked_adopt {f : Files} {notice : Notice} {s : Snapshot} {id : String} :
    (∃ r ∈ (f.adopt ([notice], s)).2.resolvers, id ∈ r.tracked) ↔
      id ≠ notice.path ∧ ∃ r ∈ f.resolvers, id ∈ r.tracked := by
  show (∃ r ∈ (f.resolvers.map (·.follow notice)).map Prod.snd, id ∈ r.tracked) ↔ _
  simp only [List.map_map, List.mem_map, Function.comp]
  constructor
  · rintro ⟨_, ⟨r, hr, rfl⟩, hid⟩
    rw [(resolver_follow r notice).2.2.1, Names.mem_erase] at hid
    exact ⟨hid.2, r, hr, hid.1⟩
  · rintro ⟨hne, r, hr, hid⟩
    refine ⟨_, ⟨r, hr, rfl⟩, ?_⟩
    rw [(resolver_follow r notice).2.2.1, Names.mem_erase]
    exact ⟨hid, hne⟩

/-! ### Evicting what is announced -/

theorem evictEach_rest (loader : Loader) (announced : List String) :
    ∃ graph, Loader.evictEach loader announced = { loader with graph := graph } := by
  induction announced generalizing loader with
  | nil => exact ⟨_, rfl⟩
  | cons id rest ih => exact ih (loader.evict id).2

/-- With each announced module all goes that was built on it, and with each announced specifier whoever required
it. -/
theorem sheds_evictEach {ids : String → Prop} (announced : List String) {loader : Loader}
    (ho : loader.graph.Orderly ids) :
    ∃ gone, Sheds gone loader.graph (Loader.evictEach loader announced).graph ∧
      (Loader.evictEach loader announced).graph.Orderly ids ∧ (∀ id ∈ announced, ids id → gone id) ∧
      ∀ id ∈ announced, ∀ p, id ∈ Graph.namesAt loader.graph.dependencies p → gone p := by
  induction announced generalizing loader with
  | nil => exact ⟨_, ⟨Graph.Evolves.refl _, fun _ _ => rfl, fun _ h => (h : False).elim⟩, ho, nofun, nofun⟩
  | cons id rest ih =>
    obtain ⟨gone, hsheds, ho', hgone, hcallers⟩ :=
      ih (show (loader.evict id).2.graph.Orderly ids from ho.invalidate id)
    have hfirst := sheds_invalidate ho id
    obtain ⟨hcascade, -⟩ := ho.consistent.invalidate_spec id
    refine ⟨_, hfirst.trans hsheds, ho', fun i hi hids => ?_, fun i hi p hp => ?_⟩
    · rcases List.mem_cons.1 hi with rfl | hi
      · rw [ho.named_known hids] at hcascade
        exact Or.inl (hcascade.start i (ho.whole i).1)
      · exact Or.inr (hgone i hi hids)
    · by_cases hg : p ∈ (loader.graph.invalidate id).1
      · exact Or.inl hg
      · rcases List.mem_cons.1 hi with rfl | hi
        · exact absurd (ho.closed hcascade hp (hcascade.start _ (ho.whole _).1)) hg
        · exact Or.inr (hcallers i hi p (hfirst.required p hg i hp))

/-! ### Following an edit -/

variable {w w' : World} {ids : String → Prop} {l : Nat} {own : Nat → Option Resolved} {h : Host} {notice : Notice}
  {s : Snapshot}

/-- A listening loader at rest that follows a notice goes on to be truthful, where what is left of it asked for what
it asked for. -/
theorem Truthful.adopted (ht : Truthful w ids l own [] h) (hplain : w.meaning.Plain ids)
    (hlisten : (h.loader l).listening = true) (hlater : h.files.snapshot.Later s)
    (hplain' : { w with snapshot := s }.meaning.Plain ids)
    (hspares : ∀ gone : String → Prop, (∀ r, Left gone (h.loader l).graph w.meaning r → r.InVault → r.id ≠ notice.path) →
      (h.Tracked notice.path → ∀ p, notice.path ∈ Graph.namesAt (h.loader l).graph.dependencies p → gone p) →
        Spares gone (h.loader l).graph w.meaning { w with snapshot := s }.meaning) :
    ∃ own', Truthful { w with snapshot := s } ids l own' [] (h.absorb (h.files.adopt ([notice], s))) := by
  have hloader : (h.absorb (h.files.adopt ([notice], s))).loader l =
      Loader.evictEach (h.loader l) (h.files.adopt ([notice], s)).1.announced := by
    rw [absorb_loader _ _ ht.there, if_pos hlisten]
  obtain ⟨gone, hsheds, ho, hgone, hcallers⟩ :=
    sheds_evictEach (h.files.adopt ([notice], s)).1.announced ht.agrees.orderly
  rw [← hloader] at hsheds ho
  -- the file of a slot that is left is not the one that changed
  have hne (r : Resolved) (hr : Left gone (h.loader l).graph w.meaning r) (hv : r.InVault) : r.id ≠ notice.path :=
    fun he => hr.stays (hgone _ (mem_announced_adopt.2 ⟨he, ht.followed r hr.knows hv hr.kept⟩)
      (hplain.inside r hr.knows))
  replace hspares := hspares gone hne fun htracked => hcallers _ (mem_announced_adopt.2 ⟨rfl, htracked⟩)
  obtain ⟨own', hagrees⟩ := ht.agrees.edited hplain hsheds hspares ho
  refine ⟨own', kept_adopt ht.kept hlater, ?_, ?_, ?_, fun r hk hv hs => ?_⟩
  · rw [absorb_count]
    exact ht.there
  · rw [absorb_world, ht.world, (adopt_rest h.files ([notice], s)).1]
  · rw [absorb_heap]
    exact hagrees
  · obtain ⟨slot, hslot⟩ := Option.ne_none_iff_exists'.1 hs
    have hg := hsheds.not_gone hslot
    have hslot' : (h.loader l).graph.scriptOf r.id = some slot := (hsheds.kept _ hg).symm.trans hslot
    -- whatever has a slot was known before
    obtain ⟨r', hk', hid, -⟩ := ht.agrees.slots _ _ hslot'
    have hleft : Left gone (h.loader l).graph w.meaning r' := ⟨hk', by rw [hid, hslot']; nofun, hid ▸ hg⟩
    obtain rfl := hplain'.coherent r r' hk (hspares.knows r' hleft) hid.symm
    rw [Tracked, absorb_files]
    exact tracked_adopt.2 ⟨hne r hleft hv, ht.followed r hk' hv hleft.kept⟩

/-- A listening loader at rest that follows an edit goes on to be truthful. -/
theorem Truthful.absorbed (ht : Truthful w ids l own [] h) (hplain : w.meaning.Plain ids) (hcompiles : w.Compiles)
    (hlisten : (h.loader l).listening = true) (hlater : h.files.snapshot.Later s)
    (hedits : w.snapshot.Edits notice.path s) (hplain' : { w with snapshot := s }.meaning.Plain ids) :
    ∃ own', Truthful { w with snapshot := s } ids l own' [] (h.absorb (h.files.adopt ([notice], s))) := by
  have hkin : World.Kin w { w with snapshot := s } := ⟨rfl, rfl, rfl, rfl⟩
  refine ht.adopted hplain hlisten hlater hplain' fun gone hne _ => ?_
  have answer (s' : String) (d : Option String) (t : Resolved) (hanswer : w.meaning.answer s' d = .ok (some t))
      (hleft : Left gone (h.loader l).graph w.meaning t) : { w with snapshot := s }.meaning.answer s' d = .ok (some t) :=
    (hkin.answer_of_edits hedits (Or.inr ⟨t, hanswer, fun ⟨hv, he⟩ => hne t hleft hv he⟩)).trans hanswer
  refine ⟨fun r => congrFun hkin.calls r, fun r hr => ?_, fun r calls c e hr hcalls hc _ hu => ?_, fun r s' t _ _ => ?_⟩
  · obtain ⟨s', d, hanswer⟩ := hr.knows
    exact ⟨s', d, answer s' d r hanswer hr⟩
  · exact hkin.unanswered hedits hcompiles hr.knows hcalls hc hu
  · exact answer s' r.cwd t

end ScriptVault.Host

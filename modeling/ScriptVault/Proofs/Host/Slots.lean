import ScriptVault.Proofs.Graph.Walk
import ScriptVault.Proofs.Host.Loads

/-!
# Slots — what is kept of modules while others are looked for

To look for a module keeps every slot or empties it.  It empties none as long as the specifier does not stand
for another module already and what is found may be used again.
-/

namespace ScriptVault

namespace Loader

theorem slots_eq (loader : Loader) (id : String) : loader.slots id = (loader.graph.cache.at? id).getD {} := rfl

/-- A specifier stands for another module than the one that it is resolved to. -/
def Repoints (loader : Loader) (raw canonical : String) : Prop :=
  ∃ m, loader.graph.aliased.at? raw = some m ∧ m ≠ canonical

theorem depend_slots (loader : Loader) (context : Context) (raw id : String) :
    (loader.depend context raw).slots id = loader.slots id := by
  unfold depend
  split <;> rfl

theorem assign_eq_of_steady {loader : Loader} {raw canonical : String} (h : ¬loader.Repoints raw canonical) :
    loader.assign raw canonical = ([], { loader with graph := (loader.graph.assign raw canonical).2 }) := by
  have hnone : (loader.graph.assign raw canonical).1 = none := by
    unfold Graph.assign
    cases ha : loader.graph.aliased.at? raw with
    | none => rfl
    | some m =>
      dsimp only
      rw [if_pos]
      by_contra hm
      exact h ⟨m, ha, hm⟩
  unfold assign
  rw [show loader.graph.assign raw canonical = (none, (loader.graph.assign raw canonical).2) from
    Prod.ext hnone rfl]

theorem assign_eq_of_repoints {loader : Loader} {raw canonical : String} (h : loader.Repoints raw canonical) :
    loader.assign raw canonical =
      ((((loader.graph.assign raw canonical).2).invalidate raw).1,
        { loader with graph := (((loader.graph.assign raw canonical).2).invalidate raw).2 }) := by
  obtain ⟨m, ha, hm⟩ := h
  have hsome : (loader.graph.assign raw canonical).1 = some m := by
    unfold Graph.assign
    rw [ha]
    dsimp only
    rw [if_neg hm]
  unfold assign
  rw [show loader.graph.assign raw canonical = (some m, (loader.graph.assign raw canonical).2) from
    Prod.ext hsome rfl]

/-- A slot is emptied or stays as it is when a specifier is let stand for a module. -/
theorem settled_slots (loader : Loader) (raw : String) (resolved : Resolved) (id : String) :
    (loader.settled raw resolved).2.slots id = {} ∨
      (loader.settled raw resolved).2.slots id = loader.slots id := by
  have hassign : (loader.assign raw resolved.id).2.slots id = {} ∨
      (loader.assign raw resolved.id).2.slots id = loader.slots id := by
    have hcache := (loader.graph.assign_frame raw resolved.id).1
    by_cases h : loader.Repoints raw resolved.id
    · rw [assign_eq_of_repoints h, slots_eq, slots_eq]
      rcases Graph.invalidate_cache_at? (loader.graph.assign raw resolved.id).2 raw id with he | he
      · exact Or.inl (by rw [he]; rfl)
      · exact Or.inr (by rw [he, hcache])
    · rw [assign_eq_of_steady h, slots_eq, slots_eq]
      exact Or.inr (by rw [hcache])
  unfold settled
  dsimp only
  split
  · exact hassign
  · by_cases hid : resolved.id = id
    · subst hid
      exact Or.inl (by rw [slots_eq, drop, Table.at?_erase_same]; rfl)
    · have hdrop : ((loader.assign raw resolved.id).2.drop resolved.id).slots id =
          (loader.assign raw resolved.id).2.slots id := by
        rw [slots_eq, slots_eq, drop, Table.at?_erase_ne hid]
      rwa [hdrop]

theorem settled_slots_of_steady {loader : Loader} {raw : String} {resolved : Resolved}
    (h : ¬loader.Repoints raw resolved.id) (hc : resolved.cache = true) (id : String) :
    (loader.settled raw resolved).2.slots id = loader.slots id := by
  unfold settled
  rw [if_pos hc, assign_eq_of_steady h, slots_eq, slots_eq, (loader.graph.assign_frame raw resolved.id).1]

end Loader

namespace Host

variable {l : Nat} {h h' : Host}

/-- What the script slot of a module holds. -/
def slotOf (h : Host) (l : Nat) (id : String) : Option ScriptSlot := ((h.loader l).slots id).script

theorem settle_loader (hl : l < h.loaders.length) (id : String) (resolved : Resolved) (context : Context) :
    (settle l id resolved context h).loader l = ((h.loader l).settled id resolved).2 := by
  have hevict : (evicting l (·.settled id resolved) h).loader l = ((h.loader l).settled id resolved).2 := by
    obtain ⟨_, _, _, _, he⟩ := evicting_rest l (·.settled id resolved) h
    rw [he]
    simp [loader, hl]
  rw [settle_eq]
  split <;> exact hevict

/-- The loader after a module was found. -/
theorem find_loader (hk : h.Kept) (hl : l < h.loaders.length) {id : String} {resolved : Resolved}
    (hr : (find l id).exec h = some (.ok resolved, h')) :
    h'.loader l = (((h.loader l).depend (h.contextOf l) id).settled id resolved).2 := by
  cases finding_of_exec hk hr with
  | @settled _ h₁ ha _ _ =>
    have hl₁ : l < h₁.loaders.length := by rw [ha.loaders]; simpa [depend, onLoader] using hl
    rw [settle_loader hl₁]
    have : h₁.loader l = (h.loader l).depend (h.contextOf l) id := by
      rw [loader, ha.loaders]
      exact loader_onLoader hl _
    rw [this]

/-- To look for a module keeps every slot or empties it. -/
theorem find_slotOf (hk : h.Kept) (hl : l < h.loaders.length) {id : String} {resolved : Resolved}
    (hr : (find l id).exec h = some (.ok resolved, h')) (i : String) :
    h'.slotOf l i = none ∨ h'.slotOf l i = h.slotOf l i := by
  unfold slotOf
  rw [find_loader hk hl hr]
  rcases Loader.settled_slots ((h.loader l).depend (h.contextOf l) id) id resolved i with he | he
  · exact Or.inl (by rw [he])
  · exact Or.inr (by rw [he, Loader.depend_slots])

/-- To find no module keeps every slot. -/
theorem find_slotOf_of_error (hk : h.Kept) (hl : l < h.loaders.length) {id : String} {e : Failure}
    (hr : (find l id).exec h = some (.error e, h')) (i : String) : h'.slotOf l i = h.slotOf l i := by
  have same (ha : Asked (depend l (h.contextOf l) id h) h') : h'.slotOf l i = h.slotOf l i := by
    have : h'.loader l = (h.loader l).depend (h.contextOf l) id := by
      rw [loader, ha.loaders]
      exact loader_onLoader hl _
    rw [slotOf, this, Loader.depend_slots]
    rfl
  cases finding_of_exec hk hr with
  | unknown ha _ => exact same ha
  | failed ha _ => exact same ha

/-- To look for a module keeps every slot where its specifier stands for no other module. -/
theorem find_slotOf_of_steady (hk : h.Kept) (hl : l < h.loaders.length) {id : String} {resolved : Resolved}
    (hr : (find l id).exec h = some (.ok resolved, h')) (hsteady : ¬(h.loader l).Repoints id resolved.id)
    (hc : resolved.cache = true) (i : String) : h'.slotOf l i = h.slotOf l i := by
  have hnot : ¬((h.loader l).depend (h.contextOf l) id).Repoints id resolved.id := by
    have : ((h.loader l).depend (h.contextOf l) id).graph.aliased = (h.loader l).graph.aliased := by
      unfold Loader.depend
      split <;> rfl
    unfold Loader.Repoints at hsteady ⊢
    rwa [this]
  unfold slotOf
  rw [find_loader hk hl hr, Loader.settled_slots_of_steady hnot hc, Loader.depend_slots]

theorem onLoader_slotOf (hl : l < h.loaders.length) (f : Loader → Loader) (id : String) :
    (h.onLoader l f).slotOf l id = ((f (h.loader l)).slots id).script := by
  rw [slotOf, loader_onLoader hl]

theorem fill_slotOf (hl : l < h.loaders.length) (id : String) (slot : ScriptSlot) (i : String) :
    (h.fill l id slot).slotOf l i = if i = id then some slot else h.slotOf l i := by
  unfold fill
  rw [onLoader_slotOf hl, Loader.slots_eq, Loader.withSlots]
  by_cases hi : i = id
  · subst hi; simp
  · simp [Table.at?_put_ne (Ne.symm hi), hi, slotOf, Loader.slots_eq]

/-- A module that is to be run has an empty slot, which gets its object. -/
theorem claim_inr {resolved : Resolved} {object : Nat} (hc : claim l resolved h = (.inr object, h')) :
    h.slotOf l resolved.id = none ∧ resolved.value = none ∧ object = (newModule h.heap).1 ∧
      h' = { h with heap := (newModule h.heap).2 }.fill l resolved.id (.module object) := by
  unfold claim at hc
  split at hc
  · cases hc
  · next hslot =>
    split at hc
    · cases hc
    · next hvalue => cases hc; exact ⟨hslot, hvalue, rfl, rfl⟩

/-- A module whose slot is filled is served from it, and nothing is changed. -/
theorem claim_of_slot {resolved : Resolved} {slot : ScriptSlot} (hs : h.slotOf l resolved.id = some slot) :
    claim l resolved h = (.inl (h.valueOf slot), h) := by
  unfold claim
  unfold slotOf at hs
  rw [hs]

theorem claim_slotOf (hl : l < h.loaders.length) {resolved : Resolved} {x : Except Failure Value ⊕ Nat}
    (hc : claim l resolved h = (x, h')) {i : String} (hi : i ≠ resolved.id) : h'.slotOf l i = h.slotOf l i := by
  unfold claim at hc
  split at hc
  · cases hc; rfl
  · split at hc
    · cases hc
      rw [fill_slotOf hl, if_neg hi]
    · cases hc
      have := fill_slotOf (h := { h with heap := (newModule h.heap).2 }) hl resolved.id
        (.module (newModule h.heap).1) i
      rw [if_neg hi] at this
      exact this

theorem fail_slotOf (hl : l < h.loaders.length) (id : String) (object : Nat) (e : Failure) {i : String}
    (hi : i ≠ id) : (fail l id object e h).slotOf l i = h.slotOf l i := by
  unfold fail
  split
  · split
    · rw [fill_slotOf hl, if_neg hi]
    · rfl
  · rfl

theorem close_slotOf (l object : Nat) (h : Host) (i : String) :
    (close object h).2.slotOf l i = h.slotOf l i := by
  unfold close
  split <;> rfl

theorem enter_slotOf (l : Nat) (h : Host) (cwds : List (Option String)) (parents : List String) (i : String) :
    (h.onLoader l (·.enter cwds parents)).slotOf l i = h.slotOf l i := by
  by_cases hl : l < h.loaders.length
  · rw [onLoader_slotOf hl]; rfl
  · simp [onLoader, slotOf, loader, hl]

theorem leave_slotOf (l : Nat) (h : Host) (cwds parents : Nat) (i : String) :
    (h.onLoader l (·.leave cwds parents)).slotOf l i = h.slotOf l i := by
  by_cases hl : l < h.loaders.length
  · rw [onLoader_slotOf hl]; rfl
  · simp [onLoader, slotOf, loader, hl]

end Host

end ScriptVault

import ScriptVault.Proofs.Graph.Cascade

/-!
# Evolve — what a graph forgets, and what it keeps

Where no known id ever stands for another module, all modules are whole.  A graph then keeps what was built on
what, but for some ids that are gone; and with an id everything goes that was built on it.
-/

namespace ScriptVault.Graph

variable {Slots : Type} {ids : String → Prop} {g g' g'' : Graph Slots}

/-- Specifiers stand for known ids, and no known id stands for another one. -/
structure Orderly (ids : String → Prop) (g : Graph Slots) : Prop where
  /-- The tables agree. -/
  consistent : g.Consistent
  /-- What a specifier stands for is known, and a known id stands for itself. -/
  aliased : ∀ s c, g.aliased.at? s = some c → ids c ∧ (ids s → c = s)
  /-- Whatever has names is known. -/
  aliases : ∀ c names, g.aliases.at? c = some names → ids c

namespace Orderly

theorem empty : Orderly ids ({} : Graph Slots) :=
  ⟨Consistent.empty, fun _ _ h => (nomatch h), fun _ _ h => (nomatch h)⟩

/-- A known id stands for itself. -/
theorem named_known (hg : g.Orderly ids) {m : String} (hm : ids m) : g.named m = m := by
  unfold named
  cases ha : g.aliased.at? m with
  | none => rfl
  | some c => exact (hg.aliased m c ha).2 hm

theorem whole (hg : g.Orderly ids) (m : String) : g.Whole m :=
  hg.consistent.whole_of_named (fun _ names h => hg.named_known (hg.aliases _ names h)) m

theorem depend (hg : g.Orderly ids) (parent specifier : String) : (g.depend parent specifier).Orderly ids :=
  ⟨hg.consistent.depend parent specifier, hg.aliased, hg.aliases⟩

theorem assign (hg : g.Orderly ids) {raw c : String} (hc : ids c) (hraw : ids raw → c = raw) :
    (g.assign raw c).2.Orderly ids := by
  refine ⟨hg.consistent.assign raw c, fun s d h => ?_, fun k names h => ?_⟩
  · rw [assign_aliased] at h
    by_cases hs : raw = s
    · subst hs
      rw [Table.at?_put_same] at h
      cases h
      exact ⟨hc, hraw⟩
    · rw [Table.at?_put_ne hs] at h
      exact hg.aliased s d h
  · rw [assign_aliases_at?] at h
    split at h
    · next hk => exact hk ▸ hc
    · split at h
      · obtain ⟨old, hold, -⟩ := Option.map_eq_some_iff.1 h
        exact hg.aliases k old hold
      · exact hg.aliases k names h

theorem evicted (hg : g.Orderly ids) (l : List String) : (g.evicted l).Orderly ids :=
  ⟨hg.consistent.evicted l, by rw [evicted_aliased]; exact hg.aliased, by rw [evicted_aliases]; exact hg.aliases⟩

theorem invalidate (hg : g.Orderly ids) (id : String) : (g.invalidate id).2.Orderly ids := by
  rw [(hg.consistent.invalidate_spec id).2]
  exact hg.evicted _

/-- Whoever requires a name of a module that a cascade has is in the cascade. -/
theorem closed (hg : g.Orderly ids) {m : String} {l : List String} (h : g.Cascade m l) {p s : String}
    (hs : s ∈ namesAt g.dependencies p) (hc : g.named s ∈ l) : p ∈ l := by
  have hswept := h.swept_of_mem hg.consistent (hg.whole _) hc
  have hmem : s ∈ l := hswept s (hg.consistent.mem_aliasesOf_named s)
  rcases h.closed s hmem p ((hg.consistent.mirrored p s).2 hs) with hp | hp
  · exact hp
  · exact hp p (hg.whole p).1

end Orderly

/-! ### Keeping what was built on what -/

/-- A graph keeps what was built on what, but for some ids that are gone. -/
structure Evolves (gone : String → Prop) (g g' : Graph Slots) : Prop where
  /-- The others still require what they required. -/
  required : ∀ p, ¬gone p → ∀ s ∈ namesAt g.dependencies p, s ∈ namesAt g'.dependencies p
  /-- What they required stands for the same modules. -/
  standing : ∀ p, ¬gone p → ∀ s ∈ namesAt g.dependencies p, ∀ c, g.aliased.at? s = some c →
    g'.aliased.at? s = some c
  /-- With a module everything is gone that was built on it. -/
  closed : ∀ p, ∀ s ∈ namesAt g.dependencies p, ∀ c, g.aliased.at? s = some c → gone c → gone p

namespace Evolves

variable {gone gone' : String → Prop}

/-- Nothing is gone where requirements are added and specifiers go on to stand for their modules. -/
theorem of_kept (hd : ∀ p, ∀ s ∈ namesAt g.dependencies p, s ∈ namesAt g'.dependencies p)
    (ha : ∀ s c, g.aliased.at? s = some c → g'.aliased.at? s = some c) : Evolves (fun _ => False) g g' :=
  ⟨fun p _ => hd p, fun _ _ s _ => ha s, fun _ _ _ _ _ h => h⟩

theorem refl (g : Graph Slots) : Evolves (fun _ => False) g g := of_kept (fun _ _ h => h) fun _ _ h => h

theorem trans (a : Evolves gone g g') (b : Evolves gone' g' g'') :
    Evolves (fun p => gone p ∨ gone' p) g g'' where
  required p hp s hs := b.required p (fun h => hp (Or.inr h)) s (a.required p (fun h => hp (Or.inl h)) s hs)
  standing p hp s hs c hc := by
    have hn : ¬gone p := fun h => hp (Or.inl h)
    exact b.standing p (fun h => hp (Or.inr h)) s (a.required p hn s hs) c (a.standing p hn s hs c hc)
  closed p s hs c hc h := by
    by_cases hp : gone p
    · exact Or.inl hp
    · rcases h with h | h
      · exact Or.inl (a.closed p s hs c hc h)
      · exact Or.inr (b.closed p s (a.required p hp s hs) c (a.standing p hp s hs c hc) h)

end Evolves

theorem evolves_depend (g : Graph Slots) (parent specifier : String) :
    Evolves (fun _ => False) g (g.depend parent specifier) :=
  Evolves.of_kept (fun _ _ hs => mem_namesAt_addName.2 (Or.inr hs)) fun _ _ h => h

/-- To let a specifier stand for the module that it stood for, or for the first one, changes nothing else. -/
theorem evolves_assign {raw c : String} (h : ∀ m, g.aliased.at? raw = some m → m = c) :
    Evolves (fun _ => False) g (g.assign raw c).2 := by
  refine Evolves.of_kept (fun p s hs => ?_) fun s d hd => ?_
  · rwa [(g.assign_frame raw c).2.1]
  · rw [assign_aliased]
    by_cases hs : raw = s
    · subst hs
      rw [Table.at?_put_same, h d hd]
    · rwa [Table.at?_put_ne hs]

theorem named_of_at? {s c : String} (h : g.aliased.at? s = some c) : g.named s = c := by simp [named, h]

/-- An invalidation lets a module go with everything that was built on it. -/
theorem evolves_invalidate (hg : g.Orderly ids) (id : String) :
    Evolves (· ∈ (g.invalidate id).1) g (g.invalidate id).2 := by
  obtain ⟨hcascade, hgraph⟩ := hg.consistent.invalidate_spec id
  rw [hgraph]
  refine ⟨fun p hp s hs => ?_, fun p _ s _ c hc => ?_, fun p s hs c hc h => ?_⟩
  · exact (mem_evicted_dependencies g _).2 ⟨hp, hs⟩
  · rwa [evicted_aliased]
  · exact hg.closed hcascade hs (by rwa [named_of_at? hc])

/-- To let a specifier stand for another module than before lets everything go that required the specifier. -/
theorem evolves_repoint {raw c : String} (hg : (g.assign raw c).2.Orderly ids) :
    Evolves (· ∈ ((g.assign raw c).2.invalidate raw).1) g ((g.assign raw c).2.invalidate raw).2 := by
  obtain ⟨hcascade, hgraph⟩ := hg.consistent.invalidate_spec raw
  have hdeps := (g.assign_frame raw c).2.1
  have hnamed : (g.assign raw c).2.named raw = c := named_of_at? (by rw [assign_aliased, Table.at?_put_same])
  have hraw : c ∈ ((g.assign raw c).2.invalidate raw).1 := by
    rw [hnamed] at hcascade
    exact hcascade.start c (hg.whole c).1
  -- whoever required the specifier is gone
  have callers (p : String) (hp : raw ∈ namesAt g.dependencies p) : p ∈ ((g.assign raw c).2.invalidate raw).1 :=
    hg.closed hcascade (by rwa [hdeps]) (by rwa [hnamed])
  have at?_ne {s : String} (hs : s ≠ raw) : (g.assign raw c).2.aliased.at? s = g.aliased.at? s := by
    rw [assign_aliased, Table.at?_put_ne (Ne.symm hs)]
  rw [hgraph]
  refine ⟨fun p hp s hs => ?_, fun p hp s hs d hd => ?_, fun p s hs d hd h => ?_⟩
  · exact (mem_evicted_dependencies _ _).2 ⟨hp, by rwa [hdeps]⟩
  · rw [evicted_aliased, at?_ne, hd]
    rintro rfl
    exact hp (callers p hs)
  · by_cases hr : s = raw
    · exact callers p (hr ▸ hs)
    · exact hg.closed hcascade (by rwa [hdeps]) (by rwa [named_of_at? ((at?_ne hr).trans hd)])

end ScriptVault.Graph

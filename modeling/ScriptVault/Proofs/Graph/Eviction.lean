import Mathlib.Data.List.Nodup
import Mathlib.Logic.Relation
import ScriptVault.Proofs.Graph.History

/-!
# Eviction — an invalidation evicts nothing extra

The walk of an invalidation removes edges from the graph that it walks.  An edge that it removes leads from a
caller that is evicted already, so every name that it takes up was reachable in the graph as it stood before.
What it leaves is that graph without the listed names, whatever requires whatever in a circle.
-/

namespace ScriptVault.Graph

variable {Slots : Type}

/-- A walk adds each name to those that it visited once. -/
theorem Walk.nodup {queue visited : List String} {g : Graph Slots} {out : List String × Graph Slots}
    (h : Walk queue visited g out) (hv : visited.Nodup) : out.1.Nodup := by
  induction h with
  | done => exact hv
  | skip _ _ ih => exact ih hv
  | visit fresh _ ih => exact ih (List.concat_eq_append ▸ List.Nodup.concat fresh hv)

/-! ### What is left -/

theorem evicted_cache (g : Graph Slots) (ids : List String) :
    (g.evicted ids).cache = g.cache.filter (·.1 ∉ ids) := by
  induction ids using List.reverseRecOn with
  | nil => simp [evicted]
  | append_singleton ids id ih =>
    rw [evicted_concat, evict_cache, ih, Table.erase, List.filter_filter]
    refine List.filter_congr fun b _ => ?_
    by_cases hb : b.1 = id <;> simp [hb]

theorem evict_dependencies_namesAt (g : Graph Slots) (id p : String) :
    namesAt (g.evict id).dependencies p = if p = id then [] else namesAt g.dependencies p := by
  unfold evict
  split
  · next h =>
    by_cases hp : p = id
    · subst hp; simp [namesAt, h]
    · simp [hp]
  · simp only [namesAt, Table.at?_put]
    split <;> rfl

theorem evicted_dependencies_namesAt (g : Graph Slots) (ids : List String) (p : String) :
    namesAt (g.evicted ids).dependencies p = if p ∈ ids then [] else namesAt g.dependencies p := by
  induction ids using List.reverseRecOn with
  | nil => simp [evicted]
  | append_singleton ids id ih =>
    rw [evicted_concat, evict_dependencies_namesAt, ih]
    by_cases hp : p = id <;> simp [hp]

theorem namesAt_foldl_dropName (keys : List String) (t : Table String Names) (name k : String) :
    namesAt (keys.foldl (fun t key => dropName t key name) t) k =
      if k ∈ keys then (namesAt t k).erase name else namesAt t k := by
  induction keys generalizing t with
  | nil => simp
  | cons key keys ih =>
    have hdrop : namesAt (dropName t key name) k =
        if k = key then (namesAt t k).erase name else namesAt t k := by
      simp only [namesAt, at?_dropName]
      cases t.at? k with
      | none => split <;> rfl
      | some names => rfl
    rw [List.foldl_cons, ih, hdrop]
    by_cases hk : k = key <;> by_cases hks : k ∈ keys <;> simp [hk, hks, Names.erase]

/-- Whoever is evicted is dropped wherever it was recorded, since it was recorded at what it required only. -/
theorem Consistent.evict_dependants_namesAt {g : Graph Slots} (hg : g.Consistent) (id d : String) :
    namesAt (g.evict id).dependants d = (namesAt g.dependants d).erase id := by
  have hnone (hd : d ∉ namesAt g.dependencies id) :
      (namesAt g.dependants d).erase id = namesAt g.dependants d :=
    List.filter_eq_self.2 fun p hp => by
      have hne : p ≠ id := fun h => hd ((hg.mirrored id d).1 (h ▸ hp))
      simpa using hne
  unfold Graph.evict
  cases hid : g.dependencies.at? id with
  | none => exact (hnone (by simp [namesAt, hid])).symm
  | some specifiers =>
    refine (namesAt_foldl_dropName specifiers g.dependants id d).trans ?_
    by_cases hd : d ∈ specifiers
    · exact if_pos hd
    · rw [if_neg hd, hnone (by simpa [namesAt, hid] using hd)]

theorem Consistent.evicted_dependants_namesAt {g : Graph Slots} (hg : g.Consistent) (ids : List String)
    (d : String) :
    namesAt (g.evicted ids).dependants d = (namesAt g.dependants d).filter (· ∉ ids) := by
  induction ids using List.reverseRecOn with
  | nil => simp [Graph.evicted]
  | append_singleton ids id ih =>
    rw [evicted_concat, (hg.evicted ids).evict_dependants_namesAt, ih, Names.erase, List.filter_filter]
    refine List.filter_congr fun p _ => ?_
    by_cases hp : p = id <;> simp [hp]

/-- To invalidate a module ends on every graph, in one way only, and lists no name twice.  Each listed name is
reached from the names of the module over the names of whoever required the one before, in the graph as it
was.  The cache is left without the listed names, those required nothing any more, and nobody is required by
them; all other requirements are left as they were, and what every specifier stands for. -/
theorem invalidate_evicts_reached_only (steps : List (Step Slots)) (id : String) :
    let g := run steps
    let start := g.aliasesOf (g.named id)
    let ids := (g.invalidate id).1
    let left := (g.invalidate id).2
    (∀ out, Walk start [] g out ↔ out = (ids, left)) ∧
      ids.Nodup ∧
      (∀ v ∈ ids, ∃ x ∈ start, Relation.ReflTransGen (fun x v => v ∈ g.callersOf x) x v) ∧
      left.cache = g.cache.filter (·.1 ∉ ids) ∧
      (∀ p, namesAt left.dependencies p = if p ∈ ids then [] else namesAt g.dependencies p) ∧
      (∀ d, namesAt left.dependants d = (namesAt g.dependants d).filter (· ∉ ids)) ∧
      left.aliased = g.aliased ∧ left.aliases = g.aliases := by
  intro g start ids left
  have hg : g.Consistent := consistent_run steps
  have hleft : left = g.evicted ids := (hg.invalidate_spec id).2
  have hwalk : Walk start [] g (ids, left) := walk_invalidate g id
  refine ⟨fun out => ⟨fun h => h.unique hwalk, fun h => h ▸ hwalk⟩, hwalk.nodup List.nodup_nil, ?_, ?_⟩
  · refine invalidate_subset _ (fun v hv p hp x hx => ?_) fun x hx => ⟨x, hx, .refl⟩
    obtain ⟨y, hy, hyv⟩ := hv
    exact ⟨y, hy, hyv.tail (List.mem_flatMap.2 ⟨p, hp, hx⟩)⟩
  · rw [hleft]
    exact ⟨evicted_cache g ids, evicted_dependencies_namesAt g ids, hg.evicted_dependants_namesAt ids,
      evicted_aliased g ids, evicted_aliases g ids⟩

end ScriptVault.Graph

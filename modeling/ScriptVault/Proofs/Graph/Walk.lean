import Mathlib.Algebra.Ring.Nat
import Mathlib.Data.List.Flatten
import Mathlib.Data.List.Induction
import ScriptVault.Proofs.Graph.Tables

/-!
# Walk — what an invalidation evicts

The walk of an invalidation takes names from a queue until none is left: its bound is never met, since each
name brings its callers in at most once (`walk_invalidate`).  So everything about it is told by the rules of a
walk without a bound.  What it evicts is a set that holds the names of the module, and with each name all names
of whoever required it, unless that one was among the evicted names already.
-/

namespace ScriptVault.Graph

variable {Slots : Type}

/-! ### Evicting a list of names -/

/-- Evicts names one after the other. -/
def evicted (g : Graph Slots) (ids : List String) : Graph Slots := ids.foldl evict g

theorem evicted_concat (g : Graph Slots) (ids : List String) (id : String) :
    g.evicted (ids ++ [id]) = (g.evicted ids).evict id := by
  simp [evicted]

theorem evicted_aliased (g : Graph Slots) (ids : List String) : (g.evicted ids).aliased = g.aliased := by
  induction ids using List.reverseRecOn with
  | nil => rfl
  | append_singleton ids id ih => rw [evicted_concat, evict_aliased, ih]

theorem evicted_aliases (g : Graph Slots) (ids : List String) : (g.evicted ids).aliases = g.aliases := by
  induction ids using List.reverseRecOn with
  | nil => rfl
  | append_singleton ids id ih => rw [evicted_concat, evict_aliases, ih]

theorem evicted_aliasesOf (g : Graph Slots) (ids : List String) (k : String) :
    (g.evicted ids).aliasesOf k = g.aliasesOf k := by
  simp [aliasesOf, evicted_aliases]

theorem evicted_cache_at? (g : Graph Slots) (ids : List String) (k : String) :
    (g.evicted ids).cache.at? k = if k ∈ ids then none else g.cache.at? k := by
  induction ids using List.reverseRecOn with
  | nil => rfl
  | append_singleton ids id ih =>
    rw [evicted_concat, evict_cache]
    by_cases hk : k = id
    · subst hk; simp
    · rw [Table.at?_erase_ne (Ne.symm hk), ih]
      simp [hk]

theorem mem_evicted_dependencies (g : Graph Slots) (ids : List String) {p d : String} :
    d ∈ namesAt (g.evicted ids).dependencies p ↔ p ∉ ids ∧ d ∈ namesAt g.dependencies p := by
  induction ids using List.reverseRecOn with
  | nil => simp [evicted]
  | append_singleton ids id ih =>
    rw [evicted_concat, mem_evict_dependencies, ih]
    simp only [List.mem_append, List.mem_singleton]
    tauto

theorem Consistent.evicted {g : Graph Slots} (hg : g.Consistent) (ids : List String) :
    (g.evicted ids).Consistent := by
  induction ids using List.reverseRecOn with
  | nil => exact hg
  | append_singleton ids id ih => rw [evicted_concat]; exact ih.evict id

theorem Consistent.mem_evicted_dependants {g : Graph Slots} (hg : g.Consistent) (ids : List String)
    {p d : String} :
    p ∈ namesAt (g.evicted ids).dependants d ↔ p ∉ ids ∧ p ∈ namesAt g.dependants d := by
  rw [(hg.evicted ids).mirrored, mem_evicted_dependencies, hg.mirrored]

theorem evicted_callersOf_sublist (g : Graph Slots) (ids : List String) (id : String) :
    ((g.evicted ids).callersOf id).Sublist (g.callersOf id) := by
  have names : (namesAt (g.evicted ids).dependants id).Sublist (namesAt g.dependants id) := by
    induction ids using List.reverseRecOn with
    | nil => exact List.Sublist.refl _
    | append_singleton ids last ih =>
      rw [evicted_concat]
      exact (evict_dependants_sublist _ last id).trans ih
  unfold callersOf
  rw [funext (evicted_aliasesOf g ids)]
  exact names.flatMap _

/-! ### The walk without a bound -/

/-- What the walk over a queue comes to, when it may go on for as long as there is a name left. -/
inductive Walk : List String → List String → Graph Slots → List String × Graph Slots → Prop where
  /-- The queue is empty. -/
  | done (visited : List String) (g : Graph Slots) : Walk [] visited g (visited, g)
  /-- The next name was evicted before. -/
  | skip {id : String} {queue visited : List String} {g : Graph Slots} {out : List String × Graph Slots}
      (seen : id ∈ visited) (rest : Walk queue visited g out) : Walk (id :: queue) visited g out
  /-- The next name is evicted, and its callers wait behind all others. -/
  | visit {id : String} {queue visited : List String} {g : Graph Slots} {out : List String × Graph Slots}
      (fresh : id ∉ visited)
      (rest : Walk (queue ++ (g.evict id).callersOf id) (visited ++ [id]) (g.evict id) out) :
      Walk (id :: queue) visited g out

/-- A walk comes to one end only. -/
theorem Walk.unique {queue visited : List String} {g : Graph Slots} {out out' : List String × Graph Slots}
    (h : Walk queue visited g out) (h' : Walk queue visited g out') : out = out' := by
  induction h with
  | done => cases h'; rfl
  | skip seen _ ih =>
    cases h' with
    | skip _ rest => exact ih rest
    | visit fresh _ => exact absurd seen fresh
  | visit fresh _ ih =>
    cases h' with
    | skip seen _ => exact absurd seen fresh
    | visit _ rest => exact ih rest

/-! ### The bound of the walk -/

/-- How many names the modules in a list that are not visited can still bring in. -/
def pending (g : Graph Slots) (known visited : List String) : Nat :=
  ((known.filter (!visited.contains ·)).map fun id => (g.callersOf id).length).sum

theorem pending_cons (g : Graph Slots) (u : String) (known visited : List String) :
    g.pending (u :: known) visited =
      (if u ∈ visited then 0 else (g.callersOf u).length) + g.pending known visited := by
  by_cases hu : u ∈ visited <;> simp [pending, hu]

theorem pending_visit (g : Graph Slots) {known visited : List String} {id : String} (hk : id ∈ known)
    (hv : id ∉ visited) :
    (g.callersOf id).length + g.pending known (visited ++ [id]) ≤ g.pending known visited := by
  have le (rest : List String) : g.pending rest (visited ++ [id]) ≤ g.pending rest visited := by
    induction rest with
    | nil => exact Nat.le_refl _
    | cons u rest ih =>
      rw [pending_cons, pending_cons]
      by_cases hu : u ∈ visited
      · simpa [hu] using ih
      · by_cases hid : u = id <;> simp [hu, hid] <;> omega
  induction known with
  | nil => simp at hk
  | cons u rest ih =>
    rw [pending_cons, pending_cons]
    by_cases hid : u = id
    · subst hid
      simpa [hv] using le rest
    · have := ih ((List.mem_cons.1 hk).resolve_left (Ne.symm hid))
      by_cases hu : u ∈ visited
      · simpa [hu] using this
      · simp only [List.mem_append, hu, List.mem_singleton, hid, or_self, if_false]
        omega

/-- With more fuel than the queue and everything that it can still bring in, the fuel does not end a walk. -/
theorem walk_evictAll {g : Graph Slots} {known : List String} (hu : ∀ id, ∀ x ∈ g.callersOf id, x ∈ known)
    (fuel : Nat) (queue visited : List String) (hq : ∀ x ∈ queue, x ∈ known)
    (hfuel : queue.length + g.pending known visited < fuel) :
    Walk queue visited (g.evicted visited) (evictAll fuel queue visited (g.evicted visited)) := by
  induction fuel generalizing queue visited with
  | zero => omega
  | succ fuel ih =>
    cases queue with
    | nil => exact Walk.done _ _
    | cons id queue =>
      rw [List.length_cons] at hfuel
      have hrest : ∀ x ∈ queue, x ∈ known := fun x hx => hq x (List.mem_cons_of_mem _ hx)
      by_cases hv : id ∈ visited
      · simp only [evictAll, List.contains_eq_mem, hv, decide_true, if_true]
        exact Walk.skip hv (ih queue visited hrest (by omega))
      · simp only [evictAll, List.contains_eq_mem, hv, decide_false, Bool.false_eq_true, if_false]
        have callers := evicted_callersOf_sublist g (visited ++ [id]) id
        have spent := g.pending_visit (hq id (List.mem_cons_self ..)) hv
        refine Walk.visit hv ?_
        rw [← evicted_concat]
        refine ih _ _ (fun x hx => ?_) ?_
        · rcases List.mem_append.1 hx with hx | hx
          · exact hrest x hx
          · exact hu id x (callers.subset hx)
        · have := callers.length_le
          rw [List.length_append]
          omega

/-- The names that a walk from some names can take up. -/
def known (g : Graph Slots) (start : List String) : List String :=
  (start ++ g.aliases.flatMap (·.2) ++ g.dependants.flatMap (·.2)).eraseDups

theorem mem_known_of_start (g : Graph Slots) {start : List String} {x : String} (hx : x ∈ start) :
    x ∈ g.known start := by
  rw [known, List.mem_eraseDups]
  simp [hx]

theorem mem_known_of_callersOf (g : Graph Slots) (start : List String) (id : String) :
    ∀ x ∈ g.callersOf id, x ∈ g.known start := by
  intro x hx
  obtain ⟨p, hp, hx⟩ := List.mem_flatMap.1 hx
  rw [known, List.mem_eraseDups, List.mem_append, List.mem_append]
  unfold aliasesOf at hx
  cases ha : g.aliases.at? p with
  | none =>
    rw [ha] at hx
    obtain rfl : x = p := by simpa using hx
    exact Or.inr (mem_flatMap_of_mem_namesAt hp)
  | some _ => exact Or.inl (Or.inr (mem_flatMap_of_mem_namesAt (k := p) (by simpa [namesAt, ha] using hx)))

/-- The bound of a walk is more than its queue and all that the names it can take up bring in. -/
theorem pending_lt_walkBound (g : Graph Slots) (start : List String) :
    start.length + g.pending (g.known start) [] < g.walkBound start := by
  simp only [walkBound, pending, List.contains_nil, Bool.not_false, List.filter_true]
  show _ < _ + 1 + (List.map _ (g.known start)).sum
  omega

/-- An invalidation is the walk from the names of the module, whatever the graph. -/
theorem walk_invalidate (g : Graph Slots) (id : String) :
    Walk (g.aliasesOf (g.named id)) [] g (g.invalidate id) := by
  set start := g.aliasesOf (g.named id) with hstart
  exact walk_evictAll (g.mem_known_of_callersOf start) (g.walkBound start) start []
    (fun x hx => g.mem_known_of_start hx) (g.pending_lt_walkBound start)

/-! ### What a walk evicts -/

/-- All names of a module are in a list. -/
def Swept (g : Graph Slots) (ids : List String) (m : String) : Prop := ∀ x ∈ g.aliasesOf m, x ∈ ids

/-- What an invalidation that starts at a module evicts. -/
structure Cascade (g : Graph Slots) (m : String) (ids : List String) : Prop where
  /-- All names of the module are in it. -/
  start : g.Swept ids m
  /-- Whoever required a name in it is in it by all its names, unless its id is anyway. -/
  closed : ∀ v ∈ ids, ∀ p ∈ namesAt g.dependants v, p ∈ ids ∨ g.Swept ids p
  /-- A name is in it together with all names of some module that has it. -/
  origin : ∀ v ∈ ids, ∃ m, v ∈ g.aliasesOf m ∧ g.Swept ids m

/-- A walk takes all of its queue, and leaves nobody behind who required what it evicted. -/
theorem Consistent.walk_complete {g g' : Graph Slots} (hg : g.Consistent) {queue visited : List String}
    {out : List String × Graph Slots} (h : Walk queue visited g' out) (hg' : g' = g.evicted visited)
    (hclosed : ∀ v ∈ visited, ∀ p ∈ namesAt g.dependants v, p ∈ visited ∨ g.Swept (visited ++ queue) p)
    (horigin : ∀ v ∈ visited ++ queue, ∃ m, v ∈ g.aliasesOf m ∧ g.Swept (visited ++ queue) m) :
    out.2 = g.evicted out.1 ∧ (∀ x ∈ visited ++ queue, x ∈ out.1) ∧
      (∀ v ∈ out.1, ∀ p ∈ namesAt g.dependants v, p ∈ out.1 ∨ g.Swept out.1 p) ∧
      (∀ v ∈ out.1, ∃ m, v ∈ g.aliasesOf m ∧ g.Swept out.1 m) := by
  -- the walk goes on in the graph without the visited names, all else is told of the graph as it was
  induction h with
  | done =>
    simp only [List.append_nil] at hclosed horigin
    exact ⟨hg', by simp, hclosed, horigin⟩
  | @skip id queue visited g' out seen _ ih =>
    have same : ∀ x, x ∈ visited ++ id :: queue ↔ x ∈ visited ++ queue := fun x => by
      simp only [List.mem_append, List.mem_cons]
      constructor
      · rintro (h | rfl | h)
        exacts [Or.inl h, Or.inl seen, Or.inr h]
      · rintro (h | h)
        exacts [Or.inl h, Or.inr (Or.inr h)]
    simp only [Swept, same] at hclosed horigin ⊢
    exact ih hg' hclosed horigin
  | @visit id queue visited g' out fresh _ ih =>
    subst hg'
    rw [← evicted_concat] at ih
    have grow : ∀ x ∈ visited ++ id :: queue,
        x ∈ visited ++ [id] ++ (queue ++ (g.evicted (visited ++ [id])).callersOf id) := fun x hx => by
      simp only [List.mem_append, List.mem_cons] at hx ⊢
      tauto
    -- a caller that is still recorded brings all its names in
    have brings : ∀ p ∈ namesAt (g.evicted (visited ++ [id])).dependants id,
        g.Swept (visited ++ [id] ++ (queue ++ (g.evicted (visited ++ [id])).callersOf id)) p :=
      fun p hp x hx => by
        refine List.mem_append_right _ (List.mem_append_right _ (List.mem_flatMap.2 ⟨p, hp, ?_⟩))
        rwa [evicted_aliasesOf]
    obtain ⟨hout, hsub, hcl, hor⟩ := ih rfl
      (fun v hvv p hp => by
        by_cases hpv : p ∈ visited ++ [id]
        · exact Or.inl hpv
        · refine Or.inr ?_
          rcases List.mem_append.1 hvv with hvv | hvv
          · rcases hclosed v hvv p hp with h | h
            · exact absurd (List.mem_append_left _ h) hpv
            · exact fun x hx => grow x (h x hx)
          · obtain rfl := List.mem_singleton.1 hvv
            exact brings p ((hg.mem_evicted_dependants _).2 ⟨hpv, hp⟩))
      (fun v hvv => by
        rw [← List.append_assoc, List.mem_append] at hvv
        rcases hvv with hvv | hvv
        · obtain ⟨m, hm, hsw⟩ := horigin v (by
            simp only [List.mem_append, List.mem_cons] at hvv ⊢
            tauto)
          exact ⟨m, hm, fun x hx => grow x (hsw x hx)⟩
        · obtain ⟨p, hp, hx⟩ := List.mem_flatMap.1 hvv
          exact ⟨p, by rwa [evicted_aliasesOf] at hx, brings p hp⟩)
    exact ⟨hout, fun x hx => hsub x (grow x hx), hcl, hor⟩

/-- An invalidation evicts a cascade, and nothing else. -/
theorem Consistent.invalidate_spec {g : Graph Slots} (hg : g.Consistent) (id : String) :
    g.Cascade (g.named id) (g.invalidate id).1 ∧
      (g.invalidate id).2 = g.evicted (g.invalidate id).1 := by
  obtain ⟨hout, hsub, hcl, hor⟩ := hg.walk_complete (g.walk_invalidate id) rfl (by simp)
    (fun v hv => ⟨g.named id, hv, fun x hx => hx⟩)
  exact ⟨⟨fun x hx => hsub x hx, hcl, hor⟩, hout⟩

/-- A walk stays in every set that holds its queue, and with each name all names of whoever required it. -/
theorem Walk.subset {g g' : Graph Slots} {queue visited : List String} {out : List String × Graph Slots}
    (h : Walk queue visited g' out) {inside : String → Prop}
    (hin : ∀ v, inside v → ∀ p ∈ namesAt g.dependants v, ∀ x ∈ g.aliasesOf p, inside x)
    (hg' : g' = g.evicted visited) (hq : ∀ x ∈ queue, inside x) (hv : ∀ x ∈ visited, inside x) :
    ∀ x ∈ out.1, inside x := by
  induction h with
  | done => exact hv
  | skip _ _ ih => exact ih hg' (fun x hx => hq x (List.mem_cons_of_mem _ hx)) hv
  | @visit id queue visited g' out _ _ ih =>
    subst hg'
    rw [← evicted_concat] at ih
    have hid := hq id (List.mem_cons_self ..)
    refine ih rfl (fun x hx => ?_) fun x hx => ?_
    · rcases List.mem_append.1 hx with hx | hx
      · exact hq x (List.mem_cons_of_mem _ hx)
      · obtain ⟨p, hp, hx⟩ := List.mem_flatMap.1 ((evicted_callersOf_sublist g _ id).subset hx)
        exact hin id hid p hp x hx
    · rcases List.mem_append.1 hx with hx | hx
      · exact hv x hx
      · exact List.mem_singleton.1 hx ▸ hid

theorem invalidate_subset {g : Graph Slots} (inside : String → Prop)
    (hin : ∀ v, inside v → ∀ p ∈ namesAt g.dependants v, ∀ x ∈ g.aliasesOf p, inside x) {id : String}
    (hstart : ∀ x ∈ g.aliasesOf (g.named id), inside x) : ∀ x ∈ (g.invalidate id).1, inside x :=
  (g.walk_invalidate id).subset hin rfl hstart (by simp)

/-- A walk evicts names one after the other, and does nothing else. -/
theorem Walk.exists_evicted {g : Graph Slots} {queue visited : List String} {out : List String × Graph Slots}
    (h : Walk queue visited g out) : ∃ ids, out.2 = g.evicted ids := by
  induction h with
  | done => exact ⟨[], rfl⟩
  | skip _ _ ih => exact ih
  | @visit id _ _ _ _ _ _ ih =>
    obtain ⟨ids, hids⟩ := ih
    exact ⟨id :: ids, hids⟩

theorem exists_evicted_invalidate (g : Graph Slots) (id : String) :
    ∃ ids, (g.invalidate id).2 = g.evicted ids := (g.walk_invalidate id).exists_evicted

/-- What is kept of a name is dropped by an invalidation or stays as it is. -/
theorem invalidate_cache_at? (g : Graph Slots) (id k : String) :
    (g.invalidate id).2.cache.at? k = none ∨ (g.invalidate id).2.cache.at? k = g.cache.at? k := by
  obtain ⟨ids, hids⟩ := g.exists_evicted_invalidate id
  rw [hids, evicted_cache_at?]
  split
  · exact Or.inl rfl
  · exact Or.inr rfl

theorem Consistent.invalidate {g : Graph Slots} (hg : g.Consistent) (id : String) :
    (g.invalidate id).2.Consistent := by
  rw [(hg.invalidate_spec id).2]
  exact hg.evicted _

end ScriptVault.Graph

import Mathlib.Data.List.Basic
import ScriptVault.Graph.Outline

/-!
# Tables — the tables of a graph agree with each other

A graph keeps each fact twice, once from either side.  `Consistent` says that the two sides agree:
requirements are mirrored, a name that is kept for another module stands for that module, and a module that
lost its own name stands for another one.  Every operation keeps it, so it holds after every history.
-/

namespace ScriptVault

theorem Table.at?_of_notMem {κ α : Type} [DecidableEq κ] {t : Table κ α} {key : κ} (h : key ∉ t.keys) :
    t.at? key = none := by
  induction t with
  | nil => rfl
  | cons b t ih =>
    obtain ⟨k, v⟩ := b
    simp only [keys, List.map_cons, List.mem_cons, not_or] at h
    rw [at?_cons, if_neg (Ne.symm h.1)]
    exact ih h.2

theorem Table.mem_values_of_at? {κ α : Type} [DecidableEq κ] {t : Table κ α} {key : κ} {v : α}
    (h : t.at? key = some v) : v ∈ t.map Prod.snd := by
  induction t with
  | nil => simp at h
  | cons b t ih =>
    obtain ⟨k, w⟩ := b
    rw [at?_cons] at h
    split at h
    · simp [Option.some.inj h]
    · exact List.mem_cons_of_mem _ (ih h)

/-! ### Tables of names -/

namespace Graph

variable {Slots : Type}

theorem mem_flatMap_of_mem_namesAt {t : Table String Names} {k x : String} (hx : x ∈ namesAt t k) :
    x ∈ t.flatMap (·.2) := by
  induction t with
  | nil => simp [namesAt] at hx
  | cons b t ih =>
    obtain ⟨j, v⟩ := b
    rw [List.flatMap_cons, List.mem_append]
    by_cases hj : j = k
    · exact Or.inl (by simpa [namesAt, Table.at?_cons, hj] using hx)
    · exact Or.inr (ih (by simpa [namesAt, Table.at?_cons, hj] using hx))

theorem mem_namesAt_addName {t : Table String Names} {key name k x : String} :
    x ∈ namesAt (addName t key name) k ↔ (k = key ∧ x = name) ∨ x ∈ namesAt t k := by
  by_cases hk : k = key
  · subst hk
    simp [addName, namesAt, Names.mem_insert]
  · simp [addName, namesAt, Table.at?_put_ne (Ne.symm hk), hk]

theorem at?_dropName {t : Table String Names} {key name k : String} :
    (dropName t key name).at? k = (t.at? k).map fun names => if k = key then names.erase name else names := by
  unfold dropName
  cases ht : t.at? key with
  | none =>
    by_cases hk : k = key
    · subst hk; simp [ht]
    · simp [hk]
  | some names =>
    by_cases hk : k = key
    · subst hk; simp [ht]
    · simp [Table.at?_put_ne (Ne.symm hk), hk]

theorem mem_namesAt_dropName {t : Table String Names} {key name k x : String} :
    x ∈ namesAt (dropName t key name) k ↔ x ∈ namesAt t k ∧ ¬(k = key ∧ x = name) := by
  simp only [namesAt, at?_dropName]
  cases t.at? k with
  | none => simp
  | some names =>
    by_cases hk : k = key
    · simp [hk, Names.mem_erase]
    · simp [hk]

theorem mem_namesAt_foldl_dropName (keys : List String) (t : Table String Names) {name k x : String} :
    x ∈ namesAt (keys.foldl (fun t key => dropName t key name) t) k ↔
      x ∈ namesAt t k ∧ ¬(k ∈ keys ∧ x = name) := by
  induction keys generalizing t with
  | nil => simp
  | cons key keys ih =>
    rw [List.foldl_cons, ih, mem_namesAt_dropName, List.mem_cons]
    tauto

theorem namesAt_dropName_sublist (t : Table String Names) (key name k : String) :
    (namesAt (dropName t key name) k).Sublist (namesAt t k) := by
  simp only [namesAt, at?_dropName]
  cases t.at? k with
  | none => simp
  | some names =>
    by_cases hk : k = key
    · simp [hk, Names.erase]
    · simp [hk]

/-! ### Eviction -/

@[simp] theorem evict_cache (g : Graph Slots) (id : String) : (g.evict id).cache = g.cache.erase id := by
  unfold evict; split <;> rfl

@[simp] theorem evict_aliased (g : Graph Slots) (id : String) : (g.evict id).aliased = g.aliased := by
  unfold evict; split <;> rfl

@[simp] theorem evict_aliases (g : Graph Slots) (id : String) : (g.evict id).aliases = g.aliases := by
  unfold evict; split <;> rfl

@[simp] theorem evict_aliasesOf (g : Graph Slots) (id k : String) :
    (g.evict id).aliasesOf k = g.aliasesOf k := by
  simp [aliasesOf]

theorem mem_evict_dependencies {g : Graph Slots} {id p d : String} :
    d ∈ namesAt (g.evict id).dependencies p ↔ p ≠ id ∧ d ∈ namesAt g.dependencies p := by
  unfold evict
  split
  · next h =>
    by_cases hp : p = id
    · subst hp; simp [namesAt, h]
    · simp [hp]
  · next h =>
    by_cases hp : p = id
    · subst hp; simp [namesAt]
    · simp [namesAt, Table.at?_put_ne (Ne.symm hp), hp]

theorem mem_evict_dependants {g : Graph Slots} {id p d : String} :
    p ∈ namesAt (g.evict id).dependants d ↔
      p ∈ namesAt g.dependants d ∧ ¬(d ∈ namesAt g.dependencies id ∧ p = id) := by
  unfold evict
  split
  · next h => simp [namesAt, h]
  · next specifiers h => rw [mem_namesAt_foldl_dropName]; simp [namesAt, h]

theorem evict_dependants_sublist (g : Graph Slots) (id k : String) :
    (namesAt (g.evict id).dependants k).Sublist (namesAt g.dependants k) := by
  unfold evict
  split
  · exact List.Sublist.refl _
  · next specifiers h =>
    show (namesAt (specifiers.foldl _ _) k).Sublist _
    generalize g.dependants = t
    clear h
    induction specifiers generalizing t with
    | nil => exact List.Sublist.refl _
    | cons s rest ih => exact List.Sublist.trans (ih (dropName t s id)) (namesAt_dropName_sublist t s id k)

/-! ### Consistent graphs -/

/-- The two sides of each table agree. -/
structure Consistent (g : Graph Slots) : Prop where
  /-- Who required a specifier is recorded with both. -/
  mirrored : ∀ p d, p ∈ namesAt g.dependants d ↔ d ∈ namesAt g.dependencies p
  /-- A name that is kept for another module stands for it. -/
  foreign : ∀ raw c, raw ∈ namesAt g.aliases c → raw ≠ c → g.aliased.at? raw = some c
  /-- The module that a name stands for keeps the name. -/
  kept : ∀ raw c, g.aliased.at? raw = some c → raw ∈ namesAt g.aliases c
  /-- A module that lost its own name stands for another one. -/
  own : ∀ c names, g.aliases.at? c = some names → c ∉ names → ∃ d, d ≠ c ∧ g.aliased.at? c = some d

theorem Consistent.empty : Consistent ({} : Graph Slots) := by
  constructor <;> simp [namesAt]

theorem Consistent.depend {g : Graph Slots} (hg : g.Consistent) (parent specifier : String) :
    (g.depend parent specifier).Consistent where
  mirrored p d := by
    simp only [Graph.depend, mem_namesAt_addName, hg.mirrored p d]
    tauto
  foreign := hg.foreign
  kept := hg.kept
  own := hg.own

theorem Consistent.evict {g : Graph Slots} (hg : g.Consistent) (id : String) :
    (g.evict id).Consistent where
  mirrored p d := by
    rw [mem_evict_dependants, mem_evict_dependencies, hg.mirrored p d]
    constructor
    · rintro ⟨hd, hn⟩
      exact ⟨fun hp => hn ⟨hp ▸ hd, hp⟩, hd⟩
    · rintro ⟨hp, hd⟩
      exact ⟨hd, fun hn => hp hn.2⟩
  foreign := by simpa using hg.foreign
  kept := by simpa using hg.kept
  own := by simpa using hg.own

/-- Only the alias tables change when a specifier is let stand for a module. -/
theorem assign_frame (g : Graph Slots) (raw c : String) :
    (g.assign raw c).2.cache = g.cache ∧ (g.assign raw c).2.dependencies = g.dependencies ∧
      (g.assign raw c).2.dependants = g.dependants := by
  unfold assign
  cases g.aliased.at? raw with
  | none => exact ⟨rfl, rfl, rfl⟩
  | some previous => dsimp only; split <;> exact ⟨rfl, rfl, rfl⟩

@[simp] theorem assign_aliased (g : Graph Slots) (raw c : String) :
    (g.assign raw c).2.aliased = g.aliased.put raw c := by
  unfold assign
  cases g.aliased.at? raw with
  | none => rfl
  | some previous => dsimp only; split <;> rfl

/-- The names of a module after a specifier was let stand for a module: that one gets the name, and the one it
stood for before loses it. -/
theorem assign_aliases_at? (g : Graph Slots) (raw c k : String) :
    (g.assign raw c).2.aliases.at? k =
      if k = c then some (((g.aliases.at? c).getD [c]).insert raw)
      else if g.aliased.at? raw = some k then (g.aliases.at? k).map (Names.erase · raw)
      else g.aliases.at? k := by
  have put_ne (hk : k ≠ c) (names : Names) : (g.aliases.put c names).at? k = g.aliases.at? k :=
    Table.at?_put_ne (Ne.symm hk) _ _
  unfold assign
  cases hr : g.aliased.at? raw with
  | none =>
    by_cases hk : k = c
    · subst hk; simp
    · simp [hk, put_ne hk]
  | some previous =>
    dsimp only
    by_cases hp : previous = c
    · subst hp
      by_cases hk : k = previous
      · subst hk; simp
      · simp [hk, Ne.symm hk, put_ne hk]
    · rw [if_neg hp, at?_dropName]
      by_cases hk : k = c
      · subst hk; simp [Ne.symm hp]
      · rw [put_ne hk, if_neg hk]
        by_cases hkp : k = previous
        · subst hkp; simp
        · simp [hkp, Ne.symm hkp]

theorem mem_assign_aliases {g : Graph Slots} {raw c k x : String} :
    x ∈ namesAt (g.assign raw c).2.aliases k ↔
      (k = c ∧ (x = raw ∨ x ∈ (g.aliases.at? c).getD [c])) ∨
        (k ≠ c ∧ x ∈ namesAt g.aliases k ∧ ¬(g.aliased.at? raw = some k ∧ x = raw)) := by
  rw [namesAt, assign_aliases_at?]
  by_cases hk : k = c
  · simp [hk, Names.mem_insert]
  · by_cases hr : g.aliased.at? raw = some k
    · cases ha : g.aliases.at? k with
      | none => simp [hk, hr, namesAt, ha]
      | some names => simp [hk, hr, namesAt, ha, Names.mem_erase]
    · simp [hk, hr, namesAt]

theorem Consistent.assign {g : Graph Slots} (hg : g.Consistent) (raw c : String) :
    (g.assign raw c).2.Consistent where
  mirrored := by
    obtain ⟨-, hd, hn⟩ := assign_frame g raw c
    rw [hd, hn]
    exact hg.mirrored
  foreign x k hx hne := by
    rw [assign_aliased]
    rcases mem_assign_aliases.1 hx with ⟨rfl, hx⟩ | ⟨hk, hx, hr⟩
    · by_cases hxr : x = raw
      · subst hxr; simp
      · rw [Table.at?_put_ne (Ne.symm hxr)]
        cases ha : g.aliases.at? k with
        | none => rw [ha] at hx; exact absurd hx (by simpa [hxr] using hne)
        | some names =>
          rw [ha] at hx
          exact hg.foreign x k (by simpa [namesAt, ha, hxr] using hx) hne
    · have hold := hg.foreign x k hx hne
      by_cases hxr : x = raw
      · exact absurd ⟨hxr ▸ hold, hxr⟩ hr
      · rw [Table.at?_put_ne (Ne.symm hxr), hold]
  kept x k hx := by
    rw [assign_aliased] at hx
    by_cases hxr : x = raw
    · subst hxr
      obtain rfl : c = k := by simpa using hx
      exact mem_assign_aliases.2 (Or.inl ⟨rfl, Or.inl rfl⟩)
    · rw [Table.at?_put_ne (Ne.symm hxr)] at hx
      have hold := hg.kept x k hx
      by_cases hk : k = c
      · subst hk
        refine mem_assign_aliases.2 (Or.inl ⟨rfl, Or.inr ?_⟩)
        cases ha : g.aliases.at? k with
        | none => simp [namesAt, ha] at hold
        | some names => simpa [namesAt, ha] using hold
      · exact mem_assign_aliases.2 (Or.inr ⟨hk, hold, fun h => hxr h.2⟩)
  own k names hnames hk := by
    rw [assign_aliased]
    rw [assign_aliases_at?] at hnames
    by_cases hkr : k = raw
    · subst hkr
      by_cases hkc : k = c
      · subst hkc
        rw [if_pos rfl] at hnames
        obtain rfl := Option.some.inj hnames
        exact absurd (Names.mem_insert.2 (Or.inl rfl)) hk
      · exact ⟨c, Ne.symm hkc, by simp⟩
    · rw [Table.at?_put_ne (Ne.symm hkr)]
      by_cases hkc : k = c
      · subst hkc
        rw [if_pos rfl] at hnames
        obtain rfl := Option.some.inj hnames
        have hk : k ∉ (g.aliases.at? k).getD [k] := fun h => hk (Names.mem_insert.2 (Or.inr h))
        cases ha : g.aliases.at? k with
        | none => simp [ha] at hk
        | some old => exact hg.own k old ha (by simpa [ha] using hk)
      · rw [if_neg hkc] at hnames
        split at hnames
        · obtain ⟨old, ha, rfl⟩ := Option.map_eq_some_iff.1 hnames
          exact hg.own k old ha fun h => hk (Names.mem_erase.2 ⟨h, hkr⟩)
        · exact hg.own k names hnames hk

/-- A specifier is among the names of the module that it stands for. -/
theorem Consistent.mem_aliasesOf_named {g : Graph Slots} (hg : g.Consistent) (s : String) :
    s ∈ g.aliasesOf (g.named s) := by
  unfold aliasesOf named
  cases hs : g.aliased.at? s with
  | some c =>
    have := hg.kept s c hs
    cases ha : g.aliases.at? c with
    | none => simp [namesAt, ha] at this
    | some names => simpa [namesAt, ha] using this
  | none =>
    cases ha : g.aliases.at? s with
    | none => simp [ha]
    | some names =>
      by_contra hn
      obtain ⟨d, -, hd⟩ := hg.own s names ha (by simpa [ha] using hn)
      simp [hs] at hd

/-- A name of a module that is not its own stands for it. -/
theorem Consistent.named_of_mem_aliasesOf {g : Graph Slots} (hg : g.Consistent) {s c : String}
    (hs : s ∈ g.aliasesOf c) (hne : s ≠ c) : g.named s = c := by
  unfold aliasesOf at hs
  cases ha : g.aliases.at? c with
  | none => rw [ha] at hs; exact absurd (by simpa using hs) hne
  | some names =>
    rw [ha] at hs
    simp [named, hg.foreign s c (by simpa [namesAt, ha] using hs) hne]

end Graph

end ScriptVault

import ScriptVault.Proofs.Graph.Walk

/-!
# History — what a graph can come to

A graph starts empty and is changed by one operation after the other, in any order.  What holds after every
history is proved from what each operation keeps.
-/

namespace ScriptVault.Graph

variable {Slots : Type}

/-- An operation on a graph. -/
inductive Step (Slots : Type) where
  /-- A module requires a specifier. -/
  | depend (parent specifier : String)
  /-- A specifier is let stand for a module. -/
  | assign (raw canonical : String)
  /-- Something is kept for a module. -/
  | keep (id : String) (slots : Slots)
  /-- What is kept for a module is dropped, and nothing else. -/
  | drop (id : String)
  /-- A module is evicted with all that was built on it. -/
  | invalidate (id : String)
  /-- Everything is forgotten. -/
  | clear

/-- The graph after an operation. -/
def step (g : Graph Slots) : Step Slots → Graph Slots
  | .depend parent specifier => g.depend parent specifier
  | .assign raw canonical => (g.assign raw canonical).2
  | .keep id slots => { g with cache := g.cache.put id slots }
  | .drop id => { g with cache := g.cache.erase id }
  | .invalidate id => (g.invalidate id).2
  | .clear => g.clear.2

/-- The graph after a history. -/
def run (steps : List (Step Slots)) : Graph Slots := steps.foldl step {}

theorem run_concat (steps : List (Step Slots)) (s : Step Slots) :
    run (steps ++ [s]) = (run steps).step s := by
  simp [run]

theorem Consistent.step {g : Graph Slots} (hg : g.Consistent) (s : Step Slots) : (g.step s).Consistent := by
  cases s with
  | depend parent specifier => exact hg.depend parent specifier
  | assign raw canonical => exact hg.assign raw canonical
  | keep id slots => exact ⟨hg.mirrored, hg.foreign, hg.kept, hg.own⟩
  | drop id => exact ⟨hg.mirrored, hg.foreign, hg.kept, hg.own⟩
  | invalidate id => exact hg.invalidate id
  | clear => exact Consistent.empty

/-- After every history the tables of a graph agree. -/
theorem consistent_run (steps : List (Step Slots)) : (run steps).Consistent := by
  induction steps using List.reverseRecOn with
  | nil => exact Consistent.empty
  | append_singleton steps s ih => rw [run_concat]; exact ih.step s

/-- After every history who required what is recorded on both sides, and a name is kept for another module
exactly if it stands for that module, so for no other one. -/
theorem tables_inverse (steps : List (Step Slots)) :
    (∀ p d, p ∈ namesAt (run steps).dependants d ↔ d ∈ namesAt (run steps).dependencies p) ∧
      (∀ raw c, raw ≠ c →
        (raw ∈ namesAt (run steps).aliases c ↔ (run steps).aliased.at? raw = some c)) ∧
      ∀ raw c c', raw ≠ c → raw ≠ c' → raw ∈ namesAt (run steps).aliases c →
        raw ∈ namesAt (run steps).aliases c' → c = c' := by
  have hg := consistent_run steps
  refine ⟨hg.mirrored, fun raw c hne => ⟨fun h => hg.foreign raw c h hne, hg.kept raw c⟩, ?_⟩
  intro raw c c' hne hne' h h'
  have hc : some c = some c' := (hg.foreign raw c h hne).symm.trans (hg.foreign raw c' h' hne')
  exact Option.some.inj hc

/-- Two modules require each other, one of them also itself; a specifier of theirs is repointed and invalidated. -/
def repointed : List (Step Unit) :=
  [.depend "a" "./b", .assign "./b" "b", .keep "b" (), .depend "b" "a", .depend "a" "a", .assign "a" "a",
    .assign "./b" "lib/b", .invalidate "./b", .keep "lib/b" (), .depend "lib/b" "./b", .drop "lib/b"]

theorem tables_inverse_repointed :
    "./b" ∈ namesAt (run repointed).aliases "lib/b" ∧ (run repointed).aliased.at? "./b" = some "lib/b" ∧
      "./b" ∉ namesAt (run repointed).aliases "b" := by
  obtain ⟨-, hnames, hone⟩ := tables_inverse repointed
  have hkept : "./b" ∈ namesAt (run repointed).aliases "lib/b" :=
    (hnames "./b" "lib/b" (by decide)).2 (by decide +kernel)
  refine ⟨hkept, (hnames "./b" "lib/b" (by decide)).1 hkept, fun hold => ?_⟩
  have : "lib/b" = "b" := hone "./b" "lib/b" "b" (by decide) (by decide) hkept hold
  revert this
  decide

/-! ### The same names with nothing built -/

/-- The names of a graph, without modules and requirements. -/
def bare (g : Graph Slots) : Graph Slots := { aliased := g.aliased, aliases := g.aliases }

theorem bare_assign (g : Graph Slots) (raw canonical : String) :
    (g.assign raw canonical).2.bare = (g.bare.assign raw canonical).2 := by
  unfold assign
  simp only [bare]
  cases g.aliased.at? raw with
  | none => rfl
  | some previous => dsimp only; split <;> rfl

/-- What names can come to, they can come to with nothing built. -/
theorem exists_run_eq_bare (steps : List (Step Slots)) : ∃ before, run before = (run steps).bare := by
  induction steps using List.reverseRecOn with
  | nil => exact ⟨[], rfl⟩
  | append_singleton steps s ih =>
    obtain ⟨before, hbefore⟩ := ih
    rw [run_concat]
    cases s with
    | depend parent specifier => exact ⟨before, hbefore⟩
    | assign raw canonical =>
      refine ⟨before ++ [.assign raw canonical], ?_⟩
      rw [run_concat, hbefore]
      exact (bare_assign _ raw canonical).symm
    | keep id slots => exact ⟨before, hbefore⟩
    | drop id => exact ⟨before, hbefore⟩
    | invalidate id =>
      refine ⟨before, ?_⟩
      rw [hbefore, step, ((consistent_run steps).invalidate_spec id).2]
      simp only [bare, evicted_aliased, evicted_aliases]
    | clear => exact ⟨[], rfl⟩

end ScriptVault.Graph

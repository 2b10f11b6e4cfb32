import Mathlib.Data.Fintype.EquivFin
import Mathlib.Logic.Relation
import ScriptVault.Proofs.Graph.History

/-!
# Cascade — an invalidation reaches all that was built on a module

A module is built on those that its specifiers stand for.  An invalidation walks names, not modules, and
takes the id of whoever required a name for visited once that id was evicted as a name of another module.
So it reaches everything that was built on a module exactly as long as modules are whole: each is among its
own names, and one whose id stands for another module shares no further name with that one.
-/

namespace ScriptVault.Graph

variable {Slots : Type}

/-- A module requires a specifier that stands for another one. -/
def BuiltOn (g : Graph Slots) (p d : String) : Prop := d ∈ g.required p

/-- The modules that were built on a module, over any number of others; the module itself among them. -/
def BuiltUpon (g : Graph Slots) : String → String → Prop := Relation.ReflTransGen g.BuiltOn

/-- To invalidate a module leaves nothing in the cache that was built on it. -/
def CascadeComplete (g : Graph Slots) (c : String) : Prop :=
  ∀ p, g.BuiltUpon p c → (g.invalidate c).2.cache.at? p = none

/-- A module has its own name, and whatever its id stands for has all of its names. -/
def Whole (g : Graph Slots) (m : String) : Prop :=
  m ∈ g.aliasesOf m ∧ ∀ x ∈ g.aliasesOf m, x ∈ g.aliasesOf (g.named m)

/-- Two graphs name the same modules by the same specifiers. -/
def SameNames (g g' : Graph Slots) : Prop := g.aliased = g'.aliased ∧ g.aliases = g'.aliases

/-- All modules are whole where the id of whatever has names stands for that module. -/
theorem Consistent.whole_of_named {g : Graph Slots} (hg : g.Consistent)
    (h : ∀ m names, g.aliases.at? m = some names → g.named m = m) (m : String) : g.Whole m := by
  have hm := hg.mem_aliasesOf_named m
  cases ha : g.aliases.at? m with
  | some names =>
    rw [Whole, h m names ha]
    rw [h m names ha] at hm
    exact ⟨hm, fun _ hx => hx⟩
  | none =>
    have halone : g.aliasesOf m = [m] := by simp [Graph.aliasesOf, ha]
    simpa [Whole, halone] using hm

theorem SameNames.named {g g' : Graph Slots} (h : SameNames g g') (s : String) :
    g.named s = g'.named s := by
  simp [Graph.named, h.1]

theorem SameNames.aliasesOf {g g' : Graph Slots} (h : SameNames g g') (m : String) :
    g.aliasesOf m = g'.aliasesOf m := by
  simp [Graph.aliasesOf, h.2]

theorem SameNames.whole {g g' : Graph Slots} (h : SameNames g g') (m : String) :
    g.Whole m ↔ g'.Whole m := by
  simp only [Whole, h.named, h.aliasesOf]

/-! ### Whole modules are reached -/

/-- With a name of a module all its names are in a cascade, as far as it is whole. -/
theorem Cascade.swept_of_mem {g : Graph Slots} (hg : g.Consistent) {c : String} {ids : List String}
    (h : g.Cascade c ids) {p : String} (hw : g.Whole p) (hp : p ∈ ids) : g.Swept ids p := by
  obtain ⟨m, hm, hsw⟩ := h.origin p hp
  by_cases hpm : p = m
  · rwa [hpm]
  · -- the id was evicted as a name of `m`, so it stands for `m`
    have hnamed := hg.named_of_mem_aliasesOf hm hpm
    exact fun x hx => hsw x (hnamed ▸ hw.2 x hx)

/-- All names of whatever was built on a module are in its cascade, as far as those modules are whole. -/
theorem Cascade.swept_of_builtUpon {g : Graph Slots} (hg : g.Consistent) {c : String} {ids : List String}
    (h : g.Cascade (g.named c) ids) (hw : ∀ m, g.BuiltUpon m c → g.Whole m) {p : String}
    (hp : g.BuiltUpon p c) : g.Swept ids p := by
  induction hp using Relation.ReflTransGen.head_induction_on with
  | refl => exact fun x hx => h.start x ((hw c Relation.ReflTransGen.refl).2 x hx)
  | head hpd hdc ih =>
    rename_i p d
    obtain ⟨s, hs, rfl⟩ := List.mem_map.1 hpd
    have hmem : s ∈ ids := ih s (hg.mem_aliasesOf_named s)
    rcases h.closed s hmem p ((hg.mirrored p s).2 hs) with hp | hp
    · exact h.swept_of_mem hg (hw p (Relation.ReflTransGen.head hpd hdc)) hp
    · exact hp

theorem Consistent.cascadeComplete {g : Graph Slots} (hg : g.Consistent) {c : String}
    (hw : ∀ m, g.BuiltUpon m c → g.Whole m) : g.CascadeComplete c := by
  intro p hp
  obtain ⟨hcascade, hgraph⟩ := hg.invalidate_spec c
  have hswept := hcascade.swept_of_builtUpon hg hw hp
  rw [hgraph, evicted_cache_at?, if_pos (hswept p (hw p hp).1)]

/-! ### Modules that are not whole are missed -/

/-- A graph of nothing but names in which one module is kept that required one specifier. -/
def withOne (g : Graph Slots) (p s : String) (slots : Slots) : Graph Slots :=
  (g.bare.depend p s).step (.keep p slots)

theorem mem_withOne_dependants {g : Graph Slots} {p s v q : String} {slots : Slots} :
    q ∈ namesAt (g.withOne p s slots).dependants v ↔ v = s ∧ q = p := by
  show q ∈ namesAt (addName [] s p) v ↔ _
  rw [mem_namesAt_addName]
  simp [namesAt]

theorem withOne_builtOn (g : Graph Slots) (p s : String) (slots : Slots) :
    (g.withOne p s slots).BuiltOn p (g.named s) := by
  refine List.mem_map.2 ⟨s, ?_, rfl⟩
  show s ∈ namesAt (addName [] p s) p
  simp [mem_namesAt_addName]

/-- The one module outlives an invalidation whose cascade stays in a set without it. -/
theorem withOne_survives {g : Graph Slots} {p s c : String} {slots : Slots}
    (hg : (g.withOne p s slots).Consistent) (inside : String → Prop)
    (hstart : ∀ x ∈ g.aliasesOf (g.named c), inside x) (hs : inside s → ∀ x ∈ g.aliasesOf p, inside x)
    (hp : ¬inside p) : ((g.withOne p s slots).invalidate c).2.cache.at? p = some slots := by
  have hsub : ∀ x ∈ ((g.withOne p s slots).invalidate c).1, inside x := by
    refine invalidate_subset inside (fun v hv q hq => ?_) hstart
    obtain ⟨rfl, rfl⟩ := mem_withOne_dependants.1 hq
    exact hs hv
  rw [(hg.invalidate_spec c).2, evicted_cache_at?, if_neg fun h => hp (hsub p h)]
  exact Table.at?_put_same _ p slots

theorem Consistent.withOne {g : Graph Slots} (hg : g.Consistent) (p s : String) (slots : Slots) :
    (g.withOne p s slots).Consistent := by
  have bare : g.bare.Consistent := ⟨by simp [Graph.bare, namesAt], hg.foreign, hg.kept, hg.own⟩
  exact (bare.depend p s).step _

/-- There is always an id of which nothing is known. -/
theorem exists_fresh (g : Graph Slots) (m : String) :
    ∃ p, p ≠ m ∧ g.aliasesOf p = [p] ∧ g.named p = p ∧ (∀ s, g.named s = p → s = p) ∧
      ∀ c, p ∈ g.aliasesOf c → c = p := by
  obtain ⟨p, hp⟩ := Infinite.exists_notMem_finset
    (m :: g.aliased.keys ++ g.aliased.map Prod.snd ++ g.aliases.keys ++ g.aliases.flatMap (·.2)).toFinset
  simp only [List.mem_toFinset, List.cons_append, List.mem_cons, List.mem_append, not_or] at hp
  obtain ⟨hm, ⟨⟨hkeys, hvalues⟩, hids⟩, hnames⟩ := hp
  refine ⟨p, hm, ?_, ?_, fun s hs => ?_, fun c hc => ?_⟩
  · simp [aliasesOf, Table.at?_of_notMem hids]
  · simp [named, Table.at?_of_notMem hkeys]
  · unfold named at hs
    cases ha : g.aliased.at? s with
    | none => simpa [ha] using hs
    | some c => exact absurd (Table.mem_values_of_at? ha) (by rwa [show c = p by simpa [ha] using hs])
  · unfold aliasesOf at hc
    cases ha : g.aliases.at? c with
    | none => exact (by simpa [ha] using hc : p = c).symm
    | some names => exact absurd (mem_flatMap_of_mem_namesAt (k := c) (by simpa [namesAt, ha] using hc)) hnames

/-- A module that is not whole is missed by a cascade as soon as it, or some module that requires one of its
names, is all that is built. -/
theorem Consistent.whole_of_cascadeComplete {g : Graph Slots} (hg : g.Consistent) (slots : Slots)
    (h : ∀ p s c, (g.withOne p s slots).CascadeComplete c) (m : String) : g.Whole m := by
  obtain ⟨fresh, hne, halone, hitself, htarget, hname⟩ := g.exists_fresh m
  constructor
  · by_contra hm
    have survives := withOne_survives (c := fresh) (hg.withOne m fresh slots)
      (fun x => x = fresh ∨ x ∈ g.aliasesOf m) (by simp [hitself, halone])
      (fun _ x hx => Or.inr hx) (by simp [hne.symm, hm])
    have built := g.withOne_builtOn m fresh slots
    rw [hitself] at built
    rw [h m fresh fresh m (Relation.ReflTransGen.single built)] at survives
    exact nomatch survives
  · intro x hx
    by_contra hn
    have hxm : x ≠ m := by
      rintro rfl
      exact hn (hg.mem_aliasesOf_named x)
    have survives := withOne_survives (c := m) (hg.withOne fresh x slots)
      (· ∈ g.aliasesOf (g.named m)) (fun _ hx => hx) (fun hin => absurd hin hn)
      (fun hin => hne (htarget m (hname _ hin)).symm)
    have built := g.withOne_builtOn fresh x slots
    rw [hg.named_of_mem_aliasesOf hx hxm] at built
    rw [h fresh x m fresh (Relation.ReflTransGen.single built)] at survives
    exact nomatch survives

/-- To invalidate a module leaves nothing that was built on it if all modules that were built on it are whole;
and whatever is built under given names, no invalidation ever leaves anything exactly if all modules are
whole under these names. -/
theorem invalidate_complete_iff_whole [Inhabited Slots] (steps : List (Step Slots)) :
    (∀ c, (∀ m, (run steps).BuiltUpon m c → (run steps).Whole m) → (run steps).CascadeComplete c) ∧
      ((∀ others : List (Step Slots), SameNames (run others) (run steps) →
          ∀ c, (run others).CascadeComplete c) ↔
        ∀ m, (run steps).Whole m) := by
  have hg := consistent_run steps
  refine ⟨fun c hw => hg.cascadeComplete hw, fun h => ?_, fun hw others hsame c => ?_⟩
  · refine hg.whole_of_cascadeComplete default fun p s => ?_
    obtain ⟨before, hbefore⟩ := exists_run_eq_bare steps
    have hrun : run (before ++ [.depend p s] ++ [.keep p default]) = (run steps).withOne p s default := by
      rw [run_concat, run_concat, hbefore]
      rfl
    rw [← hrun]
    refine h _ ?_
    rw [hrun]
    exact ⟨rfl, rfl⟩
  · exact (consistent_run others).cascadeComplete fun m _ => (hsame.whole m).2 (hw m)

/-- A module that was required under a second name goes with the one below it. -/
theorem invalidate_complete_below_second_name :
    (run [.assign "./y" "y", .keep "y" (), .depend "x" "./y", .assign "./x" "x", .keep "x" ()]).CascadeComplete
      "y" := by
  refine (invalidate_complete_iff_whole _).1 "y" fun m _ =>
    (consistent_run _).whole_of_named (fun k names hk => ?_) m
  by_cases hy : k = "y"
  · subst hy; rfl
  · by_cases hx : k = "x"
    · subst hx; rfl
    · change Table.at? [("y", ["./y", "y"]), ("x", ["./x", "x"])] k = some names at hk
      simp [Table.at?_cons, Ne.symm hy, Ne.symm hx] at hk

/-- A module is loaded under its own name, which then comes to stand for another module; when it is loaded
again under a second name, its id is not among its names any more. -/
def ownNameLost : List (Step Unit) :=
  [.assign "x" "x", .keep "x" (), .depend "x" "./w", .assign "./w" "w", .keep "w" (), .depend "w" "./y",
    .assign "./y" "y", .keep "y" (), .assign "x" "lib/x", .invalidate "x", .keep "lib/x" (),
    .assign "./x" "x", .keep "x" (), .depend "x" "./w", .assign "./w" "w"]

/-- Such a module stays in the cache when a module far below it is invalidated. -/
theorem cascade_misses_lost_name :
    (run ownNameLost).BuiltUpon "x" "y" ∧ ¬(run ownNameLost).CascadeComplete "y" := by
  have built : (run ownNameLost).BuiltUpon "x" "y" :=
    Relation.ReflTransGen.head (b := "w") (by decide +kernel : "w" ∈ (run ownNameLost).required "x")
      (Relation.ReflTransGen.single (by decide +kernel : "y" ∈ (run ownNameLost).required "w"))
  refine ⟨built, fun h => ?_⟩
  have kept : ((run ownNameLost).invalidate "y").2.cache.at? "x" = some () := by decide +kernel
  rw [h "x" built] at kept
  exact nomatch kept

end ScriptVault.Graph

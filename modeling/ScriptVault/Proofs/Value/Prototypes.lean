import Mathlib.Data.List.Nodup
import Mathlib.Data.List.Perm.Subperm
import ScriptVault.Proofs.Value.Deeds

/-!
# Prototypes — every line of prototypes ends

No object inherits from itself, however far: an object is made after the one that it inherits from, and a
change of prototype looks along the whole line first.  So a loop that goes from object to prototype ends by
itself, wherever it starts, and the bound that `chain` puts on it is never met.
-/

namespace ScriptVault.Heap

open Relation (ReflTransGen TransGen)

/-- An object inherits from another, as the next. -/
def Inherits (h : Heap) (o p : Nat) : Prop := (h.record o).prototype = some p

/-- The prototypes are there, and no object inherits from itself. -/
structure Rooted (h : Heap) : Prop where
  known : ∀ o p, h.Inherits o p → p < h.records.size
  acyclic : ∀ o, ¬ TransGen h.Inherits o o

/-! ### One prototype changes -/

section Redirect

variable {h h' : Heap} {o : Nat}

/-- A line that comes to an object is left as it was when only that object gets another prototype. -/
theorem reaches_redirected (hrest : ∀ q, q ≠ o → (h'.record q).prototype = (h.record q).prototype) {q : Nat}
    (hline : ReflTransGen h'.Inherits q o) : ReflTransGen h.Inherits q o := by
  induction hline using ReflTransGen.head_induction_on with
  | refl => exact .refl
  | @head q p hnext _ ih =>
    by_cases hq : q = o
    · rw [hq]
    · exact .head ((hrest q hq).symm.trans hnext) ih

/-- A line either is one as before, or goes over the prototype that was changed. -/
theorem line_redirected (hrest : ∀ q, q ≠ o → (h'.record q).prototype = (h.record q).prototype) {q r : Nat}
    (hline : TransGen h'.Inherits q r) :
    TransGen h.Inherits q r ∨
      ReflTransGen h'.Inherits q o ∧ ∃ p, h'.Inherits o p ∧ ReflTransGen h'.Inherits p r := by
  induction hline with
  | @single r hnext =>
    by_cases hq : q = o
    · subst hq
      exact .inr ⟨.refl, r, hnext, .refl⟩
    · exact .inl (.single ((hrest q hq).symm.trans hnext))
  | @tail r s hqr hnext ih =>
    obtain hbefore | ⟨hto, p, hp, hfrom⟩ := ih
    · by_cases hr : r = o
      · subst hr
        exact .inr ⟨hqr.to_reflTransGen, s, hnext, .refl⟩
      · exact .inl (hbefore.tail ((hrest r hr).symm.trans hnext))
    · exact .inr ⟨hto, p, hp, hfrom.tail hnext⟩

/-- An object may inherit from one that does not inherit from it. -/
theorem Rooted.redirect (hr : Rooted h) (hsize : h.records.size ≤ h'.records.size)
    (hrest : ∀ q, q ≠ o → (h'.record q).prototype = (h.record q).prototype)
    (hnew : ∀ p, h'.Inherits o p → p < h.records.size ∧ ¬ ReflTransGen h.Inherits p o) : Rooted h' where
  known q p hp := by
    by_cases hq : q = o
    · exact Nat.lt_of_lt_of_le (hnew p (hq ▸ hp)).1 hsize
    · exact Nat.lt_of_lt_of_le (hr.known q p ((hrest q hq).symm.trans hp)) hsize
  acyclic q hcycle := by
    obtain hbefore | ⟨hto, p, hp, hfrom⟩ := line_redirected hrest hcycle
    · exact hr.acyclic q hbefore
    · exact (hnew p hp).2 (reaches_redirected hrest (hfrom.trans hto))

end Redirect

variable {h : Heap}

theorem inherits_lt {o p : Nat} (hp : h.Inherits o p) : o < h.records.size := by
  by_contra ho
  simp [Inherits, record, ho] at hp

theorem Rooted.reaches_lt (hr : Rooted h) {o p : Nat} (ho : o < h.records.size)
    (hline : ReflTransGen h.Inherits o p) : p < h.records.size := by
  induction hline with
  | refl => exact ho
  | tail _ hnext _ => exact hr.known _ _ hnext

/-! ### The whole line -/

/-- A line of objects, each the prototype of the one before, up to one that inherits from none. -/
inductive Line (h : Heap) : Nat → List Nat → Prop
  | last {o : Nat} : (h.record o).prototype = none → Line h o [o]
  | next {o p : Nat} {line : List Nat} : h.Inherits o p → Line h p line → Line h o (o :: line)

theorem reaches_of_mem_chainUpTo {fuel o p : Nat} (hp : p ∈ h.chainUpTo fuel o) :
    ReflTransGen h.Inherits o p := by
  induction fuel generalizing o with
  | zero => cases hp
  | succ fuel ih =>
    rw [chainUpTo] at hp
    obtain rfl | hp := List.mem_cons.mp hp
    · exact .refl
    · cases hnext : (h.record o).prototype with
      | none => rw [hnext] at hp; cases hp
      | some q => rw [hnext] at hp; exact .head hnext (ih hp)

theorem Rooted.nodup_chainUpTo (hr : Rooted h) (fuel o : Nat) : (h.chainUpTo fuel o).Nodup := by
  induction fuel generalizing o with
  | zero => exact .nil
  | succ fuel ih =>
    rw [chainUpTo]
    cases hnext : (h.record o).prototype with
    | none => exact List.nodup_singleton o
    | some q =>
      refine List.nodup_cons.mpr ⟨fun hmem => ?_, ih q⟩
      exact hr.acyclic o (.head' hnext (reaches_of_mem_chainUpTo hmem))

/-- What is taken of a line is the whole of it, or as long as was asked for. -/
theorem line_or_length (h : Heap) (fuel o : Nat) :
    Line h o (h.chainUpTo fuel o) ∨ (h.chainUpTo fuel o).length = fuel := by
  induction fuel generalizing o with
  | zero => exact .inr rfl
  | succ fuel ih =>
    rw [chainUpTo]
    cases hnext : (h.record o).prototype with
    | none => exact .inl (.last hnext)
    | some q => exact (ih q).imp (.next hnext) (congrArg (· + 1))

theorem Line.chainUpTo {o : Nat} {line : List Nat} (hline : Line h o line) {fuel : Nat}
    (hfuel : line.length ≤ fuel) : h.chainUpTo fuel o = line := by
  induction hline generalizing fuel with
  | @last o hnone =>
    obtain ⟨fuel, rfl⟩ := Nat.exists_eq_add_of_le' hfuel
    rw [List.length_singleton, Heap.chainUpTo, hnone]
  | @next o p line hnext _ ih =>
    obtain ⟨fuel, rfl⟩ := Nat.exists_eq_add_of_le' (Nat.le_trans (Nat.le_add_left 1 _) hfuel)
    rw [Heap.chainUpTo, show (h.record o).prototype = some p from hnext]
    exact congrArg (o :: ·) (ih (Nat.le_of_succ_le_succ hfuel))

/-- A line never comes to an object twice, so it is over before the objects are. -/
theorem Rooted.line (hr : Rooted h) {o : Nat} (ho : o < h.records.size) : Line h o (h.chain o) := by
  have length (fuel : Nat) : (h.chainUpTo fuel o).length ≤ h.records.size := by
    have hsub : h.chainUpTo fuel o ⊆ List.range h.records.size := fun p hp =>
      List.mem_range.mpr (hr.reaches_lt ho (reaches_of_mem_chainUpTo hp))
    simpa using (List.subperm_of_subset (hr.nodup_chainUpTo fuel o) hsub).length_le
  obtain hline | hlength := line_or_length h (h.records.size + 1) o
  · rw [chain, hline.chainUpTo (length _)]
    exact hline
  · have := length (h.records.size + 1)
    omega

/-- The objects of a line are those that the first one inherits from, and itself. -/
theorem Line.mem {o p : Nat} {line : List Nat} (hline : Line h o line) (hp : ReflTransGen h.Inherits o p) :
    p ∈ line := by
  induction hline with
  | @last o hnone =>
    obtain rfl | ⟨q, hq, -⟩ := hp.cases_head
    · exact List.mem_cons_self
    · rw [Inherits, hnone] at hq; cases hq
  | @next o q line hnext _ ih =>
    obtain rfl | ⟨q', hq, hrest⟩ := hp.cases_head
    · exact List.mem_cons_self
    · obtain rfl : q = q' := Option.some.inj (hnext.symm.trans hq)
      exact List.mem_cons_of_mem _ (ih hrest)

/-! ### Runs -/

/-- Whatever is done, no object comes to inherit from itself. -/
theorem kept_rooted : Kept fun h h' => Rooted h → Rooted h' where
  refl _ := id
  trans hab hbc := hbc ∘ hab
  rest {h h'} heq hr := by
    have hsame : h'.record = h.record := by funext o; rw [record, record, heq]
    have hinherits : h'.Inherits = h.Inherits := by funext o p; rw [Inherits, Inherits, hsame]
    exact ⟨by rw [hinherits, heq]; exact hr.known, by rw [hinherits]; exact hr.acyclic⟩
  add {h r} hr' hr := by
    refine hr.redirect (o := h.records.size) (by simp [addRecord]) (fun q hq => ?_) fun p hp => ?_
    · by_cases hlt : q < h.records.size
      · simp [addRecord, record, Array.getElem?_push_lt, hlt]
      · have : ¬ q < h.records.size + 1 := by omega
        simp [addRecord, record, hlt, this]
    · rw [Inherits, record_push] at hp
      refine ⟨hr' p hp, fun hline => ?_⟩
      exact Nat.lt_irrefl _ (hr.reaches_lt (hr' p hp) hline)
  amend {h c o r} ho hc hamends hr := by
    have hrest (q : Nat) (hq : q ≠ o) : ((h.putRecord o r).record q).prototype = (h.record q).prototype := by
      rw [record_putRecord_ne hq]
    have hself : (h.putRecord o r).record o = r := by rw [record_putRecord h ho, if_pos rfl]
    have same (hsame : r.prototype = (h.record o).prototype) : Rooted (h.putRecord o r) := by
      refine hr.redirect (Nat.le_of_eq (size_putRecord ..).symm) hrest fun p hp => ?_
      rw [Inherits, hself, hsame] at hp
      exact ⟨hr.known o p hp, fun hline => hr.acyclic o (.head' hp hline)⟩
    cases hamends with
    | @inherits prototype _ happart =>
      refine hr.redirect (Nat.le_of_eq (size_putRecord ..).symm) hrest fun p hp => ?_
      rw [Inherits, hself] at hp
      have hlt : p < h.records.size := hc p hp
      exact ⟨hlt, fun hline => happart p hp ((hr.line hlt).mem hline)⟩
    | rewritten | added | removed | closed => exact same rfl

theorem rooted_empty : Rooted {} where
  known o p hp := absurd (inherits_lt hp) (Nat.not_lt_zero o)
  acyclic o hcycle := by
    obtain ⟨p, hp, -⟩ := TransGen.head'_iff.mp hcycle
    exact absurd (inherits_lt hp) (Nat.not_lt_zero o)

/-! ### Loops -/

/-- What a loop gives that starts at a cursor and goes from each object to its prototype, until a test of
the object gives something or there is no prototype. -/
inductive Walks (h : Heap) {α : Type} (test : Nat → Option α) : Option Nat → Option α → Prop
  | spent : Walks h test none none
  | found {o : Nat} {a : α} : test o = some a → Walks h test (some o) (some a)
  | on {o : Nat} {a : Option α} : test o = none → Walks h test (h.record o).prototype a →
      Walks h test (some o) a

theorem Walks.unique {α : Type} {test : Nat → Option α} {cursor : Option Nat} {a b : Option α}
    (ha : Walks h test cursor a) (hb : Walks h test cursor b) : a = b := by
  induction ha with
  | spent => cases hb; rfl
  | found ha =>
    cases hb with
    | found hb => exact ha.symm.trans hb
    | on hb _ => rw [ha] at hb; cases hb
  | on ha _ ih =>
    cases hb with
    | found hb => rw [ha] at hb; cases hb
    | on _ hb => exact ih hb

/-- A loop over a line that ends gives the first thing that the test gives on it. -/
theorem Line.walks {α : Type} (test : Nat → Option α) {o : Nat} {line : List Nat} (hline : Line h o line) :
    Walks h test (some o) (line.findSome? test) := by
  have on {o : Nat} {rest : List Nat} (hrest : Walks h test (h.record o).prototype (rest.findSome? test)) :
      Walks h test (some o) ((o :: rest).findSome? test) := by
    rw [List.findSome?_cons]
    cases htest : test o with
    | none => exact .on htest hrest
    | some a => exact .found htest
  induction hline with
  | last hnone => exact on (hnone ▸ .spent)
  | @next o p line hnext _ ih => exact on ((show (h.record o).prototype = some p from hnext) ▸ ih)

/-- A loop ends, wherever it starts. -/
theorem Rooted.walks (hr : Rooted h) {α : Type} (test : Nat → Option α) (cursor : Option Nat) :
    ∃ a, Walks h test cursor a := by
  cases cursor with
  | none => exact ⟨none, .spent⟩
  | some o =>
    by_cases ho : o < h.records.size
    · exact ⟨_, (hr.line ho).walks test⟩
    · exact ⟨_, (Line.last (by simp [record, ho])).walks test⟩

theorem Rooted.walks_lookup (hr : Rooted h) {o : Nat} (ho : o < h.records.size) (key : Key) :
    Walks h (h.own? · key) (some o) (h.lookup? o key) := (hr.line ho).walks _

/-- What the prototype of an object holds is what a loop from there on finds. -/
theorem Rooted.walks_inherited (hr : Rooted h) (o : Nat) (key : Key) :
    Walks h (h.own? · key) (h.record o).prototype ((h.record o).prototype.bind (h.lookup? · key)) := by
  cases hnext : (h.record o).prototype with
  | none => exact .spent
  | some p => exact hr.walks_lookup (hr.known o p hnext) key

/-- An assignment is done when the own property can be assigned, or else the object takes properties and
nothing that it inherits forbids it. -/
theorem set_done (h : Heap) (o : Nat) (key : Key) (value : Value) :
    (h.set o key value).1 = true ↔
      match h.own? o key with
      | some p => p.writable = true
      | none => (h.record o).extensible = true ∧
          ∀ p ∈ (h.record o).prototype.bind (h.lookup? · key), p.writable = true := by
  unfold set own?
  dsimp only
  cases (h.record o).find? key with
  | some p => cases hw : p.writable <;> simp [hw]
  | none =>
    cases (h.record o).prototype.bind (h.lookup? · key) with
    | none => cases (h.record o).extensible <;> simp
    | some p => cases hw : p.writable <;> cases (h.record o).extensible <;> simp [hw]

/-- A prototype is taken when it was the prototype before, or else the object takes one and is not met on
the line from there. -/
theorem setPrototype_done (h : Heap) (o : Nat) (prototype : Option Nat) :
    (h.setPrototype o prototype).1 = true ↔ (h.record o).prototype = prototype ∨
      (h.record o).extensible = true ∧ ∀ p ∈ prototype, o ∉ h.chain p := by
  unfold setPrototype
  dsimp only
  split
  · next hsame => simp [hsame]
  · next hother =>
    cases (h.record o).extensible with
    | false => simp [hother]
    | true =>
      cases prototype with
      | none => simp
      | some p => by_cases hmem : o ∈ h.chain p <;> simp [hother, hmem]

/-- The test of `setPrototype`: the object itself is met. -/
def meets (o q : Nat) : Option Unit := if q = o then some () else none

/-- A loop that looks for an object meets it exactly when it is on the line. -/
theorem Line.walks_meets {p : Nat} {line : List Nat} (hline : Line h p line) (o : Nat) :
    ∃ met, Walks h (meets o) (some p) met ∧ (met = none ↔ o ∉ line) := by
  refine ⟨_, hline.walks (meets o), ?_⟩
  simp only [List.findSome?_eq_none_iff, meets, ite_eq_right_iff, reduceCtorEq, imp_false]
  exact ⟨fun hall hmem => hall o hmem rfl, fun hmem q hq heq => hmem (heq ▸ hq)⟩

/-- **Prototypes never form a cycle.** On every heap that comes about from an empty one, no object inherits
from itself; so every loop along the prototypes ends, wherever it starts and whatever it looks for.  What
an object has and holds, whether it can be assigned and whether a prototype is refused are told by such
loops. -/
theorem prototypes_end (hrun : Run {} h) :
    (∀ o, ¬ TransGen h.Inherits o o) ∧
    (∀ (α : Type) (test : Nat → Option α) (cursor : Option Nat), ∃! a, Walks h test cursor a) ∧
    (∀ o < h.records.size, ∀ key, ∃ found, Walks h (h.own? · key) (some o) found ∧
      h.has o key = found.isSome ∧ h.get o key = (found.map (·.value)).getD .undefined) ∧
    (∀ o key value, ∃ inherited, Walks h (h.own? · key) (h.record o).prototype inherited ∧
      ((h.set o key value).1 = true ↔
        match h.own? o key with
        | some p => p.writable = true
        | none => (h.record o).extensible = true ∧ ∀ p ∈ inherited, p.writable = true)) ∧
    ∀ o prototype, (∀ p ∈ prototype, p < h.records.size) → ∃ met, Walks h (meets o) prototype met ∧
      ((h.setPrototype o prototype).1 = true ↔
        (h.record o).prototype = prototype ∨ (h.record o).extensible = true ∧ met = none) := by
  have hr : Rooted h := kept_rooted.run hrun rooted_empty
  refine ⟨hr.acyclic, fun α test cursor => ?_, fun o ho key => ?_, fun o key value => ?_,
    fun o prototype hp => ?_⟩
  · obtain ⟨a, ha⟩ := hr.walks test cursor
    exact ⟨a, ha, fun b hb => hb.unique ha⟩
  · exact ⟨_, hr.walks_lookup ho key, rfl, rfl⟩
  · exact ⟨_, hr.walks_inherited o key, set_done h o key value⟩
  · cases prototype with
    | none => exact ⟨none, .spent, by simp [setPrototype_done]⟩
    | some p =>
      obtain ⟨met, hmet, hiff⟩ := (hr.line (hp p rfl)).walks_meets o
      exact ⟨met, hmet, by simp [setPrototype_done, hiff]⟩

/-- An object, one that inherits from it, a facade over both and a prototype that is refused to it. -/
def crossedDeeds : List Deed :=
  [.object none, .object (some 0), .bindings [(.text "x", .object 1)], .facade 0 2,
    .change (.facade 0) (.setPrototype (some 1)), .change (.object 1) (.set (.text "y") .null)]

/-- No object inherits from itself although one was to, through a facade. -/
theorem prototypes_end_crossed :
    Run {} (perform {} crossedDeeds) ∧ ¬ TransGen (perform {} crossedDeeds).Inherits 1 1 ∧
      (Deed.run (perform {} crossedDeeds) (.change (.facade 0) (.setPrototype (some 1)))).1 = false := by
  have hrun : Run {} (perform {} crossedDeeds) := run_perform (by decide +kernel)
  exact ⟨hrun, (prototypes_end hrun).1 1, by decide +kernel⟩

end ScriptVault.Heap

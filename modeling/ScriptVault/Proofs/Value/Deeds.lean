import Mathlib.Logic.Relation
import ScriptVault.Value.Call
import ScriptVault.Proofs.Value.Exports

/-!
# Deeds — what is done with a heap, and what holds over whole runs

Objects, functions and facades are made, objects are changed, also through facades, and values are read,
called and constructed with.  What one change can make of an object is said once, in `Amends`, and what any
deed is made of in `Move`; what each move keeps holds between the start and the end of every run.
-/

namespace ScriptVault.Heap

/-- A change of one object. -/
inductive Change where
  | set (key : Key) (value : Value)
  | define (key : Key) (p : Property)
  | delete (key : Key)
  | setPrototype (prototype : Option Nat)
  | preventExtensions

namespace Change

/-- Makes the change, and tells whether it was done. -/
def apply (h : Heap) (o : Nat) : Change → Bool × Heap
  | set key value => h.set o key value
  | define key p => h.define o key p
  | delete key => h.delete o key
  | setPrototype prototype => h.setPrototype o prototype
  | preventExtensions => (true, h.preventExtensions o)

/-- The object that is to be inherited from is there. -/
def Fits (h : Heap) : Change → Prop
  | setPrototype prototype => ∀ p ∈ prototype, p < h.records.size
  | _ => True

instance (h : Heap) : (c : Change) → Decidable (c.Fits h)
  | setPrototype prototype => inferInstanceAs (Decidable (∀ p ∈ prototype, p < h.records.size))
  | set .. | define .. | delete .. | preventExtensions => .isTrue trivial

/-- The values that the object may come to hold. -/
def values : Change → List Value
  | set _ value => [value]
  | define _ p => [p.value]
  | delete _ | setPrototype _ | preventExtensions => []

end Change

/-- Something that is done with a heap. -/
inductive Deed where
  /-- Makes an empty object. -/
  | object (prototype : Option Nat)
  /-- Makes an object with some properties. -/
  | entries (entries : List (Key × Value))
  /-- Makes the namespace of a module. -/
  | bindings (entries : List (Key × Value))
  /-- Makes a function. -/
  | function (function : Function)
  /-- Makes a facade. -/
  | facade (exports «namespace» : Nat)
  /-- Changes an object, or the exports of a facade. -/
  | change (v : Value) (c : Change)
  /-- Reads a property. -/
  | read (v : Value) (key : Key)
  /-- Calls a function. -/
  | call (f : Nat) (this : Value) (args : List Value)
  /-- Constructs with a function. -/
  | construct (f : Nat) (args : List Value) (builtFor : Option Nat)

namespace Deed

/-- Does it, and tells whether it was done; only changes can be refused. -/
def run (h : Heap) : Deed → Bool × Heap
  | object prototype => (true, (h.addRecord { prototype := prototype }).2)
  | entries all => (true, (h.ofEntries all).2)
  | bindings all => (true, (h.addRecord (Heap.moduleRecord all)).2)
  | function f => (true, (h.addFunction f).2)
  | facade exports names => (true, (h.addFacade exports names).2)
  | change v c =>
    match h.target? v with
    | some o => c.apply h o
    | none => (false, h)
  | read v key => (true, (h.read v key).2)
  | call f this args => (true, (h.call f this args).2)
  | construct f args builtFor => (true, (h.construct f args builtFor).2)

/-- The objects that it inherits from are there. -/
def Fits (h : Heap) : Deed → Prop
  | object prototype => ∀ p ∈ prototype, p < h.records.size
  | change _ c => c.Fits h
  | _ => True

instance (h : Heap) : (d : Deed) → Decidable (d.Fits h)
  | object prototype => inferInstanceAs (Decidable (∀ p ∈ prototype, p < h.records.size))
  | change _ c => inferInstanceAs (Decidable (c.Fits h))
  | entries _ | bindings _ | function _ | facade .. | read .. | call .. | construct .. => .isTrue trivial

end Deed

/-- One deed is done. -/
def Step (h h' : Heap) : Prop := ∃ d : Deed, d.Fits h ∧ (d.run h).2 = h'

/-- Deeds are done one after another. -/
def Run : Heap → Heap → Prop := Relation.ReflTransGen Step

/-- Does a list of deeds. -/
def perform (h : Heap) (deeds : List Deed) : Heap := deeds.foldl (fun h d => (d.run h).2) h

/-- Each of a list of deeds fits when its turn comes. -/
def AllFit : Heap → List Deed → Prop
  | _, [] => True
  | h, d :: deeds => d.Fits h ∧ AllFit (d.run h).2 deeds

instance : (h : Heap) → (deeds : List Deed) → Decidable (AllFit h deeds)
  | _, [] => .isTrue trivial
  | h, d :: deeds =>
    haveI : Decidable (AllFit (d.run h).2 deeds) := instDecidableAllFit (d.run h).2 deeds
    inferInstanceAs (Decidable (d.Fits h ∧ AllFit (d.run h).2 deeds))

theorem run_perform {h : Heap} {deeds : List Deed} (hfit : AllFit h deeds) : Run h (h.perform deeds) := by
  induction deeds generalizing h with
  | nil => exact .refl
  | cons d deeds ih => exact .head ⟨d, hfit.1, rfl⟩ (ih hfit.2)

/-! ### What a change does -/

/-- What a change makes of an object when it is done. -/
inductive Amends (h : Heap) (o : Nat) : Change → Record → Prop
  /-- A property gets another value or other flags, as far as its old ones allow it. -/
  | rewritten {c : Change} {key : Key} {old new : Property} (found : (h.record o).find? key = some old)
      (allowed : Property.allows old new = true) (brought : new.value ∈ c.values) :
      Amends h o c { h.record o with properties := Record.replace key new (h.record o).properties }
  /-- A property is added. -/
  | added {c : Change} {key : Key} {new : Property} (missing : (h.record o).find? key = none)
      (extensible : (h.record o).extensible = true) (brought : new.value ∈ c.values) :
      Amends h o c { h.record o with properties := (h.record o).properties ++ [(key, new)] }
  /-- A property is removed. -/
  | removed {c : Change} {key : Key} {old : Property} (found : (h.record o).find? key = some old)
      (configurable : old.configurable = true) :
      Amends h o c { h.record o with properties := Record.without key (h.record o).properties }
  /-- The object inherits from another, which does not inherit from it. -/
  | inherits {prototype : Option Nat} (extensible : (h.record o).extensible = true)
      (apart : ∀ p ∈ prototype, o ∉ h.chain p) :
      Amends h o (.setPrototype prototype) { h.record o with prototype := prototype }
  /-- No property can be added any more. -/
  | closed {c : Change} : Amends h o c { h.record o with extensible := false }

/-- An assignment is a redefinition that every writable property allows. -/
theorem allows_value {p : Property} (hp : p.writable = true) (v : Value) :
    Property.allows p { p with value := v } = true := by
  cases hc : p.configurable <;> simp [Property.allows, hp, hc]

/-- A change is refused, or has nothing to do, and then all is as it was; or it amends its object. -/
theorem apply_cases (c : Change) (h : Heap) (o : Nat) :
    (c.apply h o).2 = h ∨ ∃ r, Amends h o c r ∧ c.apply h o = (true, h.putRecord o r) := by
  cases c with
  | set key value =>
    simp only [Change.apply, set]
    split
    · next p hfound =>
      split
      · next hwritable => exact .inr ⟨_, .rewritten hfound (allows_value hwritable value) (List.mem_singleton_self _), rfl⟩
      · exact .inl rfl
    · next hmissing =>
      split
      · exact .inl rfl
      · next hopen =>
        simp only [Bool.or_eq_true, Bool.not_eq_true', not_or, Bool.not_eq_false] at hopen
        exact .inr ⟨_, .added hmissing hopen.2 (List.mem_singleton_self _), rfl⟩
  | define key p =>
    simp only [Change.apply, define]
    split
    · next old hfound =>
      split
      · next hallowed => exact .inr ⟨_, .rewritten hfound hallowed (List.mem_singleton_self _), rfl⟩
      · exact .inl rfl
    · next hmissing =>
      split
      · next hextensible => exact .inr ⟨_, .added hmissing hextensible (List.mem_singleton_self _), rfl⟩
      · exact .inl rfl
  | delete key =>
    simp only [Change.apply, delete]
    split
    · next old hfound =>
      split
      · next hconfigurable => exact .inr ⟨_, .removed hfound hconfigurable, rfl⟩
      · exact .inl rfl
    · exact .inl rfl
  | setPrototype prototype =>
    simp only [Change.apply, setPrototype]
    split
    · exact .inl rfl
    · split
      · exact .inl rfl
      · next hextensible =>
        split
        · exact .inl rfl
        · next happart =>
          refine .inr ⟨_, .inherits (by simpa using hextensible) fun p hp hmem => happart ?_, rfl⟩
          rw [Option.mem_def.mp hp]
          simpa using hmem
  | preventExtensions => exact .inr ⟨_, .closed, rfl⟩

/-- A refused change leaves the whole heap as it was. -/
theorem apply_refused {c : Change} {h : Heap} {o : Nat} (hc : (c.apply h o).1 = false) :
    (c.apply h o).2 = h := by
  obtain hsame | ⟨r, -, heq⟩ := apply_cases c h o
  · exact hsame
  · rw [heq] at hc
    cases hc

/-- A refused deed leaves the whole heap as it was. -/
theorem run_refused {d : Deed} {h : Heap} (hd : (d.run h).1 = false) : (d.run h).2 = h := by
  cases d with
  | change v c =>
    rw [Deed.run] at hd ⊢
    cases hv : h.target? v with
    | some o => rw [hv] at hd; exact apply_refused hd
    | none => rfl
  | _ => cases hd

/-- A place where there is no object stays empty. -/
theorem putRecord_out {h : Heap} {o : Nat} (ho : ¬ o < h.records.size) (r : Record) : h.putRecord o r = h := by
  rw [putRecord, Array.setIfInBounds, dif_neg ho]

/-! ### What deeds are made of -/

/-- The least that can be done with a heap. -/
inductive Move (h : Heap) : Heap → Prop
  /-- An object is made. -/
  | record {r : Record} (known : ∀ p ∈ r.prototype, p < h.records.size) : Move h (h.addRecord r).2
  /-- An object is amended. -/
  | amend {c : Change} {o : Nat} {r : Record} (there : o < h.records.size) (fits : c.Fits h)
      (amends : Amends h o c r) : Move h (h.putRecord o r)
  /-- A function is made. -/
  | function (function : Function) : Move h (h.addFunction function).2
  /-- A facade is made. -/
  | facade (exports «namespace» : Nat) : Move h (h.addFacade exports «namespace»).2
  /-- A facade hands out a function of its namespace. -/
  | wrapper (f function : Nat) : Move h (h.wrapper f function).2
  /-- A call is counted. -/
  | tick (counter : String) : Move h (h.tick counter)

/-- Moves are made one after another. -/
def Moves : Heap → Heap → Prop := Relation.ReflTransGen Move

theorem moves_change {c : Change} {h : Heap} (hc : c.Fits h) (o : Nat) : Moves h (c.apply h o).2 := by
  obtain hsame | ⟨r, hr, heq⟩ := apply_cases c h o
  · rw [hsame]; exact .refl
  · rw [heq]
    by_cases ho : o < h.records.size
    · exact .single (.amend ho hc hr)
    · rw [putRecord_out ho]; exact .refl

theorem moves_write (h : Heap) (v : Value) (key : Key) (new : Value) : Moves h (h.write v key new).2 := by
  unfold Heap.write
  split
  · next o _ => exact moves_change (c := .set key new) trivial o
  · exact .refl

theorem moves_sets (o : Nat) (entries : List (Key × Value)) (h : Heap) :
    Moves h (entries.foldl (fun h (k, v) => (h.set o k v).2) h) := by
  induction entries generalizing h with
  | nil => exact .refl
  | cons entry rest ih =>
    exact (moves_change (c := .set entry.1 entry.2) trivial o).trans (ih _)

theorem moves_ofEntries (h : Heap) (entries : List (Key × Value)) : Moves h (h.ofEntries entries).2 :=
  .head (.record (r := {}) (by simp)) (moves_sets _ entries _)

theorem moves_facadeGet (h : Heap) (f : Nat) (key : Key) : Moves h (h.facadeGet f key).2 := by
  unfold facadeGet
  dsimp only
  split
  · exact .refl
  · split
    · exact .single (.wrapper f _)
    · exact .refl

theorem moves_read (h : Heap) (v : Value) (key : Key) : Moves h (h.read v key).2 := by
  unfold Heap.read
  split
  · exact .refl
  · exact moves_facadeGet ..
  · exact .refl

theorem moves_callUpTo (fuel : Nat) (h : Heap) (f : Nat) (this : Value) (args : List Value) :
    Moves h (callUpTo fuel h f this args).2 := by
  fun_induction Heap.callUpTo fuel h f this args with
  | case4 _ h _ _ args _ _ o h' heq => exact congrArg Prod.snd heq ▸ moves_ofEntries h (numbered "" args)
  | case5 _ h _ this _ _ key _ v h' heq => exact congrArg Prod.snd heq ▸ moves_read h this key
  | case6 _ h _ this args _ key _ done h' heq =>
    exact congrArg Prod.snd heq ▸ moves_write h this key (args.headD .undefined)
  | case8 => exact .single (.tick _)
  | case11 => assumption
  | _ => exact .refl

theorem moves_constructUpTo (fuel : Nat) (h : Heap) (f : Nat) (args : List Value) (builtFor : Option Nat) :
    Moves h (constructUpTo fuel h f args builtFor).2 := by
  fun_induction Heap.constructUpTo fuel h f args builtFor with
  | case3 _ h _ _ _ _ _ _ o h' heq => exact congrArg Prod.snd heq ▸ moves_ofEntries h _
  | case4 _ h _ _ _ _ _ _ o h' heq => exact congrArg Prod.snd heq ▸ moves_ofEntries h _
  | case6 => assumption
  | _ => exact .refl

/-- Every deed is made of moves. -/
theorem moves_deed {d : Deed} {h : Heap} (hd : d.Fits h) : Moves h (d.run h).2 := by
  cases d with
  | object prototype => exact .single (.record hd)
  | entries all => exact moves_ofEntries h all
  | bindings all => exact .single (.record (r := Heap.moduleRecord all) (by simp [Heap.moduleRecord]))
  | function f => exact .single (.function f)
  | facade exports names => exact .single (.facade exports names)
  | change v c =>
    rw [Deed.run]
    split
    · next o _ => exact moves_change hd o
    · exact .refl
  | read v key => exact moves_read h v key
  | call f this args => exact moves_callUpTo f h f this args
  | construct f args builtFor => exact moves_constructUpTo f h f args builtFor

theorem Run.moves {h h' : Heap} (hrun : Run h h') : Moves h h' := by
  induction hrun with
  | refl => exact .refl
  | tail _ hstep ih =>
    obtain ⟨d, hd, rfl⟩ := hstep
    exact ih.trans (moves_deed hd)

/-! ### What every deed keeps -/

/-- A relation between heaps that holds however one comes from the other. -/
structure Kept (R : Heap → Heap → Prop) : Prop where
  refl (h : Heap) : R h h
  trans {a b c : Heap} : R a b → R b c → R a c
  /-- It is about objects. -/
  rest {h h' : Heap} : h'.records = h.records → R h h'
  /-- An object may be added. -/
  add {h : Heap} {r : Record} : (∀ p ∈ r.prototype, p < h.records.size) → R h (h.addRecord r).2
  /-- An object may be amended. -/
  amend {h : Heap} {c : Change} {o : Nat} {r : Record} :
    o < h.records.size → c.Fits h → Amends h o c r → R h (h.putRecord o r)

theorem wrapper_records (h : Heap) (f function : Nat) : (h.wrapper f function).2.records = h.records := by
  unfold wrapper
  dsimp only
  split <;> rfl

namespace Kept

variable {R : Heap → Heap → Prop} (hR : Kept R)
include hR

/-- One move keeps the relation. -/
theorem move {h h' : Heap} (hmove : Move h h') : R h h' := by
  cases hmove with
  | record known => exact hR.add known
  | amend there fits amends => exact hR.amend there fits amends
  | function | facade | tick => exact hR.rest rfl
  | wrapper f function => exact hR.rest (wrapper_records h f function)

/-- A whole run keeps the relation. -/
theorem run {h h' : Heap} (hrun : Run h h') : R h h' := by
  have hmoves := hrun.moves
  clear hrun
  induction hmoves with
  | refl => exact hR.refl h
  | tail _ hmove ih => exact hR.trans ih (hR.move hmove)

end Kept

end ScriptVault.Heap

import ScriptVault.Proofs.Value.Lasting
import ScriptVault.Proofs.Value.Views

/-!
# Wrappers — what a facade hands out for the functions of its namespace

A facade makes one wrapper for each function of its namespace and keeps it for good.  A wrapper is made after the
function that it wraps, so a call goes down from wrapper to function and ends there: to call a wrapper is to call the
function, with the namespace in the place of the facade, and to construct with a wrapper is to construct with the
function, which is built for in the place of the wrapper.  All this needs that values refer to what is there, which
holds of all values that a script can come by.
-/

namespace ScriptVault

/-- What a value refers to is there. -/
def Value.Known (h : Heap) : Value → Prop
  | .object o => o < h.records.size
  | .function f => f < h.functions.size
  | .facade f => f < h.facades.size
  | _ => True

instance (h : Heap) : (v : Value) → Decidable (v.Known h)
  | .object o => inferInstanceAs (Decidable (o < h.records.size))
  | .function f => inferInstanceAs (Decidable (f < h.functions.size))
  | .facade f => inferInstanceAs (Decidable (f < h.facades.size))
  | .undefined | .null | .bool _ | .number _ | .text _ => .isTrue trivial

/-- The functions that a function hands its calls and constructions on to. -/
def Function.targets (function : Function) : List Nat :=
  (match function.body with
    | .forward _ target => [target]
    | _ => []) ++
  (match function.build with
    | some (.forward target) => [target]
    | _ => [])

/-- The wrapper that a facade makes for a function. -/
def Function.wrapped (function : Function) (facade place : Nat) : Function where
  name := function.name
  body := .forward facade place
  build := function.build.map fun _ => .forward place

namespace Function

theorem mem_targets_of_body {function : Function} {facade target : Nat}
    (hbody : function.body = .forward facade target) : target ∈ function.targets := by
  simp [targets, hbody]

theorem mem_targets_of_build {function : Function} {target : Nat} (hbuild : function.build = some (.forward target)) :
    target ∈ function.targets := by
  simp [targets, hbuild]

theorem targets_wrapped (function : Function) (facade place : Nat) :
    ∀ target ∈ (function.wrapped facade place).targets, target = place := by
  cases hbuild : function.build <;> simp [targets, wrapped, hbuild]

end Function

namespace Heap

variable {h h' : Heap}

/-! ### What is there stays there -/

/-- Everything that was there is there afterwards; functions are as they were, and facades show the same two
objects and keep their wrappers. -/
structure Extends (h h' : Heap) : Prop where
  records : h.records.size ≤ h'.records.size
  functions : h.functions.size ≤ h'.functions.size
  facades : h.facades.size ≤ h'.facades.size
  function : ∀ w < h.functions.size, h'.function w = h.function w
  shows : ∀ f < h.facades.size,
    (h'.facade f).exports = (h.facade f).exports ∧ (h'.facade f).namespace = (h.facade f).namespace
  wrappers : ∀ f < h.facades.size, ∀ target w, (h.facade f).wrappers.lookup target = some w →
    (h'.facade f).wrappers.lookup target = some w

namespace Extends

theorem refl (h : Heap) : h.Extends h :=
  ⟨Nat.le_refl _, Nat.le_refl _, Nat.le_refl _, fun _ _ => rfl, fun _ _ => ⟨rfl, rfl⟩, fun _ _ _ _ => id⟩

theorem trans {h'' : Heap} (a : h.Extends h') (b : h'.Extends h'') : h.Extends h'' where
  records := Nat.le_trans a.records b.records
  functions := Nat.le_trans a.functions b.functions
  facades := Nat.le_trans a.facades b.facades
  function w hw := (b.function w (Nat.lt_of_lt_of_le hw a.functions)).trans (a.function w hw)
  shows f hf :=
    have hf' := Nat.lt_of_lt_of_le hf a.facades
    ⟨(b.shows f hf').1.trans (a.shows f hf).1, (b.shows f hf').2.trans (a.shows f hf).2⟩
  wrappers f hf target w hw :=
    b.wrappers f (Nat.lt_of_lt_of_le hf a.facades) target w (a.wrappers f hf target w hw)

/-- Objects may be added and changed. -/
theorem of_records (hsize : h.records.size ≤ h'.records.size) (hfunctions : h'.functions = h.functions)
    (hfacades : h'.facades = h.facades) : h.Extends h' where
  records := hsize
  functions := Nat.le_of_eq (congrArg Array.size hfunctions).symm
  facades := Nat.le_of_eq (congrArg Array.size hfacades).symm
  function w _ := by rw [Heap.function, Heap.function, hfunctions]
  shows f _ := by rw [facade, facade, hfacades]; exact ⟨rfl, rfl⟩
  wrappers f _ target w hw := by rw [facade, hfacades]; exact hw

end Extends

theorem size_wrapped (h : Heap) (f function : Nat) :
    (h.wrapped f function).functions.size = h.functions.size + 1 ∧
      (h.wrapped f function).facades.size = h.facades.size := by
  simp [wrapped]

theorem extends_wrapped {f function : Nat} (hnew : (h.facade f).wrappers.lookup function = none) :
    h.Extends (h.wrapped f function) where
  records := Nat.le_refl _
  functions := by rw [(size_wrapped ..).1]; exact Nat.le_succ _
  facades := Nat.le_of_eq (size_wrapped ..).2.symm
  function w hw := wrapped_function_lt f function hw
  shows f' hf' := by
    by_cases hf : f' = f
    · subst hf
      simp [Heap.wrapped, facade, hf']
    · rw [wrapped_facade_ne hf]
      exact ⟨rfl, rfl⟩
  wrappers f' hf' target w hw := by
    by_cases hf : f' = f
    · subst hf
      rw [lookup_wrapped hf', hw, Option.some_or]
    · rw [wrapped_facade_ne hf]
      exact hw

/-- Whatever is done, all that was there stays there. -/
theorem Move.extends (hmove : Move h h') : h.Extends h' := by
  cases hmove with
  | record => exact .of_records (by simp [addRecord]) rfl rfl
  | amend => exact .of_records (Nat.le_of_eq (size_putRecord ..).symm) rfl rfl
  | tick => exact .of_records (Nat.le_refl _) rfl rfl
  | function function =>
    exact ⟨Nat.le_refl _, by simp [addFunction], Nat.le_refl _, fun w hw => function_push_lt function hw,
      fun _ _ => ⟨rfl, rfl⟩, fun _ _ _ _ => id⟩
  | facade exports names =>
    have hsame (f : Nat) (hf : f < h.facades.size) : (h.addFacade exports names).2.facade f = h.facade f := by
      simp [addFacade, Heap.facade, Array.getElem?_push_lt, hf]
    exact ⟨Nat.le_refl _, Nat.le_refl _, by simp [addFacade], fun _ _ => rfl,
      fun f hf => by rw [hsame f hf]; exact ⟨rfl, rfl⟩, fun f hf target w hw => by rw [hsame f hf]; exact hw⟩
  | wrapper f function =>
    rw [wrapper_eq]
    split
    · exact .refl h
    · next hnew => exact extends_wrapped hnew

theorem Moves.extends (hmoves : Moves h h') : h.Extends h' := by
  induction hmoves with
  | refl => exact .refl h
  | tail _ hmove ih => exact ih.trans hmove.extends

/-- What a value refers to stays there. -/
theorem Extends.known (a : h.Extends h') {v : Value} (hv : v.Known h) : v.Known h' := by
  cases v with
  | object o => exact Nat.lt_of_lt_of_le hv a.records
  | function f => exact Nat.lt_of_lt_of_le hv a.functions
  | facade f => exact Nat.lt_of_lt_of_le hv a.facades
  | _ => trivial

/-! ### What refers to what -/

/-- Objects hold what is there, functions hand on to earlier ones, and facades keep the wrappers that they made. -/
structure Grounded (h : Heap) : Prop where
  values : ∀ o, ∀ entry ∈ (h.record o).properties, entry.2.value.Known h
  targets : ∀ w, ∀ target ∈ (h.function w).targets, target < w
  wrappers : ∀ f target w, (h.facade f).wrappers.lookup target = some w →
    w < h.functions.size ∧ target < h.functions.size ∧ h.function w = (h.function target).wrapped f target

theorem grounded_empty : Grounded {} where
  values o entry hentry := by simp [record] at hentry
  targets w target htarget := by simp [Heap.function, Function.targets] at htarget
  wrappers f target w hw := by simp [facade] at hw

namespace Grounded

/-- Objects may come to hold other values that are there. -/
theorem of_records (hg : h.Grounded) (a : h.Extends h') (hfunctions : h'.functions = h.functions)
    (hwrappers : ∀ f, (h'.facade f).wrappers = (h.facade f).wrappers)
    (hvalues : ∀ o, ∀ entry ∈ (h'.record o).properties,
      entry ∈ (h.record o).properties ∨ entry.2.value.Known h) : h'.Grounded where
  values o entry hentry := a.known ((hvalues o entry hentry).elim (hg.values o entry) id)
  targets w := by rw [Heap.function, hfunctions]; exact hg.targets w
  wrappers f target w hw := by
    have hsame (v : Nat) : h'.function v = h.function v := by rw [Heap.function, Heap.function, hfunctions]
    rw [hsame, hsame, hfunctions]
    exact hg.wrappers f target w (by rw [← hwrappers]; exact hw)

/-- Functions may be made that hand on to those that are there. -/
theorem of_push (hg : h.Grounded) (a : h.Extends h') {function : Function}
    (hfunctions : h'.functions = h.functions.push function) (hrecords : h'.records = h.records)
    (htargets : ∀ target ∈ function.targets, target < h.functions.size)
    (hwrappers : ∀ f target w, (h'.facade f).wrappers.lookup target = some w →
      (h.facade f).wrappers.lookup target = some w ∨
        w = h.functions.size ∧ target < h.functions.size ∧ function = (h.function target).wrapped f target) :
    h'.Grounded where
  values o entry hentry := a.known (hg.values o entry (by rwa [record, hrecords] at hentry))
  targets w target htarget := by
    rcases Nat.lt_trichotomy w h.functions.size with hw | rfl | hw
    · rw [a.function w hw] at htarget
      exact hg.targets w target htarget
    · have hnew : h'.function h.functions.size = function := by simp [Heap.function, hfunctions]
      rw [hnew] at htarget
      exact htargets target htarget
    · have hout : ¬ w < h.functions.size + 1 := by omega
      simp [Heap.function, hfunctions, hout, Function.targets] at htarget
  wrappers f target w hw := by
    have hsize : h'.functions.size = h.functions.size + 1 := by simp [hfunctions]
    obtain hold | ⟨rfl, htarget, rfl⟩ := hwrappers f target w hw
    · obtain ⟨hw, htarget, hwrapped⟩ := hg.wrappers f target w hold
      rw [a.function w hw, a.function target htarget]
      exact ⟨by omega, by omega, hwrapped⟩
    · rw [a.function target htarget]
      exact ⟨by omega, by omega, by simp [Heap.function, hfunctions]⟩

theorem addRecord (hg : h.Grounded) {r : Record} (hr : ∀ entry ∈ r.properties, entry.2.value.Known h) :
    (h.addRecord r).2.Grounded := by
  refine hg.of_records (.of_records (by simp [Heap.addRecord]) rfl rfl) rfl (fun _ => rfl) fun o entry hentry => ?_
  rcases Nat.lt_trichotomy o h.records.size with ho | rfl | ho
  · exact .inl (by simpa [Heap.addRecord, record, Array.getElem?_push_lt, ho] using hentry)
  · exact .inr (hr entry (by rwa [record_push] at hentry))
  · have hout : ¬ o < h.records.size + 1 := by omega
    simp [Heap.addRecord, record, hout] at hentry

theorem putRecord (hg : h.Grounded) {o : Nat} {r : Record}
    (hr : ∀ entry ∈ r.properties, entry ∈ (h.record o).properties ∨ entry.2.value.Known h) :
    (h.putRecord o r).Grounded := by
  by_cases ho : o < h.records.size
  · refine hg.of_records (.of_records (Nat.le_of_eq (size_putRecord ..).symm) rfl rfl) rfl (fun _ => rfl)
      fun q entry hentry => ?_
    rw [record_putRecord h ho] at hentry
    split at hentry
    · next hq => rw [hq]; exact hr entry hentry
    · exact .inl hentry
  · rw [putRecord_out ho]
    exact hg

end Grounded

/-! ### Changes -/

/-- An amended object holds what it held, and what the change brought. -/
theorem Amends.mem {o : Nat} {c : Change} {r : Record} (hr : Amends h o c r) {entry : Key × Property}
    (hentry : entry ∈ r.properties) : entry ∈ (h.record o).properties ∨ entry.2.value ∈ c.values := by
  cases hr with
  | rewritten _ _ hbrought =>
    refine (Record.mem_replace hentry).imp_right fun he => ?_
    rw [he]
    exact hbrought
  | added _ _ hbrought =>
    refine (List.mem_append.1 hentry).imp_right fun he => ?_
    obtain rfl := List.mem_singleton.1 he
    exact hbrought
  | removed => exact .inl ((Record.without_sublist _ _).subset hentry)
  | inherits | closed => exact .inl hentry

namespace Grounded

/-- A change that brings what is there. -/
theorem change (hg : h.Grounded) {c : Change} (hc : ∀ v ∈ c.values, v.Known h) (o : Nat) :
    (c.apply h o).2.Grounded := by
  obtain hsame | ⟨r, hr, heq⟩ := apply_cases c h o
  · rw [hsame]; exact hg
  · rw [heq]
    exact hg.putRecord fun entry hentry => (hr.mem hentry).imp_right (hc _)

theorem write (hg : h.Grounded) (v : Value) (key : Key) {new : Value} (hnew : new.Known h) :
    (h.write v key new).2.Grounded := by
  unfold Heap.write
  split
  · next o _ => exact hg.change (c := .set key new) (by simpa [Change.values] using hnew) o
  · exact hg

theorem sets (o : Nat) {entries : List (Key × Value)} (hg : h.Grounded)
    (hentries : ∀ entry ∈ entries, entry.2.Known h) :
    (entries.foldl (fun h (k, v) => (h.set o k v).2) h).Grounded := by
  induction entries generalizing h with
  | nil => exact hg
  | cons entry rest ih =>
    have hfirst : entry.2.Known h := hentries entry List.mem_cons_self
    have hext : h.Extends (h.set o entry.1 entry.2).2 :=
      (moves_change (c := .set entry.1 entry.2) trivial o).extends
    exact ih (hg.change (c := .set entry.1 entry.2) (by simpa [Change.values] using hfirst) o)
      fun e he => hext.known (hentries e (List.mem_cons_of_mem _ he))

theorem ofEntries (hg : h.Grounded) {entries : List (Key × Value)}
    (hentries : ∀ entry ∈ entries, entry.2.Known h) : (h.ofEntries entries).2.Grounded := by
  have hext : h.Extends (h.addRecord {}).2 := (Move.record (by simp)).extends
  exact sets _ (hg.addRecord (r := {}) nofun) fun entry he => hext.known (hentries entry he)

/-! ### Reads -/

/-- What an object holds is there. -/
theorem get_known (hg : h.Grounded) (o : Nat) (key : Key) : (h.get o key).Known h := by
  unfold Heap.get
  cases hfound : h.lookup? o key with
  | none => trivial
  | some p =>
    obtain ⟨q, -, hq⟩ := List.exists_of_findSome?_eq_some hfound
    obtain ⟨before, after, hsplit, -⟩ := List.lookup_eq_some_iff.1 hq
    exact hg.values q (key, p) (by rw [hsplit]; simp)

/-- A wrapper may be made of a function that is there. -/
theorem wrapper (hg : h.Grounded) (f : Nat) {function : Nat} (hknown : function < h.functions.size) :
    (h.wrapper f function).2.Grounded := by
  rw [wrapper_eq]
  split
  · exact hg
  · next hnew =>
    have hpushed : (h.wrapped f function).functions = h.functions.push ((h.function function).wrapped f function) := rfl
    refine hg.of_push (extends_wrapped hnew) hpushed rfl (fun target htarget => ?_) fun f' target w hw => ?_
    · rw [Function.targets_wrapped _ _ _ target htarget]
      exact hknown
    · by_cases hf' : f' = f
      · subst hf'
        by_cases hf : f' < h.facades.size
        · rw [lookup_wrapped hf] at hw
          cases hold : (h.facade f').wrappers.lookup target with
          | some w' => exact .inl (by simpa [hold] using hw)
          | none =>
            obtain ⟨rfl, rfl⟩ : target = function ∧ h.functions.size = w := by simpa [hold] using hw
            exact .inr ⟨rfl, hknown, rfl⟩
        · rw [wrapped_out hf] at hw
          exact .inl hw
      · rw [wrapped_facade_ne hf'] at hw
        exact .inl hw

theorem facadeGet (hg : h.Grounded) (f : Nat) (key : Key) : (h.facadeGet f key).2.Grounded := by
  unfold Heap.facadeGet
  dsimp only
  split
  · exact hg
  · split
    · next function hread =>
      have hknown : (Value.function function).Known h := hread ▸ hg.get_known _ key
      exact hg.wrapper f hknown
    · exact hg

theorem read (hg : h.Grounded) (v : Value) (key : Key) : (h.read v key).2.Grounded := by
  unfold Heap.read
  split
  · exact hg
  · exact hg.facadeGet ..
  · exact hg

/-! ### Calls -/

theorem numbered_known {start : String} {args : List Value} (hargs : ∀ v ∈ args, v.Known h) :
    ∀ entry ∈ numbered start args, entry.2.Known h := by
  intro entry hentry
  obtain ⟨⟨v, i⟩, hv, rfl⟩ := List.mem_map.1 hentry
  exact hargs v (List.fst_mem_of_mem_zipIdx hv)

theorem callUpTo (fuel : Nat) (hg : h.Grounded) (f : Nat) (this : Value) {args : List Value}
    (hargs : ∀ v ∈ args, v.Known h) : (callUpTo fuel h f this args).2.Grounded := by
  fun_induction Heap.callUpTo fuel h f this args with
  | case4 _ h _ _ args _ _ o h' heq => exact congrArg Prod.snd heq ▸ hg.ofEntries (numbered_known hargs)
  | case5 _ h _ this _ _ key _ v h' heq => exact congrArg Prod.snd heq ▸ hg.read this key
  | case6 _ h _ this args _ key _ done h' heq =>
    refine congrArg Prod.snd heq ▸ hg.write this key ?_
    cases args with
    | nil => trivial
    | cons v _ => exact hargs v List.mem_cons_self
  | case8 => exact hg.of_records (.of_records (Nat.le_refl _) rfl rfl) rfl (fun _ => rfl) fun _ _ => .inl
  | case11 _ _ _ _ _ _ _ _ _ _ ih => exact ih hg hargs
  | _ => exact hg

theorem constructUpTo (fuel : Nat) (hg : h.Grounded) (f : Nat) {args : List Value} {builtFor : Option Nat}
    (hargs : ∀ v ∈ args, v.Known h) (hbuilt : ∀ target ∈ builtFor, target < h.functions.size) :
    (constructUpTo fuel h f args builtFor).2.Grounded := by
  fun_induction Heap.constructUpTo fuel h f args builtFor with
  | case3 _ h f args builtFor function target hbuild o h' heq =>
    refine congrArg Prod.snd heq ▸ hg.ofEntries fun entry hentry => ?_
    rcases List.mem_cons.1 hentry with rfl | hentry
    · cases builtFor with
      | some target => exact hbuilt target rfl
      | none =>
        -- a function that is not there constructs nothing
        show f < h.functions.size
        by_contra hout
        have hnone : (h.function f).build = none := by simp [Heap.function, hout]
        rw [hnone] at hbuild
        cases hbuild
    · exact numbered_known hargs entry hentry
  | case4 _ h _ _ _ _ _ _ o h' heq => exact congrArg Prod.snd heq ▸ hg.ofEntries (by simp [Value.Known])
  | case6 h f args builtFor function target inner _ fuel ih =>
    refine ih hg hargs fun place hplace => ?_
    split at hplace
    · cases hplace
    · next hother =>
      cases builtFor with
      | some b => exact hbuilt place hplace
      | none => exact absurd rfl hother
  | _ => exact hg

end Grounded

/-! ### Deeds with values that are there -/

namespace Deed

/-- The values that are kept of a deed. -/
def values : Deed → List Value
  | entries all | bindings all => all.map Prod.snd
  | facade exports names => [.object exports, .object names]
  | change _ c => c.values
  | call _ _ args => args
  | construct _ args builtFor => (builtFor.map Value.function).toList ++ args
  | object _ | function _ | read .. => []

/-- The functions that a deed hands on to. -/
def targets : Deed → List Nat
  | function f => f.targets
  | _ => []

/-- A deed is done with what is there. -/
structure Sound (h : Heap) (d : Deed) : Prop where
  fits : d.Fits h
  values : ∀ v ∈ d.values, v.Known h
  targets : ∀ target ∈ d.targets, target < h.functions.size

instance (h : Heap) (d : Deed) : Decidable (d.Sound h) :=
  decidable_of_iff
    (d.Fits h ∧ (∀ v ∈ d.values, v.Known h) ∧ ∀ target ∈ d.targets, target < h.functions.size)
    ⟨fun ⟨a, b, c⟩ => ⟨a, b, c⟩, fun ⟨a, b, c⟩ => ⟨a, b, c⟩⟩

end Deed

/-- A deed with what is there keeps it so. -/
theorem Grounded.deed (hg : h.Grounded) {d : Deed} (hd : d.Sound h) : (d.run h).2.Grounded := by
  have hvalues := hd.values
  cases d with
  | object prototype => exact hg.addRecord (r := { prototype := prototype }) nofun
  | entries all => exact hg.ofEntries fun entry hentry => hvalues _ (List.mem_map_of_mem hentry)
  | bindings all =>
    refine hg.addRecord (r := Heap.moduleRecord all) fun entry hentry => ?_
    obtain ⟨e, he, rfl⟩ | rfl := mem_moduleRecord hentry
    · exact hvalues _ (List.mem_map_of_mem he)
    · trivial
  | function f =>
    exact hg.of_push (Move.function f).extends rfl rfl hd.targets fun _ _ _ => .inl
  | facade exports names =>
    exact hg.of_records (Move.facade exports names).extends rfl (facade_addFacade exports names) fun _ _ => .inl
  | change v c =>
    rw [Deed.run]
    split
    · next o _ => exact hg.change hvalues o
    · exact hg
  | read v key => exact hg.read v key
  | call f this args => exact hg.callUpTo f f this hvalues
  | construct f args builtFor =>
    refine hg.constructUpTo f f (fun v hv => hvalues v (List.mem_append_right _ hv)) fun target htarget => ?_
    have hknown : (Value.function target).Known h := hvalues _ (List.mem_append_left _ (by simp_all))
    exact hknown

/-- Deeds are done one after another, each with what is there. -/
def Course : Heap → Heap → Prop := Relation.ReflTransGen fun h h' => ∃ d : Deed, d.Sound h ∧ (d.run h).2 = h'

/-- Each of a list of deeds is sound when its turn comes. -/
def AllSound : Heap → List Deed → Prop
  | _, [] => True
  | h, d :: deeds => d.Sound h ∧ AllSound (d.run h).2 deeds

instance : (h : Heap) → (deeds : List Deed) → Decidable (AllSound h deeds)
  | _, [] => .isTrue trivial
  | h, d :: deeds =>
    haveI : Decidable (AllSound (d.run h).2 deeds) := instDecidableAllSound (d.run h).2 deeds
    inferInstanceAs (Decidable (d.Sound h ∧ AllSound (d.run h).2 deeds))

theorem course_perform {deeds : List Deed} (hsound : AllSound h deeds) : Course h (h.perform deeds) := by
  induction deeds generalizing h with
  | nil => exact .refl
  | cons d deeds ih => exact .head ⟨d, hsound.1, rfl⟩ (ih hsound.2)

theorem Course.run (hcourse : Course h h') : Run h h' := by
  induction hcourse with
  | refl => exact .refl
  | tail _ hstep ih =>
    obtain ⟨d, hd, hrun⟩ := hstep
    exact ih.tail ⟨d, hd.fits, hrun⟩

theorem Course.extends (hcourse : Course h h') : h.Extends h' := hcourse.run.moves.extends

theorem Course.grounded (hcourse : Course h h') (hg : h.Grounded) : h'.Grounded := by
  induction hcourse with
  | refl => exact hg
  | tail _ hstep ih =>
    obtain ⟨d, hd, rfl⟩ := hstep
    exact ih.deed hd

/-! ### Calls go down -/

/-- What a wrapper puts in the place of its facade. -/
def receiver (h : Heap) (f : Nat) : Value → Value
  | .facade r => if r = f then .object (h.facade f).namespace else .facade r
  | v => v

theorem callUpTo_forward {w f target : Nat} (hbody : (h.function w).body = .forward f target) (fuel : Nat)
    (this : Value) (args : List Value) :
    Heap.callUpTo (fuel + 1) h w this args = Heap.callUpTo fuel h target (h.receiver f this) args := by
  rw [Heap.callUpTo]
  simp only [hbody]
  congr 1
  cases this <;> rfl

theorem constructUpTo_forward {w target : Nat} (hbuild : (h.function w).build = some (.forward target)) (fuel : Nat)
    (args : List Value) (builtFor : Option Nat) :
    Heap.constructUpTo (fuel + 1) h w args builtFor =
      Heap.constructUpTo fuel h target args (if builtFor.getD w = w then none else some (builtFor.getD w)) := by
  rw [Heap.constructUpTo]
  simp only [hbuild]

/-- A call needs no more fuel than its function has functions before it. -/
theorem Grounded.callUpTo_eq (hg : h.Grounded) {f fuel : Nat} (hfuel : f ≤ fuel) (this : Value) (args : List Value) :
    Heap.callUpTo fuel h f this args = h.call f this args := by
  unfold Heap.call
  induction f using Nat.strong_induction_on generalizing fuel this with
  | _ f ih =>
    cases hbody : (h.function f).body with
    | forward facade target =>
      have hlt : target < f := hg.targets f target (Function.mem_targets_of_body hbody)
      obtain ⟨fuel, rfl⟩ := Nat.exists_eq_add_one_of_ne_zero (Nat.ne_zero_of_lt (Nat.lt_of_lt_of_le hlt hfuel))
      obtain ⟨before, rfl⟩ := Nat.exists_eq_add_one_of_ne_zero (Nat.ne_zero_of_lt hlt)
      have hless : target ≤ fuel := Nat.le_of_lt_succ (Nat.lt_of_lt_of_le hlt hfuel)
      rw [callUpTo_forward hbody, callUpTo_forward hbody, ih target hlt hless, ih target hlt (Nat.le_of_lt_succ hlt)]
    | _ =>
      unfold Heap.callUpTo
      simp only [hbody]

/-- So does a construction. -/
theorem Grounded.constructUpTo_eq (hg : h.Grounded) {f fuel : Nat} (hfuel : f ≤ fuel) (args : List Value)
    (builtFor : Option Nat) : Heap.constructUpTo fuel h f args builtFor = h.construct f args builtFor := by
  unfold Heap.construct
  induction f using Nat.strong_induction_on generalizing fuel builtFor with
  | _ f ih =>
    cases hbuild : (h.function f).build with
    | none =>
      unfold Heap.constructUpTo
      simp only [hbuild]
    | some build =>
      cases build with
      | forward target =>
        have hlt : target < f := hg.targets f target (Function.mem_targets_of_build hbuild)
        obtain ⟨fuel, rfl⟩ := Nat.exists_eq_add_one_of_ne_zero (Nat.ne_zero_of_lt (Nat.lt_of_lt_of_le hlt hfuel))
        obtain ⟨before, rfl⟩ := Nat.exists_eq_add_one_of_ne_zero (Nat.ne_zero_of_lt hlt)
        have hless : target ≤ fuel := Nat.le_of_lt_succ (Nat.lt_of_lt_of_le hlt hfuel)
        rw [constructUpTo_forward hbuild, constructUpTo_forward hbuild, ih target hlt hless,
          ih target hlt (Nat.le_of_lt_succ hlt)]
      | _ =>
        unfold Heap.constructUpTo
        simp only [hbuild]

/-! ### Wrappers -/

/-- A function stands for another one to those who look at a facade. -/
structure StandsFor (h : Heap) (f w target : Nat) : Prop where
  /-- It is another function. -/
  apart : w ≠ target
  /-- It has the name of the other. -/
  named : (h.function w).name = (h.function target).name
  /-- To call it is to call the other, with the namespace in the place of the facade. -/
  calls : ∀ this args, h.call w this args = h.call target (h.receiver f this) args
  /-- It constructs exactly when the other does. -/
  constructible : (h.function w).build.isSome = (h.function target).build.isSome
  /-- To construct with it is to construct with the other, which is built for in its place. -/
  constructs : ∀ args builtFor, h.construct w args builtFor =
    h.construct target args (some (if builtFor.getD w = w then target else builtFor.getD w))

/-- A function that nothing else is built for is built for itself. -/
theorem construct_self (target : Nat) (args : List Value) :
    h.construct target args (some target) = h.construct target args none := by
  unfold Heap.construct
  rw [Heap.constructUpTo.eq_def, Heap.constructUpTo.eq_def]
  rfl

theorem Grounded.standsFor (hg : h.Grounded) {f target w : Nat}
    (hkept : (h.facade f).wrappers.lookup target = some w) : h.StandsFor f w target := by
  obtain ⟨-, -, hw⟩ := hg.wrappers f target w hkept
  have hbody : (h.function w).body = .forward f target := by rw [hw]; rfl
  have hlt : target < w := hg.targets w target (Function.mem_targets_of_body hbody)
  have hbuild : (h.function w).build = (h.function target).build.map fun _ => .forward target := by rw [hw]; rfl
  have hname : (h.function w).name = (h.function target).name := by rw [hw]; rfl
  obtain ⟨before, rfl⟩ := Nat.exists_eq_add_one_of_ne_zero (Nat.ne_zero_of_lt hlt)
  refine ⟨Nat.ne_of_gt hlt, hname, fun this args => ?_, by rw [hbuild, Option.isSome_map], fun args builtFor => ?_⟩
  · rw [Heap.call, callUpTo_forward hbody, hg.callUpTo_eq (by omega)]
  · cases htarget : (h.function target).build with
    | none =>
      -- neither constructs, and both say so under one name
      rw [htarget, Option.map_none] at hbuild
      unfold Heap.construct Heap.constructUpTo
      simp only [hbuild, htarget, hname]
    | some build =>
      rw [htarget, Option.map_some] at hbuild
      rw [Heap.construct, constructUpTo_forward hbuild, hg.constructUpTo_eq (by omega)]
      split
      · rw [construct_self]
      · rfl

/-- A key of a facade leads to a function of the namespace: the exports do not have it. -/
def Names (h : Heap) (f : Nat) (key : Key) (target : Nat) : Prop :=
  h.has (h.facade f).exports key = false ∧ h.get (h.facade f).namespace key = .function target

/-- A key of a facade leads to a function of the exports. -/
def Exported (h : Heap) (f : Nat) (key : Key) (function : Nat) : Prop :=
  h.has (h.facade f).exports key = true ∧ h.get (h.facade f).exports key = .function function

theorem Names.facadeGet {f target : Nat} {key : Key} (hnames : h.Names f key target) :
    h.facadeGet f key = (.function (h.wrapper f target).1, (h.wrapper f target).2) := by
  simp [Heap.facadeGet, hnames.1, hnames.2]

theorem Exported.facadeGet {f function : Nat} {key : Key} (hexported : h.Exported f key function) :
    h.facadeGet f key = (.function function, h) := by
  simp [Heap.facadeGet, hexported.1, hexported.2]

/-- What is handed out for a function is kept for it. -/
theorem lookup_wrapper {f : Nat} (hf : f < h.facades.size) (target : Nat) :
    ((h.wrapper f target).2.facade f).wrappers.lookup target = some (h.wrapper f target).1 := by
  rw [wrapper_eq]
  split
  · next w hw => exact hw
  · next hnew => simp [lookup_wrapped hf, hnew]

theorem course_facadeGet (f : Nat) (key : Key) : Course h (h.facadeGet f key).2 :=
  .single ⟨.read (.facade f) key, ⟨trivial, nofun, nofun⟩, rfl⟩

/-- Another read hands the same wrapper out exactly for the same function. -/
theorem Grounded.wrapper_eq_iff (hg : h.Grounded) {f target w : Nat} (hf : f < h.facades.size)
    (hkept : (h.facade f).wrappers.lookup target = some w) {key : Key} {target' : Nat}
    (hnames : h.Names f key target') : (h.facadeGet f key).1 = .function w ↔ target' = target := by
  have hkept' := ((course_facadeGet f key).extends).wrappers f hf target w hkept
  have hread := lookup_wrapper hf target'
  have hg' := hg.facadeGet f key
  rw [hnames.facadeGet] at hkept' hg' ⊢
  constructor
  · intro hsame
    obtain rfl : (h.wrapper f target').1 = w := by simpa using hsame
    -- one function hands on to both
    have hwrapped := (hg'.wrappers f _ _ hread).2.2.symm.trans (hg'.wrappers f _ _ hkept').2.2
    simpa [Function.wrapped] using congrArg Function.body hwrapped
  · rintro rfl
    simpa using hread.symm.trans hkept'

/-- A namespace that has a function under two keys and a class, exports with the function, and a facade over both. -/
def classDeeds : List Deed :=
  [.function ⟨"z", .receiver, none⟩, .function ⟨"C", .constructOnly, some .signature⟩,
    .bindings [(.text "z", .function 0), (.text "C", .function 1), (.text "also", .function 0)],
    .entries [(.text "own", .function 0)], .facade 1 0]

end Heap

end ScriptVault

import Mathlib.Tactic.Tauto
import ScriptVault.Proofs.Value.Deeds

/-!
# Views — what a facade shows of its two objects

A facade is read in four ways: the value under a key, whether there is one, the own keys and the own property.
The value is looked for along the prototypes of the exports before the namespace is asked at all, the own
property is looked for on the two objects themselves.  The two part where the exports inherit what the
namespace owns, and nowhere else.
-/

namespace ScriptVault.Heap

variable {h : Heap}

/-! ### Own properties and lookups -/

theorem isSome_own_iff {o : Nat} {key : Key} : (h.own? o key).isSome ↔ key ∈ h.ownKeys o :=
  isSome_lookup_iff

/-- An own property is found before any that is inherited. -/
theorem lookup_of_own {o : Nat} {key : Key} {p : Property} (hp : h.own? o key = some p) :
    h.lookup? o key = some p := by
  cases hsize : h.records.size with
  | zero => simp [own?, record, hsize, Record.find?] at hp
  | succ n => simp [lookup?, chain, hsize, chainUpTo, hp]

theorem has_of_own {o : Nat} {key : Key} {p : Property} (hp : h.own? o key = some p) : h.has o key = true := by
  simp [has, lookup_of_own hp]

theorem get_of_own {o : Nat} {key : Key} {p : Property} (hp : h.own? o key = some p) :
    h.get o key = p.value := by
  simp [get, lookup_of_own hp]

theorem get_of_not_has {o : Nat} {key : Key} (hkey : h.has o key = false) : h.get o key = .undefined := by
  have hnone : h.lookup? o key = none := by simpa [has] using hkey
  simp [get, hnone]

/-! ### Wrappers -/

/-- A facade hands a function out for one of its namespace: it keeps the one for the other, and a call of the
one is forwarded. -/
structure Wraps (h : Heap) (f function w : Nat) : Prop where
  kept : (h.facade f).wrappers.lookup function = some w
  known : w < h.functions.size
  forwards : (h.function w).body = .forward f function

/-- Whatever a facade keeps for a function wraps it. -/
def Wrapping (h : Heap) : Prop :=
  ∀ f function w, (h.facade f).wrappers.lookup function = some w → h.Wraps f function w

theorem function_push_lt (function : Function) {w : Nat} (hw : w < h.functions.size) :
    (h.addFunction function).2.function w = h.function w := by
  simp [addFunction, Heap.function, Array.getElem?_push_lt, hw]

/-- Functions that are made do not touch those that are there. -/
theorem Wrapping.mono {h' : Heap} (hh : h.Wrapping) (hfacades : ∀ f, (h'.facade f).wrappers = (h.facade f).wrappers)
    (hsize : h.functions.size ≤ h'.functions.size)
    (hfunctions : ∀ w < h.functions.size, h'.function w = h.function w) : h'.Wrapping := by
  intro f function w hw
  obtain ⟨-, hknown, hforwards⟩ := hh f function w (by rw [← hfacades]; exact hw)
  exact ⟨hw, by omega, by rw [hfunctions w hknown, hforwards]⟩

theorem facade_addFacade (exports names f : Nat) :
    ((h.addFacade exports names).2.facade f).wrappers = (h.facade f).wrappers := by
  rcases Nat.lt_trichotomy f h.facades.size with hf | rfl | hf
  · simp [addFacade, facade, Array.getElem?_push_lt, hf]
  · simp [addFacade, facade]
  · simp [addFacade, facade, Nat.not_lt.2 (Nat.le_of_lt hf), Nat.not_lt.2 hf]

/-- The heap after a facade made its first wrapper of a function. -/
def wrapped (h : Heap) (f function : Nat) : Heap :=
  { h with
    functions := h.functions.push
      { name := (h.function function).name
        body := .forward f function
        build := (h.function function).build.map fun _ => .forward function }
    facades := h.facades.setIfInBounds f
      { h.facade f with wrappers := (h.facade f).wrappers ++ [(function, h.functions.size)] } }

theorem wrapper_eq (h : Heap) (f function : Nat) :
    h.wrapper f function =
      match (h.facade f).wrappers.lookup function with
      | some w => (w, h)
      | none => (h.functions.size, h.wrapped f function) := rfl

theorem wrapped_facade_ne {f f' : Nat} (hf : f' ≠ f) (function : Nat) :
    (h.wrapped f function).facade f' = h.facade f' := by
  simp [wrapped, facade, Ne.symm hf]

theorem lookup_wrapped {f : Nat} (hf : f < h.facades.size) (function target : Nat) :
    ((h.wrapped f function).facade f).wrappers.lookup target =
      ((h.facade f).wrappers.lookup target).or (if target = function then some h.functions.size else none) := by
  have hfacade : (h.wrapped f function).facade f =
      { h.facade f with wrappers := (h.facade f).wrappers ++ [(function, h.functions.size)] } := by
    simp [wrapped, facade, hf]
  rw [hfacade, List.lookup_append, List.lookup_cons]
  by_cases htarget : target = function
  · simp [htarget]
  · simp [beq_eq_false_iff_ne.2 htarget, htarget]

theorem wrapped_out {f : Nat} (hf : ¬ f < h.facades.size) (function f' : Nat) :
    (h.wrapped f function).facade f' = h.facade f' := by
  simp [wrapped, facade, Array.setIfInBounds, hf]

theorem wrapped_function (f function : Nat) :
    ((h.wrapped f function).function h.functions.size).body = .forward f function := by
  simp [wrapped, Heap.function]

theorem wrapped_function_lt (f function : Nat) {w : Nat} (hw : w < h.functions.size) :
    (h.wrapped f function).function w = h.function w := by
  simp [wrapped, Heap.function, Array.getElem?_push_lt, hw]

theorem Wrapping.wrapped (hh : h.Wrapping) {f function : Nat}
    (hnew : (h.facade f).wrappers.lookup function = none) : (h.wrapped f function).Wrapping := by
  have hsize : (h.wrapped f function).functions.size = h.functions.size + 1 := by simp [Heap.wrapped]
  -- a wrapper that was there still is one
  have old {f' target w : Nat} (hold : (h.facade f').wrappers.lookup target = some w) :
      w < (h.wrapped f function).functions.size ∧
        ((h.wrapped f function).function w).body = .forward f' target := by
    obtain ⟨-, hknown, hforwards⟩ := hh f' target w hold
    exact ⟨by omega, by rw [wrapped_function_lt _ _ hknown, hforwards]⟩
  by_cases hf : f < h.facades.size
  · intro f' target w hw
    by_cases hf' : f' = f
    · subst hf'
      have hcases := hw
      rw [lookup_wrapped hf] at hcases
      cases hold : (h.facade f').wrappers.lookup target with
      | some w' =>
        obtain rfl : w' = w := by simpa [hold] using hcases
        exact ⟨hw, (old hold).1, (old hold).2⟩
      | none =>
        obtain ⟨rfl, rfl⟩ : target = function ∧ h.functions.size = w := by simpa [hold] using hcases
        exact ⟨hw, by omega, wrapped_function ..⟩
    · have hold : (h.facade f').wrappers.lookup target = some w := by rwa [wrapped_facade_ne hf'] at hw
      exact ⟨hw, (old hold).1, (old hold).2⟩
  · exact hh.mono (fun f' => by rw [wrapped_out hf]) (by omega) fun w hw => wrapped_function_lt _ _ hw

theorem Wrapping.move {h' : Heap} (hmove : Move h h') (hh : h.Wrapping) : h'.Wrapping := by
  cases hmove with
  | record | amend | tick => exact hh.mono (fun _ => rfl) (Nat.le_refl _) fun _ _ => rfl
  | function function =>
    exact hh.mono (fun _ => rfl) (by simp [addFunction]) fun w hw => function_push_lt function hw
  | facade exports names =>
    exact hh.mono (facade_addFacade exports names) (Nat.le_refl _) fun _ _ => rfl
  | wrapper f function =>
    rw [wrapper_eq]
    split
    · exact hh
    · next hnew => exact hh.wrapped hnew

/-- Whatever is done, facades keep wrappers only. -/
theorem Wrapping.moves {h' : Heap} (hmoves : Moves h h') (hh : h.Wrapping) : h'.Wrapping := by
  induction hmoves with
  | refl => exact hh
  | tail _ hmove ih => exact ih.move hmove

theorem wrapping_empty : Wrapping {} := by
  intro f function w hw
  simp [facade] at hw

/-- What a facade hands out for a function of its namespace wraps it. -/
theorem Wrapping.wraps (hh : h.Wrapping) {f : Nat} (hf : f < h.facades.size) (function : Nat) :
    (h.wrapper f function).2.Wraps f function (h.wrapper f function).1 := by
  have hh' : (h.wrapper f function).2.Wrapping := hh.move (.wrapper f function)
  refine hh' f function _ ?_
  rw [wrapper_eq]
  split
  · next w hw => exact hw
  · next hnew =>
    simp [lookup_wrapped hf, hnew]

/-! ### The four reads -/

theorem mem_facadeKeys_iff {f : Nat} {key : Key} :
    key ∈ h.facadeKeys f ↔ key ∈ h.ownKeys (h.facade f).exports ∨ key ∈ h.ownKeys (h.facade f).namespace := by
  unfold facadeKeys
  dsimp only
  generalize h.ownKeys (h.facade f).exports = keys
  induction h.ownKeys (h.facade f).namespace generalizing keys with
  | nil => simp
  | cons k rest ih =>
    rw [List.foldl_cons, ih, List.mem_cons]
    by_cases hk : k ∈ keys
    · have hcovered : key = k → key ∈ keys := fun h => h ▸ hk
      simp only [List.contains_eq_mem, hk, decide_true, if_true]
      tauto
    · simp only [List.contains_eq_mem, hk, decide_false, Bool.false_eq_true, if_false, List.mem_append,
        List.mem_singleton]
      tauto

theorem facadeOwn_cases {f : Nat} {key : Key} {p : Property} (hp : h.facadeOwn? f key = some p) :
    h.own? (h.facade f).exports key = some p ∨
      h.own? (h.facade f).exports key = none ∧ h.own? (h.facade f).namespace key = some p := by
  unfold facadeOwn? at hp
  cases hown : h.own? (h.facade f).exports key with
  | some q => exact .inl (by simpa [hown] using hp)
  | none => exact .inr ⟨rfl, by simpa [hown] using hp⟩

/-- What is read for a value of the namespace: a function is handed out in a wrapper, all else as it is. -/
def Presents (f : Nat) : Value → Value × Heap → Prop
  | .function function, out => ∃ w, out.1 = .function w ∧ out.2.Wraps f function w
  | v, out => out.1 = v

theorem Wrapping.presents (hh : h.Wrapping) {f : Nat} (hf : f < h.facades.size) {key : Key}
    (hkey : h.has (h.facade f).exports key = false) :
    Presents f (h.get (h.facade f).namespace key) (h.facadeGet f key) := by
  unfold facadeGet
  dsimp only
  rw [hkey]
  simp only [Bool.false_eq_true, if_false]
  generalize h.get (h.facade f).namespace key = v
  cases v with
  | function function => exact ⟨_, rfl, hh.wraps hf function⟩
  | _ => rfl

theorem facadeGet_of_has {f : Nat} {key : Key} (hkey : h.has (h.facade f).exports key = true) :
    (h.facadeGet f key).1 = h.get (h.facade f).exports key := by
  simp [facadeGet, hkey]

/-- The object inherits a property that it does not own. -/
def InheritsOnly (h : Heap) (o : Nat) (key : Key) : Prop := h.own? o key = none ∧ h.has o key = true

/-- A facade has an own property exactly under its own keys, and then it has the key.  What is read there is
what the property holds, a function of the namespace in its wrapper; unless the exports inherit the key only,
when what they inherit is read.  Where a facade has no key, what is read is undefined. -/
theorem facade_reads_agree (hrun : Run {} h) {f : Nat} (hf : f < h.facades.size) (key : Key) :
    ((h.facadeOwn? f key).isSome ↔ key ∈ h.facadeKeys f) ∧
      ((h.facadeOwn? f key).isSome → h.facadeHas f key = true) ∧
      (∀ p, h.facadeOwn? f key = some p → ¬ h.InheritsOnly (h.facade f).exports key →
        if (h.own? (h.facade f).exports key).isSome then (h.facadeGet f key).1 = p.value
        else Presents f p.value (h.facadeGet f key)) ∧
      (h.InheritsOnly (h.facade f).exports key →
        (h.facadeGet f key).1 = h.get (h.facade f).exports key) ∧
      (h.facadeHas f key = false → (h.facadeGet f key).1 = .undefined) := by
  have hh : h.Wrapping := wrapping_empty.moves hrun.moves
  refine ⟨?_, fun hown => ?_, fun p hp hnot => ?_, fun hinherits => facadeGet_of_has hinherits.2,
    fun hnone => ?_⟩
  · rw [mem_facadeKeys_iff, ← isSome_own_iff, ← isSome_own_iff, facadeOwn?]
    cases h.own? (h.facade f).exports key <;> simp
  · obtain ⟨p, hp⟩ := Option.isSome_iff_exists.1 hown
    rcases facadeOwn_cases hp with hexports | ⟨-, hnames⟩
    · simp [facadeHas, has_of_own hexports]
    · simp [facadeHas, has_of_own hnames]
  · rcases facadeOwn_cases hp with hexports | ⟨hnone, hnames⟩
    · rw [hexports, Option.isSome_some, if_pos rfl, facadeGet_of_has (has_of_own hexports),
        get_of_own hexports]
    · have hmissing : h.has (h.facade f).exports key = false := by
        simpa [InheritsOnly, hnone] using hnot
      simpa [hnone, get_of_own hnames] using hh.presents hf hmissing
  · rw [facadeHas, Bool.or_eq_false_iff] at hnone
    have hpresents := hh.presents hf hnone.1
    rwa [get_of_not_has hnone.2] at hpresents

/-- Exports that own `y` and inherit `x`, a namespace with `x` and a function `z`, and a facade over both. -/
def shadowedDeeds : List Deed :=
  [.entries [(.text "x", .text "inherited")], .object (some 0), .function ⟨"z", .receiver, none⟩,
    .bindings [(.text "x", .text "own"), (.text "z", .function 0)], .facade 1 2,
    .change (.facade 0) (.set (.text "y") (.text "exported"))]

/-- The facade reads what the exports own and, in its wrapper, what only the namespace has. -/
theorem facade_reads_agree_shadowed :
    Run {} (perform {} shadowedDeeds) ∧ 0 < (perform {} shadowedDeeds).facades.size ∧
      ((perform {} shadowedDeeds).facadeGet 0 (.text "y")).1 = .text "exported" ∧
      Presents 0 (.function 0) ((perform {} shadowedDeeds).facadeGet 0 (.text "z")) := by
  have hrun : Run {} (perform {} shadowedDeeds) := run_perform (by decide +kernel)
  have hf : 0 < (perform {} shadowedDeeds).facades.size := by decide +kernel
  refine ⟨hrun, hf, ?_, ?_⟩
  · have hy := (facade_reads_agree hrun hf (.text "y")).2.2.1 { value := .text "exported" } rfl
      (fun h => nomatch h.1)
    exact hy
  · have hz := (facade_reads_agree hrun hf (.text "z")).2.2.1 { value := .function 0, configurable := false } rfl
      (fun h => nomatch h.2)
    exact hz

/-- Where the exports inherit what the namespace owns, what is read is not what the own property holds. -/
theorem facade_reads_inherited :
    ¬ ∀ (h : Heap) (f : Nat) (key : Key) (p : Property), Run {} h → f < h.facades.size →
      h.facadeOwn? f key = some p → (∀ function, p.value ≠ .function function) →
        (h.facadeGet f key).1 = p.value := by
  intro hall
  have hread := hall (perform {} shadowedDeeds) 0 (.text "x") { value := .text "own", configurable := false }
    (run_perform (by decide +kernel)) (by decide +kernel) rfl (fun _ h => nomatch h)
  have : (.text "inherited" : Value) = .text "own" := hread
  simp at this

end ScriptVault.Heap

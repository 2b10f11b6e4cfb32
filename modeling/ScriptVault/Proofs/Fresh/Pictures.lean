import Mathlib.Data.List.Forall2
import Mathlib.Data.List.Induction
import Mathlib.Logic.Function.Basic
import ScriptVault.Proofs.Fresh.Meaning
import ScriptVault.Proofs.Value.Exports

/-!
# Pictures — the exports of a module as a tree

The exports of a module have one property for each specifier that it calls for, which holds the exports of the
module that the specifier leads to.  So the exports picture the module by its meaning; two pictures of one
module are the same tree, wherever their objects are kept.
-/

namespace ScriptVault.Host

/-! ### Exports objects -/

/-- The keys that calls leave in the exports, each where it came first. -/
def keysOf (calls : List Script.Call) : List String :=
  calls.foldl (fun keys call => if call.specifier ∈ keys then keys else keys ++ [call.specifier]) []

@[simp] theorem keysOf_nil : keysOf [] = [] := rfl

theorem keysOf_concat (calls : List Script.Call) (call : Script.Call) :
    keysOf (calls ++ [call]) =
      if call.specifier ∈ keysOf calls then keysOf calls else keysOf calls ++ [call.specifier] := by
  rw [keysOf, List.foldl_append]
  rfl

theorem mem_keysOf {calls : List Script.Call} {s : String} : s ∈ keysOf calls ↔ ∃ c ∈ calls, c.specifier = s := by
  induction calls using List.reverseRecOn with
  | nil => simp
  | append_singleton calls call ih =>
    have hmem : s ∈ keysOf (calls ++ [call]) ↔ s ∈ keysOf calls ∨ s = call.specifier := by
      rw [keysOf_concat]
      split
      · next h => exact ⟨Or.inl, fun hs => hs.elim id fun he => he ▸ h⟩
      · rw [List.mem_append, List.mem_singleton]
    rw [hmem, ih]
    simp only [List.mem_append, List.mem_singleton]
    constructor
    · rintro (⟨c, hc, he⟩ | rfl)
      · exact ⟨c, Or.inl hc, he⟩
      · exact ⟨call, Or.inr rfl, rfl⟩
    · rintro ⟨c, hc | rfl, he⟩
      · exact Or.inl ⟨c, hc, he⟩
      · exact Or.inr he.symm

/-- The exports of a module with what some keys hold. -/
def exportsRecord (tag : Property) (keys : List String) (val : String → Value) : Record :=
  { properties := (.tag, tag) :: keys.map fun s => (.text s, { value := val s }) }

/-- The exports of a module are not its own object. -/
theorem exportsRecord_ne_moduleRecord (tag : Property) (keys : List String) (val : String → Value) (p : Nat) :
    exportsRecord tag keys val ≠ moduleRecord p := by
  intro h
  cases congrArg Record.properties h

theorem lookup_keys (keys : List String) (val : String → Value) (s : String) :
    (keys.map fun s => ((.text s, { value := val s }) : Key × Property)).lookup (.text s) =
      if s ∈ keys then some { value := val s } else none := by
  induction keys with
  | nil => rfl
  | cons k keys ih =>
    rw [List.map_cons]
    by_cases hk : s = k
    · subst hk; simp
    · have : (Key.text s == Key.text k) = false := by simpa using hk
      rw [List.lookup_cons, this]
      simp only [ih, List.mem_cons, hk, false_or]

theorem find?_exportsRecord (tag : Property) (keys : List String) (val : String → Value) (s : String) :
    (exportsRecord tag keys val).find? (.text s) = if s ∈ keys then some { value := val s } else none := by
  rw [← lookup_keys]
  rfl

theorem replace_keys (keys : List String) (hkeys : keys.Nodup) (val : String → Value) (s : String) (v : Value)
    (hs : s ∈ keys) :
    Record.replace (.text s) { value := v } (keys.map fun s => ((.text s, { value := val s }) : Key × Property)) =
      keys.map fun k => (.text k, { value := Function.update val s v k }) := by
  induction keys with
  | nil => cases hs
  | cons k keys ih =>
    obtain ⟨hk, hrest⟩ := List.nodup_cons.1 hkeys
    rw [List.map_cons, Record.replace]
    by_cases he : k = s
    · subst he
      rw [if_pos rfl, List.map_cons, Function.update_self]
      congr 1
      refine List.map_congr_left fun j hj => ?_
      rw [Function.update_of_ne (ne_of_mem_of_not_mem hj hk)]
    · rw [if_neg (by simpa using he), List.map_cons, Function.update_of_ne he]
      rw [ih hrest ((List.mem_cons.1 hs).resolve_left (Ne.symm he))]

theorem nodup_keysOf (calls : List Script.Call) : (keysOf calls).Nodup := by
  induction calls using List.reverseRecOn with
  | nil => exact List.nodup_nil
  | append_singleton calls call ih =>
    rw [keysOf_concat]
    split
    · exact ih
    · next h =>
      refine List.nodup_append.2 ⟨ih, by simp, fun a ha b hb => ?_⟩
      rw [List.mem_singleton.1 hb]
      exact ne_of_mem_of_not_mem ha h

/-- A call leaves what it gave in the exports under its specifier. -/
theorem set_exports {heap : Heap} {p : Nat} {tag : Property} {calls : List Script.Call} {val : String → Value}
    (hp : heap.record p = exportsRecord tag (keysOf calls) val) (call : Script.Call) (v : Value) :
    (heap.set p (.text call.specifier) v).2 =
      heap.putRecord p
        (exportsRecord tag (keysOf (calls ++ [call])) (Function.update val call.specifier v)) := by
  rw [keysOf_concat, Heap.set, hp, find?_exportsRecord]
  dsimp only
  by_cases hs : call.specifier ∈ keysOf calls
  · rw [if_pos hs, if_pos hs]
    refine congrArg (heap.putRecord p) ?_
    have htag : Record.replace (.text call.specifier) { value := v }
        (exportsRecord tag (keysOf calls) val).properties =
          (.tag, tag) :: Record.replace (.text call.specifier) { value := v }
            ((keysOf calls).map fun s => (.text s, { value := val s })) := rfl
    simp only [htag, replace_keys _ (nodup_keysOf calls) val _ v hs]
    rfl
  · rw [if_neg hs, if_neg hs]
    refine congrArg (heap.putRecord p) ?_
    unfold exportsRecord
    simp only [List.map_append, List.map_cons, List.map_nil, Function.update_self, List.cons_append]
    congr 3
    refine List.map_congr_left fun k hk => ?_
    rw [Function.update_of_ne (ne_of_mem_of_not_mem hk hs)]

/-- To close the exports of a module changes their tag. -/
theorem define_exports {heap : Heap} {p : Nat} {keys : List String} {val : String → Value}
    (hp : heap.record p = exportsRecord openTag keys val) :
    (heap.define p .tag closedTag).2 = heap.putRecord p (exportsRecord closedTag keys val) := by
  rw [Heap.define, hp]
  rfl

/-! ### Pictures -/

/-- A value stands for a module: it is what the module is, or the exports of the module. -/
def Stands (own : Nat → Option Resolved) (t : Resolved) (v : Value) : Prop :=
  t.value = some v ∨ (t.value = none ∧ ∃ p, v = .object p ∧ own p = some t)

/-- The exports of a module hold what its calls lead to. -/
def Complete (m : Meaning) (own : Nat → Option Resolved) (heap : Heap) (p : Nat) (r : Resolved) : Prop :=
  ∃ calls val, m.calls r = .ok calls ∧ heap.record p = exportsRecord closedTag (keysOf calls) val ∧
    ∀ c ∈ calls, ∃ t, m.Leads r c.specifier t ∧ Stands own t (val c.specifier)

/-- A value is the picture of a module: its exports with the pictures of all that it calls for. -/
def Pictures (m : Meaning) (heap : Heap) (t : Resolved) (v : Value) : Prop :=
  ∃ own, (∀ p r, own p = some r → Complete m own heap p r) ∧ Stands own t v

/-- Two values are the same but for objects, which are as they should be. -/
def Alike (same : Nat → Nat → Prop) (v v' : Value) : Prop :=
  v = v' ∨ ∃ p q, v = .object p ∧ v' = .object q ∧ same p q

/-- Two properties have the same key, the same flags and like values. -/
def LikeProperty (same : Nat → Nat → Prop) (a b : Key × Property) : Prop :=
  a.1 = b.1 ∧ { a.2 with value := b.2.value } = b.2 ∧ Alike same a.2.value b.2.value

/-- Two values are the same tree: there is a way to match their objects, each with the same properties in the same
order. -/
def SameTree (heap : Heap) (v : Value) (heap' : Heap) (v' : Value) : Prop :=
  ∃ same : Nat → Nat → Prop, Alike same v v' ∧ ∀ p q, same p q →
    List.Forall₂ (LikeProperty same) (heap.record p).properties (heap'.record q).properties ∧
      (heap.record p).prototype = (heap'.record q).prototype ∧
      (heap.record p).extensible = (heap'.record q).extensible

theorem Stands.mono {own own' : Nat → Option Resolved} {t : Resolved} {v : Value} (h : Stands own t v)
    (hown : ∀ p, own p = some t → own' p = some t) : Stands own' t v := by
  rcases h with hv | ⟨hv, p, hp, ho⟩
  · exact Or.inl hv
  · exact Or.inr ⟨hv, p, hp, hown p ho⟩

theorem Complete.mono {m : Meaning} {own own' : Nat → Option Resolved} {heap heap' : Heap} {p : Nat} {r : Resolved}
    (h : Complete m own heap p r) (hheap : heap'.record p = heap.record p)
    (hown : ∀ q t, own q = some t → own' q = some t) : Complete m own' heap' p r := by
  obtain ⟨calls, val, hcalls, hp, hall⟩ := h
  refine ⟨calls, val, hcalls, hheap.trans hp, fun c hc => ?_⟩
  obtain ⟨t, ht, hs⟩ := hall c hc
  exact ⟨t, ht, hs.mono fun q => hown q t⟩

/-- Two pictures of one module are the same tree. -/
theorem Pictures.sameTree {m : Meaning} {heap heap' : Heap} {t : Resolved} {v v' : Value}
    (h : Pictures m heap t v) (h' : Pictures m heap' t v') : SameTree heap v heap' v' := by
  obtain ⟨own, hown, hv⟩ := h
  obtain ⟨own', hown', hv'⟩ := h'
  -- objects match if they picture the same module
  have alike {t : Resolved} {v v' : Value} (hv : Stands own t v) (hv' : Stands own' t v') :
      Alike (fun p q => ∃ r, own p = some r ∧ own' q = some r) v v' := by
    rcases hv with hv | ⟨hn, p, rfl, hp⟩ <;> rcases hv' with hv' | ⟨hn', q, rfl, hq⟩
    · exact Or.inl (Option.some.inj (hv.symm.trans hv'))
    · cases hn'.symm.trans hv
    · cases hn.symm.trans hv'
    · exact Or.inr ⟨p, q, rfl, rfl, t, hp, hq⟩
  refine ⟨_, alike hv hv', ?_⟩
  rintro p q ⟨r, hp, hq⟩
  obtain ⟨calls, val, hcalls, hrecord, hall⟩ := hown p r hp
  obtain ⟨calls', val', hcalls', hrecord', hall'⟩ := hown' q r hq
  cases hcalls.symm.trans hcalls'
  rw [hrecord, hrecord']
  refine ⟨List.Forall₂.cons ⟨rfl, rfl, Or.inl rfl⟩ ?_, rfl, rfl⟩
  refine List.forall₂_map_left_iff.2 (List.forall₂_map_right_iff.2 (List.forall₂_same.2 fun s hs => ?_))
  obtain ⟨c, hc, rfl⟩ := mem_keysOf.1 hs
  obtain ⟨u, hu, hs⟩ := hall c hc
  obtain ⟨u', hu', hs'⟩ := hall' c hc
  cases hu.unique hu'
  exact ⟨rfl, rfl, alike hs hs'⟩

end ScriptVault.Host

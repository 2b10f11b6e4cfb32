import Mathlib
import ScriptVault.Proofs.Value.Deeds

/-!
# Lasting — what flags promise for good

An object that is not extensible gets no key and no other prototype any more; a property that is not
configurable stays with its flags, and with its value when it is not writable either.  What holds of one
change holds of every run, since what an object promises is never less afterwards.
-/

namespace ScriptVault

/-! ### The same value -/

theorem isNegative_zero : Decimal.isNegative 0 ≠ Decimal.isNegative (-0) := by decide +kernel

/-- Two values are the same exactly when they are equal: there is one number that is none, and the two zeros
are two numbers. -/
theorem Value.same_iff {a b : Value} : a.same b = true ↔ a = b := by
  cases a <;> cases b <;> simp only [Value.same, beq_iff_eq, Value.bool.injEq, Value.text.injEq,
    Value.object.injEq, Value.function.injEq, Value.facade.injEq, Value.number.injEq, reduceCtorEq,
    Bool.false_eq_true]
  case number.number x y =>
    have hzero := isNegative_zero
    simp only [Bool.or_eq_true, Bool.and_eq_true, Float.isNaN_eq_decide_eq_nan, decide_eq_true_eq,
      Float.beq_iff_ne_nan_and_eq, beq_iff_eq]
    grind

/-! ### What is promised -/

/-- A property that is not configurable goes on as another. -/
structure Property.Lasts (p q : Property) : Prop where
  configurable : q.configurable = false
  enumerable : q.enumerable = p.enumerable
  frozen : p.writable = false → q.writable = false ∧ q.value.same p.value = true

/-- An object goes on as another. -/
structure Record.Lasts (r s : Record) : Prop where
  closed : r.extensible = false → s.extensible = false
  keys : r.extensible = false → (s.properties.map Prod.fst).Sublist (r.properties.map Prod.fst)
  prototype : r.extensible = false → s.prototype = r.prototype
  locked : ∀ key p, r.find? key = some p → p.configurable = false → ∃ q, s.find? key = some q ∧ p.Lasts q

namespace Property

theorem Lasts.refl {p : Property} (hp : p.configurable = false) : p.Lasts p :=
  ⟨hp, rfl, fun hw => ⟨hw, Value.same_iff.mpr rfl⟩⟩

theorem Lasts.trans {p q r : Property} (hpq : p.Lasts q) (hqr : q.Lasts r) : p.Lasts r where
  configurable := hqr.configurable
  enumerable := hqr.enumerable.trans hpq.enumerable
  frozen hp := by
    obtain ⟨hq, hpq⟩ := hpq.frozen hp
    obtain ⟨hr, hqr⟩ := hqr.frozen hq
    rw [Value.same_iff] at hpq hqr
    exact ⟨hr, Value.same_iff.mpr (hqr.trans hpq)⟩

/-- A redefinition that a property allows is one as which it goes on. -/
theorem Lasts.of_allows {p q : Property} (hallows : Heap.Property.allows p q = true) (hp : p.configurable = false) :
    p.Lasts q := by
  simp only [Heap.Property.allows, hp, Bool.false_or, Bool.and_eq_true, Bool.not_eq_true', beq_iff_eq,
    Bool.or_eq_true] at hallows
  obtain ⟨⟨⟨hconfigurable, henumerable⟩, hwritable⟩, hvalue⟩ := hallows
  refine ⟨hconfigurable, henumerable, fun hw => ?_⟩
  simp only [hw, Bool.false_eq_true, false_or] at hwritable hvalue
  exact ⟨hwritable, hvalue⟩

/-- A frozen property goes on as it is. -/
theorem Lasts.eq_of_frozen {v : Value} {q : Property} (hq : (Property.frozen v).Lasts q) : q = .frozen v := by
  obtain ⟨hwritable, hvalue⟩ := hq.frozen rfl
  obtain ⟨value, writable, enumerable, configurable⟩ := q
  obtain rfl : value = v := Value.same_iff.1 hvalue
  obtain rfl : writable = false := hwritable
  obtain rfl : enumerable = false := hq.enumerable
  obtain rfl : configurable = false := hq.configurable
  rfl

end Property

namespace Record

/-! ### Lists of properties -/

theorem lookup_replace_self {key : Key} {old : Property} (new : Property) {properties : List (Key × Property)}
    (hfound : properties.lookup key = some old) : (replace key new properties).lookup key = some new := by
  induction properties with
  | nil => cases hfound
  | cons entry rest ih =>
    obtain ⟨k, q⟩ := entry
    rw [replace]
    split
    · next hk => rw [hk, List.lookup_cons_self]
    · next hk =>
      have hne : (key == k) = false := by simpa using Ne.symm hk
      rw [List.lookup_cons, hne] at hfound ⊢
      exact ih hfound

theorem keys_replace (key : Key) (new : Property) (properties : List (Key × Property)) :
    (replace key new properties).map Prod.fst = properties.map Prod.fst := by
  induction properties with
  | nil => rfl
  | cons entry rest ih =>
    rw [replace]
    split
    · rfl
    · exact congrArg (entry.1 :: ·) ih

theorem mem_replace {key : Key} {p : Property} {properties : List (Key × Property)} {entry : Key × Property}
    (hentry : entry ∈ replace key p properties) : entry ∈ properties ∨ entry = (key, p) := by
  induction properties with
  | nil => cases hentry
  | cons first rest ih =>
    rw [replace] at hentry
    split at hentry
    · next hkey =>
      rcases List.mem_cons.1 hentry with rfl | hrest
      · exact .inr (by rw [hkey])
      · exact .inl (List.mem_cons_of_mem _ hrest)
    · rcases List.mem_cons.1 hentry with rfl | hrest
      · exact .inl List.mem_cons_self
      · exact (ih hrest).imp_left (List.mem_cons_of_mem _)

theorem without_sublist (key : Key) (properties : List (Key × Property)) :
    (without key properties).Sublist properties := by
  induction properties with
  | nil => exact .slnil
  | cons entry rest ih =>
    rw [without]
    split
    · exact .cons _ (.refl _)
    · exact .cons_cons _ ih

theorem lookup_without_ne {key k : Key} (hk : k ≠ key) (properties : List (Key × Property)) :
    (without key properties).lookup k = properties.lookup k := by
  induction properties with
  | nil => rfl
  | cons entry rest ih =>
    obtain ⟨j, q⟩ := entry
    rw [without]
    split
    · next hj =>
      have hne : (k == j) = false := by rw [hj]; simpa using hk
      rw [List.lookup_cons, hne]
    · rw [List.lookup_cons, List.lookup_cons, ih]

/-! ### Objects -/

/-- An object on which nothing was promised. -/
theorem Lasts.of_blank (r : Record) : Lasts {} r where
  closed h := nomatch h
  keys h := nomatch h
  prototype h := nomatch h
  locked _ _ h := nomatch h

theorem Lasts.refl (r : Record) : r.Lasts r :=
  ⟨id, fun _ => .refl _, fun _ => rfl, fun _ p hfound hp => ⟨p, hfound, .refl hp⟩⟩

theorem Lasts.trans {r s t : Record} (hrs : r.Lasts s) (hst : s.Lasts t) : r.Lasts t where
  closed h := hst.closed (hrs.closed h)
  keys h := (hst.keys (hrs.closed h)).trans (hrs.keys h)
  prototype h := (hst.prototype (hrs.closed h)).trans (hrs.prototype h)
  locked key p hfound hp := by
    obtain ⟨q, hq, hpq⟩ := hrs.locked key p hfound hp
    obtain ⟨r, hr, hqr⟩ := hst.locked key q hq hpq.configurable
    exact ⟨r, hr, hpq.trans hqr⟩

/-- Nothing but a property is touched, and what it was allows what it becomes. -/
theorem Lasts.of_properties {r : Record} {properties : List (Key × Property)}
    (hkeys : r.extensible = false → (properties.map Prod.fst).Sublist (r.properties.map Prod.fst))
    (hlocked : ∀ key p, r.find? key = some p → p.configurable = false →
      ∃ q, properties.lookup key = some q ∧ p.Lasts q) :
    r.Lasts { r with properties := properties } :=
  ⟨id, hkeys, fun _ => rfl, hlocked⟩

end Record

namespace Heap

/-! ### Steps and runs -/

/-- What an object becomes by a change keeps what it promised. -/
theorem Amends.lasts {h : Heap} {o : Nat} {c : Change} {r : Record} (hr : Amends h o c r) :
    (h.record o).Lasts r := by
  cases hr with
  | @rewritten _ key old new hfound hallowed _ =>
    refine .of_properties (fun _ => by rw [Record.keys_replace]) fun k p hp hlocked => ?_
    by_cases hk : k = key
    · subst hk
      obtain rfl : old = p := Option.some.inj (hfound.symm.trans hp)
      exact ⟨new, Record.lookup_replace_self new hfound, .of_allows hallowed hlocked⟩
    · exact ⟨p, (lookup_replace_ne hk new _).trans hp, .refl hlocked⟩
  | @added _ key new hmissing hextensible _ =>
    refine .of_properties (fun h => absurd hextensible (by simp [h])) fun k p hp hlocked => ?_
    have hk : k ≠ key := fun hk => by subst hk; rw [hmissing] at hp; cases hp
    exact ⟨p, (lookup_concat_ne hk new _).trans hp, .refl hlocked⟩
  | @removed _ key old hfound hconfigurable =>
    refine .of_properties (fun _ => (Record.without_sublist key _).map _) fun k p hp hlocked => ?_
    have hk : k ≠ key := fun hk => by
      subst hk
      obtain rfl : old = p := Option.some.inj (hfound.symm.trans hp)
      simp [hlocked] at hconfigurable
    exact ⟨p, (Record.lookup_without_ne hk _).trans hp, .refl hlocked⟩
  | inherits hextensible _ =>
    exact ⟨id, fun _ => .refl _, fun h => absurd hextensible (by simp [h]),
      fun _ p hp hlocked => ⟨p, hp, .refl hlocked⟩⟩
  | closed =>
    exact ⟨fun _ => rfl, fun _ => .refl _, fun _ => rfl, fun _ p hp hlocked => ⟨p, hp, .refl hlocked⟩⟩

/-- All objects keep what they promised. -/
theorem kept_lasts : Kept fun h h' => ∀ o, (h.record o).Lasts (h'.record o) where
  refl h o := .refl _
  trans hab hbc o := (hab o).trans (hbc o)
  rest heq o := by rw [record, record, heq]; exact .refl _
  add {h r} _ o := by
    by_cases ho : o < h.records.size
    · have hsame : (h.addRecord r).2.record o = h.record o := by
        simp [addRecord, record, Array.getElem?_push_lt, ho]
      rw [hsame]
      exact .refl _
    · have hblank : h.record o = {} := by simp [record, ho]
      rw [hblank]
      exact .of_blank _
  amend {h c o r} ho _ hr q := by
    rw [record_putRecord h ho]
    split
    · next hq => rw [hq]; exact hr.lasts
    · exact .refl _

/-- **What flags promise lasts.** From any heap on, whatever is done: an object that is not extensible stays
so, gets no key and keeps its prototype; a property that is not configurable is never removed and stays so,
as listed or unlisted as it was; if it is not writable either it stays so, with the same value.  And what
is refused changes nothing at all. -/
theorem promises_last {h h' : Heap} (hrun : Run h h') :
    (∀ o, (h.record o).Lasts (h'.record o)) ∧ ∀ d : Deed, (d.run h').1 = false → (d.run h').2 = h' :=
  ⟨kept_lasts.run hrun, fun _ => run_refused⟩

/-- An object gets a frozen property and is closed. -/
def sealedHeap : Heap :=
  perform {} [.object none, .change (.object 0) (.define (.text "x") (.frozen (.text "a"))),
    .change (.object 0) .preventExtensions]

/-- An object that inherits from it is refused a property of that name, and loses it again. -/
def sealedDeeds : List Deed :=
  [.object (some 0), .change (.object 1) (.set (.text "x") .null), .change (.object 0) (.delete (.text "x")),
    .change (.object 1) (.setPrototype none)]

/-- The promises of a closed object with a frozen property. -/
theorem promises_last_sealed :
    Run sealedHeap (sealedHeap.perform sealedDeeds) ∧
      (sealedHeap.record 0).Lasts ((sealedHeap.perform sealedDeeds).record 0) ∧
      (Deed.run (sealedHeap.perform sealedDeeds) (.change (.object 0) (.set (.text "y") .null))).2 =
        sealedHeap.perform sealedDeeds := by
  have hrun : Run sealedHeap (sealedHeap.perform sealedDeeds) := run_perform (by decide +kernel)
  exact ⟨hrun, (promises_last hrun).1 0, (promises_last hrun).2 _ rfl⟩

/-! ### Namespaces of modules

The bindings of a module are put in one after another, each in the place of an earlier one of its name, and the tag of
the namespace is put behind them whatever they are. -/

/-- A binding of a module. -/
def binding (value : Value) : Property :=
  { value := value, writable := true, enumerable := true, configurable := false }

theorem bindings_concat (entries : List (Key × Value)) (key : Key) (value : Value) :
    bindings (entries ++ [(key, value)]) =
      if ((bindings entries).lookup key).isSome then Record.replace key (binding value) (bindings entries)
      else bindings entries ++ [(key, binding value)] := by
  rw [bindings, List.foldl_append]
  rfl

/-- Each name is bound once, in the order in which the names first come. -/
theorem keys_bindings (entries : List (Key × Value)) :
    (bindings entries).map Prod.fst = (entries.map Prod.fst).eraseDups := by
  induction entries using List.reverseRecOn with
  | nil => rfl
  | append_singleton entries entry ih =>
    rw [bindings_concat, List.map_append, List.map_singleton, List.eraseDups_append, ← ih]
    by_cases hknown : entry.1 ∈ entries.map Prod.fst
    · have hbound : ((bindings entries).lookup entry.1).isSome := by
        rwa [isSome_lookup_iff, ih, List.mem_eraseDups]
      rw [if_pos hbound, Record.keys_replace]
      simp [List.removeAll, hknown]
    · have hfree : ¬ ((bindings entries).lookup entry.1).isSome := by
        rwa [isSome_lookup_iff, ih, List.mem_eraseDups]
      rw [if_neg hfree, List.map_append, List.map_singleton]
      simp [List.removeAll, hknown, List.eraseDups_cons]

theorem mem_keys_bindings {entries : List (Key × Value)} {key : Key} :
    key ∈ (bindings entries).map Prod.fst ↔ key ∈ entries.map Prod.fst := by
  rw [keys_bindings, List.mem_eraseDups]

theorem nodup_bindings (entries : List (Key × Value)) : ((bindings entries).map Prod.fst).Nodup := by
  induction entries using List.reverseRecOn with
  | nil => exact List.nodup_nil
  | append_singleton entries entry ih =>
    rw [bindings_concat]
    split
    · rwa [Record.keys_replace]
    · next hfree =>
      rw [isSome_lookup_iff] at hfree
      rw [List.map_append, List.map_singleton, ← List.concat_eq_append]
      exact ih.concat hfree

/-- A name is bound to the value that came last. -/
theorem lookup_bindings (entries : List (Key × Value)) (key : Key) :
    (bindings entries).lookup key = (entries.reverse.lookup key).map binding := by
  induction entries using List.reverseRecOn with
  | nil => rfl
  | append_singleton entries entry ih =>
    rw [bindings_concat, List.reverse_append, List.reverse_singleton, List.singleton_append]
    by_cases hkey : key = entry.1
    · subst hkey
      rw [List.lookup_cons_self, Option.map_some]
      split
      · next hbound =>
        obtain ⟨old, hold⟩ := Option.isSome_iff_exists.1 hbound
        exact Record.lookup_replace_self _ hold
      · next hfree =>
        rw [List.lookup_append, Option.not_isSome_iff_eq_none.1 hfree, Option.none_or, List.lookup_cons_self]
    · rw [List.lookup_cons, beq_eq_false_iff_ne.2 hkey, ← ih]
      split
      · exact lookup_replace_ne hkey _ _
      · exact lookup_concat_ne hkey _ _

/-- What is bound was given. -/
theorem mem_bindings {entries : List (Key × Value)} {bound : Key × Property} (hbound : bound ∈ bindings entries) :
    ∃ entry ∈ entries, bound = (entry.1, binding entry.2) := by
  induction entries using List.reverseRecOn with
  | nil => cases hbound
  | append_singleton entries entry ih =>
    have hcases : bound ∈ bindings entries ∨ bound = (entry.1, binding entry.2) := by
      rw [bindings_concat] at hbound
      split at hbound
      · exact Record.mem_replace hbound
      · exact (List.mem_append.1 hbound).imp_right List.mem_singleton.1
    obtain hold | hnew := hcases
    · obtain ⟨e, he, heq⟩ := ih hold
      exact ⟨e, List.mem_append_left _ he, heq⟩
    · exact ⟨entry, List.mem_append_right _ (List.mem_singleton_self entry), hnew⟩

/-- The object of a module holds what it was made of, and its tag. -/
theorem mem_moduleRecord {entries : List (Key × Value)} {bound : Key × Property}
    (hbound : bound ∈ (moduleRecord entries).properties) :
    (∃ entry ∈ entries, bound = (entry.1, binding entry.2)) ∨ bound = (.tag, .frozen (.text "Module")) :=
  (List.mem_append.1 hbound).imp mem_bindings List.mem_singleton.1

end Heap

/-- Nothing can be added to an object and nothing removed from it. -/
structure Record.Sealed (r : Record) : Prop where
  closed : r.extensible = false
  locked : ∀ entry ∈ r.properties, entry.2.configurable = false

/-- An object has the same keys in the same order and the same prototype as another. -/
structure Record.SameShape (r s : Record) : Prop where
  keys : s.properties.map Prod.fst = r.properties.map Prod.fst
  prototype : s.prototype = r.prototype

namespace Heap

variable {h h' : Heap}

theorem sealed_moduleRecord (entries : List (Key × Value)) : (moduleRecord entries).Sealed where
  closed := rfl
  locked bound hbound := by
    obtain ⟨entry, -, rfl⟩ | rfl := mem_moduleRecord hbound <;> rfl

/-- What can be changed of a sealed object are values and whether they can be changed. -/
theorem Amends.sealed {o : Nat} {c : Change} {r : Record} (hr : Amends h o c r) (hsealed : (h.record o).Sealed) :
    r.Sealed ∧ (h.record o).SameShape r := by
  have found {key : Key} {old : Property} (hold : (h.record o).find? key = some old) : old.configurable = false := by
    obtain ⟨before, after, hsplit, -⟩ := List.lookup_eq_some_iff.1 hold
    exact hsealed.locked (key, old) (by rw [hsplit]; simp)
  cases hr with
  | @rewritten _ key old new hfound hallowed _ =>
    refine ⟨⟨hsealed.closed, fun entry hentry => ?_⟩, Record.keys_replace .., rfl⟩
    obtain hold | hnew := Record.mem_replace hentry
    · exact hsealed.locked entry hold
    · rw [hnew]
      exact (Property.Lasts.of_allows hallowed (found hfound)).configurable
  | added _ hextensible _ => exact absurd hextensible (by simp [hsealed.closed])
  | removed hfound hconfigurable => exact absurd hconfigurable (by simp [found hfound])
  | inherits hextensible _ => exact absurd hextensible (by simp [hsealed.closed])
  | closed => exact ⟨⟨rfl, hsealed.locked⟩, rfl, rfl⟩

/-- Sealed objects stay so, whatever is done, and keep their shape. -/
theorem kept_sealed : Kept fun h h' => ∀ o, (h.record o).Sealed →
    (h'.record o).Sealed ∧ (h.record o).SameShape (h'.record o) where
  refl h o hsealed := ⟨hsealed, rfl, rfl⟩
  trans hab hbc o hsealed := by
    obtain ⟨hb, hkeys, hprototype⟩ := hab o hsealed
    obtain ⟨hc, hkeys', hprototype'⟩ := hbc o hb
    exact ⟨hc, hkeys'.trans hkeys, hprototype'.trans hprototype⟩
  rest heq o hsealed := by rw [record, record, heq]; exact ⟨hsealed, rfl, rfl⟩
  add {h r} _ o hsealed := by
    have ho : o < h.records.size := by
      by_contra ho
      have hblank : h.record o = {} := by simp [record, ho]
      have hclosed := hsealed.closed
      rw [hblank] at hclosed
      cases hclosed
    have hsame : (h.addRecord r).2.record o = h.record o := by simp [addRecord, record, Array.getElem?_push_lt, ho]
    rw [hsame]
    exact ⟨hsealed, rfl, rfl⟩
  amend {h c o r} ho _ hr q hsealed := by
    rw [record_putRecord h ho]
    split
    · next hq =>
      subst hq
      exact hr.sealed hsealed
    · exact ⟨hsealed, rfl, rfl⟩

/-! ### The tag -/

/-- An own property of the object of a module is the last binding, and under its tag else the tag. -/
theorem own_moduleRecord (entries : List (Key × Value)) (key : Key) :
    (moduleRecord entries).find? key =
      ((entries.reverse.lookup key).map binding).or (if key = .tag then some (.frozen (.text "Module")) else none) := by
  rw [Record.find?, moduleRecord, List.lookup_append, lookup_bindings, List.lookup_cons]
  by_cases hkey : key = .tag
  · simp [hkey]
  · simp [hkey, beq_eq_false_iff_ne.2 hkey]

/-- The heap after the namespace of a module was made, as the last of its objects. -/
def withNamespace (h : Heap) (entries : List (Key × Value)) : Heap := (h.addRecord (moduleRecord entries)).2

theorem record_withNamespace (h : Heap) (entries : List (Key × Value)) :
    (h.withNamespace entries).record h.records.size = moduleRecord entries :=
  record_push h _

/-- The keys are told apart exactly if no binding goes under the tag. -/
theorem nodup_keys_iff (entries : List (Key × Value)) :
    ((moduleRecord entries).properties.map Prod.fst).Nodup ↔ .tag ∉ entries.map Prod.fst := by
  rw [← mem_keys_bindings, moduleRecord, List.map_append, List.map_singleton, ← List.concat_eq_append]
  refine ⟨fun hnodup htag => ?_, (nodup_bindings entries).concat⟩
  rw [List.concat_eq_append, List.nodup_append] at hnodup
  exact hnodup.2.2 .tag htag .tag (List.mem_singleton_self _) rfl

/-- The tag is locked exactly if no binding goes under it. -/
theorem find_tag_iff (entries : List (Key × Value)) :
    (moduleRecord entries).find? .tag = some (.frozen (.text "Module")) ↔ .tag ∉ entries.map Prod.fst := by
  rw [own_moduleRecord, if_pos rfl]
  rw [← mem_keys_bindings, ← isSome_lookup_iff, lookup_bindings]
  cases entries.reverse.lookup .tag <;> simp [binding, Property.frozen]

/-- The namespace of a module has the names of its bindings, each once in the order in which they first come, and behind
them the tag; each binding holds the value that came last, and can be assigned but not removed.  Whatever is done, it
keeps its keys in their order, inherits from nothing and stays closed.  If no binding goes under the tag, and only then,
the keys are told apart and the tag is locked, and so it stays. -/
theorem namespaces_last {h h' : Heap} {entries : List (Key × Value)} (hrun : Run (h.withNamespace entries) h') :
    (h.withNamespace entries).ownKeys h.records.size = (entries.map Prod.fst).eraseDups ++ [.tag] ∧
      (∀ name, (h.withNamespace entries).own? h.records.size (.text name) =
        (entries.reverse.lookup (.text name)).map fun value =>
          { value := value, writable := true, enumerable := true, configurable := false }) ∧
      (((h.withNamespace entries).ownKeys h.records.size).Nodup ↔ .tag ∉ entries.map Prod.fst) ∧
      ((h.withNamespace entries).own? h.records.size .tag = some (.frozen (.text "Module")) ↔
        .tag ∉ entries.map Prod.fst) ∧
      h'.ownKeys h.records.size = (h.withNamespace entries).ownKeys h.records.size ∧
      (h'.record h.records.size).prototype = none ∧ (h'.record h.records.size).extensible = false ∧
      (.tag ∉ entries.map Prod.fst → h'.own? h.records.size .tag = some (.frozen (.text "Module"))) := by
  have hmade := record_withNamespace h entries
  obtain ⟨hsealed, hkeys, hprototype⟩ :=
    kept_sealed.run hrun h.records.size (by rw [hmade]; exact sealed_moduleRecord entries)
  simp only [ownKeys, own?, hkeys, hprototype]
  rw [hmade]
  refine ⟨?_, fun name => ?_, nodup_keys_iff entries, find_tag_iff entries, trivial, rfl, hsealed.closed,
    fun htag => ?_⟩
  · rw [moduleRecord, List.map_append, keys_bindings]
    rfl
  · rw [own_moduleRecord, if_neg (by simp), Option.or_none]
    rfl
  · have hfound := (find_tag_iff entries).2 htag
    rw [← hmade] at hfound
    obtain ⟨q, hq, hlasts⟩ := (kept_lasts.run hrun h.records.size).locked .tag _ hfound rfl
    rw [hq, hlasts.eq_of_frozen]

/-- A module binds one name twice and another one once. -/
def twiceBound : List (Key × Value) := [(.text "x", .null), (.text "y", .bool true), (.text "x", .text "last")]

/-- What is tried with its namespace afterwards. -/
def namespaceDeeds : List Deed :=
  [.object none, .change (.object 0) (.set (.text "y") .null), .change (.object 0) (.delete (.text "x")),
    .change (.object 0) (.define .tag { value := .null }), .change (.object 0) (.setPrototype (some 1))]

/-- The namespace holds the last value and keeps its keys and its tag. -/
theorem namespaces_last_twiceBound :
    Run (withNamespace {} twiceBound) ((withNamespace {} twiceBound).perform namespaceDeeds) ∧
      (withNamespace {} twiceBound).own? 0 (.text "x") = some { value := .text "last", configurable := false } ∧
      ((withNamespace {} twiceBound).perform namespaceDeeds).ownKeys 0 = [.text "x", .text "y", .tag] ∧
      ((withNamespace {} twiceBound).perform namespaceDeeds).own? 0 .tag = some (.frozen (.text "Module")) := by
  have hrun : Run (withNamespace {} twiceBound) ((withNamespace {} twiceBound).perform namespaceDeeds) :=
    run_perform (by decide +kernel)
  obtain ⟨hkeys, hbound, -, -, hsame, -, -, htag⟩ := namespaces_last hrun
  exact ⟨hrun, hbound "x", hsame.trans (hkeys.trans (by decide)), htag (by decide)⟩

/-- A binding under the tag takes its place: the tag is there twice and can be assigned. -/
theorem namespaces_last_tagged :
    ¬ ∀ entries : List (Key × Value), ((withNamespace {} entries).ownKeys 0).Nodup ∧
      (withNamespace {} entries).own? 0 .tag = some (.frozen (.text "Module")) := by
  intro hall
  have htwice : ([.tag, .tag] : List Key).Nodup := (hall [(.tag, .number 1)]).1
  simp at htwice

end Heap

end ScriptVault

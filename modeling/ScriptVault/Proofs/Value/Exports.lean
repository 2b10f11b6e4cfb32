import ScriptVault.Host.Require

/-!
# Exports — the objects of modules

A module has an object of its own that holds its exports.  Its exports are a plain object, to which a script
adds one property for each specifier that it loads.
-/

namespace ScriptVault

namespace Heap

/-! ### Places -/

@[simp] theorem size_putRecord (h : Heap) (place : Nat) (r : Record) :
    (h.putRecord place r).records.size = h.records.size := by simp [putRecord]

theorem record_putRecord (h : Heap) {place : Nat} (hp : place < h.records.size) (r : Record) (o : Nat) :
    (h.putRecord place r).record o = if o = place then r else h.record o := by
  unfold putRecord record
  by_cases ho : o = place
  · subst ho; simp [hp]
  · simp [ho, Ne.symm ho]

theorem record_putRecord_ne {place o : Nat} (ho : o ≠ place) (h : Heap) (r : Record) :
    (h.putRecord place r).record o = h.record o := by
  simp [putRecord, record, Ne.symm ho]

/-- An assignment changes at most the object that it is made to, and makes none. -/
theorem set_rest (h : Heap) (o : Nat) (key : Key) (v : Value) :
    (h.set o key v).2.records.size = h.records.size ∧ ∀ p, p ≠ o → (h.set o key v).2.record p = h.record p := by
  unfold set
  dsimp only
  split
  · split
    · exact ⟨size_putRecord .., fun p hp => record_putRecord_ne hp ..⟩
    · exact ⟨rfl, fun _ _ => rfl⟩
  · split
    · exact ⟨rfl, fun _ _ => rfl⟩
    · exact ⟨size_putRecord .., fun p hp => record_putRecord_ne hp ..⟩

/-- A definition changes at most the object that it is made in, and makes none. -/
theorem define_rest (h : Heap) (o : Nat) (key : Key) (p : Property) :
    (h.define o key p).2.records.size = h.records.size ∧
      ∀ q, q ≠ o → (h.define o key p).2.record q = h.record q := by
  unfold define
  dsimp only
  split
  · split
    · exact ⟨size_putRecord .., fun q hq => record_putRecord_ne hq ..⟩
    · exact ⟨rfl, fun _ _ => rfl⟩
  · split
    · exact ⟨size_putRecord .., fun q hq => record_putRecord_ne hq ..⟩
    · exact ⟨rfl, fun _ _ => rfl⟩

/-- An assignment to a value makes no object. -/
theorem write_size (h : Heap) (v : Value) (key : Key) (new : Value) :
    (h.write v key new).2.records.size = h.records.size := by
  unfold write
  split
  · exact (h.set_rest _ key new).1
  · rfl

/-- An object that was just made. -/
theorem record_push (h : Heap) (r : Record) : (h.addRecord r).2.record h.records.size = r := by
  simp [addRecord, record]

/-- To replace an object that was just made is to make the other one. -/
theorem putRecord_push (h : Heap) (r r' : Record) :
    (h.addRecord r).2.putRecord h.records.size r' = (h.addRecord r').2 := by
  simp only [addRecord, putRecord, Heap.mk.injEq, and_self, and_true]
  refine Array.ext (by simp) fun i hi hj => ?_
  simp only [Array.size_setIfInBounds, Array.size_push] at hi
  rw [Array.getElem_setIfInBounds (by simpa using hi)]
  by_cases he : h.records.size = i
  · subst he; simp
  · rw [if_neg he, Array.getElem_push, Array.getElem_push, dif_pos (by omega), dif_pos (by omega)]

/-- What objects hold under a key is told by what each holds there itself, and by the prototypes. -/
theorem get_congr {h h' : Heap} (hsize : h'.records.size = h.records.size)
    (hproto : ∀ o, (h'.record o).prototype = (h.record o).prototype) {key : Key}
    (hown : ∀ o, (h'.record o).find? key = (h.record o).find? key) (o : Nat) : h'.get o key = h.get o key := by
  have hchain (fuel o : Nat) : h'.chainUpTo fuel o = h.chainUpTo fuel o := by
    induction fuel generalizing o with
    | zero => rfl
    | succ fuel ih =>
      rw [chainUpTo, chainUpTo, hproto]
      cases (h.record o).prototype with
      | none => rfl
      | some p => exact congrArg (o :: ·) (ih p)
  have hlookup : h'.lookup? o key = h.lookup? o key := by
    unfold lookup? chain
    rw [hsize, hchain]
    exact congrArg (List.findSome? · _) (funext fun o => hown o)
  rw [get, get, hlookup]

theorem isSome_lookup_iff {key : Key} {properties : List (Key × Property)} :
    (properties.lookup key).isSome ↔ key ∈ properties.map Prod.fst := by
  rw [List.lookup_isSome_iff, List.mem_map]
  exact exists_congr fun p => and_congr_right fun _ => by rw [beq_iff_eq, eq_comm]

theorem lookup_replace_ne {key k : Key} (hk : k ≠ key) (p : Property) (properties : List (Key × Property)) :
    (Record.replace key p properties).lookup k = properties.lookup k := by
  induction properties with
  | nil => rfl
  | cons entry rest ih =>
    obtain ⟨j, q⟩ := entry
    rw [Record.replace]
    split
    · next hj =>
      have hne : (k == j) = false := by rw [hj]; simpa using hk
      rw [List.lookup_cons, List.lookup_cons, hne]
    · rw [List.lookup_cons, List.lookup_cons, ih]

theorem lookup_concat_ne {key k : Key} (hk : k ≠ key) (p : Property) (properties : List (Key × Property)) :
    (properties ++ [(key, p)]).lookup k = properties.lookup k := by
  induction properties with
  | nil =>
    have hne : (k == key) = false := by simpa using hk
    rw [List.nil_append, List.lookup_cons, hne]
  | cons entry rest ih =>
    obtain ⟨j, q⟩ := entry
    rw [List.cons_append, List.lookup_cons, List.lookup_cons, ih]

/-- A definition leaves alone what objects hold under other keys. -/
theorem define_get_ne (h : Heap) (o : Nat) {key k : Key} (hk : k ≠ key) (p : Property) (q : Nat) :
    (h.define o key p).2.get q k = h.get q k := by
  have put (properties : List (Key × Property))
      (hsame : properties.lookup k = (h.record o).properties.lookup k) :
      (h.putRecord o { h.record o with properties := properties }).get q k = h.get q k := by
    by_cases ho : o < h.records.size
    · refine get_congr (size_putRecord ..) (fun i => ?_) (fun i => ?_) q
      · rw [record_putRecord h ho]
        split
        · next hi => rw [hi]
        · rfl
      · rw [record_putRecord h ho]
        split
        · next hi => rw [hi]; exact hsame
        · rfl
    · rw [putRecord, Array.setIfInBounds, dif_neg ho]
  unfold define
  dsimp only
  split
  · split
    · exact put _ (lookup_replace_ne hk p _)
    · rfl
  · split
    · exact put _ (lookup_concat_ne hk p _)
    · rfl

/-- What an object without a prototype holds is its own. -/
theorem get_own {h : Heap} {o : Nat} (ho : o < h.records.size) (hp : (h.record o).prototype = none) (key : Key) :
    h.get o key = (((h.record o).find? key).map (·.value)).getD .undefined := by
  have hchain : h.chain o = [o] := by
    unfold chain
    obtain ⟨n, hn⟩ := Nat.exists_eq_succ_of_ne_zero (Nat.ne_zero_of_lt ho)
    rw [hn, chainUpTo, hp]
  unfold get lookup?
  rw [hchain]
  simp only [List.findSome?_cons, List.findSome?_nil, own?]
  cases (h.record o).find? key <;> rfl

end Heap

namespace Host

/-! ### Modules -/

/-- The exports of a module that was just made. -/
def blankExports : Record := { properties := [(.tag, openTag)] }

/-- The object of a module with its exports. -/
def moduleRecord (exports : Nat) : Record :=
  { properties := [(.text "exports", { value := .object exports })] }

/-- A module has two objects: its exports, and behind them its own. -/
theorem newModule_eq (h : Heap) :
    newModule h =
      (h.records.size + 1,
        { h with
          records := (h.records.push blankExports).push (moduleRecord h.records.size) }) := by
  have hexports : newExports h = (h.records.size, (h.addRecord blankExports).2) := by
    show (h.records.size, ((h.addRecord {}).2.define h.records.size .tag openTag).2) = _
    rw [Heap.define, Heap.record_push]
    exact congrArg _ (Heap.putRecord_push h {} blankExports)
  unfold newModule
  rw [hexports]
  have hsize : (h.addRecord blankExports).2.records.size = h.records.size + 1 := by simp [Heap.addRecord]
  show ((h.addRecord blankExports).2.records.size,
    (((h.addRecord blankExports).2.addRecord {}).2.set (h.addRecord blankExports).2.records.size
      (.text "exports") (.object h.records.size)).2) = _
  rw [Heap.set, Heap.record_push]
  refine Prod.ext hsize ?_
  exact Heap.putRecord_push (h.addRecord blankExports).2 {} (moduleRecord h.records.size)

theorem newModule_grows (h : Heap) : h.records.size ≤ (newModule h).2.records.size := by
  simp [newModule_eq]
  omega

theorem close_grows (object : Nat) (h : Host) :
    (close object h).2.heap.records.size = h.heap.records.size := by
  unfold close
  split
  · exact (Heap.define_rest ..).1
  · rfl

/-- To tag the exports of a module leaves them its exports. -/
theorem close_get (object : Nat) (h : Host) :
    (close object h).2.heap.get object (.text "exports") = (close object h).1 := by
  unfold close
  split
  · next exports he => exact (Heap.define_get_ne h.heap exports (by decide) _ _).trans he
  · rfl

end Host

end ScriptVault

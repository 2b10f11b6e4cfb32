import ScriptVault.Host.Start
import ScriptVault.Proofs.Value.Exports

/-!
# Growth — places are never given up

Whatever is done with a heap, the objects that were there are there afterwards, and new ones get numbers of
their own.
-/

namespace ScriptVault

namespace Heap

theorem sets_size (o : Nat) (entries : List (Key × Value)) (h : Heap) :
    (entries.foldl (fun h (k, v) => (h.set o k v).2) h).records.size = h.records.size := by
  induction entries generalizing h with
  | nil => rfl
  | cons entry rest ih => exact (ih _).trans (h.set_rest o entry.1 entry.2).1

theorem ofEntries_grows (h : Heap) (entries : List (Key × Value)) :
    h.records.size ≤ (h.ofEntries entries).2.records.size := by
  unfold ofEntries
  dsimp only
  rw [sets_size]
  simp [addRecord]

theorem wrapper_size (h : Heap) (f function : Nat) : (h.wrapper f function).2.records.size = h.records.size := by
  unfold wrapper
  dsimp only
  split <;> rfl

theorem facadeGet_size (h : Heap) (f : Nat) (key : Key) : (h.facadeGet f key).2.records.size = h.records.size := by
  unfold facadeGet
  dsimp only
  split
  · rfl
  · split
    · exact wrapper_size ..
    · rfl

theorem read_size (h : Heap) (v : Value) (key : Key) : (h.read v key).2.records.size = h.records.size := by
  unfold read
  split
  · rfl
  · exact facadeGet_size ..
  · rfl

theorem size_le_addRecord (h : Heap) (r : Record) : h.records.size ≤ (h.addRecord r).2.records.size := by
  simp [addRecord]

theorem readPath_size (h : Heap) (v : Value) (path : List String) :
    (h.readPath v path).2.records.size = h.records.size := by
  induction path generalizing h v with
  | nil => rfl
  | cons key path ih => exact (ih _ _).trans (h.read_size v (.text key))

theorem delete_size (h : Heap) (o : Nat) (key : Key) : (h.delete o key).2.records.size = h.records.size := by
  unfold delete
  dsimp only
  split
  · split
    · exact size_putRecord ..
    · rfl
  · rfl

mutual

theorem ofJson_grows (h : Heap) : (json : Json) → h.records.size ≤ (h.ofJson json).2.records.size
  | .null | .bool _ | .number _ | .text _ => Nat.le_refl _
  | .array items => Nat.le_trans (ofItems_grows h 0 items) (ofEntries_grows ..)
  | .object members => Nat.le_trans (ofMembers_grows h members) (ofEntries_grows ..)

theorem ofItems_grows (h : Heap) (i : Nat) : (items : List Json) →
    h.records.size ≤ (h.ofItems i items).2.records.size
  | [] => Nat.le_refl _
  | item :: rest => Nat.le_trans (ofJson_grows h item) (ofItems_grows _ (i + 1) rest)

theorem ofMembers_grows (h : Heap) : (members : List (String × Json)) →
    h.records.size ≤ (h.ofMembers members).2.records.size
  | [] => Nat.le_refl _
  | (_, item) :: rest => Nat.le_trans (ofJson_grows h item) (ofMembers_grows _ rest)

end

theorem callUpTo_grows (fuel : Nat) (h : Heap) (f : Nat) (this : Value) (args : List Value) :
    h.records.size ≤ (callUpTo fuel h f this args).2.records.size := by
  induction fuel generalizing f this with
  | zero =>
    unfold callUpTo
    dsimp only
    split
    case h_4 => exact ofEntries_grows ..
    case h_5 key _ => exact Nat.le_of_eq (h.read_size this key).symm
    case h_6 key _ => exact Nat.le_of_eq (h.write_size this key _).symm
    all_goals exact Nat.le_refl _
  | succ fuel ih =>
    unfold callUpTo
    dsimp only
    split
    case h_4 => exact ofEntries_grows ..
    case h_5 key _ => exact Nat.le_of_eq (h.read_size this key).symm
    case h_6 key _ => exact Nat.le_of_eq (h.write_size this key _).symm
    case h_10 facade target _ => exact ih target _
    all_goals exact Nat.le_refl _

theorem call_grows (h : Heap) (f : Nat) (this : Value) (args : List Value) :
    h.records.size ≤ (h.call f this args).2.records.size := callUpTo_grows f h f this args

end Heap

namespace Host

theorem newExports_grows (h : Heap) : h.records.size ≤ (newExports h).2.records.size := by
  show _ ≤ ((h.addRecord {}).2.define _ .tag openTag).2.records.size
  rw [(Heap.define_rest ..).1]
  simp [Heap.addRecord]

theorem exportsOf_grows (names : Nat) (h : Heap) : h.records.size ≤ (exportsOf names h).2.records.size := by
  unfold exportsOf
  dsimp only
  have hread : ((h.read (.object names) (.text "module")).2.read (h.read (.object names) (.text "module")).1
      (.text "exports")).2.records.size = h.records.size := by
    rw [Heap.read_size, Heap.read_size]
  split
  · exact Nat.le_of_eq hread.symm
  · split
    · simp [Heap.addRecord, hread]
    · rw [(Heap.define_rest ..).1]
      simp [Heap.addRecord, hread]

/-- To make a facade gives up no object. -/
theorem facadeOf_grows (names : Nat) (h : Host) :
    h.heap.records.size ≤ (facadeOf names h).2.heap.records.size := by
  show _ ≤ ((exportsOf names h.heap).2.define _ .tag closedTag).2.records.size
  rw [(Heap.define_rest ..).1]
  exact exportsOf_grows names h.heap

/-- To call a startup module gives up no object. -/
theorem callStartup_grows (id : String) (module : Value) (h : Host) :
    h.heap.records.size ≤ (callStartup id module h).2.heap.records.size := by
  have hread := h.heap.read_size module (.text "default")
  unfold callStartup
  dsimp only
  split
  · exact Nat.le_trans (Nat.le_of_eq hread.symm) (Heap.call_grows ..)
  · exact Nat.le_of_eq hread.symm

end Host

end ScriptVault

/-!
# Table — finite maps and sets of names

A table binds each key once and keeps its keys in the order in which they were first bound; `Names` are
sorted lists of distinct texts.
-/

namespace ScriptVault

/-- A finite map, as a list of bindings. -/
abbrev Table (κ α : Type) := List (κ × α)

namespace Table

variable {κ α : Type} [DecidableEq κ]

/-- The value of a key. -/
def at? (t : Table κ α) (key : κ) : Option α :=
  match t with
  | [] => none
  | (k, v) :: rest => if k = key then some v else at? rest key

/-- Binds a key, in its place if it was bound before. -/
def put (t : Table κ α) (key : κ) (value : α) : Table κ α :=
  match t with
  | [] => [(key, value)]
  | (k, v) :: rest => if k = key then (key, value) :: rest else (k, v) :: put rest key value

/-- Unbinds a key. -/
def erase (t : Table κ α) (key : κ) : Table κ α := t.filter fun (k, _) => k ≠ key

/-- Changes the value of a key that is bound. -/
def update (t : Table κ α) (key : κ) (change : α → α) : Table κ α :=
  t.map fun (k, v) => if k = key then (k, change v) else (k, v)

/-- The keys. -/
def keys (t : Table κ α) : List κ := t.map Prod.fst

@[simp] theorem at?_nil (key : κ) : at? ([] : Table κ α) key = none := rfl

theorem at?_cons (k : κ) (v : α) (t : Table κ α) (key : κ) :
    at? ((k, v) :: t) key = if k = key then some v else at? t key := rfl

@[simp] theorem at?_put_same (t : Table κ α) (key : κ) (value : α) :
    (t.put key value).at? key = some value := by
  induction t with
  | nil => simp [put, at?_cons]
  | cons b t ih =>
    obtain ⟨k, v⟩ := b
    by_cases h : k = key
    · subst h; simp [put, at?_cons]
    · simp [put, at?_cons, h, ih]

theorem at?_put_ne {key other : κ} (h : key ≠ other) (t : Table κ α) (value : α) :
    (t.put key value).at? other = t.at? other := by
  induction t with
  | nil => simp [put, at?_cons, h]
  | cons b t ih =>
    obtain ⟨k, v⟩ := b
    by_cases hk : k = key
    · subst hk; simp [put, at?_cons, h]
    · simp [put, at?_cons, hk, ih]

@[simp] theorem at?_erase_same (t : Table κ α) (key : κ) : (t.erase key).at? key = none := by
  induction t with
  | nil => rfl
  | cons b t ih =>
    obtain ⟨k, v⟩ := b
    by_cases h : k = key
    · subst h; simpa [erase] using ih
    · simpa [erase, at?_cons, h] using ih

theorem at?_erase_ne {key other : κ} (h : key ≠ other) (t : Table κ α) :
    (t.erase key).at? other = t.at? other := by
  induction t with
  | nil => rfl
  | cons b t ih =>
    obtain ⟨k, v⟩ := b
    by_cases hk : k = key
    · subst hk; simpa [erase, at?_cons, h] using ih
    · by_cases ho : k = other
      · subst ho; simp [erase, at?_cons, hk]
      · simpa [erase, at?_cons, hk, ho] using ih

theorem at?_put (t : Table κ α) (key other : κ) (value : α) :
    (t.put key value).at? other = if other = key then some value else t.at? other := by
  by_cases h : other = key
  · rw [h, at?_put_same, if_pos rfl]
  · rw [at?_put_ne (Ne.symm h), if_neg h]

theorem at?_erase (t : Table κ α) (key other : κ) :
    (t.erase key).at? other = if other = key then none else t.at? other := by
  by_cases h : other = key
  · rw [h, at?_erase_same, if_pos rfl]
  · rw [at?_erase_ne (Ne.symm h), if_neg h]

end Table

/-- Distinct texts in ascending order. -/
abbrev Names := List String

namespace Names

/-- Adds a name. -/
def insert (names : Names) (name : String) : Names :=
  match names with
  | [] => [name]
  | n :: rest => if n = name then n :: rest else if name < n then name :: n :: rest else n :: insert rest name

/-- Removes a name. -/
def erase (names : Names) (name : String) : Names := names.filter (· ≠ name)

/-- The names among some texts. -/
def ofList (texts : List String) : Names := texts.foldl insert []

theorem mem_insert {names : Names} {name x : String} :
    x ∈ names.insert name ↔ x = name ∨ x ∈ names := by
  induction names with
  | nil => simp [insert]
  | cons n rest ih =>
    unfold insert
    split
    · next h => subst h; simp
    · split
      · simp
      · simp only [List.mem_cons, ih]
        exact or_left_comm

theorem mem_erase {names : Names} {name x : String} :
    x ∈ names.erase name ↔ x ∈ names ∧ x ≠ name := by
  simp [erase]

end Names

end ScriptVault

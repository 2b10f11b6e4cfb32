import ScriptVault.Graph

/-!
# Outline — the modules below a module, as an indented list

Below a module stand the modules that it required, in the order in which they are recorded, one level
deeper.  A module is opened where it is met first; where it is met again it is only named, so an outline
ends also where modules require each other in a circle.
-/

namespace ScriptVault.Graph

/-- A line of an outline. -/
structure Entry where
  /-- How far it is indented. -/
  depth : Nat
  /-- The module. -/
  id : String
  /-- It was met before. -/
  again : Bool
  deriving DecidableEq, Repr

variable {Slots : Type}

/-- The module that a specifier stands for; one that stands for none is taken as it is. -/
def named (g : Graph Slots) (specifier : String) : String := (g.aliased.at? specifier).getD specifier

/-- The modules that a module required. -/
def required (g : Graph Slots) (id : String) : List String :=
  (namesAt g.dependencies id).map g.named

/-- How many modules with requirements are not among the seen ones. -/
def unseen (g : Graph Slots) (seen : List String) : Nat :=
  (g.dependencies.keys.filter (!seen.contains ·)).length

theorem namesAt_of_notMem {t : Table String Names} {key : String} (h : key ∉ t.keys) :
    namesAt t key = [] := by
  induction t with
  | nil => rfl
  | cons b t ih =>
    obtain ⟨k, v⟩ := b
    simp only [Table.keys, List.map_cons, List.mem_cons, not_or] at h
    have := ih h.2
    simp only [namesAt, Table.at?_cons, Ne.symm h.1] at this ⊢
    exact this

/-- Filtering by a stronger test keeps no more, and less where a member is lost. -/
theorem length_filter_lt {α : Type} {p q : α → Bool} {l : List α} (hpq : ∀ x, p x → q x) {a : α}
    (ha : a ∈ l) (hq : q a = true) (hp : p a = false) :
    (l.filter p).length < (l.filter q).length := by
  have le (l : List α) : (l.filter p).length ≤ (l.filter q).length := by
    rw [← List.countP_eq_length_filter, ← List.countP_eq_length_filter]
    exact List.countP_mono_left fun x _ => hpq x
  induction l with
  | nil => simp at ha
  | cons b l ih =>
    rcases List.mem_cons.1 ha with rfl | h
    · simpa [hq, hp] using Nat.lt_succ_of_le (le l)
    · have := ih h
      by_cases hb : p b
      · simpa [hb, hpq b hb] using this
      · by_cases hc : q b <;> simp [hb, hc] <;> omega

theorem unseen_lt {g : Graph Slots} {seen : List String} {id : String} (hs : seen.contains id = false)
    (hd : id ∈ g.dependencies.keys) : g.unseen (id :: seen) < g.unseen seen := by
  refine length_filter_lt (fun x hx => ?_) hd (by simpa using hs) (by simp)
  simp only [List.contains_cons, Bool.not_eq_true', Bool.or_eq_false_iff] at hx
  simpa using hx.2

theorem unseen_le (g : Graph Slots) (seen : List String) (id : String) :
    g.unseen (id :: seen) ≤ g.unseen seen := by
  unfold unseen
  rw [← List.countP_eq_length_filter, ← List.countP_eq_length_filter]
  refine List.countP_mono_left fun x _ hx => ?_
  simp only [List.contains_cons, Bool.not_eq_true', Bool.or_eq_false_iff] at hx
  simpa using hx.2

/-- The outline of modules that wait, each with its depth; `seen` are those that were met. -/
def outlineFrom (g : Graph Slots) (seen : List String) : List (Nat × String) → List Entry
  | [] => []
  | (depth, id) :: waiting =>
    if seen.contains id then ⟨depth, id, true⟩ :: outlineFrom g seen waiting
    else
      ⟨depth, id, false⟩ ::
        outlineFrom g (id :: seen) ((g.required id).map (fun below => (depth + 1, below)) ++ waiting)
termination_by waiting => (g.unseen seen, waiting.length)
decreasing_by
  · exact Prod.Lex.right _ (by simp)
  · rename_i hs
    by_cases hd : id ∈ g.dependencies.keys
    · exact Prod.Lex.left _ _ (unseen_lt (by simpa using hs) hd)
    · have hr : g.required id = [] := by simp [required, namesAt_of_notMem hd]
      rcases Nat.lt_or_eq_of_le (g.unseen_le seen id) with h | h
      · exact Prod.Lex.left _ _ h
      · rw [h, hr]
        exact Prod.Lex.right _ (by simp)

/-- The outline below a specifier. -/
def outline (g : Graph Slots) (specifier : String) : List Entry :=
  g.outlineFrom [] [(0, g.named specifier)]

end ScriptVault.Graph

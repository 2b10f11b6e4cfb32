import Mathlib.Algebra.Ring.Nat
import Mathlib.Logic.Relation
import ScriptVault.Proofs.Graph.Tables
import ScriptVault.Terminal.Show

/-!
# Outline — the tree below a module

An outline is taken from a list of modules that wait.  It is the same as the tree that is told without one: a
module that was met is one line, and any other is a line with the trees of all that it requires below it, the
modules that were met being handed on from each tree to the next (`Told`, `Told.outlineFrom`).  Every module
that can be reached stands in that tree opened once: where it is only named, it was opened in a line before.
-/

namespace ScriptVault.Graph

variable {Slots : Type} {g : Graph Slots}

/-! ### The tree without a list of modules that wait -/

/-- The lines that modules come to one after the other at a depth, when some were met before, and what was
met behind them. -/
inductive Told (g : Graph Slots) : Nat → List String → List String → List Entry → List String → Prop where
  /-- No module is left. -/
  | done (depth : Nat) (seen : List String) : Told g depth seen [] [] seen
  /-- The next module was met before. -/
  | again {depth : Nat} {seen met ids : List String} {id : String} {lines : List Entry}
      (known : id ∈ seen) (rest : Told g depth seen ids lines met) :
      Told g depth seen (id :: ids) (⟨depth, id, true⟩ :: lines) met
  /-- The next module is opened: behind its line stands what it requires. -/
  | opened {depth : Nat} {seen within met ids : List String} {id : String} {below lines : List Entry}
      (fresh : id ∉ seen) (inner : Told g (depth + 1) (id :: seen) (g.required id) below within)
      (rest : Told g depth within ids lines met) :
      Told g depth seen (id :: ids) (⟨depth, id, false⟩ :: (below ++ lines)) met

/-- The modules behind some lines are those from before and those in the lines. -/
theorem Told.mem_met {depth : Nat} {seen ids met : List String} {lines : List Entry}
    (h : Told g depth seen ids lines met) (x : String) :
    x ∈ met ↔ x ∈ seen ∨ x ∈ lines.map (·.id) := by
  induction h with
  | done => simp
  | again known _ ih =>
    rw [ih, List.map_cons, List.mem_cons]
    constructor
    · rintro (h | h)
      exacts [Or.inl h, Or.inr (Or.inr h)]
    · rintro (h | rfl | h)
      exacts [Or.inl h, Or.inl known, Or.inr h]
  | opened _ _ _ inner rest =>
    rw [rest, inner]
    simp only [List.map_cons, List.map_append, List.mem_cons, List.mem_append]
    tauto

theorem unseen_mono (g : Graph Slots) {seen met : List String} (h : ∀ x ∈ seen, x ∈ met) :
    g.unseen met ≤ g.unseen seen := by
  unfold unseen
  rw [← List.countP_eq_length_filter, ← List.countP_eq_length_filter]
  refine List.countP_mono_left fun x _ hx => ?_
  simp only [Bool.not_eq_true', List.contains_eq_mem, decide_eq_false_iff_not] at hx ⊢
  exact fun hs => hx (h x hs)

theorem required_of_notMem {id : String} (h : id ∉ g.dependencies.keys) : g.required id = [] := by
  simp [required, namesAt_of_notMem h]

/-- Any modules come to some lines, in circles too: below a module that is opened there are fewer modules
left to open, or it requires none. -/
theorem exists_told (g : Graph Slots) (depth : Nat) (seen ids : List String) :
    ∃ lines met, Told g depth seen ids lines met := by
  match ids with
  | [] => exact ⟨[], seen, .done depth seen⟩
  | id :: ids =>
    by_cases hs : id ∈ seen
    · obtain ⟨lines, met, rest⟩ := exists_told g depth seen ids
      exact ⟨_, _, .again hs rest⟩
    · by_cases hd : id ∈ g.dependencies.keys
      · have fewer := unseen_lt (by simpa using hs) hd
        obtain ⟨below, within, inner⟩ := exists_told g (depth + 1) (id :: seen) (g.required id)
        have grown := g.unseen_mono fun x hx => (inner.mem_met x).2 (Or.inl hx)
        obtain ⟨lines, met, rest⟩ := exists_told g depth within ids
        exact ⟨_, _, .opened hs inner rest⟩
      · have le := g.unseen_le seen id
        obtain ⟨lines, met, rest⟩ := exists_told g depth (id :: seen) ids
        have inner : Told g (depth + 1) (id :: seen) (g.required id) [] (id :: seen) := by
          rw [required_of_notMem hd]
          exact .done _ _
        exact ⟨_, _, .opened hs inner rest⟩
termination_by (g.unseen seen, ids.length)
decreasing_by
  · exact Prod.Lex.right _ (by simp)
  · exact Prod.Lex.left _ _ fewer
  · exact Prod.Lex.left _ _ (Nat.lt_of_le_of_lt grown fewer)
  · rcases Nat.lt_or_eq_of_le le with h | h
    · exact Prod.Lex.left _ _ h
    · rw [h]
      exact Prod.Lex.right _ (by simp)

/-- Modules that wait come to their lines before all else that waits. -/
theorem Told.outlineFrom {depth : Nat} {seen ids met : List String} {lines : List Entry}
    (h : Told g depth seen ids lines met) (waiting : List (Nat × String)) :
    g.outlineFrom seen (ids.map (fun id => (depth, id)) ++ waiting) = lines ++ g.outlineFrom met waiting := by
  induction h generalizing waiting with
  | done => rfl
  | again known _ ih =>
    rw [List.map_cons, List.cons_append, Graph.outlineFrom, if_pos (by simpa using known), ih, List.cons_append]
  | opened fresh _ _ inner rest =>
    rw [List.map_cons, List.cons_append, Graph.outlineFrom, if_neg (by simpa using fresh), inner, rest,
      List.cons_append, List.append_assoc]

/-- An outline is the tree of its root. -/
theorem exists_told_outline (g : Graph Slots) (root : String) :
    ∃ met, Told g 0 [] [g.named root] (g.outline root) met := by
  obtain ⟨lines, met, h⟩ := g.exists_told 0 [] [g.named root]
  have same : g.outline root = lines := by
    rw [outline, ← List.append_nil lines, ← Graph.outlineFrom.eq_1 g met, ← h.outlineFrom []]
    rfl
  exact ⟨met, same ▸ h⟩

/-! ### What stands behind a line -/

/-- Behind a line at a depth stand the trees of some modules, in order and one level deeper, and then its own
tree is at an end. -/
def Bears (depth : Nat) (ids : List String) (post : List Entry) : Prop :=
  ∃ (trees : List (Entry × List Entry)) (rest : List Entry),
    post = trees.flatMap (fun t => t.1 :: t.2) ++ rest ∧
      trees.map (fun t => (t.1.depth, t.1.id)) = ids.map (fun id => (depth + 1, id)) ∧
      (∀ t ∈ trees, ∀ x ∈ t.2, t.1.depth < x.depth) ∧ ∀ x ∈ rest.head?, x.depth ≤ depth

theorem Bears.append {depth : Nat} {ids : List String} {post : List Entry} (h : Bears depth ids post)
    {more : List Entry} (hm : ∀ x ∈ more.head?, x.depth ≤ depth) : Bears depth ids (post ++ more) := by
  obtain ⟨trees, rest, rfl, heads, deeper, last⟩ := h
  refine ⟨trees, rest ++ more, List.append_assoc .., heads, deeper, fun x hx => ?_⟩
  cases rest with
  | nil => exact hm x hx
  | cons y rest => exact last x hx

/-- Lines at a depth are not indented less. -/
theorem Told.le_depth {depth : Nat} {seen ids met : List String} {lines : List Entry}
    (h : Told g depth seen ids lines met) : ∀ e ∈ lines, depth ≤ e.depth := by
  induction h with
  | done => simp
  | again _ _ ih => exact List.forall_mem_cons.2 ⟨Nat.le_refl _, ih⟩
  | opened _ _ _ inner rest =>
    refine List.forall_mem_cons.2 ⟨Nat.le_refl _, List.forall_mem_append.2 ⟨fun e he => ?_, rest⟩⟩
    exact Nat.le_of_succ_le (inner e he)

/-- The tree of a module that stands alone: its line, and deeper ones. -/
theorem Told.root {depth : Nat} {met : List String} {lines : List Entry} {root : String}
    (h : Told g depth [] [root] lines met) :
    ∃ below, lines = ⟨depth, root, false⟩ :: below ∧ ∀ e ∈ below, depth < e.depth := by
  cases h with
  | again known _ => simp at known
  | @opened _ _ _ _ _ _ below _ _ inner rest =>
    cases rest
    exact ⟨below, by simp, inner.le_depth⟩

theorem Told.head_depth {depth : Nat} {seen ids met : List String} {lines : List Entry}
    (h : Told g depth seen ids lines met) : ∀ e ∈ lines.head?, e.depth = depth := by
  cases h <;> simp

/-- The lines of some modules are their trees. -/
theorem Told.trees {depth : Nat} {seen ids met : List String} {lines : List Entry}
    (h : Told g (depth + 1) seen ids lines met) : Bears depth ids lines := by
  generalize hd : depth + 1 = deep at h
  induction h with
  | done => exact ⟨[], [], by simp⟩
  | @again deep seen met ids id lines _ _ ih =>
    obtain ⟨trees, rest, rfl, heads, deeper, last⟩ := ih hd
    subst hd
    exact ⟨(⟨depth + 1, id, true⟩, []) :: trees, rest, by simp, by simp [heads], by simpa using deeper, last⟩
  | @opened deep seen within met ids id below lines _ inner _ _ ih =>
    obtain ⟨trees, rest, rfl, heads, deeper, last⟩ := ih hd
    subst hd
    exact ⟨(⟨depth + 1, id, false⟩, below) :: trees, rest, by simp, by simp [heads],
      List.forall_mem_cons.2 ⟨fun x hx => inner.le_depth x hx, deeper⟩, last⟩

/-- What is true of every line of an outline: whether it only names its module, and what stands below it. -/
structure Placed (g : Graph Slots) (seen : List String) (pre : List Entry) (e : Entry) (post : List Entry) :
    Prop where
  /-- A module is only named where it was met before. -/
  again_iff : e.again = true ↔ e.id ∈ seen ∨ e.id ∈ pre.map (·.id)
  /-- All that it requires stands below a module that is opened, and nothing below another one. -/
  bears : Bears e.depth (if e.again then [] else g.required e.id) post

/-- Every line of a tree stands in its place. -/
theorem Told.placed {depth : Nat} {seen ids met : List String} {lines : List Entry}
    (h : Told g depth seen ids lines met) {pre post : List Entry} {e : Entry}
    (hl : lines = pre ++ e :: post) : Placed g seen pre e post := by
  induction h generalizing pre post with
  | done => simp at hl
  | @again depth seen met ids id lines known rest ih =>
    cases pre with
    | nil =>
      obtain ⟨rfl, rfl⟩ := List.cons.inj hl
      exact ⟨by simpa using known, [], lines, by simp, rfl, by simp,
        fun x hx => Nat.le_of_eq (rest.head_depth x hx)⟩
    | cons first pre =>
      obtain ⟨rfl, htail⟩ := List.cons.inj hl
      obtain ⟨again_iff, bears⟩ := ih htail
      refine ⟨again_iff.trans ?_, bears⟩
      rw [List.map_cons, List.mem_cons]
      constructor
      · rintro (h | h)
        exacts [Or.inl h, Or.inr (Or.inr h)]
      · rintro (h | h | h)
        exacts [Or.inl h, Or.inl (h ▸ known), Or.inr h]
  | @opened depth seen within met ids id below lines fresh inner rest ihInner ihRest =>
    cases pre with
    | nil =>
      obtain ⟨rfl, rfl⟩ := List.cons.inj hl
      exact ⟨by simpa using fresh, inner.trees.append fun x hx => Nat.le_of_eq (rest.head_depth x hx)⟩
    | cons first pre =>
      obtain ⟨rfl, htail⟩ := List.cons.inj hl
      -- a line behind the tree of the first module, and one within it
      have behind {middle : List Entry} (hpre : pre = below ++ middle) (hlines : lines = middle ++ e :: post) :
          Placed g seen (⟨depth, id, false⟩ :: pre) e post := by
        obtain ⟨again_iff, bears⟩ := ihRest hlines
        refine ⟨again_iff.trans ?_, bears⟩
        rw [inner.mem_met, hpre]
        simp only [List.map_cons, List.map_append, List.mem_cons, List.mem_append]
        tauto
      rcases List.append_eq_append_iff.1 htail with ⟨middle, hpre, hlines⟩ | ⟨middle, hbelow, hpost⟩
      · exact behind hpre hlines
      · cases middle with
        | nil => exact @behind [] (by simpa using hbelow.symm) (by simpa using hpost.symm)
        | cons _ middle =>
          obtain ⟨rfl, rfl⟩ := List.cons.inj hpost
          obtain ⟨again_iff, bears⟩ := ihInner hbelow
          refine ⟨again_iff.trans ?_, bears.append fun x hx => ?_⟩
          · simp only [List.map_cons, List.mem_cons]
            tauto
          · have := inner.le_depth e (by simp [hbelow])
            have := rest.head_depth x hx
            omega

/-! ### How many lines there are -/

/-- How many requirements are recorded at modules that were not met. -/
def due (t : Table String Names) (seen : List String) : Nat :=
  ((t.filter (!seen.contains ·.1)).map (·.2.length)).sum

theorem due_cons (b : String × Names) (t : Table String Names) (seen : List String) :
    due (b :: t) seen = (if b.1 ∈ seen then 0 else b.2.length) + due t seen := by
  by_cases hb : b.1 ∈ seen <;> simp [due, hb]

theorem due_cons_le (t : Table String Names) (id : String) (seen : List String) :
    due t (id :: seen) ≤ due t seen := by
  induction t with
  | nil => exact Nat.le_refl _
  | cons b t ih =>
    rw [due_cons, due_cons]
    by_cases hb : b.1 ∈ seen
    · simpa [hb] using ih
    · by_cases hid : b.1 = id <;> simp [hb, hid] <;> omega

/-- What a module requires is due until it is met. -/
theorem length_add_due_le {t : Table String Names} {id : String} {seen : List String} (hs : id ∉ seen) :
    (namesAt t id).length + due t (id :: seen) ≤ due t seen := by
  induction t with
  | nil => exact Nat.le_refl _
  | cons b t ih =>
    obtain ⟨k, names⟩ := b
    rw [due_cons, due_cons]
    by_cases hk : k = id
    · have := due_cons_le t id seen
      simp only [namesAt, Table.at?_cons, hk, if_true, Option.getD_some, List.mem_cons, true_or, hs, if_false]
      omega
    · have at_tail : namesAt ((k, names) :: t) id = namesAt t id := by simp [namesAt, Table.at?_cons, hk]
      rw [at_tail]
      by_cases hm : k ∈ seen
      · simpa [hm] using ih
      · simp only [List.mem_cons, hk, hm, or_self, if_false]
        omega

/-- There is no more than a line for each module and one for each requirement that is due. -/
theorem Told.length_le {depth : Nat} {seen ids met : List String} {lines : List Entry}
    (h : Told g depth seen ids lines met) :
    lines.length + due g.dependencies met ≤ ids.length + due g.dependencies seen := by
  induction h with
  | done => simp
  | again _ _ ih =>
    simp only [List.length_cons]
    omega
  | @opened _ _ _ _ _ id _ _ fresh _ _ inner rest =>
    have spent := @length_add_due_le g.dependencies _ _ fresh
    simp only [required, List.length_map] at inner
    simp only [List.length_cons, List.length_append]
    omega

/-! ### What can be reached -/

/-- A module can be reached from another one by what they require. -/
def Reached (g : Graph Slots) : String → String → Prop := Relation.ReflTransGen fun a b => b ∈ g.required a

/-- A line stands for a module that can be reached from one that the lines are told of. -/
theorem Told.reached {depth : Nat} {seen ids met : List String} {lines : List Entry}
    (h : Told g depth seen ids lines met) : ∀ e ∈ lines, ∃ id ∈ ids, g.Reached id e.id := by
  induction h with
  | done => simp
  | again _ _ ih =>
    refine List.forall_mem_cons.2 ⟨⟨_, List.mem_cons_self .., .refl⟩, fun e he => ?_⟩
    obtain ⟨id, hid, reached⟩ := ih e he
    exact ⟨id, List.mem_cons_of_mem _ hid, reached⟩
  | opened _ _ _ inner rest =>
    refine List.forall_mem_cons.2 ⟨⟨_, List.mem_cons_self .., .refl⟩,
      List.forall_mem_append.2 ⟨fun e he => ?_, fun e he => ?_⟩⟩
    · obtain ⟨id, hid, reached⟩ := inner e he
      exact ⟨_, List.mem_cons_self .., .head hid reached⟩
    · obtain ⟨id, hid, reached⟩ := rest e he
      exact ⟨id, List.mem_cons_of_mem _ hid, reached⟩

theorem Bears.mem {depth : Nat} {ids : List String} {post : List Entry} (h : Bears depth ids post)
    {id : String} (hid : id ∈ ids) : id ∈ post.map (·.id) := by
  obtain ⟨trees, rest, rfl, heads, -, -⟩ := h
  have head : (depth + 1, id) ∈ trees.map (fun t => (t.1.depth, t.1.id)) :=
    heads ▸ List.mem_map_of_mem hid
  obtain ⟨t, ht, hhead⟩ := List.mem_map.1 head
  refine List.mem_map.2 ⟨t.1, List.mem_append_left _ (List.mem_flatMap.2 ⟨t, ht, List.mem_cons_self ..⟩), ?_⟩
  exact congrArg Prod.snd hhead

/-- The first line of a module opens it, and every later one only names it. -/
theorem Told.exists_opened {depth : Nat} {ids met : List String} {lines : List Entry}
    (h : Told g depth [] ids lines met) {id : String} (hid : id ∈ lines.map (·.id)) :
    ∃ pre deep post, lines = pre ++ ⟨deep, id, false⟩ :: post ∧ (∀ e ∈ pre, e.id ≠ id) ∧
      ∀ e ∈ post, e.id = id → e.again = true := by
  obtain ⟨before, behind, hsplit, hnot⟩ := List.eq_append_cons_of_mem hid
  obtain ⟨pre, _, rfl, rfl, hrest⟩ := List.map_eq_append_iff.1 hsplit
  obtain ⟨⟨deep, id, again⟩, post, rfl, rfl, rfl⟩ := List.map_eq_cons_iff.1 hrest
  obtain rfl : again = false := by
    have := (h.placed rfl).again_iff
    simpa [hnot] using this
  refine ⟨pre, deep, post, rfl, fun e he heq => hnot (heq ▸ List.mem_map_of_mem he), fun e he heq => ?_⟩
  obtain ⟨middle, last, rfl⟩ := List.append_of_mem he
  have placed : Placed g [] (pre ++ ⟨deep, id, false⟩ :: middle) e last := h.placed (by simp)
  exact placed.again_iff.2 (Or.inr (by simp [heq]))

/-- Whatever can be reached from the root has a line. -/
theorem Told.mem_of_reached {depth : Nat} {met : List String} {lines : List Entry} {root id : String}
    (h : Told g depth [] [root] lines met) (hr : g.Reached root id) : id ∈ lines.map (·.id) := by
  induction hr with
  | refl => cases h <;> simp
  | tail _ step ih =>
    obtain ⟨pre, deep, post, rfl, -, -⟩ := h.exists_opened ih
    have below := (h.placed rfl).bears.mem step
    rw [List.map_append, List.map_cons]
    exact List.mem_append_right _ (List.mem_cons_of_mem _ below)

end ScriptVault.Graph

namespace ScriptVault.Session

open Graph (Entry)

/-- The outline below a specifier is the tree of all that can be reached from it, whatever is recorded.  It has a
line for the root and no more lines than that and one for each requirement recorded; below each line stand the
trees of all that the module requires, in order and one level deeper, unless it is only named, when nothing
stands below it; a module that can be reached is opened in the first line with its name and only named in every
other one; and no other modules have a line. -/
theorem outline_tree (s : Session) (l : Nat) (root : String) :
    let g := (s.host.loader l).graph
    let lines := g.outline root
    s.outline l root = lines.map Terminal.entry ∧
      lines.length ≤ 1 + (g.dependencies.map (·.2.length)).sum ∧
      (∃ below, lines = ⟨0, g.named root, false⟩ :: below ∧ ∀ e ∈ below, 0 < e.depth) ∧
      (∀ pre e post, lines = pre ++ e :: post →
        Graph.Bears e.depth (if e.again then [] else g.required e.id) post) ∧
      (∀ id, g.Reached (g.named root) id → ∃ pre depth post, lines = pre ++ ⟨depth, id, false⟩ :: post ∧
        (∀ e ∈ pre, e.id ≠ id) ∧ ∀ e ∈ post, e.id = id → e.again = true) ∧
      ∀ e ∈ lines, g.Reached (g.named root) e.id := by
  intro g lines
  obtain ⟨met, told⟩ := g.exists_told_outline root
  refine ⟨rfl, ?_, told.root, fun pre e post hsplit => (told.placed hsplit).bears,
    fun id hid => told.exists_opened (told.mem_of_reached hid), fun e he => ?_⟩
  · have := told.length_le
    have all : Graph.due g.dependencies [] = (g.dependencies.map (·.2.length)).sum := by simp [Graph.due]
    rw [all, List.length_singleton] at this
    exact Nat.le_trans (Nat.le_add_right ..) this
  · obtain ⟨id, hid, reached⟩ := told.reached e he
    exact List.mem_singleton.1 hid ▸ reached

end ScriptVault.Session

import Mathlib.Logic.Basic
import ScriptVault.Proofs.Snapshot.Tokens

/-!
# Mirror — what is known of the files of a vault

A snapshot mirrors a vault when it knows exactly its files, with their texts where the rules ask for them.  Whoever
looks at all files mirrors them, whatever was known before.
-/

namespace ScriptVault

namespace MemoryVault

theorem at?_place (path text : String) (texts : List (String × String)) (q : String) :
    Table.at? (place path text texts) q = if q = path then some text else Table.at? texts q := by
  induction texts with
  | nil =>
    by_cases h : q = path
    · subst h; simp [place, Table.at?_cons]
    · simp [place, Table.at?_cons, h, Ne.symm h]
  | cons b texts ih =>
    obtain ⟨p, t⟩ := b
    unfold place
    by_cases hp : p = path
    · subst hp
      rw [if_pos rfl, Table.at?_cons, Table.at?_cons]
      by_cases h : q = p
      · rw [if_pos h.symm, if_pos h]
      · rw [if_neg (Ne.symm h), if_neg h, if_neg (Ne.symm h)]
    · rw [if_neg hp]
      by_cases hlt : path < p
      · rw [if_pos hlt, Table.at?_cons]
        by_cases h : q = path
        · rw [if_pos h.symm, if_pos h]
        · rw [if_neg (Ne.symm h), if_neg h]
      · rw [if_neg hlt, Table.at?_cons, Table.at?_cons, ih]
        by_cases h : q = path
        · subst h; rw [if_neg hp, if_pos rfl, if_pos rfl]
        · rw [if_neg h, if_neg h]

theorem text?_write (v : MemoryVault) (path text q : String) :
    (v.write path text).2.text? q = if q = Path.normalize path then some text else v.text? q :=
  at?_place (Path.normalize path) text v.texts q

theorem text?_remove (v : MemoryVault) (path q : String) :
    (v.remove path).2.text? q = if q = Path.normalize path then none else v.text? q := by
  show (Table.erase v.texts (Path.normalize path)).at? q = _
  by_cases h : q = Path.normalize path
  · subst h; simp
  · rw [Table.at?_erase_ne (Ne.symm h), if_neg h]
    rfl

theorem text?_rename (v : MemoryVault) (source target q : String) :
    (v.rename source target).2.text? q =
      if v.text? (Path.normalize source) = none then v.text? q
      else if q = Path.normalize target then v.text? (Path.normalize source)
      else if q = Path.normalize source then none
      else v.text? q := by
  unfold rename
  cases htext : v.text? (Path.normalize source) with
  | none =>
    rw [if_pos rfl]
    dsimp only
    rw [htext]
  | some text =>
    rw [if_neg (Option.some_ne_none text)]
    dsimp only
    rw [htext]
    show Table.at? (place _ text (Table.erase v.texts (Path.normalize source))) q = _
    rw [at?_place, Table.at?_erase]
    rfl

theorem mem_files {v : MemoryVault} {path : String} : path ∈ v.files ↔ v.text? path ≠ none :=
  Snapshot.mem_keys (t := v.texts)

theorem isFile_iff {v : MemoryVault} {path : String} : v.isFile path = true ↔ v.text? path ≠ none :=
  Option.isSome_iff_ne_none

theorem read_of_text? {v : MemoryVault} {path text : String} (h : v.text? path = some text) :
    v.read path = .ok text := by
  unfold read
  rw [h]

end MemoryVault

namespace Snapshot

/-! ### What is known of a path -/

/-- What is known of a path: nothing, that there is a file, or its text too. -/
def view (s : Snapshot) (path : String) : Option (Option String) := (s.get? path).map (·.content)

theorem isSome_get? (s : Snapshot) (path : String) : (s.get? path).isSome = (s.view path).isSome := by
  simp [view]

theorem rules_uncache (s : Snapshot) (path : String) : (s.uncache path).2.rules = s.rules := by
  unfold uncache
  split <;> rfl

theorem view_uncache (s : Snapshot) (path q : String) :
    (s.uncache path).2.view q = if q = path then none else s.view q := by
  unfold uncache
  split
  · show ((s.entries.erase path).at? q).map (·.content) = _
    rw [Table.at?_erase]
    split <;> rfl
  · next hnone =>
    split
    · next hq => rw [hq, view, hnone]; rfl
    · rfl

variable {v : MemoryVault}

/-- To look at a file that is there makes it known. -/
theorem tryCache_of_text? (s : Snapshot) {path text : String} (h : v.text? path = some text) :
    ∃ notice s', s.tryCache (.memory v) path = ([notice], s') ∧ notice.path = path ∧ s'.rules = s.rules ∧
      ∀ q, s'.view q = if q = path then some (if s.rules.selects path then some text else none) else s.view q := by
  have hread : (Vault.memory v).read path = .ok text := MemoryVault.read_of_text? h
  cases hc : s.cache (.memory v) path with
  | error e =>
    unfold cache at hc
    split at hc
    · rw [hread] at hc; cases hc
    · cases hc
  | ok done =>
    obtain ⟨identity, notice, s'⟩ := done
    have he : s.tryCache (.memory v) path = ([notice], s') := by
      unfold tryCache
      rw [hc]
    obtain ⟨-, -, rfl, hcontent, rfl⟩ := cache_ok hc
    refine ⟨_, _, he, rfl, rfl, fun q => ?_⟩
    show ((s.entries.put path identity).at? q).map (·.content) = _
    rw [Table.at?_put]
    split
    · rw [Option.map_some, hcontent, hread]
      rfl
    · rfl

/-! ### All files -/

/-- What there is to know of a path: whether there is a file, and its text where the rules ask for it. -/
def due (rules : Rules) (v : MemoryVault) (path : String) : Option (Option String) :=
  (v.text? path).map fun text => if rules.selects path then some text else none

/-- All files of a vault are known, with their texts where the rules ask for them, and nothing else is. -/
structure Mirrors (s : Snapshot) (rules : Rules) (v : MemoryVault) : Prop where
  /-- These are the rules. -/
  ruled : s.rules = rules
  /-- The files are known. -/
  view : ∀ path, s.view path = (v.text? path).map fun text => if rules.selects path then some text else none

/-- A look at a path that may have changed leaves what is due where there is a file, and else what was known. -/
theorem view_look (s : Snapshot) (v : MemoryVault) (path q : String) :
    (s.look (.memory v) path).2.rules = s.rules ∧
      (s.look (.memory v) path).2.view q =
        if q = path ∧ v.text? path ≠ none then due s.rules v path else s.view q := by
  unfold look
  cases htext : v.text? path with
  | none =>
    have hfile : (Vault.memory v).isFile path = false := by
      show (v.text? path).isSome = false
      rw [htext]
      rfl
    rw [hfile]
    exact ⟨rfl, (if_neg fun h => h.2 rfl).symm⟩
  | some text =>
    obtain ⟨notice, s', he, -, hrules, hview⟩ := s.tryCache_of_text? htext
    have hfile : (Vault.memory v).isFile path = true := by
      show (v.text? path).isSome = true
      rw [htext]
      rfl
    rw [if_pos hfile, he]
    refine ⟨hrules, (hview q).trans ?_⟩
    rw [due, htext]
    exact if_congr (and_iff_left (Option.some_ne_none text)).symm rfl rfl

theorem view_forget (paths : List String) (s : Snapshot) :
    (forEach uncache paths s).2.rules = s.rules ∧
      ∀ q, (forEach uncache paths s).2.view q = if q ∈ paths then none else s.view q := by
  induction paths generalizing s with
  | nil => exact ⟨rfl, fun q => by rw [if_neg List.not_mem_nil]; rfl⟩
  | cons path paths ih =>
    obtain ⟨hrules, hview⟩ := ih (s.uncache path).2
    refine ⟨hrules.trans (s.rules_uncache path), fun q => (hview q).trans ?_⟩
    rw [view_uncache]
    by_cases hq : q ∈ paths
    · rw [if_pos hq, if_pos (List.mem_cons_of_mem _ hq)]
    · rw [if_neg hq]
      exact if_congr (by rw [List.mem_cons, or_iff_left hq]) rfl rfl

theorem view_see (paths : List String) (hpaths : ∀ path ∈ paths, v.text? path ≠ none) (s : Snapshot) :
    (forEach (fun s path => s.tryCache (.memory v) path) paths s).2.rules = s.rules ∧
      ∀ q, (forEach (fun s path => s.tryCache (.memory v) path) paths s).2.view q =
        if q ∈ paths then due s.rules v q else s.view q := by
  induction paths generalizing s with
  | nil => exact ⟨rfl, fun q => by rw [if_neg List.not_mem_nil]; rfl⟩
  | cons path paths ih =>
    obtain ⟨text, htext⟩ := Option.ne_none_iff_exists'.1 (hpaths path (List.mem_cons_self ..))
    obtain ⟨notice, s', he, -, hrules, hview⟩ := s.tryCache_of_text? htext
    obtain ⟨hrules', hview'⟩ := ih (fun q hq => hpaths q (List.mem_cons_of_mem _ hq)) s'
    unfold forEach
    rw [he]
    refine ⟨hrules'.trans hrules, fun q => (hview' q).trans ?_⟩
    rw [hrules, hview]
    by_cases hq : q ∈ paths
    · rw [if_pos hq, if_pos (List.mem_cons_of_mem _ hq)]
    · rw [if_neg hq]
      by_cases hp : q = path
      · rw [if_pos hp, hp, if_pos (List.mem_cons_self ..), due, htext]
        rfl
      · rw [if_neg hp, if_neg fun hmem => (List.mem_cons.1 hmem).elim hp hq]

/-- Whoever looks at all files of a vault mirrors it. -/
theorem mirrors_rebuild (s : Snapshot) (v : MemoryVault) : (s.rebuild (.memory v)).2.Mirrors s.rules v := by
  obtain ⟨hrules, hview⟩ := view_forget (s.paths.filter fun path => !v.files.contains path) s
  obtain ⟨hrules', hview'⟩ := view_see v.files (fun path hp => MemoryVault.mem_files.1 hp)
    (forEach uncache (s.paths.filter fun path => !v.files.contains path) s).2
  refine ⟨hrules'.trans hrules, fun q => (hview' q).trans ?_⟩
  rw [hrules, hview]
  by_cases hq : q ∈ v.files
  · exact if_pos hq
  · rw [if_neg hq, not_ne_iff.1 fun h => hq (MemoryVault.mem_files.2 h)]
    -- a path that is no file was unknown or is forgotten
    by_cases hs : s.get? q = none
    · rw [show s.view q = none from congrArg (Option.map _) hs, ite_self]
      rfl
    · refine if_pos (List.mem_filter.2 ⟨mem_paths.2 hs, ?_⟩)
      simpa using hq

end Snapshot

end ScriptVault

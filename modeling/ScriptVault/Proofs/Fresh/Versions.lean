import ScriptVault.Proofs.Fresh.Locality

/-!
# Versions — what is known of the files keeps up with them

A snapshot that mirrors a vault goes on to do so when a write to a file or a removal is followed, and what is known
changes only for this file.
-/

namespace ScriptVault

namespace Snapshot

variable {s : Snapshot} {rules : Rules} {v : MemoryVault}

/-- To follow a write makes the file known. -/
theorem follow_write (s : Snapshot) (v : MemoryVault) (path text : String) :
    ∃ notice s', s.follow (.memory (v.write path text).2) (v.write path text).1 = ([notice], s') ∧
      notice.path = Path.normalize path ∧ s'.rules = s.rules ∧
      ∀ q, s'.view q =
        if q = Path.normalize path then some (if s.rules.selects (Path.normalize path) then some text else none)
        else s.view q := by
  have hthere : (v.write path text).2.text? (Path.normalize path) = some text := by rw [v.text?_write, if_pos rfl]
  obtain ⟨notice, s', he, hpath, hrules, hview⟩ := s.tryCache_of_text? hthere
  have hisFile : (Vault.memory (v.write path text).2).isFile (Path.normalize path) = true := by
    show ((v.write path text).2.text? (Path.normalize path)).isSome = true
    rw [hthere]
    rfl
  have hlook : s.follow (.memory (v.write path text).2) (v.write path text).1 =
      s.look (.memory (v.write path text).2) (Path.normalize path) := by
    unfold MemoryVault.write
    dsimp only
    split <;> rfl
  exact ⟨notice, s', hlook.trans ((if_pos hisFile).trans he), hpath, hrules, hview⟩

/-- A snapshot that follows a write goes on to mirror the vault. -/
theorem Mirrors.written (h : s.Mirrors rules v) {path text : String} {s' : Snapshot} (hrules : s'.rules = s.rules)
    (hview : ∀ q, s'.view q =
      if q = Path.normalize path then some (if s.rules.selects (Path.normalize path) then some text else none)
      else s.view q) : s'.Mirrors rules (v.write path text).2 := by
  refine ⟨hrules.trans h.ruled, fun q => ?_⟩
  rw [hview, v.text?_write, h.ruled]
  split
  · next hq => rw [hq]; rfl
  · exact h.view q

/-- A write to a file that is there is an edit of this file. -/
theorem Mirrors.write (h : s.Mirrors rules v) (path text : String) (hfile : v.isFile (Path.normalize path) = true) :
    ∃ notice s', s.follow (.memory (v.write path text).2) (v.write path text).1 = ([notice], s') ∧
      s.Edits notice.path s' ∧ s'.Mirrors rules (v.write path text).2 := by
  obtain ⟨notice, s', he, hpath, hrules, hview⟩ := s.follow_write v path text
  refine ⟨notice, s', he, ⟨fun q hq => ?_, Or.inr ?_⟩, h.written hrules hview⟩
  · rw [hview, if_neg (hpath ▸ hq)]
  · obtain ⟨old, hold⟩ := Option.isSome_iff_exists.1 hfile
    rw [hview, hpath, if_pos rfl, h.view, hold, h.ruled]
    refine ⟨rfl, fun hnone => ?_⟩
    dsimp only [Option.map_some, Option.bind_some, id_eq] at hnone ⊢
    split at hnone
    · cases hnone
    · next hs => rw [if_neg hs]

/-- A removal of a file whose text is known is an edit of this file, and one of a file that is not there is none. -/
theorem Mirrors.remove (h : s.Mirrors rules v) (path : String)
    (hselects : v.isFile (Path.normalize path) = true → rules.selects (Path.normalize path) = true) :
    (∃ notice s', s.follow (.memory (v.remove path).2) (v.remove path).1 = ([notice], s') ∧
      s.Edits notice.path s' ∧ s'.Mirrors rules (v.remove path).2) ∨
      s.follow (.memory (v.remove path).2) (v.remove path).1 = ([], s) ∧ s.Mirrors rules (v.remove path).2 := by
  have htext (q : String) := v.text?_remove path q
  have hfollow : s.follow (.memory (v.remove path).2) (v.remove path).1 = s.uncache (Path.normalize path) := rfl
  have hgone (q : String) := s.view_uncache (Path.normalize path) q
  rw [hfollow]
  unfold uncache at hgone ⊢
  cases hget : s.get? (Path.normalize path) with
  | none =>
    right
    have hnone : v.text? (Path.normalize path) = none := by
      have hview := h.view (Path.normalize path)
      rw [Snapshot.view, hget] at hview
      exact Option.map_eq_none_iff.1 hview.symm
    refine ⟨rfl, h.ruled, fun q => ?_⟩
    rw [h.view, htext]
    by_cases hq : q = Path.normalize path
    · rw [if_pos hq, hq, hnone]
    · rw [if_neg hq]
  | some previous =>
    left
    simp only [hget] at hgone
    refine ⟨_, _, rfl, ⟨fun q hq => ?_, Or.inl ⟨?_, ?_⟩⟩, h.ruled, fun q => ?_⟩
    · rw [hgone, if_neg hq]
    · have hview := h.view (Path.normalize path)
      cases hold : v.text? (Path.normalize path) with
      | none => rw [Snapshot.view, hget, hold] at hview; cases hview
      | some text =>
        rw [hview, hold, Option.map_some, if_pos (hselects (by rw [MemoryVault.isFile, hold]; rfl))]
        exact fun hnone => Option.some_ne_none _ hnone
    · rw [hgone, if_pos rfl]
    · rw [hgone, htext]
      by_cases hq : q = Path.normalize path
      · rw [if_pos hq, if_pos hq]
        rfl
      · rw [if_neg hq, if_neg hq]
        exact h.view q

end Snapshot

end ScriptVault

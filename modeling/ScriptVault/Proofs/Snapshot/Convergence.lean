import ScriptVault.Proofs.Snapshot.Mirror

/-!
# Convergence — changes that are followed late

The changes of a vault reach a snapshot in their order, but maybe long after they were made: each is followed on a
vault that has moved on.  For each path either what is known is due already, or a change that is still to come makes
it so; so once all changes were followed, the snapshot mirrors the vault.
-/

namespace ScriptVault

namespace Change

/-- A change after which there may be a file under a path, so that whoever follows it looks at the path. -/
def Shows (path : String) : Change → Prop
  | created p => p = path
  | modified p => p = path
  | deleted _ => False
  | renamed _ target => target = path

/-- A change after which there is no file under a path, so that whoever follows it forgets the path. -/
def Takes (path : String) : Change → Prop
  | created _ => False
  | modified _ => False
  | deleted p => p = path
  | renamed source target => source = path ∧ target ≠ path

end Change

/-! ### What a change of a vault does to one path -/

namespace MemoryVault

/-- A path is touched as the change tells: it is as before where the change does not take it or there was nothing to
take, there is a file where the change shows it, or there is none where the change takes it. -/
def Touched (path : String) (v : MemoryVault) (step : Change × MemoryVault) : Prop :=
  (step.2.text? path = v.text? path ∧ (step.1.Takes path → v.text? path = none)) ∨
    (step.2.text? path ≠ none ∧ step.1.Shows path) ∨
    (step.2.text? path = none ∧ step.1.Takes path)

theorem touched_write (v : MemoryVault) (path text p : String) : Touched p v (v.write path text) := by
  have htext := v.text?_write path text p
  by_cases hp : p = Path.normalize path
  · refine Or.inr (Or.inl ⟨?_, ?_⟩)
    · rw [htext, if_pos hp]
      exact Option.some_ne_none text
    · unfold write
      dsimp only
      split <;> exact hp.symm
  · refine Or.inl ⟨htext.trans (if_neg hp), fun htakes => ?_⟩
    unfold write at htakes
    dsimp only at htakes
    split at htakes <;> exact htakes.elim

theorem touched_remove (v : MemoryVault) (path p : String) : Touched p v (v.remove path) := by
  have htext := v.text?_remove path p
  by_cases hp : p = Path.normalize path
  · exact Or.inr (Or.inr ⟨htext.trans (if_pos hp), hp.symm⟩)
  · exact Or.inl ⟨htext.trans (if_neg hp), fun htakes => absurd (show Path.normalize path = p from htakes).symm hp⟩

theorem touched_rename (v : MemoryVault) (source target p : String) : Touched p v (v.rename source target) := by
  have htext := v.text?_rename source target p
  by_cases hmissing : v.text? (Path.normalize source) = none
  · -- nothing moves, and the change takes no file away
    exact Or.inl ⟨htext.trans (if_pos hmissing), fun htakes => (show Path.normalize source = p from htakes.1) ▸ hmissing⟩
  rw [if_neg hmissing] at htext
  by_cases ht : p = Path.normalize target
  · exact Or.inr (Or.inl ⟨by rwa [htext, if_pos ht], ht.symm⟩)
  rw [if_neg ht] at htext
  by_cases hs : p = Path.normalize source
  · exact Or.inr (Or.inr ⟨htext.trans (if_pos hs), hs.symm, Ne.symm ht⟩)
  · exact Or.inl ⟨htext.trans (if_neg hs), fun htakes => absurd (show Path.normalize source = p from htakes.1).symm hs⟩

end MemoryVault

/-! ### What is known after a change was followed -/

namespace Snapshot

theorem rules_follow (s : Snapshot) (v : MemoryVault) (change : Change) :
    (s.follow (.memory v) change).2.rules = s.rules := by
  cases change with
  | created path => exact (s.view_look v path path).1
  | modified path => exact (s.view_look v path path).1
  | deleted path => exact s.rules_uncache path
  | renamed source target => exact (view_look _ v target target).1.trans (s.rules_uncache source)

/-- Where a change shows a file that is there, what is due is known afterwards. -/
theorem view_follow_shows (s : Snapshot) {v : MemoryVault} {change : Change} {path : String}
    (hshows : change.Shows path) (hfile : v.text? path ≠ none) :
    (s.follow (.memory v) change).2.view path = due s.rules v path := by
  cases change with
  | created p | modified p =>
    cases hshows
    exact (s.view_look v path path).2.trans (if_pos ⟨rfl, hfile⟩)
  | deleted p => exact hshows.elim
  | renamed source target =>
    cases hshows
    refine ((view_look (s.uncache source).2 v path path).2.trans (if_pos ⟨rfl, hfile⟩)).trans ?_
    rw [rules_uncache]

/-- A change that neither shows nor takes a path changes nothing for it. -/
theorem view_follow_other (s : Snapshot) (v : MemoryVault) {change : Change} {path : String}
    (hshows : ¬ change.Shows path) (htakes : ¬ change.Takes path) :
    (s.follow (.memory v) change).2.view path = s.view path := by
  cases change with
  | created p | modified p => exact (s.view_look v p path).2.trans (if_neg fun h => hshows h.1.symm)
  | deleted p => exact (s.view_uncache p path).trans (if_neg fun h => htakes h.symm)
  | renamed source target =>
    have ht : ¬ target = path := hshows
    refine ((view_look (s.uncache source).2 v target path).2.trans (if_neg fun h => ht h.1.symm)).trans ?_
    exact (s.view_uncache source path).trans (if_neg fun h => htakes ⟨h.symm, ht⟩)

/-- A path that a change takes is unknown afterwards. -/
theorem view_follow_takes (s : Snapshot) (v : MemoryVault) {change : Change} {path : String}
    (htakes : change.Takes path) : (s.follow (.memory v) change).2.view path = none := by
  cases change with
  | created p | modified p => exact htakes.elim
  | deleted p => exact (s.view_uncache p path).trans (if_pos htakes.symm)
  | renamed source target =>
    refine ((view_look (s.uncache source).2 v target path).2.trans (if_neg fun h => htakes.2 h.1.symm)).trans ?_
    exact (s.view_uncache source path).trans (if_pos htakes.1.symm)

/-- A path that is unknown and no file stays unknown, whatever change is followed. -/
theorem view_follow_unknown (s : Snapshot) {v : MemoryVault} (change : Change) {path : String}
    (hfile : v.text? path = none) (hview : s.view path = none) :
    (s.follow (.memory v) change).2.view path = none := by
  have hlook (s : Snapshot) (p : String) (h : s.view path = none) : (s.look (.memory v) p).2.view path = none := by
    refine (s.view_look v p path).2.trans ((if_neg ?_).trans h)
    rintro ⟨rfl, hp⟩
    exact hp hfile
  have hforget (p : String) : (s.uncache p).2.view path = none := by
    rw [view_uncache, hview, ite_self]
  cases change with
  | created p | modified p => exact hlook s p hview
  | deleted p => exact hforget p
  | renamed source target => exact hlook _ target (hforget source)

end Snapshot

/-! ### A vault that is watched -/

/-- A vault, a snapshot of it, and the changes that the snapshot was not told of yet, the first one first. -/
structure Watch where
  /-- The vault. -/
  vault : MemoryVault
  /-- What is known of its files. -/
  snapshot : Snapshot
  /-- The changes that are still to be followed. -/
  pending : List Change

namespace Watch

/-- What can happen. -/
inductive Move where
  /-- A file is written. -/
  | write (path text : String)
  /-- A file is removed. -/
  | remove (path : String)
  /-- A file is moved. -/
  | rename (source target : String)
  /-- The first of the changes that are still to be followed is followed. -/
  | deliver
  /-- The rules change. -/
  | setRules (rules : Rules)
  /-- All files are looked at. -/
  | rebuild

/-- The vault changes, and the change is to be followed later. -/
def change (w : Watch) (step : Change × MemoryVault) : Watch :=
  { w with vault := step.2, pending := w.pending ++ [step.1] }

/-- What comes of a move. -/
def step (w : Watch) : Move → Watch
  | .write path text => w.change (w.vault.write path text)
  | .remove path => w.change (w.vault.remove path)
  | .rename source target => w.change (w.vault.rename source target)
  | .deliver =>
    match w.pending with
    | [] => w
    | first :: rest => { w with snapshot := (w.snapshot.follow (.memory w.vault) first).2, pending := rest }
  | .setRules rules => { w with snapshot := (w.snapshot.setRules (.memory w.vault) rules).2 }
  | .rebuild => { w with snapshot := (w.snapshot.rebuild (.memory w.vault)).2 }

/-- A vault with a snapshot that was just made of it, whatever was known before. -/
def start (known : Snapshot) (v : MemoryVault) : Watch := ⟨v, (known.rebuild (.memory v)).2, []⟩

/-- What is to be known of a path is known. -/
def Right (w : Watch) (path : String) : Prop :=
  w.snapshot.view path = Snapshot.due w.snapshot.rules w.vault path

/-- A change that is still to come shows a path, and none that comes after it takes the path. -/
def Awaited (pending : List Change) (path : String) : Prop :=
  ∃ before change after, pending = before ++ change :: after ∧ change.Shows path ∧ ∀ d ∈ after, ¬ d.Takes path

/-- What is known of each path is right, or will be when the changes that are still to come are followed. -/
structure Converges (w : Watch) : Prop where
  /-- No change that is still to come takes away a file that is there without one that shows it again. -/
  shown : ∀ path, w.vault.text? path ≠ none → (∀ d ∈ w.pending, ¬ d.Takes path) ∨ Awaited w.pending path
  /-- A file is known rightly, or a change that shows it is still to come. -/
  file : ∀ path, w.vault.text? path ≠ none → w.Right path ∨ Awaited w.pending path
  /-- A path that is no file is unknown, or a change that takes it is still to come. -/
  gone : ∀ path, w.vault.text? path = none → w.snapshot.view path = none ∨ ∃ d ∈ w.pending, d.Takes path

theorem Awaited.append {pending : List Change} {path : String} (h : Awaited pending path) {d : Change}
    (hd : ¬ d.Takes path) : Awaited (pending ++ [d]) path := by
  obtain ⟨before, change, after, rfl, hshows, hafter⟩ := h
  refine ⟨before, change, after ++ [d], by simp, hshows, fun c hc => ?_⟩
  rcases List.mem_append.1 hc with hc | hc
  · exact hafter c hc
  · exact List.mem_singleton.1 hc ▸ hd

/-- When the first change was followed that is awaited for a path, another one is awaited, or it showed the path and
none that is left takes it. -/
theorem Awaited.tail {first : Change} {rest : List Change} {path : String} (h : Awaited (first :: rest) path) :
    Awaited rest path ∨ first.Shows path ∧ ∀ d ∈ rest, ¬ d.Takes path := by
  obtain ⟨before, change, after, he, hshows, hafter⟩ := h
  cases before with
  | nil =>
    obtain ⟨rfl, rfl⟩ := List.cons.inj he
    exact Or.inr ⟨hshows, hafter⟩
  | cons c before =>
    obtain ⟨rfl, rfl⟩ := List.cons.inj he
    exact Or.inl ⟨before, change, after, rfl, hshows, hafter⟩

theorem Converges.of_mirrors {w : Watch} {rules : Rules} (hm : w.snapshot.Mirrors rules w.vault)
    (hshown : ∀ path, w.vault.text? path ≠ none → (∀ d ∈ w.pending, ¬ d.Takes path) ∨ Awaited w.pending path) :
    w.Converges where
  shown := hshown
  file path _ := Or.inl (by rw [Right, hm.view, hm.ruled, Snapshot.due])
  gone path hnone := Or.inl (by rw [hm.view, hnone, Option.map_none])

variable {w : Watch}

theorem Converges.change (h : w.Converges) {step : Change × MemoryVault}
    (htouched : ∀ path, MemoryVault.Touched path w.vault step) : (w.change step).Converges := by
  have hright (path : String) (hsame : step.2.text? path = w.vault.text? path) (hr : w.Right path) :
      (w.change step).Right path := by
    refine Eq.trans hr ?_
    show Snapshot.due w.snapshot.rules w.vault path = Snapshot.due w.snapshot.rules step.2 path
    rw [Snapshot.due, Snapshot.due, hsame]
  have hlast (path : String) (hshows : step.1.Shows path) : Awaited (w.change step).pending path :=
    ⟨w.pending, step.1, [], rfl, hshows, fun _ hd => (List.not_mem_nil hd).elim⟩
  refine ⟨fun path hfile => ?_, fun path hfile => ?_, fun path hnone => ?_⟩ <;>
    rcases htouched path with ⟨hsame, htakes⟩ | ⟨hthere, hshows⟩ | ⟨hgone, htakes⟩
  -- no change takes a file away without showing it again
  · rw [show (w.change step).vault = step.2 from rfl, hsame] at hfile
    have hstep : ¬ step.1.Takes path := fun ht => hfile (htakes ht)
    refine (h.shown path hfile).imp (fun hall d hd => ?_) fun ha => ha.append hstep
    rcases List.mem_append.1 hd with hd | hd
    · exact hall d hd
    · exact List.mem_singleton.1 hd ▸ hstep
  · exact Or.inr (hlast path hshows)
  · exact absurd hgone hfile
  -- files are known rightly or awaited
  · have hold : w.vault.text? path ≠ none := hsame ▸ hfile
    exact (h.file path hold).imp (hright path hsame) fun ha => ha.append fun ht => hold (htakes ht)
  · exact Or.inr (hlast path hshows)
  · exact absurd hgone hfile
  -- what is no file is unknown or still to be forgotten
  · refine (h.gone path (hsame ▸ hnone)).imp id ?_
    rintro ⟨d, hd, ht⟩
    exact ⟨d, List.mem_append_left _ hd, ht⟩
  · exact absurd hnone hthere
  · exact Or.inr ⟨step.1, List.mem_append_right _ (List.mem_singleton.2 rfl), htakes⟩

theorem Converges.deliver (h : w.Converges) {first : Change} {rest : List Change} (hpending : w.pending = first :: rest) :
    Converges { w with snapshot := (w.snapshot.follow (.memory w.vault) first).2, pending := rest } := by
  obtain ⟨hshown, hfile, hgone⟩ := h
  rw [hpending] at hshown hfile hgone
  have hshows (path : String) (hthere : w.vault.text? path ≠ none) (hs : first.Shows path) :
      Right { w with snapshot := (w.snapshot.follow (.memory w.vault) first).2, pending := rest } path := by
    rw [Right, Snapshot.rules_follow]
    exact w.snapshot.view_follow_shows hs hthere
  refine ⟨fun path hthere => ?_, fun path hthere => ?_, fun path hnone => ?_⟩
  · rcases hshown path hthere with hall | ha
    · exact Or.inl fun d hd => hall d (List.mem_cons_of_mem _ hd)
    · exact ha.tail.symm.imp And.right id
  · by_cases hs : first.Shows path
    · exact Or.inl (hshows path hthere hs)
    have hawaited (ha : Awaited (first :: rest) path) : Awaited rest path := ha.tail.resolve_right fun h => hs h.1
    rcases hfile path hthere with hright | ha
    · rcases hshown path hthere with hall | ha
      · left
        rw [Right, Snapshot.rules_follow]
        exact (w.snapshot.view_follow_other w.vault hs (hall first (List.mem_cons_self ..))).trans hright
      · exact Or.inr (hawaited ha)
    · exact Or.inr (hawaited ha)
  · rcases hgone path hnone with hview | ⟨d, hd, ht⟩
    · exact Or.inl (w.snapshot.view_follow_unknown first hnone hview)
    · rcases List.mem_cons.1 hd with rfl | hd
      · exact Or.inl (w.snapshot.view_follow_takes w.vault ht)
      · exact Or.inr ⟨d, hd, ht⟩

/-- Whatever happens next, all paths go on to be known rightly in the end. -/
theorem Converges.step (h : w.Converges) (move : Move) : (w.step move).Converges := by
  cases move with
  | write path text => exact h.change (w.vault.touched_write path text)
  | remove path => exact h.change (w.vault.touched_remove path)
  | rename source target => exact h.change (w.vault.touched_rename source target)
  | deliver =>
    show Converges (match w.pending with | [] => w | first :: rest => _)
    cases hpending : w.pending with
    | nil => exact h
    | cons first rest => exact h.deliver hpending
  | setRules rules => exact .of_mirrors (Snapshot.mirrors_rebuild { w.snapshot with rules := rules } w.vault) h.shown
  | rebuild => exact .of_mirrors (w.snapshot.mirrors_rebuild w.vault) h.shown

theorem Converges.run (h : w.Converges) (moves : List Move) : (moves.foldl Watch.step w).Converges := by
  induction moves generalizing w with
  | nil => exact h
  | cons move moves ih => exact ih (h.step move)

theorem converges_start (known : Snapshot) (v : MemoryVault) : (start known v).Converges :=
  .of_mirrors (known.mirrors_rebuild v) fun _ _ => Or.inl fun _ hd => (List.not_mem_nil hd).elim

/-- Once all changes were followed, however late, the paths that are known are the files of the vault, and each is known
with its text where the rules ask for it and with none where they do not. -/
theorem mirrors_of_delivered (known : Snapshot) (v : MemoryVault) (moves : List Move)
    (hdelivered : (moves.foldl Watch.step (start known v)).pending = []) :
    let w := moves.foldl Watch.step (start known v)
    (∀ path, path ∈ w.snapshot.paths ↔ path ∈ w.vault.files) ∧
      ∀ path identity, w.snapshot.get? path = some identity →
        identity.content = if w.snapshot.rules.selects path then w.vault.text? path else none := by
  intro w
  have h : w.Converges := (converges_start known v).run moves
  have hempty (path : String) : ¬ Awaited w.pending path := by
    rintro ⟨before, change, after, he, -⟩
    rw [hdelivered] at he
    exact absurd he.symm (by simp)
  have hview (path : String) : w.snapshot.view path = Snapshot.due w.snapshot.rules w.vault path := by
    by_cases hfile : w.vault.text? path = none
    · rcases h.gone path hfile with hview | ⟨d, hd, -⟩
      · rw [hview, Snapshot.due, hfile, Option.map_none]
      · rw [hdelivered] at hd
        exact (List.not_mem_nil hd).elim
    · exact (h.file path hfile).resolve_right (hempty path)
  refine ⟨fun path => ?_, fun path identity hget => ?_⟩
  · rw [Snapshot.mem_paths, MemoryVault.mem_files, ← Option.isSome_iff_ne_none, ← Option.isSome_iff_ne_none,
      Snapshot.isSome_get?, hview, Snapshot.due, Option.isSome_map]
  · have hpath := hview path
    rw [Snapshot.view, hget, Snapshot.due] at hpath
    cases htext : w.vault.text? path with
    | none => rw [htext] at hpath; cases hpath
    | some text =>
      rw [htext] at hpath
      exact Option.some.inj hpath

/-- A file is written and moved over another one, which is removed and written again, while the changes are followed
late. -/
theorem mirrors_of_delivered_late :
    let moves : List Move := [.write "a.js" "1", .rename "a.js" "b.js", .deliver, .remove "b.js", .setRules [⟨true, .glob [.anyText]⟩],
      .rename "c.js" "b.js", .deliver, .write "b.js" "2", .deliver, .deliver, .deliver]
    let w := moves.foldl Watch.step (start {} {})
    w.pending = [] ∧ (∀ path, path ∈ w.snapshot.paths ↔ path ∈ w.vault.files) ∧
      ∀ path identity, w.snapshot.get? path = some identity →
        identity.content = if w.snapshot.rules.selects path then w.vault.text? path else none :=
  ⟨rfl, mirrors_of_delivered {} {} _ rfl⟩

end Watch

end ScriptVault

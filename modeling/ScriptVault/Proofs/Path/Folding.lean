import Mathlib.Data.List.Basic
import ScriptVault.Proofs.Text.Pieces
import ScriptVault.Resolver.File

/-!
# Folding — what a folded path looks like, and how paths are put together

Folding a path is a walk over its segments.  The segments of a path that was put together are those of its parts
(`segments_inDirectory`, `segments_ofSegments`), and a walk may start again from where it has come to
(`resolve_append`).  So a folded path is spelled by names alone and stays below the root of the vault, and folding
does not ask how a directory is spelled.
-/

namespace ScriptVault.Path

/-- What may stand between two separators, the steps to where one is and upwards included. -/
structure IsSegment (segment : List Char) : Prop where
  ne_nil : segment ≠ []
  plain : ∀ c ∈ segment, isSeparator c = false

/-- A segment that leads from a directory to something in it. -/
structure IsName (segment : List Char) : Prop extends IsSegment segment where
  ne_dot : segment ≠ ['.']
  ne_dots : segment ≠ ['.', '.']

/-- A path below the root, spelled by names with single slashes between them; the root has the empty path. -/
structure IsFolded (path : String) : Prop where
  no_backslash : '\\' ∉ path.toList
  no_leading : path.toList.head? ≠ some '/'
  no_trailing : path.toList.getLast? ≠ some '/'
  names : path ≠ "" → ∀ piece ∈ Text.pieces (· == '/') path.toList,
    piece ≠ [] ∧ piece ≠ ['.'] ∧ piece ≠ ['.', '.']

/-! ### The segments of a path -/

theorem isSegment_of_mem_segments {path segment : List Char} (h : segment ∈ segments path) :
    IsSegment segment := by
  obtain ⟨hpiece, hne⟩ := List.mem_filter.1 h
  exact ⟨by simpa using hne, Text.plain_of_mem_pieces hpiece⟩

theorem segments_append (s t : List Char) : segments (s ++ '/' :: t) = segments s ++ segments t := by
  rw [segments, Text.pieces_append (by decide), List.filter_append]
  rfl

/-- The segments of a path seen from a directory. -/
theorem segments_inDirectory (directory specifier : String) :
    segments (inDirectory directory specifier).toList =
      segments directory.toList ++ segments specifier.toList := by
  have hpath : (inDirectory directory specifier).toList =
      directory.toList ++ '/' :: specifier.toList := by simp [inDirectory]
  rw [hpath, segments_append]

theorem segments_of_isSegment {segment : List Char} (h : IsSegment segment) : segments segment = [segment] := by
  rw [segments, Text.pieces_of_plain h.plain]
  simp [h.ne_nil]

/-- What is written as a path has the segments that were written. -/
theorem segments_ofSegments {ss : List (List Char)} (h : ∀ s ∈ ss, IsSegment s) :
    segments (ofSegments ss) = ss := by
  cases ss with
  | nil => rfl
  | cons s ss =>
    rw [segments, ofSegments, Text.pieces_join (by decide) (by simp) fun p hp => (h p hp).plain]
    exact List.filter_eq_self.2 fun p hp => by simpa using (h p hp).ne_nil

/-! ### The walk -/

theorem foldl_step_of_down {ss : List (List Char)} (h : ∀ s ∈ ss, s ≠ ['.'] ∧ s ≠ ['.', '.'])
    (way : List (List Char)) : ss.foldl step way = ss.reverse ++ way := by
  induction ss generalizing way with
  | nil => rfl
  | cons s ss ih =>
    obtain ⟨hdot, hdots⟩ := h s (List.mem_cons_self ..)
    rw [List.foldl_cons, step, if_neg hdot, if_neg hdots, ih fun t ht => h t (List.mem_cons_of_mem s ht)]
    simp

/-- What a walk has come through was on the way before, or was a step down. -/
theorem mem_foldl_step {ss way : List (List Char)} {s : List Char} (h : s ∈ ss.foldl step way) :
    s ∈ way ∨ s ∈ ss ∧ s ≠ ['.'] ∧ s ≠ ['.', '.'] := by
  induction ss generalizing way with
  | nil => exact .inl h
  | cons t ss ih =>
    rcases ih h with hway | ⟨hss, hdown⟩
    · unfold step at hway
      split at hway
      · exact .inl hway
      · split at hway
        · exact .inl (List.mem_of_mem_tail hway)
        · next hdot hdots =>
          rcases List.mem_cons.1 hway with rfl | hway
          · exact .inr ⟨List.mem_cons_self .., hdot, hdots⟩
          · exact .inl hway
    · exact .inr ⟨List.mem_cons_of_mem t hss, hdown⟩

theorem mem_resolve {ss : List (List Char)} {s : List Char} (h : s ∈ resolve ss) :
    s ∈ ss ∧ s ≠ ['.'] ∧ s ≠ ['.', '.'] :=
  (mem_foldl_step (List.mem_reverse.1 h)).resolve_left (by simp)

/-- Names are resolved already. -/
theorem resolve_of_down {ss : List (List Char)} (h : ∀ s ∈ ss, s ≠ ['.'] ∧ s ≠ ['.', '.']) : resolve ss = ss := by
  rw [resolve, foldl_step_of_down h, List.append_nil, List.reverse_reverse]

/-- A walk goes on from where it has come to. -/
theorem resolve_append (ss ts : List (List Char)) : resolve (resolve ss ++ ts) = resolve (ss ++ ts) := by
  have hway : (resolve ss).foldl step [] = ss.foldl step [] := by
    rw [foldl_step_of_down fun s hs => (mem_resolve hs).2, resolve, List.reverse_reverse, List.append_nil]
  rw [resolve, List.foldl_append, hway, ← List.foldl_append, ← resolve]

/-! ### Folded paths -/

theorem isName_of_mem_foldedSegments {path : String} {s : List Char} (h : s ∈ foldedSegments path) :
    IsName s := by
  obtain ⟨hs, hdot, hdots⟩ := mem_resolve h
  exact { isSegment_of_mem_segments hs with ne_dot := hdot, ne_dots := hdots }

/-- The segments of a folded path are those that folding left. -/
theorem segments_fold (path : String) : segments (fold path).toList = foldedSegments path := by
  rw [fold, String.toList_ofList]
  exact segments_ofSegments fun s hs => (isName_of_mem_foldedSegments hs).toIsSegment

theorem foldedSegments_inDirectory (directory specifier : String) :
    foldedSegments (inDirectory directory specifier) =
      resolve (segments directory.toList ++ segments specifier.toList) := by
  rw [foldedSegments, segments_inDirectory]

theorem foldedSegments_fold (path : String) : foldedSegments (fold path) = foldedSegments path := by
  rw [foldedSegments, segments_fold]
  exact resolve_of_down fun s hs => ⟨(isName_of_mem_foldedSegments hs).ne_dot, (isName_of_mem_foldedSegments hs).ne_dots⟩

theorem fold_fold (path : String) : fold (fold path) = fold path := by
  rw [fold, foldedSegments_fold, ← fold]

/-- A path seen from a directory is seen the same from what the directory folds to. -/
theorem fold_inDirectory_fold (directory specifier : String) :
    fold (inDirectory (fold directory) specifier) = fold (inDirectory directory specifier) := by
  rw [fold, foldedSegments_inDirectory, segments_fold, foldedSegments, resolve_append,
    ← foldedSegments_inDirectory, ← fold]

theorem segments_directory (path : String) :
    segments (directory path).toList = (foldedSegments path).dropLast := by
  rw [directory, String.toList_ofList]
  refine segments_ofSegments fun s hs => ?_
  exact (isName_of_mem_foldedSegments (List.dropLast_subset _ hs)).toIsSegment

/-- The slashes of a folded path stand between its segments. -/
theorem pieces_fold {path : String} (h : foldedSegments path ≠ []) :
    Text.pieces (· == '/') (fold path).toList = foldedSegments path := by
  rw [fold, String.toList_ofList]
  refine Text.pieces_join rfl h fun s hs c hc => ?_
  have hplain := (isName_of_mem_foldedSegments hs).plain c hc
  exact (Bool.or_eq_false_iff.1 hplain).1

theorem fold_eq_empty {path : String} (h : foldedSegments path = []) : fold path = "" := by
  rw [fold, h]
  rfl

/-- The name of a folded path is its last segment. -/
theorem segments_fileName_fold (path : String) :
    segments (fileName (fold path)).toList = (foldedSegments path).getLast?.toList := by
  by_cases h : foldedSegments path = []
  · rw [fold_eq_empty h, h]
    rfl
  · have hlast : (foldedSegments path).getLastD [] = (foldedSegments path).getLast h := by
      rw [List.getLastD_eq_getLast?, List.getLast?_eq_some_getLast h, Option.getD_some]
    rw [fileName, pieces_fold h, String.toList_ofList, hlast, List.getLast?_eq_some_getLast h]
    exact segments_of_isSegment (isName_of_mem_foldedSegments (List.getLast_mem h)).toIsSegment

/-- A folded path is its name seen from its directory. -/
theorem fold_directory_fileName (path : String) :
    fold (inDirectory (directory path) (fileName (fold path))) = fold path := by
  have hsegments : (foldedSegments path).dropLast ++ (foldedSegments path).getLast?.toList = foldedSegments path := by
    cases hlast : (foldedSegments path).getLast? with
    | none => rw [List.getLast?_eq_none_iff.1 hlast]; rfl
    | some s => exact List.dropLast_append_getLast? s hlast
  rw [fold, foldedSegments_inDirectory, segments_directory, segments_fileName_fold, hsegments,
    ← segments_fold, ← foldedSegments, ← fold, fold_fold]

theorem isFolded_fold (path : String) : IsFolded (fold path) := by
  by_cases h : foldedSegments path = []
  · rw [fold_eq_empty h]
    exact ⟨by decide, by decide, by decide, fun hne => absurd rfl hne⟩
  · have hpieces := pieces_fold h
    have hnames : ∀ s ∈ Text.pieces (· == '/') (fold path).toList, IsName s :=
      hpieces ▸ fun s hs => isName_of_mem_foldedSegments hs
    refine ⟨?_, ?_, ?_, fun _ s hs => ⟨(hnames s hs).ne_nil, (hnames s hs).ne_dot, (hnames s hs).ne_dots⟩⟩
    · intro hmem
      obtain ⟨s, hs, hc⟩ := @Text.exists_mem_pieces (· == '/') _ _ hmem (by decide)
      exact absurd ((hnames s hs).plain _ hc) (by decide)
    · intro hhead
      obtain ⟨s, hs⟩ := List.head?_eq_some_iff.1 hhead
      refine (hnames [] ?_).ne_nil rfl
      rw [hs, Text.pieces]
      exact List.mem_cons_self ..
    · intro hlast
      obtain ⟨s, hs⟩ := List.getLast?_eq_some_iff.1 hlast
      refine (hnames [] ?_).ne_nil rfl
      rw [hs, Text.pieces_append (by decide)]
      exact List.mem_append_right _ (List.mem_cons_self ..)

/-! ### Paths of names -/

/-- A path of names, with single slashes between them. -/
structure IsPlain (path : String) : Prop where
  no_backslash : '\\' ∉ path.toList
  names : ∀ piece ∈ Text.pieces (· == '/') path.toList, piece ≠ [] ∧ piece ≠ ['.'] ∧ piece ≠ ['.', '.']

section

variable {path : String} (h : IsPlain path)
include h

theorem IsPlain.segments_eq : segments path.toList = Text.pieces (· == '/') path.toList := by
  have hpieces : Text.pieces isSeparator path.toList = Text.pieces (· == '/') path.toList := by
    apply Text.pieces_congr
    intro c hc
    have hne : c ≠ '\\' := fun hslash => h.no_backslash (hslash ▸ hc)
    simp [isSeparator, hne]
  rw [segments, hpieces]
  exact List.filter_eq_self.2 fun piece hpiece => by simpa using (h.names piece hpiece).1

theorem IsPlain.ofSegments_eq : ofSegments (segments path.toList) = path.toList := by
  rw [h.segments_eq, ofSegments, Text.join_pieces]

theorem IsPlain.foldedSegments_eq : foldedSegments path = segments path.toList :=
  resolve_of_down fun s hs => (h.names s (h.segments_eq ▸ hs)).2

theorem IsPlain.normalize_eq : normalize path = path := by rw [normalize, h.ofSegments_eq, String.ofList_toList]

theorem IsPlain.fold_eq : fold path = path := by
  rw [fold, h.foldedSegments_eq, h.ofSegments_eq, String.ofList_toList]

theorem IsPlain.ne_empty : path ≠ "" := by
  rintro rfl
  exact (h.names [] (List.mem_cons_self ..)).1 rfl

/-- Seen from a directory, a path of names stands behind what the directory folds to. -/
theorem IsPlain.fold_inDirectory (directory : String) :
    fold (inDirectory directory path) = path ∨
      fold (inDirectory directory path) = fold directory ++ "/" ++ path := by
  have hdown : ∀ s ∈ foldedSegments directory ++ segments path.toList, s ≠ ['.'] ∧ s ≠ ['.', '.'] := by
    intro s hs
    rcases List.mem_append.1 hs with hs | hs
    · exact ⟨(isName_of_mem_foldedSegments hs).ne_dot, (isName_of_mem_foldedSegments hs).ne_dots⟩
    · exact (h.names s (h.segments_eq ▸ hs)).2
  have hfolded : foldedSegments (inDirectory directory path) = foldedSegments directory ++ segments path.toList := by
    rw [foldedSegments_inDirectory, ← resolve_append, ← foldedSegments, resolve_of_down hdown]
  by_cases hroot : foldedSegments directory = []
  · left
    rw [fold, hfolded, hroot, List.nil_append, h.ofSegments_eq, String.ofList_toList]
  · right
    have hsegments : segments path.toList ≠ [] := h.segments_eq ▸ Text.pieces_ne_nil _ _
    have hpath := h.ofSegments_eq
    rw [ofSegments] at hpath
    apply String.toList_injective
    rw [fold, hfolded, ofSegments, Text.join_append hroot hsegments, hpath]
    simp [fold, ofSegments]

end

/-- A folded path leads by names alone to a place below the root, and folding it again changes nothing.  A path is
seen from a directory as it is from what the directory folds to, and a folded path is its name seen from its
directory.  So the paths of the relative and of the absolute strategy stay below the root, and the working directory
counts by what it folds to alone. -/
theorem fold_canonical (a b : String) (snapshot : Snapshot) :
    IsFolded (fold a) ∧ fold (fold a) = fold a ∧
      fold (inDirectory a b) = fold (inDirectory (fold a) b) ∧
      fold (inDirectory (directory a) (fileName (fold a))) = fold a ∧
      (∃ path, Strategy.relative.path? snapshot b a = some path ∧ IsFolded path) ∧
      (∃ path, Strategy.absolute.path? snapshot b a = some path ∧ IsFolded path) ∧
      Strategy.relative.path? snapshot b a = Strategy.relative.path? snapshot b (fold a) ∧
      Strategy.absolute.path? snapshot b a = Strategy.absolute.path? snapshot b (fold a) := by
  refine ⟨isFolded_fold a, fold_fold a, (fold_inDirectory_fold a b).symm, fold_directory_fileName a,
    ⟨_, rfl, isFolded_fold _⟩, ⟨_, rfl, isFolded_fold _⟩, ?_, rfl⟩
  exact congrArg some (fold_inDirectory_fold a b).symm

end ScriptVault.Path

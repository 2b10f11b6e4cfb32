import Mathlib.Data.Prod.Lex
import Mathlib.Data.String.Basic
import ScriptVault.Proofs.Path.Folding
import ScriptVault.Proofs.Snapshot.Tokens
import ScriptVault.Proofs.Text.Percent

/-!
# Destination — the files that a link leads to

A link of names fits the paths that are spelled like it, or end with it after a slash, with or without the ending of a
note (`Fits`).  What is found beside the note or at the root fits too (`fits_of_destination?`), and so a link leads
somewhere just when a known path fits it.  Where nothing is found directly, it leads to the best of the paths that fit:
the shortest, and of equally long ones the first in the order of their bytes (`rank_destination?_le`).
-/

namespace ScriptVault.Snapshot

/-! ### The best of some paths -/

/-- What makes a path better than another one: its length, and then its place in the order of texts. -/
def rank (path : String) : ℕ ×ₗ String := toLex (path.utf8ByteSize, path)

theorem rank_injective : Function.Injective rank := fun a b h => by
  have := congrArg (fun x => (ofLex x).2) h
  exact this

theorem better_eq (a b : String) : better a b = if rank b < rank a then b else a := by
  unfold better rank
  refine if_congr ?_ rfl rfl
  rw [Prod.Lex.toLex_lt_toLex]
  simp

theorem rank_foldl_better (l : List String) (a : String) :
    l.foldl better a ∈ a :: l ∧ ∀ x ∈ a :: l, rank (l.foldl better a) ≤ rank x := by
  induction l generalizing a with
  | nil => simp
  | cons b l ih =>
    obtain ⟨hmem, hle⟩ := ih (better a b)
    have hbetter : better a b = a ∨ better a b = b := by
      rw [better_eq]
      split
      · exact Or.inr rfl
      · exact Or.inl rfl
    have hrank : rank (better a b) ≤ rank a ∧ rank (better a b) ≤ rank b := by
      rw [better_eq]
      split
      · next h => exact ⟨le_of_lt h, le_refl _⟩
      · next h => exact ⟨le_refl _, not_lt.1 h⟩
    have hfirst := hle (better a b) (List.mem_cons_self ..)
    rw [List.foldl_cons]
    refine ⟨?_, fun x hx => ?_⟩
    · rcases List.mem_cons.1 hmem with h | h
      · rw [h]
        rcases hbetter with h | h <;> rw [h] <;> simp
      · exact List.mem_cons_of_mem _ (List.mem_cons_of_mem _ h)
    · rcases List.mem_cons.1 hx with rfl | hx
      · exact le_trans hfirst hrank.1
      · rcases List.mem_cons.1 hx with rfl | hx
        · exact le_trans hfirst hrank.2
        · exact hle x (List.mem_cons_of_mem _ hx)

theorem best?_eq_some_iff {l : List String} {b : String} :
    best? l = some b ↔ b ∈ l ∧ ∀ x ∈ l, rank b ≤ rank x := by
  cases l with
  | nil => simp [best?]
  | cons a l =>
    obtain ⟨hmem, hle⟩ := rank_foldl_better l a
    constructor
    · rintro h
      cases h
      exact ⟨hmem, hle⟩
    · rintro ⟨hb, hall⟩
      exact congrArg some (rank_injective (le_antisymm (hle b hb) (hall _ hmem)))

theorem best?_eq_none_iff {l : List String} : best? l = none ↔ l = [] := by cases l <;> simp [best?]

/-- The best path stays the best when another one is taken away. -/
theorem best?_of_less {l l' : List String} {z : String} (h : ∀ x, x ∈ l' ↔ x ∈ l ∧ x ≠ z) :
    best? l = some z ∨ best? l' = best? l := by
  cases hb : best? l with
  | none =>
    right
    rw [best?_eq_none_iff] at hb ⊢
    subst hb
    exact List.eq_nil_iff_forall_not_mem.2 fun x hx => nomatch ((h x).1 hx).1
  | some b =>
    by_cases hz : b = z
    · exact Or.inl (hz ▸ rfl)
    · right
      obtain ⟨hmem, hle⟩ := best?_eq_some_iff.1 hb
      exact best?_eq_some_iff.2 ⟨(h b).2 ⟨hmem, hz⟩, fun x hx => hle x ((h x).1 hx).1⟩

theorem best?_congr {l l' : List String} (h : ∀ x, x ∈ l' ↔ x ∈ l) : best? l' = best? l := by
  cases hb : best? l with
  | none =>
    rw [best?_eq_none_iff] at hb ⊢
    subst hb
    exact List.eq_nil_iff_forall_not_mem.2 fun x hx => nomatch (h x).1 hx
  | some b =>
    obtain ⟨hmem, hle⟩ := best?_eq_some_iff.1 hb
    exact best?_eq_some_iff.2 ⟨(h b).2 hmem, fun x hx => hle x ((h x).1 hx)⟩

/-! ### Paths that fit a link -/

/-- A path is spelled like a link or ends with it after a slash; the ending of a note may be left out. -/
def Fits (link path : String) : Prop :=
  ∃ wanted ∈ [link, link ++ ".md"], path = wanted ∨ ∃ front, path = front ++ "/" ++ wanted

variable {s : Snapshot} {link directory path other : String}

theorem isTail_iff {wanted : String} :
    isTail wanted path = true ↔ path = wanted ∨ ∃ front, path = front ++ "/" ++ wanted := by
  rw [isTail, Bool.or_eq_true, beq_iff_eq, Text.endsWith_iff]
  refine or_congr_right ?_
  constructor
  · rintro ⟨front, hfront⟩
    refine ⟨String.ofList front, ?_⟩
    apply String.toList_injective
    simp [hfront]
  · rintro ⟨front, rfl⟩
    exact ⟨front.toList, by simp⟩

theorem fits_iff : Fits link path ↔ (isTail link path || isTail (link ++ ".md") path) = true := by
  simp [Fits, isTail_iff]

/-- A path that is found directly is known, and it is the path that was looked for but for the ending of a note. -/
theorem mem_of_directHit? (h : s.directHit? path = some other) :
    other ∈ s.paths ∧ other ∈ [path, path ++ ".md"] := by
  rw [directHit?] at h
  split_ifs at h with hempty hpath hnote
  · obtain rfl := Option.some.inj h
    exact ⟨mem_paths.2 (Option.isSome_iff_ne_none.1 hpath), by simp⟩
  · obtain rfl := Option.some.inj h
    exact ⟨mem_paths.2 (Option.isSome_iff_ne_none.1 hnote), by simp⟩

theorem directHit?_eq_none (h : path ∉ s.paths) (hnote : path ++ ".md" ∉ s.paths) : s.directHit? path = none := by
  rw [mem_paths, not_not] at h hnote
  simp [directHit?, h, hnote]

/-- What is found directly fits, where what was looked for is the link or ends with it. -/
theorem fits_of_directHit? {sought : String} (hsought : sought = link ∨ ∃ front, sought = front ++ "/" ++ link)
    (h : s.directHit? sought = some path) : path ∈ s.paths ∧ Fits link path := by
  obtain ⟨hpath, hspelled⟩ := mem_of_directHit? h
  refine ⟨hpath, ?_⟩
  simp only [List.mem_cons, List.not_mem_nil, or_false] at hspelled
  rcases hspelled with rfl | rfl
  · exact ⟨link, by simp, hsought⟩
  · refine ⟨link ++ ".md", by simp, ?_⟩
    rcases hsought with rfl | ⟨front, rfl⟩
    · exact Or.inl rfl
    · exact Or.inr ⟨front, by simp [String.append_assoc]⟩

/-! ### Where a link leads -/

/-- The best of the known paths that fit a link. -/
def bestFit? (s : Snapshot) (link : String) : Option String :=
  best? (s.paths.filter fun path => isTail link path || isTail (link ++ ".md") path)

theorem bestFit?_eq_some_iff :
    s.bestFit? link = some path ↔
      (path ∈ s.paths ∧ Fits link path) ∧ ∀ other ∈ s.paths, Fits link other → rank path ≤ rank other := by
  simp only [bestFit?, best?_eq_some_iff, List.mem_filter, ← fits_iff, and_imp]

theorem isSome_bestFit? (h : path ∈ s.paths) (hfits : Fits link path) : (s.bestFit? link).isSome := by
  rw [Option.isSome_iff_ne_none, bestFit?, Ne, best?_eq_none_iff]
  exact List.ne_nil_of_mem (List.mem_filter.2 ⟨h, fits_iff.1 hfits⟩)

/-- A link of names leads to the path that is found from the directory, else at the root, else to the best that fits. -/
theorem destination?_eq (hlink : Path.IsPlain link) (s : Snapshot) (directory : String) :
    s.destination? link directory =
      ((s.directHit? (Path.fold (Path.inDirectory directory link))).or (s.directHit? link)).or (s.bestFit? link) := by
  have hempty : ¬ link.isEmpty = true := by simpa using hlink.ne_empty
  rw [destination?, if_neg hempty, hlink.fold_eq, hlink.normalize_eq, ← bestFit?]
  simp

theorem fits_of_destination? (hlink : Path.IsPlain link) (h : s.destination? link directory = some path) :
    path ∈ s.paths ∧ Fits link path := by
  rw [destination?_eq hlink, Option.or_eq_some_iff, Option.or_eq_some_iff] at h
  rcases h with (hnear | ⟨-, hroot⟩) | ⟨-, hbest⟩
  · apply fits_of_directHit? _ hnear
    rcases hlink.fold_inDirectory directory with hfold | hfold
    · exact Or.inl hfold
    · exact Or.inr ⟨_, hfold⟩
  · exact fits_of_directHit? (Or.inl rfl) hroot
  · exact (bestFit?_eq_some_iff.1 hbest).1

theorem isSome_destination? (hlink : Path.IsPlain link) (h : path ∈ s.paths) (hfits : Fits link path)
    (directory : String) : (s.destination? link directory).isSome := by
  rw [destination?_eq hlink, Option.isSome_or, isSome_bestFit? h hfits, Bool.or_true]

/-- Where nothing is found directly, no path that fits is better than the one that is found. -/
theorem rank_destination?_le (hlink : Path.IsPlain link)
    (hdirect : ∀ sought ∈ [Path.fold (Path.inDirectory directory link), link],
      sought ∉ s.paths ∧ sought ++ ".md" ∉ s.paths)
    (h : s.destination? link directory = some path) (hother : other ∈ s.paths) (hfits : Fits link other) :
    rank path ≤ rank other := by
  have hnear := hdirect _ (List.mem_cons_self ..)
  have hroot := hdirect link (by simp)
  rw [destination?_eq hlink, directHit?_eq_none hnear.1 hnear.2, directHit?_eq_none hroot.1 hroot.2, Option.none_or,
    Option.none_or] at h
  exact (bestFit?_eq_some_iff.1 h).2 other hother hfits

/-- A link of names leads somewhere just when a known path fits it, and then to one that fits; if only one does, to this
one from every directory.  Where neither the link nor what it is from the directory is known, with or without the
ending of a note, no known path that fits has fewer bytes than the one that it leads to, or as many and comes before it
byte by byte. -/
theorem destinations_fit (s : Snapshot) (link : String) (hlink : Path.IsPlain link) :
    (∀ directory, (s.destination? link directory).isSome ↔ ∃ path ∈ s.paths, Fits link path) ∧
      (∀ directory path, s.destination? link directory = some path → path ∈ s.paths ∧ Fits link path) ∧
      (∀ path ∈ s.paths, Fits link path → (∀ other ∈ s.paths, Fits link other → other = path) →
        ∀ directory, s.destination? link directory = some path) ∧
      ∀ directory, (∀ sought ∈ [Path.fold (Path.inDirectory directory link), link],
          sought ∉ s.paths ∧ sought ++ ".md" ∉ s.paths) →
        ∀ path, s.destination? link directory = some path → ∀ other ∈ s.paths, Fits link other →
          ¬ other.utf8ByteSize < path.utf8ByteSize ∧
          ¬ (other.utf8ByteSize = path.utf8ByteSize ∧
            Text.Percent.bytes other.toList < Text.Percent.bytes path.toList) := by
  refine ⟨?_, fun directory path => fits_of_destination? hlink, ?_, ?_⟩
  · intro directory
    constructor
    · intro h
      obtain ⟨path, hpath⟩ := Option.isSome_iff_exists.1 h
      exact ⟨path, fits_of_destination? hlink hpath⟩
    · rintro ⟨path, hpath, hfits⟩
      exact isSome_destination? hlink hpath hfits directory
  · intro path hpath hfits honly directory
    obtain ⟨found, hfound⟩ := Option.isSome_iff_exists.1 (isSome_destination? hlink hpath hfits directory)
    obtain ⟨hknown, hfoundFits⟩ := fits_of_destination? hlink hfound
    rw [hfound, honly found hknown hfoundFits]
  · intro directory hdirect path hpath other hother hfits
    have hrank := rank_destination?_le hlink hdirect hpath hother hfits
    rw [rank, rank, Prod.Lex.toLex_le_toLex] at hrank
    rw [Text.Percent.bytes_lt_iff]
    rcases hrank with hless | ⟨hsame, hle⟩
    · exact ⟨Nat.not_lt.2 (Nat.le_of_lt hless), fun h => absurd h.1 (Nat.ne_of_gt hless)⟩
    · exact ⟨Nat.not_lt.2 (Nat.le_of_eq hsame), fun h => absurd h.2 (not_lt.2 hle)⟩

/-- Two files of one name. -/
def namesakes : Snapshot where
  entries := [("a/b/deep/util.js", ⟨0, "a/b/deep/util.js", none⟩), ("x/util.js", ⟨1, "x/util.js", none⟩)]
  current := [0, 1]
  nextToken := 2

theorem destinations_fit_namesakes :
    Path.IsPlain "deep/util.js" ∧ namesakes.destination? "deep/util.js" "x" = some "a/b/deep/util.js" ∧
      Path.IsPlain "util.js" ∧ namesakes.destination? "util.js" "elsewhere" = some "x/util.js" := by
  have hdeep : Path.IsPlain "deep/util.js" := ⟨by decide, by decide⟩
  have hname : Path.IsPlain "util.js" := ⟨by decide, by decide⟩
  have honly := (destinations_fit namesakes "deep/util.js" hdeep).2.2.1 "a/b/deep/util.js" (by decide)
    (fits_iff.2 (by decide)) (by simp only [fits_iff]; decide)
  refine ⟨hdeep, honly "x", hname, ?_⟩
  obtain ⟨hsome, hfits, -, hbest⟩ := destinations_fit namesakes "util.js" hname
  obtain ⟨path, hpath⟩ := Option.isSome_iff_exists.1
    ((hsome "elsewhere").2 ⟨"x/util.js", by decide, fits_iff.2 (by decide)⟩)
  have hshort := (hbest "elsewhere" (by decide) path hpath "x/util.js" (by decide) (fits_iff.2 (by decide))).1
  have hknown : path ∈ ["a/b/deep/util.js", "x/util.js"] := (hfits _ _ hpath).1
  simp only [List.mem_cons, List.not_mem_nil, or_false] at hknown
  rcases hknown with rfl | rfl
  · exact absurd (by decide) hshort
  · exact hpath

end ScriptVault.Snapshot

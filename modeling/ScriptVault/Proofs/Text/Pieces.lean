import Mathlib.Data.List.Basic
import ScriptVault.Text.Pieces

/-!
# Pieces — cutting a text and joining what was cut

Cutting at a separator comes apart where one stands (`pieces_append`), so that joined pieces are cut where they were
joined (`pieces_join`), and pieces are joined to the text that was cut (`join_pieces`).  A text that was put in front
of another one is cut off again by its bytes (`fromByte?_append`), and one with a separator behind it by the separator
(`cut?_append`).
-/

namespace ScriptVault.Text

variable {isSep : Char → Bool} {c : Char} {s t p : List Char} {ps : List (List Char)}

theorem pieces_append (hc : isSep c = true) (s t : List Char) :
    pieces isSep (s ++ c :: t) = pieces isSep s ++ pieces isSep t := by
  induction s with
  | nil => simp [pieces, hc]
  | cons a s ih =>
    rw [List.cons_append, pieces, pieces, ih]
    split
    · rfl
    · cases hs : pieces isSep s with
      | nil => exact absurd hs (pieces_ne_nil isSep s)
      | cons p ps => rfl

theorem pieces_of_plain (hs : ∀ a ∈ s, isSep a = false) : pieces isSep s = [s] := by
  induction s with
  | nil => rfl
  | cons a s ih =>
    have ha : isSep a = false := hs a (List.mem_cons_self ..)
    rw [pieces, ih fun b hb => hs b (List.mem_cons_of_mem a hb), ha]
    rfl

/-- No separator stands in a piece. -/
theorem plain_of_mem_pieces (hp : p ∈ pieces isSep s) : ∀ a ∈ p, isSep a = false := by
  induction s generalizing p with
  | nil =>
    obtain rfl : p = [] := by simpa [pieces] using hp
    simp
  | cons b s ih =>
    rw [pieces] at hp
    split at hp
    · rcases List.mem_cons.1 hp with rfl | hp
      · simp
      · exact ih hp
    · next hb =>
      cases hs : pieces isSep s with
      | nil => exact absurd hs (pieces_ne_nil isSep s)
      | cons q qs =>
        rw [hs] at hp ih
        rcases List.mem_cons.1 hp with rfl | hp
        · intro a ha
          rcases List.mem_cons.1 ha with rfl | ha
          · simpa using hb
          · exact ih (List.mem_cons_self ..) a ha
        · exact ih (List.mem_cons_of_mem q hp)

/-- All but the separators stands in the pieces. -/
theorem exists_mem_pieces (hs : c ∈ s) (hc : isSep c = false) : ∃ p ∈ pieces isSep s, c ∈ p := by
  induction s with
  | nil => cases hs
  | cons b s ih =>
    rw [pieces]
    split
    · next hb =>
      have hne : c ≠ b := by
        rintro rfl
        exact absurd hb (by simp [hc])
      obtain ⟨p, hp, hcp⟩ := ih ((List.mem_cons.1 hs).resolve_left hne)
      exact ⟨p, List.mem_cons_of_mem [] hp, hcp⟩
    · cases hps : pieces isSep s with
      | nil => exact absurd hps (pieces_ne_nil isSep s)
      | cons q qs =>
        rcases List.mem_cons.1 hs with rfl | hs
        · exact ⟨c :: q, List.mem_cons_self .., List.mem_cons_self ..⟩
        · obtain ⟨p, hp, hcp⟩ := ih hs
          rw [hps] at hp
          rcases List.mem_cons.1 hp with rfl | hp
          · exact ⟨b :: p, List.mem_cons_self .., List.mem_cons_of_mem b hcp⟩
          · exact ⟨p, List.mem_cons_of_mem _ hp, hcp⟩

/-- Pieces that were joined are cut where they were joined. -/
theorem pieces_join (hc : isSep c = true) (hne : ps ≠ []) (hps : ∀ p ∈ ps, ∀ a ∈ p, isSep a = false) :
    pieces isSep (join [c] ps) = ps := by
  induction ps with
  | nil => exact absurd rfl hne
  | cons p ps ih =>
    have hp : pieces isSep p = [p] := pieces_of_plain (hps p (List.mem_cons_self ..))
    cases ps with
    | nil => exact hp
    | cons q ps =>
      rw [join, List.append_assoc, List.singleton_append, pieces_append hc, hp,
        ih (by simp) fun r hr => hps r (List.mem_cons_of_mem p hr)]
      rfl

theorem pieces_congr {isOther : Char → Bool} (h : ∀ a ∈ s, isSep a = isOther a) :
    pieces isSep s = pieces isOther s := by
  induction s with
  | nil => rfl
  | cons a s ih =>
    rw [pieces, pieces, h a (List.mem_cons_self ..), ih fun b hb => h b (List.mem_cons_of_mem a hb)]

/-- The pieces of a text are joined to the text. -/
theorem join_pieces (c : Char) (s : List Char) : join [c] (pieces (· == c) s) = s := by
  induction s with
  | nil => rfl
  | cons a s ih =>
    have hne := pieces_ne_nil (· == c) s
    rw [pieces]
    cases hs : pieces (· == c) s with
    | nil => exact absurd hs hne
    | cons p ps =>
      rw [hs] at ih
      split
      · next ha => rw [join, ih, eq_of_beq ha]; rfl
      · cases ps with
        | nil => exact congrArg (a :: ·) ih
        | cons q ps => exact congrArg (a :: ·) ih

theorem join_append {qs : List (List Char)} (hps : ps ≠ []) (hqs : qs ≠ []) (sep : List Char) :
    join sep (ps ++ qs) = join sep ps ++ sep ++ join sep qs := by
  induction ps with
  | nil => exact absurd rfl hps
  | cons p ps ih =>
    cases ps with
    | nil =>
      cases qs with
      | nil => exact absurd rfl hqs
      | cons q qs => rfl
    | cons p' ps =>
      have htail := ih (by simp)
      rw [List.cons_append] at htail
      rw [List.cons_append, List.cons_append, join, htail, join]
      simp only [List.append_assoc]

/-! ### Cutting once -/

theorem fromByte?_append (s t : List Char) : fromByte? (byteLength s) (s ++ t) = some t := by
  induction s with
  | nil => simp [fromByte?]
  | cons a s ih =>
    have ha := a.utf8Size_pos
    obtain ⟨n, hn⟩ : ∃ n, byteLength (a :: s) = n + 1 := ⟨byteLength s + a.utf8Size - 1, by simp; omega⟩
    have hrest : n + 1 - a.utf8Size = byteLength s := by rw [← hn, byteLength_cons]; omega
    have hle : a.utf8Size ≤ n + 1 := by rw [← hn, byteLength_cons]; omega
    rw [hn, List.cons_append, fromByte?, if_pos hle, hrest, ih]

theorem cut?_eq_none (hs : c ∉ s) : cut? [c] s = none := by
  induction s with
  | nil => simp [cut?]
  | cons a s ih =>
    simp only [List.mem_cons, not_or] at hs
    simp [cut?, after?, hs.1, ih hs.2]

theorem cut?_append (hs : c ∉ s) (t : List Char) : cut? [c] (s ++ c :: t) = some (s, t) := by
  induction s with
  | nil => simp [cut?, after?]
  | cons a s ih =>
    simp only [List.mem_cons, not_or] at hs
    simp [cut?, after?, hs.1, ih hs.2]

theorem before?_eq_some_iff {ending rest : List Char} : before? ending s = some rest ↔ s = rest ++ ending := by
  rw [before?, Option.map_eq_some_iff]
  constructor
  · rintro ⟨front, hfront, rfl⟩
    have hs := congrArg List.reverse (after?_eq_some_iff.1 hfront)
    simpa using hs
  · rintro rfl
    exact ⟨rest.reverse, after?_eq_some_iff.2 (by simp), by simp⟩

theorem endsWith_iff {ending : List Char} : endsWith ending s = true ↔ ∃ front, s = front ++ ending := by
  rw [endsWith, Option.isSome_iff_exists]
  simp only [before?_eq_some_iff]

end ScriptVault.Text

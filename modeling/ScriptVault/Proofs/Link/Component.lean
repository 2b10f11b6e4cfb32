import ScriptVault.Link
import ScriptVault.Proofs.Text.Pieces

/-!
# Component — what stands between two brackets

`Writes` says how a text may be written between brackets: a character after a backslash stands for itself, and a
bracket without one is counted.  The inside of a component is read exactly to the bracket that closes it, and the bytes
that it is said to take are those of what was written (`takeInside?_eq_some_iff`).  A text may be written with all its
brackets escaped (`writes_escape`), or with those left alone that have a partner (`Balanced.writes`).
-/

namespace ScriptVault.Link

open Text

/-- `w` writes the text `s`, from a place where `a` more brackets are open to one where `b` are. -/
inductive Writes (opening closing : Char) : Nat → List Char → List Char → Nat → Prop
  | nil {a : Nat} : Writes opening closing a [] [] a
  | escaped {a b : Nat} {s w : List Char} (c : Char) :
    Writes opening closing a s w b → Writes opening closing a (c :: s) ('\\' :: c :: w) b
  | plain {a b : Nat} {s w : List Char} {c : Char} : c ≠ '\\' → c ≠ opening → c ≠ closing →
    Writes opening closing a s w b → Writes opening closing a (c :: s) (c :: w) b
  | opened {a b : Nat} {s w : List Char} :
    Writes opening closing (a + 1) s w b → Writes opening closing a (opening :: s) (opening :: w) b
  | closed {a b : Nat} {s w : List Char} :
    Writes opening closing a s w b → Writes opening closing (a + 1) (closing :: s) (closing :: w) b

/-- The brackets of a component. -/
structure IsPair (opening closing : Char) : Prop where
  opening_ne : opening ≠ '\\'
  closing_ne : closing ≠ '\\'
  closing_ne_opening : closing ≠ opening

theorem isPair_square : IsPair '[' ']' := ⟨by decide, by decide, by decide⟩

theorem isPair_round : IsPair '(' ')' := ⟨by decide, by decide, by decide⟩

variable {opening closing : Char} {a b n : Nat} {s w t v : List Char}

theorem Writes.append {c : Nat} (h : Writes opening closing a s w b) (h' : Writes opening closing b t v c) :
    Writes opening closing a (s ++ t) (w ++ v) c := by
  induction h with
  | nil => exact h'
  | escaped x _ ih => exact .escaped x (ih h')
  | plain hx hopening hclosing _ ih => exact .plain hx hopening hclosing (ih h')
  | opened _ ih => exact .opened (ih h')
  | closed _ ih => exact .closed (ih h')

/-! ### Reading -/

/-- What was read, behind a text that took `m` bytes. -/
def behind (s : List Char) (m : Nat) (read : List Char × Nat) : List Char × Nat := (s ++ read.1, m + read.2)

theorem behind_behind (s t : List Char) (m k : Nat) : behind s m ∘ behind t k = behind (s ++ t) (m + k) := by
  funext read
  simp [behind, Nat.add_assoc]

theorem takeInside?_escaped (c : Char) (rest : List Char) :
    takeInside? opening closing a ('\\' :: c :: rest) =
      (takeInside? opening closing a rest).map (behind [c] (byteLength ['\\', c])) := by
  rw [takeInside?]
  congr 1
  funext read
  simp [behind, Nat.add_assoc]

/-- A character that is not a backslash is looked at by itself. -/
theorem takeInside?_cons {c : Char} (hc : c ≠ '\\') (rest : List Char) :
    takeInside? opening closing a (c :: rest) =
      if c = opening then (takeInside? opening closing (a + 1) rest).map (behind [c] c.utf8Size)
      else if c = closing then
        match a with
        | 0 => some ([], c.utf8Size)
        | a + 1 => (takeInside? opening closing a rest).map (behind [c] c.utf8Size)
      else (takeInside? opening closing a rest).map (behind [c] c.utf8Size) := by
  rw [takeInside?.eq_def]
  split
  · contradiction
  · next h => exact absurd (List.cons.inj h).1 hc
  · next h =>
    obtain ⟨rfl, rfl⟩ := List.cons.inj h
    rfl

theorem takeInside?_last (hpair : IsPair opening closing) (rest : List Char) :
    takeInside? opening closing 0 (closing :: rest) = some ([], closing.utf8Size) := by
  rw [takeInside?_cons hpair.closing_ne, if_neg hpair.closing_ne_opening, if_pos rfl]

/-- What was written is read through, and its bytes are counted. -/
theorem Writes.takeInside?_append (hpair : IsPair opening closing) (h : Writes opening closing a s w b)
    (rest : List Char) :
    takeInside? opening closing a (w ++ rest) =
      (takeInside? opening closing b rest).map (behind s (byteLength w)) := by
  have hcons (c : Char) (s w : List Char) :
      behind [c] c.utf8Size ∘ behind s (byteLength w) = behind (c :: s) (byteLength (c :: w)) := by
    rw [behind_behind, List.singleton_append, byteLength_cons]
  induction h with
  | nil =>
    have hid : behind [] (byteLength []) = id := by
      funext read
      simp [behind]
    rw [hid, Option.map_id, id, List.nil_append]
  | @escaped a b s w c _ ih =>
    have hbehind : behind [c] (byteLength ['\\', c]) ∘ behind s (byteLength w) =
        behind (c :: s) (byteLength ('\\' :: c :: w)) := by
      rw [behind_behind, ← byteLength_append]
      rfl
    rw [List.cons_append, List.cons_append, takeInside?_escaped, ih, Option.map_map, hbehind]
  | @plain a b s w c hc hopening hclosing _ ih =>
    rw [List.cons_append, takeInside?_cons hc, if_neg hopening, if_neg hclosing, ih, Option.map_map, hcons]
  | @opened a b s w _ ih =>
    rw [List.cons_append, takeInside?_cons hpair.opening_ne, if_pos rfl, ih, Option.map_map, hcons]
  | @closed a b s w _ ih =>
    rw [List.cons_append, takeInside?_cons hpair.closing_ne, if_neg hpair.closing_ne_opening, if_pos rfl]
    simp only [ih, Option.map_map, hcons]

/-- The inside of a component is read exactly to the bracket that closes it. -/
theorem takeInside?_eq_some_iff (hpair : IsPair opening closing) :
    takeInside? opening closing a w = some (s, n) ↔
      ∃ v rest, w = v ++ closing :: rest ∧ Writes opening closing a s v 0 ∧
        n = byteLength v + closing.utf8Size := by
  constructor
  · intro h
    fun_induction takeInside? opening closing a w generalizing s n with
    | case1 => cases h
    | case2 => cases h
    | case3 level c rest ih =>
      simp only [Option.map_eq_some_iff, Prod.exists, Prod.mk.injEq] at h
      obtain ⟨t, m, ht, rfl, rfl⟩ := h
      obtain ⟨v, rest', rfl, hv, rfl⟩ := ih ht
      exact ⟨'\\' :: c :: v, rest', rfl, .escaped c hv, by simp [Nat.add_assoc]⟩
    | case4 level rest hc ih =>
      simp only [Option.map_eq_some_iff, Prod.exists, Prod.mk.injEq] at h
      obtain ⟨t, m, ht, rfl, rfl⟩ := h
      obtain ⟨v, rest', rfl, hv, rfl⟩ := ih ht
      exact ⟨opening :: v, rest', rfl, .opened hv, by simp [Nat.add_assoc]⟩
    | case5 rest =>
      obtain ⟨rfl, rfl⟩ := Prod.mk.inj (Option.some.inj h)
      exact ⟨[], rest, rfl, .nil, by simp⟩
    | case6 rest level hc hne ih =>
      simp only [Option.map_eq_some_iff, Prod.exists, Prod.mk.injEq] at h
      obtain ⟨t, m, ht, rfl, rfl⟩ := h
      obtain ⟨v, rest', rfl, hv, rfl⟩ := ih ht
      exact ⟨closing :: v, rest', rfl, .closed hv, by simp [Nat.add_assoc]⟩
    | case7 level c rest hc hopening hclosing ih =>
      simp only [Option.map_eq_some_iff, Prod.exists, Prod.mk.injEq] at h
      obtain ⟨t, m, ht, rfl, rfl⟩ := h
      obtain ⟨v, rest', rfl, hv, rfl⟩ := ih ht
      exact ⟨c :: v, rest', rfl, .plain hc hopening hclosing hv, by simp [Nat.add_assoc]⟩
  · rintro ⟨v, rest, rfl, hv, rfl⟩
    rw [hv.takeInside?_append hpair, takeInside?_last hpair]
    simp [behind]

/-- A component is read from its opening to its closing bracket. -/
theorem takeComponent?_eq_some_iff (hpair : IsPair opening closing) :
    takeComponent? opening closing w = some (s, n) ↔
      ∃ v rest, w = opening :: (v ++ closing :: rest) ∧ Writes opening closing 0 s v 0 ∧
        n = byteLength (opening :: (v ++ [closing])) := by
  cases w with
  | nil => simp [takeComponent?]
  | cons c w =>
    rw [takeComponent?]
    constructor
    · intro h
      split at h
      · next hc =>
        simp only [Option.map_eq_some_iff, Prod.exists, Prod.mk.injEq] at h
        obtain ⟨t, m, ht, rfl, rfl⟩ := h
        obtain ⟨v, rest, rfl, hv, rfl⟩ := (takeInside?_eq_some_iff hpair).1 ht
        exact ⟨v, rest, by rw [hc], hv, by simp [hc]⟩
      · cases h
    · rintro ⟨v, rest, hw, hv, rfl⟩
      obtain ⟨rfl, rfl⟩ := List.cons.inj hw
      rw [if_pos rfl, (takeInside?_eq_some_iff hpair).2 ⟨v, rest, rfl, hv, rfl⟩]
      simp

/-! ### Ways to write a text -/

/-- A text with a backslash before each character of a set. -/
def escape (set : Char → Bool) (s : List Char) : List Char := s.flatMap fun c => if set c then ['\\', c] else [c]

theorem escape_cons (set : Char → Bool) (c : Char) (s : List Char) :
    escape set (c :: s) = if set c then '\\' :: c :: escape set s else c :: escape set s := by
  rw [escape, List.flatMap_cons, ← escape]
  split <;> rfl

theorem mem_of_mem_escape {set : Char → Bool} {c : Char} (h : c ∈ escape set s) : c = '\\' ∨ c ∈ s := by
  obtain ⟨x, hx, hc⟩ := List.mem_flatMap.1 h
  split at hc
  · rcases List.mem_cons.1 hc with rfl | hc
    · exact Or.inl rfl
    · exact Or.inr (List.mem_singleton.1 hc ▸ hx)
  · exact Or.inr (List.mem_singleton.1 hc ▸ hx)

/-- A text is written when all that means something in a component is escaped. -/
theorem writes_escape {set : Char → Bool}
    (h : ∀ c ∈ s, set c = false → c ∉ ['\\', opening, closing]) : Writes opening closing a s (escape set s) a := by
  induction s with
  | nil => exact .nil
  | cons c s ih =>
    have hs := ih fun x hx => h x (List.mem_cons_of_mem c hx)
    rw [escape_cons]
    split
    · exact .escaped c hs
    · next hc =>
      have hplain := h c (by simp) (by simpa using hc)
      simp only [List.mem_cons, List.not_mem_nil, or_false, not_or] at hplain
      exact .plain hplain.1 hplain.2.1 hplain.2.2 hs

theorem escape_none (s : List Char) : escape (fun _ => false) s = s := by simp [escape]

theorem writes_plain (h : ∀ c ∈ s, c ∉ ['\\', opening, closing]) : Writes opening closing a s s a := by
  have hwrites := @writes_escape opening closing a s (fun _ => false) fun c hc _ => h c hc
  rwa [escape_none] at hwrites

/-- Every bracket of a text has its partner. -/
structure Balanced (opening closing : Char) (s : List Char) : Prop where
  /-- No bracket is closed before it was opened. -/
  opened_first : ∀ front, front <+: s → front.count closing ≤ front.count opening
  /-- All brackets are closed. -/
  all_closed : s.count closing = s.count opening

/-- Where `a` brackets are open, a text is written with all its brackets as they are when it closes just these. -/
theorem writes_of_counts (hpair : IsPair opening closing)
    (hfirst : ∀ front, front <+: s → front.count closing ≤ front.count opening + a)
    (hall : s.count closing = s.count opening + a) : Writes opening closing a s (escape (· == '\\') s) 0 := by
  have hne := hpair.closing_ne_opening
  induction s generalizing a with
  | nil =>
    obtain rfl : a = 0 := by simpa using hall.symm
    exact .nil
  | cons c s ih =>
    have hfront (front : List Char) (h : front <+: s) :
        (c :: front).count closing ≤ (c :: front).count opening + a := by
      exact hfirst _ (List.cons_prefix_cons.2 ⟨rfl, h⟩)
    rw [escape_cons]
    by_cases hslash : c = '\\'
    · subst hslash
      have hopening := hpair.opening_ne
      have hclosing := hpair.closing_ne
      simp only [List.count_cons_of_ne hopening.symm, List.count_cons_of_ne hclosing.symm] at hall hfront
      rw [if_pos (by simp)]
      exact .escaped _ (ih hfront hall)
    · rw [if_neg (by simpa using hslash)]
      by_cases hopening : c = opening
      · subst hopening
        simp only [List.count_cons_self, List.count_cons_of_ne hne.symm] at hall hfront
        refine .opened (ih (fun front h => ?_) ?_)
        · have := hfront front h
          omega
        · omega
      · by_cases hclosing : c = closing
        · subst hclosing
          simp only [List.count_cons_self, List.count_cons_of_ne hne] at hall hfront
          -- the bracket that is closed here was open
          obtain ⟨b, rfl⟩ : ∃ b, a = b + 1 := by
            have := hfront [] (List.nil_prefix ..)
            simp only [List.count_nil] at this
            exact ⟨a - 1, by omega⟩
          refine .closed (ih (fun front h => ?_) ?_)
          · have := hfront front h
            omega
          · omega
        · simp only [List.count_cons_of_ne hopening, List.count_cons_of_ne hclosing] at hall hfront
          exact .plain hslash hopening hclosing (ih hfront hall)

theorem Balanced.writes (hpair : IsPair opening closing) (h : Balanced opening closing s) :
    Writes opening closing 0 s (escape (· == '\\') s) 0 :=
  writes_of_counts hpair h.opened_first h.all_closed

end ScriptVault.Link

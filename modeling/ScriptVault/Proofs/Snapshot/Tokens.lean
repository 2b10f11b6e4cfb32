import ScriptVault.Snapshot

/-!
# Tokens — versions are told apart

The files as they are known and the tokens that count are kept apart from each other.  `Snapshot.Sound` says that they
agree: the tokens that count are those of the versions that are known, each version knows its path, and no two have one
token.  Whatever is done gives out tokens in order, so a token that no longer counts never does again.
-/

namespace ScriptVault

namespace Snapshot

theorem mem_ofList {texts : List String} {x : String} : x ∈ Names.ofList texts ↔ x ∈ texts := by
  have hfold (names : Names) : x ∈ texts.foldl Names.insert names ↔ x ∈ names ∨ x ∈ texts := by
    induction texts generalizing names with
    | nil => simp
    | cons t texts ih =>
      rw [List.foldl_cons, ih, Names.mem_insert, List.mem_cons]
      simp only [or_assoc, or_left_comm]
  rw [Names.ofList, hfold]
  simp

theorem mem_keys {κ α : Type} [DecidableEq κ] {t : Table κ α} {key : κ} : key ∈ t.keys ↔ t.at? key ≠ none := by
  induction t with
  | nil => simp [Table.keys]
  | cons b t ih =>
    obtain ⟨k, v⟩ := b
    rw [Table.at?_cons]
    split
    · next h => simp [Table.keys, h]
    · next h =>
      rw [← ih]
      simp [Table.keys, Ne.symm h]

theorem mem_paths {s : Snapshot} {path : String} : path ∈ s.paths ↔ s.get? path ≠ none := by
  rw [paths, mem_ofList, mem_keys]
  rfl

/-- The versions of a snapshot know their paths, and each has a token of its own that counts. -/
structure Sound (s : Snapshot) : Prop where
  /-- A version knows its path. -/
  path : ∀ path identity, s.get? path = some identity → identity.path = path
  /-- Tokens that were given out are below the next one. -/
  token : ∀ path identity, s.get? path = some identity → identity.token < s.nextToken
  /-- No two paths have versions with one token. -/
  unique : ∀ p q i j, s.get? p = some i → s.get? q = some j → i.token = j.token → p = q
  /-- The tokens that count are those of the versions. -/
  current : ∀ t, s.isCurrent t = true ↔ ∃ path identity, s.get? path = some identity ∧ identity.token = t

theorem sound_empty (rules : Rules) (next : Nat) : Sound { rules := rules, nextToken := next } where
  path _ _ h := nomatch h
  token _ _ h := nomatch h
  unique _ _ _ _ h := nomatch h
  current _ := ⟨nofun, fun ⟨_, _, h, _⟩ => nomatch h⟩

theorem Sound.isCurrent {s : Snapshot} (hs : s.Sound) {path : String} {identity : Identity}
    (h : s.get? path = some identity) : s.isCurrent identity.token = true :=
  (hs.current _).2 ⟨path, identity, h, rfl⟩

/-- The tokens that still count when the version of a path goes are those of the other paths. -/
theorem Sound.retire {s : Snapshot} (hs : s.Sound) (path : String) (t : Nat) :
    t ∈ s.retire (s.get? path) ↔ ∃ q identity, q ≠ path ∧ s.get? q = some identity ∧ identity.token = t := by
  have hmem : t ∈ s.current ↔ ∃ q identity, s.get? q = some identity ∧ identity.token = t := by
    rw [← hs.current t, Snapshot.isCurrent, List.contains_iff_mem]
  cases hget : s.get? path with
  | none =>
    refine hmem.trans ⟨fun ⟨q, i, hi, ht⟩ => ⟨q, i, fun hq => ?_, hi, ht⟩, fun ⟨q, i, _, hi, ht⟩ => ⟨q, i, hi, ht⟩⟩
    rw [hq, hget] at hi
    cases hi
  | some previous =>
    simp only [Snapshot.retire, List.mem_filter, decide_eq_true_eq, hmem]
    constructor
    · rintro ⟨⟨q, i, hi, rfl⟩, hne⟩
      refine ⟨q, i, fun hq => hne ?_, hi, rfl⟩
      rw [hq, hget] at hi
      rw [Option.some.inj hi]
    · rintro ⟨q, i, hq, hi, rfl⟩
      exact ⟨⟨q, i, hi, rfl⟩, fun ht => hq (hs.unique q path i previous hi hget ht)⟩

/-! ### What is done, one path at a time -/

theorem cache_ok {s s' : Snapshot} {vault : Vault} {path : String} {identity : Identity} {notice : Notice}
    (h : s.cache vault path = .ok (identity, notice, s')) :
    identity.token = s.nextToken ∧ identity.path = path ∧ notice = ⟨path, s.get? path, some identity⟩ ∧
      (identity.content = if s.rules.selects path then (vault.read path).toOption else none) ∧
      s' = { s with
        entries := s.entries.put path identity
        current := (s.retire (s.get? path)).insert identity.token
        nextToken := s.nextToken + 1 } := by
  unfold cache at h
  split at h
  · next hs =>
    cases hr : vault.read path with
    | error e => rw [hr] at h; cases h
    | ok text =>
      rw [hr] at h
      cases h
      exact ⟨rfl, rfl, rfl, (if_pos hs).symm, rfl⟩
  · next hs =>
    cases h
    exact ⟨rfl, rfl, rfl, (if_neg hs).symm, rfl⟩

/-- What can come of a snapshot, one path at a time, and what is told of it. -/
inductive Course : Snapshot → List Notice → Snapshot → Prop
  /-- Nothing is done. -/
  | done (s : Snapshot) : Course s [] s
  /-- A path gets a version, in whatever vault it is looked at. -/
  | seen {s s' s'' : Snapshot} {vault : Vault} {path : String} {identity : Identity} {notice : Notice}
      {notices : List Notice} : s.cache vault path = .ok (identity, notice, s') → Course s' notices s'' →
      Course s (notice :: notices) s''
  /-- A path that has a version is forgotten. -/
  | gone {s s'' : Snapshot} {path : String} {previous : Identity} {notices : List Notice} :
      s.get? path = some previous →
      Course { s with entries := s.entries.erase path, current := s.retire (some previous) } notices s'' →
      Course s (⟨path, some previous, none⟩ :: notices) s''
  /-- The rules change. -/
  | ruled {s s'' : Snapshot} (rules : Rules) {notices : List Notice} :
      Course { s with rules := rules } notices s'' → Course s notices s''
  /-- Others take tokens. -/
  | drawn {s s'' : Snapshot} (count : Nat) {notices : List Notice} :
      Course { s with nextToken := s.nextToken + count } notices s'' → Course s notices s''

theorem Course.trans {s s' s'' : Snapshot} {first more : List Notice} (a : Course s first s')
    (b : Course s' more s'') : Course s (first ++ more) s'' := by
  induction a with
  | done => exact b
  | seen hcache _ ih => exact .seen hcache (ih b)
  | gone hget _ ih => exact .gone hget (ih b)
  | ruled rules _ ih => exact .ruled rules (ih b)
  | drawn count _ ih => exact .drawn count (ih b)

theorem course_tryCache (s : Snapshot) (vault : Vault) (path : String) :
    Course s (s.tryCache vault path).1 (s.tryCache vault path).2 := by
  unfold tryCache
  split
  · next h => exact .seen h (.done _)
  · exact .done s

theorem course_uncache (s : Snapshot) (path : String) : Course s (s.uncache path).1 (s.uncache path).2 := by
  unfold uncache
  split
  · next h => exact .gone h (.done _)
  · exact .done s

theorem course_forEach {step : Snapshot → String → List Notice × Snapshot}
    (hstep : ∀ s path, Course s (step s path).1 (step s path).2) (paths : List String) (s : Snapshot) :
    Course s (forEach step paths s).1 (forEach step paths s).2 := by
  induction paths generalizing s with
  | nil => exact .done s
  | cons path rest ih => exact (hstep s path).trans (ih _)

theorem course_rebuild (s : Snapshot) (vault : Vault) : Course s (s.rebuild vault).1 (s.rebuild vault).2 :=
  (course_forEach course_uncache _ s).trans (course_forEach (fun s => s.course_tryCache vault) _ _)

theorem course_look (s : Snapshot) (vault : Vault) (path : String) :
    Course s (s.look vault path).1 (s.look vault path).2 := by
  unfold look
  split
  · exact s.course_tryCache vault path
  · exact .done s

theorem course_follow (s : Snapshot) (vault : Vault) (change : Change) :
    Course s (s.follow vault change).1 (s.follow vault change).2 := by
  cases change with
  | created path => exact s.course_look vault path
  | modified path => exact s.course_look vault path
  | deleted path => exact s.course_uncache path
  | renamed source target => exact (s.course_uncache source).trans (course_look _ vault target)

/-! ### What comes later -/

/-- A snapshot comes later than another one: its versions are those of the other one or new. -/
structure Later (s s' : Snapshot) : Prop where
  /-- Tokens are given out in order. -/
  next : s.nextToken ≤ s'.nextToken
  /-- Versions are the same or new. -/
  same : ∀ path identity, s'.get? path = some identity → s.get? path = some identity ∨ s.nextToken ≤ identity.token
  /-- Versions are told apart by their tokens. -/
  sound : s.Sound → s'.Sound

namespace Later

theorem refl (s : Snapshot) : Later s s := ⟨Nat.le_refl _, fun _ _ h => Or.inl h, id⟩

theorem trans {s s' s'' : Snapshot} (a : Later s s') (b : Later s' s'') : Later s s'' where
  next := Nat.le_trans a.next b.next
  same path identity h := by
    rcases b.same path identity h with h | h
    · exact a.same path identity h
    · exact Or.inr (Nat.le_trans a.next h)
  sound h := b.sound (a.sound h)

/-- A token that was given out and does not count never counts again. -/
theorem retired {s s' : Snapshot} (h : Later s s') (hs : s.Sound) {t : Nat} (ht : t < s.nextToken)
    (hgone : s.isCurrent t = false) : s'.isCurrent t = false := by
  refine Bool.eq_false_iff.2 fun hcurrent => ?_
  obtain ⟨path, identity, hget, rfl⟩ := ((h.sound hs).current t).1 hcurrent
  rcases h.same path identity hget with hold | hnew
  · rw [hs.isCurrent hold] at hgone
    cases hgone
  · omega

end Later

theorem later_put (s : Snapshot) (path : String) (identity : Identity) (ht : identity.token = s.nextToken)
    (hp : identity.path = path) :
    Later s { s with
      entries := s.entries.put path identity
      current := (s.retire (s.get? path)).insert identity.token
      nextToken := s.nextToken + 1 } := by
  have hput (p : String) (i : Identity) : (s.entries.put path identity).at? p = some i ↔
      p = path ∧ identity = i ∨ p ≠ path ∧ s.get? p = some i := by
    rw [Table.at?_put]
    split
    · next h => simp [h]
    · next h => simp [h, get?]
  refine ⟨Nat.le_succ _, fun p i h => ?_, fun hs => ⟨fun p i h => ?_, fun p i h => ?_, fun p q i j hi hj hij => ?_, ?_⟩⟩
  · rcases (hput p i).1 h with ⟨-, rfl⟩ | ⟨-, h⟩
    · exact Or.inr (Nat.le_of_eq ht.symm)
    · exact Or.inl h
  · rcases (hput p i).1 h with ⟨rfl, rfl⟩ | ⟨-, h⟩
    · exact hp
    · exact hs.path p i h
  · rcases (hput p i).1 h with ⟨-, rfl⟩ | ⟨-, h⟩
    · exact ht ▸ Nat.lt_succ_self _
    · exact Nat.lt_succ_of_lt (hs.token p i h)
  · rcases (hput p i).1 hi with ⟨hpp, rfl⟩ | ⟨-, hi'⟩ <;> rcases (hput q j).1 hj with ⟨hqp, rfl⟩ | ⟨-, hj'⟩
    · exact hpp.trans hqp.symm
    · have := hs.token q j hj'
      omega
    · have := hs.token p i hi'
      omega
    · exact hs.unique p q i j hi' hj' hij
  · intro t
    rw [isCurrent, List.contains_iff_mem, List.mem_insert_iff, hs.retire]
    constructor
    · rintro (rfl | ⟨q, i, hq, hi, rfl⟩)
      · exact ⟨path, identity, (hput _ _).2 (Or.inl ⟨rfl, rfl⟩), rfl⟩
      · exact ⟨q, i, (hput _ _).2 (Or.inr ⟨hq, hi⟩), rfl⟩
    · rintro ⟨q, i, hi, rfl⟩
      rcases (hput q i).1 hi with ⟨-, rfl⟩ | ⟨hq, hi⟩
      · exact Or.inl rfl
      · exact Or.inr ⟨q, i, hq, hi, rfl⟩

theorem later_erase (s : Snapshot) (path : String) :
    Later s { s with entries := s.entries.erase path, current := s.retire (s.get? path) } := by
  have herase (p : String) (i : Identity) :
      (s.entries.erase path).at? p = some i ↔ p ≠ path ∧ s.get? p = some i := by
    rw [Table.at?_erase]
    split
    · next h => simp [h]
    · next h => simp [h, get?]
  have sub (p : String) (i : Identity) (h : (s.entries.erase path).at? p = some i) := ((herase p i).1 h).2
  refine ⟨Nat.le_refl _, fun p i h => Or.inl (sub p i h), fun hs => ⟨fun p i h => hs.path p i (sub p i h),
    fun p i h => hs.token p i (sub p i h), fun p q i j hi hj => hs.unique p q i j (sub p i hi) (sub q j hj), ?_⟩⟩
  intro t
  rw [isCurrent, List.contains_iff_mem, hs.retire]
  constructor
  · rintro ⟨q, i, hq, hi, rfl⟩
    exact ⟨q, i, (herase q i).2 ⟨hq, hi⟩, rfl⟩
  · rintro ⟨q, i, hi, rfl⟩
    obtain ⟨hq, hi⟩ := (herase q i).1 hi
    exact ⟨q, i, hq, hi, rfl⟩

/-- Whatever is done, the snapshot that comes of it comes later. -/
theorem Course.later {s s' : Snapshot} {notices : List Notice} (h : Course s notices s') : Later s s' := by
  induction h with
  | done s => exact Later.refl s
  | @seen s s' s'' vault path identity notice notices hcache _ ih =>
    obtain ⟨ht, hp, -, -, rfl⟩ := cache_ok hcache
    exact (later_put s path identity ht hp).trans ih
  | @gone s s'' path previous notices hget _ ih =>
    rw [← hget] at ih
    exact (s.later_erase path).trans ih
  | @ruled s s'' rules notices _ ih =>
    have hruled : Later s { s with rules := rules } :=
      ⟨Nat.le_refl _, fun _ _ h => Or.inl h, fun hs => ⟨hs.path, hs.token, hs.unique, hs.current⟩⟩
    exact hruled.trans ih
  | @drawn s s'' count notices _ ih =>
    have hdrawn : Later s { s with nextToken := s.nextToken + count } :=
      ⟨Nat.le_add_right _ _, fun _ _ h => Or.inl h, fun hs =>
        ⟨hs.path, fun p i h => Nat.lt_add_right count (hs.token p i h), hs.unique, hs.current⟩⟩
    exact hdrawn.trans ih

end Snapshot

end ScriptVault

import ScriptVault.Proofs.Host.Move

/-!
# Lifetime — one evaluation between two removals

Many ask for a module at once, and what they do comes in any order.  A slot that was filled is empty again only
when its module is evicted or its import took too long.  Until then all who ask are served by the one evaluation
that fills it, and whatever comes of an evaluation after its slot was emptied changes no slot any more.
-/

namespace ScriptVault

theorem Move.eq_fail_of_failure? {m : Move} {l : Nat} {id : String} {n : Nat} {e : Failure}
    (h : m.failure? l id n = some e) : m = .fail l id n e := by
  cases m with
  | fail l' id' n' e' =>
    by_cases hc : l' = l ∧ id' = id ∧ n' = n
    · rw [Move.failure?, if_pos hc] at h
      obtain ⟨rfl, rfl, rfl⟩ := hc
      rw [Option.some.inj h]
    · rw [Move.failure?, if_neg hc] at h
      cases h
  | _ => cases h

namespace Host

variable {h : Host} {l : Nat} {id : String} {k : Kind} {n : Nat}

/-! ### What a slot holds -/

theorem slotOf_of_held (hheld : h.held l id .script = some (.run n)) : h.slotOf l id = some (.module n) := by
  rw [held_script] at hheld
  obtain ⟨slot, hslot, hrun⟩ := Option.map_eq_some_iff.1 hheld
  cases slot with
  | module object => rw [hslot, Held.run.inj hrun]
  | value _ => cases hrun
  | failed _ => cases hrun

theorem slotOf_of_held_failed {e : Failure} (hheld : h.held l id .script = some (.failed e)) :
    h.slotOf l id = some (.failed e) := by
  rw [held_script] at hheld
  obtain ⟨slot, hslot, hrun⟩ := Option.map_eq_some_iff.1 hheld
  cases slot with
  | failed e' => rw [hslot, Held.failed.inj hrun]
  | value _ => cases hrun
  | module _ => cases hrun

theorem importOf_of_held {interop : Bool} (hheld : h.held l id (.imported interop) = some (.run n)) :
    h.importOf l id interop = some (.pending n) := by
  rw [held_imported] at hheld
  obtain ⟨slot, hslot, hrun⟩ := Option.map_eq_some_iff.1 hheld
  cases slot with
  | pending work => rw [hslot, Held.run.inj hrun]
  | value _ => cases hrun

theorem held_fail (hl : l < h.loaders.length) (hheld : h.held l id .script = some (.run n)) (e : Failure) :
    (fail l id n e h).held l id .script = some (.failed e) := by
  obtain ⟨-, he⟩ | ⟨hne, -⟩ := fail_cases l id n e h
  · rw [he, held_fill hl, if_pos ⟨rfl, rfl, rfl⟩]
    rfl
  · exact absurd (slotOf_of_held hheld) hne

/-! ### While a slot is filled -/

/-- Before some moves or after some of them the slot is empty. -/
def Empties (h : Host) (l : Nat) (id : String) (k : Kind) (ms : List Move) : Prop :=
  ∃ before, before <+: ms ∧ (h.after before).held l id k = none

theorem Empties.here {ms : List Move} (hnone : h.held l id k = none) : h.Empties l id k ms :=
  ⟨[], List.nil_prefix, hnone⟩

theorem Empties.cons {m : Move} {ms : List Move} (he : (m.act h).Empties l id k ms) : h.Empties l id k (m :: ms) := by
  obtain ⟨before, hb, hnone⟩ := he
  exact ⟨m :: before, List.cons_prefix_cons.2 ⟨rfl, hb⟩, hnone⟩

/-- The first failure that some moves keep for an evaluation of a script. -/
def failureIn (l : Nat) (id : String) (n : Nat) (ms : List Move) : Option Failure :=
  ms.findSome? (Move.failure? l id n)

/-- What an evaluation has come to in its slot after some moves. -/
def verdict (l : Nat) (id : String) : Kind → Nat → List Move → Held
  | .script, n, ms => (failureIn l id n ms).elim (.run n) .failed
  | .imported _, n, _ => .run n

/-- A failure stays in its slot until it is emptied. -/
theorem failed_after {e : Failure} {ms : List Move} (hl : l < h.loaders.length)
    (hheld : h.held l id k = some (.failed e)) (hkept : ¬h.Empties l id k ms) :
    (h.after ms).held l id k = some (.failed e) := by
  induction ms generalizing h with
  | nil => exact hheld
  | cons m ms ih =>
    have hstill : ¬(m.act h).Empties l id k ms := fun he => hkept he.cons
    refine ih (Nat.lt_of_lt_of_le hl (m.grows_act h).loaders) ?_ hstill
    have hturn := m.turns_act hl id k
    rw [hheld] at hturn
    generalize hnew : (m.act h).held l id k = x at hturn
    cases hturn with
    | kept => rfl
    | evicted => exact absurd (Empties.here hnew) hstill

/-- A move that leaves an evaluation of a script in its slot keeps no failure for it. -/
theorem failure?_of_kept {m : Move} (hl : l < h.loaders.length) (hheld : h.held l id .script = some (.run n))
    (hnew : (m.act h).held l id .script = some (.run n)) : m.failure? l id n = none := by
  by_contra hne
  obtain ⟨e, he⟩ := Option.ne_none_iff_exists'.1 hne
  rw [Move.eq_fail_of_failure? he] at hnew
  have hfailed : (fail l id n e h).held l id .script = some (.run n) := hnew
  rw [held_fail hl hheld e] at hfailed
  cases hfailed

/-- An evaluation stays in its slot until it is emptied, unless a failure of its own takes its place. -/
theorem held_after {ms : List Move} (hl : l < h.loaders.length) (hheld : h.held l id k = some (.run n))
    (hkept : ¬h.Empties l id k ms) : (h.after ms).held l id k = some (verdict l id k n ms) := by
  induction ms generalizing h with
  | nil => rw [after_nil, hheld]; cases k <;> rfl
  | cons m ms ih =>
    have hl' : l < (m.act h).loaders.length := Nat.lt_of_lt_of_le hl (m.grows_act h).loaders
    have hstill : ¬(m.act h).Empties l id k ms := fun he => hkept he.cons
    have hturn := m.turns_act hl id k
    rw [hheld] at hturn
    generalize hnew : (m.act h).held l id k = x at hturn
    cases hturn with
    | kept =>
      rw [after_cons, ih hl' hnew hstill]
      cases k with
      | imported _ => rfl
      | script =>
        have hnone := failure?_of_kept hl hheld hnew
        simp [verdict, failureIn, hnone]
    | evicted => exact absurd (Empties.here hnew) hstill
    | forgotten => exact absurd (Empties.here hnew) hstill
    | failed _ e he =>
      have hverdict : verdict l id .script n (m :: ms) = .failed e := by
        simp [verdict, failureIn, he]
      rw [after_cons, failed_after hl' hnew hstill, hverdict]

/-! ### After a slot was emptied -/

/-- An evaluation that is not in its slot does not come back. -/
theorem gone_after {ms : List Move} (hl : l < h.loaders.length) (hn : n < h.bound k)
    (hgone : h.held l id k ≠ some (.run n)) : (h.after ms).held l id k ≠ some (.run n) := by
  induction ms generalizing h with
  | nil => exact hgone
  | cons m ms ih =>
    have hg := m.grows_act h
    refine ih (Nat.lt_of_lt_of_le hl hg.loaders) (Nat.lt_of_lt_of_le hn (hg.bound k)) ?_
    have hturn := m.turns_act hl id k
    generalize h.held l id k = x at hturn hgone
    generalize (m.act h).held l id k = y at hturn ⊢
    intro hrun
    subst hrun
    cases hturn with
    | kept => exact hgone rfl
    | started _ _ hs =>
      have := (hs.held hl).2.2.2
      omega

theorem grows_after (h : Host) (ms : List Move) : Move.Grows h (h.after ms) := by
  induction ms generalizing h with
  | nil => exact Move.Grows.refl h
  | cons m ms ih =>
    have ha := m.grows_act h
    have hb := ih (m.act h)
    exact ⟨Nat.le_trans ha.loaders hb.loaders, fun k => Nat.le_trans (ha.bound k) (hb.bound k)⟩

/-- Once its slot was empty, an evaluation is in it no more. -/
theorem not_held_of_empties {ms : List Move} (hl : l < h.loaders.length) (hn : n < h.bound k)
    (he : h.Empties l id k ms) : (h.after ms).held l id k ≠ some (.run n) := by
  obtain ⟨before, ⟨rest, rfl⟩, hnone⟩ := he
  have hg := grows_after h before
  rw [after_append]
  refine gone_after (Nat.lt_of_lt_of_le hl hg.loaders) (Nat.lt_of_lt_of_le hn (hg.bound k)) ?_
  rw [hnone]
  exact nofun

/-! ### What comes of evaluations -/

/-- What an evaluation that was started for a slot does to the host when it comes to its end: well, with a failure,
or too late. -/
inductive Ends (l : Nat) (id : String) : Kind → Nat → Host → Host → Prop where
  /-- A script has run. -/
  | ran (n : Nat) (h : Host) : Ends l id .script n h (close n h).2
  /-- A script has failed. -/
  | broke (n : Nat) (e : Failure) (h : Host) : Ends l id .script n h (fail l id n e h)
  /-- A module was evaluated. -/
  | evaluated (interop : Bool) (work task : Nat) (h : Host) : Ends l id (.imported interop) work h
    ((h.imported task interop).2.tell work (.value (h.imported task interop).1))
  /-- A module took too long. -/
  | expired (interop : Bool) (work : Nat) (e : Failure) (h : Host) :
    Ends l id (.imported interop) work h (h.tell work (.value (.error e)))
  /-- Somebody who waited heard that a module took too long. -/
  | timedOut (interop : Bool) (work : Nat) (h : Host) :
    Ends l id (.imported interop) work h (forgetImport l id interop work h)

theorem beside_close (object : Nat) (h : Host) : Beside h (close object h).2 := by
  refine ⟨?_, Nat.le_of_eq (close_grows object h).symm, ?_⟩
  · unfold close; split <;> rfl
  · unfold close; split <;> exact Nat.le_refl _

theorem beside_imported (task : Nat) (interop : Bool) (h : Host) : Beside h (h.imported task interop).2 := by
  unfold imported
  split
  · exact Beside.refl h
  · split
    · exact ⟨rfl, facadeOf_grows .., Nat.le_refl _⟩
    · exact Beside.refl h

theorem beside_tell (h : Host) (work : Nat) (outcome : ScriptVault.Outcome) : Beside h (h.tell work outcome) :=
  ⟨rfl, Nat.le_refl _, Nat.le_refl _⟩

/-- The end of an evaluation that is not in its slot leaves all slots alone. -/
theorem Ends.late {h' : Host} (he : Ends l id k n h h') (hgone : h.held l id k ≠ some (.run n)) (m : Nat) (i : String)
    (j : Kind) : h'.held m i j = h.held m i j := by
  cases he with
  | ran => exact (beside_close n h).held m i j
  | broke _ e =>
    obtain ⟨hslot, -⟩ | ⟨-, hsame⟩ := fail_cases l id n e h
    · exact absurd (by rw [held_script, hslot]; rfl) hgone
    · rw [hsame]
  | evaluated interop _ task => exact ((beside_imported task interop h).trans (beside_tell ..)).held m i j
  | expired => exact (beside_tell ..).held m i j
  | timedOut interop =>
    obtain ⟨hslot, -⟩ | ⟨-, hsame⟩ := forgetImport_cases l id interop n h
    · exact absurd (by rw [held_imported, hslot]; rfl) hgone
    · rw [hsame]

end Host

end ScriptVault

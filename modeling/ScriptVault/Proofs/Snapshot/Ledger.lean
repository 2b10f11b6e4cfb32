import ScriptVault.Proofs.Snapshot.Tokens

/-!
# Ledger — the notices tell all that changes

Whoever takes down the notices knows the versions: each notice tells what was known of its path, and what is known of
it now.  So the versions, the tokens that count and the notices agree after whatever is done.
-/

namespace ScriptVault

/-- A table of versions in which a notice is taken down. -/
def Notice.entered (notice : Notice) (t : Table String Identity) : Table String Identity :=
  match notice.current with
  | some identity => t.put notice.path identity
  | none => t.erase notice.path

/-- A table of versions in which notices are taken down one after another, as long as each tells of its path what the
table holds. -/
def Notice.replay (t : Table String Identity) : List Notice → Option (Table String Identity)
  | [] => some t
  | notice :: rest => if t.at? notice.path = notice.previous then replay (notice.entered t) rest else none

namespace Snapshot

/-- The notices of what is done tell all that changes. -/
theorem Course.replay {s s' : Snapshot} {notices : List Notice} (h : Course s notices s') :
    Notice.replay s.entries notices = some s'.entries := by
  induction h with
  | done => rfl
  | @seen s s' s'' vault path identity notice notices hcache _ ih =>
    obtain ⟨-, -, rfl, -, rfl⟩ := cache_ok hcache
    exact (if_pos rfl).trans ih
  | gone hget _ ih => exact (if_pos hget).trans ih
  | ruled _ _ ih => exact ih
  | drawn _ _ ih => exact ih

/-! ### Runs -/

/-- What can be done with a snapshot. -/
inductive Act where
  /-- A path is looked at. -/
  | cache (path : String)
  /-- A path is forgotten. -/
  | uncache (path : String)
  /-- All files are looked at. -/
  | rebuild
  /-- All files are looked at under other rules. -/
  | setRules (rules : Rules)
  /-- A change is followed. -/
  | follow (change : Change)
  /-- Others take tokens. -/
  | draw (count : Nat)

/-- What an act tells, and what comes of it. -/
def act (s : Snapshot) (vault : Vault) : Act → List Notice × Snapshot
  | .cache path => s.tryCache vault path
  | .uncache path => s.uncache path
  | .rebuild => s.rebuild vault
  | .setRules rules => s.setRules vault rules
  | .follow change => s.follow vault change
  | .draw count => ([], { s with nextToken := s.nextToken + count })

/-- An act fails where a file that the rules ask for cannot be read, and where there is nothing to forget. -/
def Fails (s : Snapshot) (vault : Vault) : Act → Prop
  | .cache path => ∃ e, s.cache vault path = .error e
  | .uncache path => s.get? path = none
  | _ => False

/-- What acts tell one after another, each with the vault as it is at its time. -/
def run (s : Snapshot) : List (Vault × Act) → List Notice × Snapshot
  | [] => ([], s)
  | (vault, a) :: rest =>
    let (first, s) := s.act vault a
    let (more, s) := run s rest
    (first ++ more, s)

theorem course_act (s : Snapshot) (vault : Vault) (a : Act) : Course s (s.act vault a).1 (s.act vault a).2 := by
  cases a with
  | cache path => exact s.course_tryCache vault path
  | uncache path => exact s.course_uncache path
  | rebuild => exact s.course_rebuild vault
  | setRules rules => exact .ruled rules (course_rebuild _ vault)
  | follow change => exact s.course_follow vault change
  | draw count => exact .drawn count (.done _)

theorem course_run (s : Snapshot) (acts : List (Vault × Act)) : Course s (s.run acts).1 (s.run acts).2 := by
  induction acts generalizing s with
  | nil => exact .done s
  | cons step rest ih => exact (s.course_act step.1 step.2).trans (ih _)

theorem run_append (s : Snapshot) (acts more : List (Vault × Act)) :
    (s.run (acts ++ more)).2 = ((s.run acts).2.run more).2 := by
  induction acts generalizing s with
  | nil => rfl
  | cons step rest ih => exact ih _

/-- An act that fails tells nothing and changes nothing. -/
theorem act_of_fails {s : Snapshot} {vault : Vault} {a : Act} (h : s.Fails vault a) : s.act vault a = ([], s) := by
  cases a with
  | cache path =>
    obtain ⟨e, he⟩ := h
    show s.tryCache vault path = _
    unfold tryCache
    rw [he]
  | uncache path =>
    show s.uncache path = _
    unfold uncache
    rw [show s.get? path = none from h]
  | rebuild | setRules | follow | draw => exact h.elim

/-- After whatever was done with a snapshot that knew nothing: a token counts exactly where it is that of a version,
each version knows its path, no two paths have versions with one token, and a token that counted and does not count
any more never counts again.  The notices are those of the versions, each with the version that it replaces; and an
act that fails tells nothing and changes nothing. -/
theorem ledger_exact (rules : Rules) (next : Nat) (acts : List (Vault × Act)) :
    let start : Snapshot := { rules := rules, nextToken := next }
    let (notices, s) := start.run acts
    (∀ t, s.isCurrent t = true ↔ ∃ path identity, s.get? path = some identity ∧ identity.token = t) ∧
      (∀ path identity, s.get? path = some identity → identity.path = path) ∧
      (∀ p q i j, s.get? p = some i → s.get? q = some j → i.token = j.token → p = q) ∧
      (∀ before after, acts = before ++ after → ∀ t, (start.run before).2.isCurrent t = true →
        s.isCurrent t = false → ∀ more, (s.run more).2.isCurrent t = false) ∧
      Notice.replay [] notices = some s.entries ∧
      ∀ vault a, s.Fails vault a → s.act vault a = ([], s) := by
  intro start
  dsimp only
  have hstart : start.Sound := sound_empty rules next
  have hlater (acts : List (Vault × Act)) : start.Later (start.run acts).2 := (start.course_run acts).later
  have hs := (hlater acts).sound hstart
  refine ⟨hs.current, hs.path, hs.unique, ?_, (start.course_run acts).replay, fun _ _ h => act_of_fails h⟩
  intro before after hacts t hcounted hgone more
  -- a token that counted was given out before
  obtain ⟨path, identity, hget, rfl⟩ := (((hlater before).sound hstart).current t).1 hcounted
  have hgiven := ((hlater before).sound hstart).token path identity hget
  have hnext : (start.run before).2.nextToken ≤ (start.run acts).2.nextToken := by
    rw [hacts, run_append]
    exact (course_run _ after).later.next
  exact (course_run _ more).later.retired hs (Nat.lt_of_lt_of_le hgiven hnext) hgone

end Snapshot

end ScriptVault

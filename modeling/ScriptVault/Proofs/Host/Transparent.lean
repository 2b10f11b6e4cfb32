import ScriptVault.Proofs.Host.Served

/-!
# Transparent — keeping code is not to be seen

Code is kept for each path by each resolver, and once more under the token of each version by the transpilers that all
resolvers share.  None of this shows: whatever was done before, a file is resolved to what the chain of transpilers
makes of the text that it has now, with nothing kept.
-/

namespace ScriptVault

open Compile

/-- What can be done with some file resolvers over a vault in memory. -/
inductive FileMove where
  /-- A file is written, and the change is followed. -/
  | write (path text : String)
  /-- A file is removed, and the change is followed. -/
  | remove (path : String)
  /-- A file is moved, and the change is followed. -/
  | rename (source target : String)
  /-- All files are looked at anew. -/
  | rebuild
  /-- A resolver is asked for a specifier, at once or later. -/
  | resolve (form : Form) (n : Nat) (id : String) (context : Context)
  /-- A resolver is told that a module was built on another. -/
  | depend (n : Nat) (parent dependency : String)
  /-- A resolver forgets an id. -/
  | forget (n : Nat) (id : String)
  /-- A resolver forgets everything. -/
  | forgetAll (n : Nat)

namespace Session

/-- File resolvers over a vault in memory, with the transpilers that they share; all files are known. -/
def overMemory (ev : Evaluator) (settings : Settings) (rules : Rules) (compiler : Option (Compile.Request → Compile.Outcome))
    (strategies : List Strategy) (vault : MemoryVault) : Session :=
  let host : Host :=
    { settings := settings
      files :=
        { vault := .memory vault
          snapshot := { rules := rules }
          resolvers := strategies.map fun strategy => { strategy := strategy } }
      workshop := { compiler := compiler } }
  change ⟨ev, { state := host, workers := Host.workers settings }⟩ fun h => h.absorb h.files.rebuild

/-- What a specifier stands for to a file resolver. -/
def resolveBy (s : Session) (form : Form) (n : Nat) (id : String) (context : Context) :
    Except Failure (Option Resolved) × Session :=
  let (outcome, s) := s.perform do
    match form with
    | .script => return .resolved (← Async.act (Files.resolve Host.transpilers n id context).run)
    | .module => return .resolved (← (Files.resolveLater Host.transpilersLater n id context).run)
  (Outcome.asResolved outcome, s)

/-- What comes of a source in the chain of transpilers, on behalf of a resolver. -/
def codeBy (s : Session) (form : Form) (n : Nat) (source : Source) : Except Failure (Option String) × Session :=
  let (outcome, s) := s.perform do
    match form with
    | .script => return .code ((← Async.act (Files.code Host.transpilers n source).run).map some)
    | .module => return .code ((← (Files.code Host.transpilersLater n source).run).map some)
  (Outcome.asCode outcome, s)

/-- The session where the transpilers keep nothing. -/
def emptied (s : Session) : Session := s.touch fun h => { h with workshop := { compiler := h.workshop.compiler } }

/-- What comes of a move. -/
def move (s : Session) : FileMove → Session
  | .write path text => s.adopt (s.vault.write path text).1 (s.vault.write path text).2 false
  | .remove path => s.adopt (s.vault.remove path).1 (s.vault.remove path).2 false
  | .rename source target => s.adopt (s.vault.rename source target).1 (s.vault.rename source target).2 false
  | .rebuild => s.change fun h => h.absorb h.files.rebuild
  | .resolve form n id context => (s.resolveBy form n id context).2
  | .depend n parent dependency => s.touch fun h =>
      { h with files := h.files.onResolver n fun r =>
          (h.files.snapshot.get? dependency).elim r fun identity => r.depend parent identity.token }
  | .forget n id => s.touch fun h => h.absorb <| h.files.withResolver n fun f r =>
      (⟨[], (r.invalidate f.snapshot id).1⟩, (r.invalidate f.snapshot id).2)
  | .forgetAll n => s.touch fun h => h.absorb <| h.files.withResolver n fun _ r =>
      (⟨[], r.invalidateAll.1⟩, r.invalidateAll.2)

end Session

namespace Host

open Async

variable {c : Chains} {v v' : MemoryVault} {rules : Rules} {h h' : Host}

/-! ### Following changes -/

theorem forgets_recalls (tokens : List Nat) (h : Host) :
    Recalls c v h (tokens.foldl (fun h token => h.forget (.file token)) h) := by
  induction tokens generalizing h with
  | nil => exact Recalls.refl h
  | cons token tokens ih => exact (recalls_forget h (.file token)).trans (ih _)

/-- What is kept stays true when the files change: what was kept of the versions that are gone is never looked at. -/
theorem Sincere.changed (hs : h.Sincere c v) {files : Files} (hlater : h.files.snapshot.Later files.snapshot)
    (hsame : ∀ path identity, files.snapshot.get? path = some identity → h.files.snapshot.get? path = some identity →
      v'.text? path = v.text? path)
    (hentries : ∀ r' ∈ files.resolvers, ∀ path entry, r'.entries.at? path = some entry →
      ∃ r ∈ h.files.resolvers, ∃ old, r.entries.at? path = some old ∧ old.token = entry.token ∧ old.code = entry.code) :
    Sincere c v' { h with files := files } := by
  refine ⟨hs.chain, hlater.sound hs.sound, fun r' hr' path entry he => ?_,
    fun token kept hk => (hs.scripts token kept hk).later hlater hsame,
    fun token draft hd => (hs.modules token draft hd).later hlater hsame, hs.numbered⟩
  obtain ⟨r, hr, old, hold, htoken, hcode⟩ := hentries r' hr' path entry he
  have htrue := hs.entries r hr path old hold
  unfold CodeTrue at htrue ⊢
  rw [htoken, hcode] at htrue
  exact htrue.later hlater hsame

/-- A host whose snapshot mirrors a vault in memory, where what is kept is true. -/
structure Mirroring (c : Chains) (rules : Rules) (v : MemoryVault) (h : Host) : Prop where
  /-- No startup modules are waited for. -/
  watched : h.watched = none
  /-- This is the vault. -/
  vault : h.files.vault = .memory v
  /-- Its files are known. -/
  mirrors : h.files.snapshot.Mirrors rules v
  /-- What is kept is true. -/
  sincere : h.Sincere c v

/-- To absorb a change of the files lets a host at rest go on to rest, and what is kept stays true. -/
theorem absorbed {s : Schedule Host Work} (hrests : Rests s) (hs : s.state.Sincere c v) (hw : s.state.watched = none)
    (change : Ripple × Files) (hvault : change.2.vault = .memory v') (hmirrors : change.2.snapshot.Mirrors rules v')
    (hlater : s.state.files.snapshot.Later change.2.snapshot)
    (hsame : ∀ path identity, change.2.snapshot.get? path = some identity →
      s.state.files.snapshot.get? path = some identity → v'.text? path = v.text? path)
    (hentries : ∀ r' ∈ change.2.resolvers, ∀ path entry, r'.entries.at? path = some entry →
      ∃ r ∈ s.state.files.resolvers, ∃ old, r.entries.at? path = some old ∧ old.token = entry.token ∧
        old.code = entry.code) :
    Rests { s with state := s.state.absorb change } ∧ Mirroring c rules v' (s.state.absorb change) := by
  have hchanged : Sincere c v' { s.state with files := change.2 } := hs.changed hlater hsame hentries
  have a := forgets_recalls (c := c) (v := v') change.1.forgotten { s.state with files := change.2 }
  have hrests₁ : Rests { s with state := { s.state with files := change.2 } } :=
    ⟨hrests.still.withState _, hrests.asked, hrests.drafts⟩
  have hrests₂ := hrests₁.recalls a
  have hs₂ := a.sincere hchanged
  have hfiles := a.files
  obtain ⟨_, _, hrest⟩ := a.rest
  set h₂ : Host := change.1.forgotten.foldl (fun h token => h.forget (.file token)) { s.state with files := change.2 } with hh₂
  obtain ⟨loaders, announced, he⟩ := announces_quiet change.1.announced h₂ (Or.inl (by rw [hrest]; exact hw))
  have habsorb : s.state.absorb change = { h₂ with loaders := loaders, announced := announced } := he
  rw [habsorb]
  refine ⟨⟨hrests.still.withState _, hrests₂.asked, hrests₂.drafts⟩, ?_, ?_, ?_, hs₂.chain, hs₂.sound, hs₂.entries,
    hs₂.scripts, hs₂.modules, hs₂.numbered⟩
  · rw [hrest]
    exact hw
  · exact hfiles.2.trans hvault
  · show h₂.files.snapshot.Mirrors rules v'
    rw [hfiles.1]
    exact hmirrors

/-- Whatever is adopted, resolvers keep no code that is new. -/
theorem entries_adopt (f : Files) (next : List Notice × Snapshot) :
    ∀ r' ∈ (f.adopt next).2.resolvers, ∀ path entry, r'.entries.at? path = some entry →
      ∃ r ∈ f.resolvers, ∃ old, r.entries.at? path = some old ∧ old.token = entry.token ∧ old.code = entry.code := by
  intro r' hr' path entry he
  obtain ⟨r, hr, hsub⟩ := (adopt_rest f next).2.2.entries r' hr'
  exact ⟨r, hr, entry, hsub path entry he, rfl, rfl⟩

/-- To let one resolver do something that keeps no code that is new. -/
theorem entries_onResolver {f : Files} {n : Nat} {change : FileResolver → FileResolver}
    (hchange : ∀ r path entry, (change r).entries.at? path = some entry →
      ∃ old, r.entries.at? path = some old ∧ old.token = entry.token ∧ old.code = entry.code) :
    ∀ r' ∈ (f.onResolver n change).resolvers, ∀ path entry, r'.entries.at? path = some entry →
      ∃ r ∈ f.resolvers, ∃ old, r.entries.at? path = some old ∧ old.token = entry.token ∧ old.code = entry.code := by
  intro r' hr' path entry he
  rcases mem_onResolver hr' with hr | ⟨r, hr, rfl⟩
  · exact ⟨r', hr, entry, he, rfl, rfl⟩
  · exact ⟨r, hr, hchange r path entry he⟩

theorem depend_code {r : FileResolver} {parent path : String} {token : Nat} {entry : Entry}
    (he : (r.depend parent token).entries.at? path = some entry) :
    ∃ old, r.entries.at? path = some old ∧ old.token = entry.token ∧ old.code = entry.code := by
  rw [FileResolver.entry_depend] at he
  obtain ⟨old, hold, rfl⟩ := Option.map_eq_some_iff.1 he
  refine ⟨old, hold, ?_⟩
  split
  · exact ⟨rfl, funext fun form => by cases form <;> rfl⟩
  · exact ⟨rfl, rfl⟩

end Host

namespace Session

open Async Host

variable {c : Chains} {v v' : MemoryVault} {rules : Rules} {s : Session}

/-! ### What is done one after another -/

/-- A session at rest, whose host mirrors a vault in memory. -/
structure Mirroring (c : Chains) (rules : Rules) (v : MemoryVault) (s : Session) : Prop where
  /-- The session is at rest. -/
  rests : Rests s.running
  /-- Its host mirrors the vault. -/
  host : s.host.Mirroring c rules v

theorem Mirroring.vault_eq (hs : s.Mirroring c rules v) : s.vault = v := by
  unfold Session.vault
  rw [hs.host.vault]

/-- Nothing runs when the host changes, where nothing could run before. -/
theorem change_of_still (hs : s.running.Still) (f : Host → Host) (ha : (f s.host).asked = []) :
    s.change f = { s with running := { s.running with state := f s.host, root := .finished, rootReady := false } } := by
  have hchange : (Async.change f).Ends (plan s.evaluator) 0
      { s.running with root := .fresh (Async.fiber (Async.change f)), rootReady := false } fun _ s' =>
        s' = { s.running with
          state := f s.host, root := .fresh (Async.fiber (Async.change f)), rootReady := false } :=
    ends_change (by rw [adopt_of_none (collect_of_asked (by exact ha))]; rfl)
  obtain ⟨_, s', rfl, hrun⟩ := run_of_ends (show 0 < Schedule.rounds by decide) hchange
  have hstill : Schedule.Still ({ s.running with state := f s.host, root := .finished, rootReady := false } :
      Schedule Host Work) := ⟨hs.ready, hs.resting, hs.jobs, hs.queue, hs.workers⟩
  unfold change run
  rw [hrun]
  exact congrArg (Session.mk s.evaluator) (Schedule.settle_still hstill rfl _)

theorem rests_of_same {s s' : Schedule Host Work} (hs : Rests s) (hstate : s'.state = s.state)
    (hshares : s'.shares = s.shares) (hstill : s'.Still) : Rests s' :=
  ⟨hstill, by rw [hstate]; exact hs.asked, by rw [hstate, hshares]; exact hs.drafts⟩

/-- To absorb a change of the files that the host is told of. -/
theorem Mirroring.absorb (hs : s.Mirroring c rules v) (change : Host → Ripple × Files)
    (habsorbed : Rests { s.running with state := s.host.absorb (change s.host) } ∧
      (s.host.absorb (change s.host)).Mirroring c rules v') :
    Mirroring c rules v' (s.change fun h => h.absorb (change h)) := by
  obtain ⟨hrests, hmirroring⟩ := habsorbed
  rw [change_of_still hs.rests.still _ hrests.asked]
  exact ⟨rests_of_same hrests rfl rfl ⟨hrests.still.ready, hrests.still.resting, hrests.still.jobs, hrests.still.queue,
    hrests.still.workers⟩, hmirroring⟩

/-- A change of the vault is followed. -/
theorem Mirroring.adopt (hs : s.Mirroring c rules v) {step : Change × MemoryVault}
    (htouched : ∀ path, MemoryVault.Touched path v step) :
    Mirroring c rules step.2 (s.adopt step.1 step.2 false) := by
  unfold Session.adopt
  rw [if_neg Bool.false_ne_true]
  set h : Host := { s.host with files := { s.host.files with vault := .memory step.2 } } with hh
  have hsnapshot : (h.files.follow step.1).2.snapshot = (s.host.files.snapshot.follow (.memory step.2) step.1).2 :=
    (adopt_rest h.files _).1
  have hlater : s.host.files.snapshot.Later (h.files.follow step.1).2.snapshot := by
    rw [hsnapshot]
    exact (Snapshot.course_follow _ _ _).later
  have hsame (path : String) (identity : Identity)
      (hnew : (h.files.follow step.1).2.snapshot.get? path = some identity)
      (hold : s.host.files.snapshot.get? path = some identity) : step.2.text? path = v.text? path := by
    rw [hsnapshot] at hnew
    exact Snapshot.text?_of_follow hs.host.sincere.sound (htouched path) hnew hold
  have hmirrors : (h.files.follow step.1).2.snapshot.Mirrors rules step.2 := by
    rw [hsnapshot]
    exact hs.host.mirrors.follow htouched
  -- what is kept is not looked at between the change and the notice of it
  have hs' : Sincere c v h := ⟨hs.host.sincere.chain, hs.host.sincere.sound, hs.host.sincere.entries,
    hs.host.sincere.scripts, hs.host.sincere.modules, hs.host.sincere.numbered⟩
  have hrests : Rests { s.running with state := h } := ⟨hs.rests.still.withState h, hs.rests.asked, hs.rests.drafts⟩
  obtain ⟨hrests', hmirroring⟩ := absorbed hrests hs' hs.host.watched (h.files.follow step.1) (adopt_rest h.files _).2.1
    hmirrors hlater hsame (entries_adopt h.files _)
  show Mirroring c rules step.2 ((s.touch fun _ => h).change fun h => h.absorb (h.files.follow step.1))
  rw [change_of_still (s := s.touch fun _ => h) hrests.still _ hrests'.asked]
  exact ⟨rests_of_same hrests' rfl rfl ⟨hrests'.still.ready, hrests'.still.resting, hrests'.still.jobs,
    hrests'.still.queue, hrests'.still.workers⟩, hmirroring⟩

/-- A session at rest mirrors a vault once it looks at all files, if what is kept is true. -/
theorem mirroring_rebuild (hrests : Rests s.running) (hsincere : s.host.Sincere c v) (hw : s.host.watched = none)
    (hvault : s.host.files.vault = .memory v) :
    Mirroring c s.host.files.snapshot.rules v (s.change fun h => h.absorb h.files.rebuild) := by
  have hadopt := adopt_rest s.host.files (s.host.files.snapshot.rebuild s.host.files.vault)
  have hmirrors : s.host.files.rebuild.2.snapshot.Mirrors s.host.files.snapshot.rules v := by
    rw [show s.host.files.rebuild.2.snapshot = _ from hadopt.1, hvault]
    exact Snapshot.mirrors_rebuild s.host.files.snapshot v
  have hlater : s.host.files.snapshot.Later s.host.files.rebuild.2.snapshot := by
    rw [show s.host.files.rebuild.2.snapshot = _ from hadopt.1]
    exact (Snapshot.course_rebuild _ _).later
  obtain ⟨hrests', hmirroring⟩ := absorbed hrests hsincere hw s.host.files.rebuild (hadopt.2.1.trans hvault) hmirrors
    hlater (fun _ _ _ _ => rfl) (entries_adopt s.host.files _)
  rw [change_of_still hrests.still _ hrests'.asked]
  exact ⟨rests_of_same hrests' rfl rfl ⟨hrests'.still.ready, hrests'.still.resting, hrests'.still.jobs,
    hrests'.still.queue, hrests'.still.workers⟩, hmirroring⟩

theorem Mirroring.rebuild (hs : s.Mirroring c rules v) :
    Mirroring c rules v (s.change fun h => h.absorb h.files.rebuild) := by
  have hrebuilt := mirroring_rebuild hs.rests hs.host.sincere hs.host.watched hs.host.vault
  have hrules : s.host.files.snapshot.rules = rules := hs.host.mirrors.ruled
  exact hrules ▸ hrebuilt

/-- One resolver forgets some of what it keeps. -/
theorem Mirroring.lessen (hs : s.Mirroring c rules v) (n : Nat) (act : Files → FileResolver → Ripple × FileResolver)
    (hact : ∀ f r path entry, (act f r).2.entries.at? path = some entry → r.entries.at? path = some entry) :
    Mirroring c rules v (s.touch fun h => h.absorb (h.files.withResolver n act)) := by
  have hentries (r : FileResolver) (path : String) (entry : Entry)
      (he : (act s.host.files r).2.entries.at? path = some entry) :
      ∃ old, r.entries.at? path = some old ∧ old.token = entry.token ∧ old.code = entry.code :=
    ⟨entry, hact _ r path entry he, rfl, rfl⟩
  obtain ⟨hrests, hmirroring⟩ := absorbed hs.rests hs.host.sincere hs.host.watched (s.host.files.withResolver n act)
    hs.host.vault hs.host.mirrors (Snapshot.Later.refl _) (fun _ _ _ _ => rfl) (entries_onResolver hentries)
  exact ⟨hrests, hmirroring⟩

theorem Mirroring.depend (hs : s.Mirroring c rules v) (n : Nat) (parent dependency : String) :
    Mirroring c rules v (s.move (.depend n parent dependency)) := by
  have hsincere : Host.Sincere c v { s.host with files := s.host.files.onResolver n fun r =>
      (s.host.files.snapshot.get? dependency).elim r fun identity => r.depend parent identity.token } :=
    hs.host.sincere.changed (Snapshot.Later.refl _) (fun _ _ _ _ => rfl) (entries_onResolver fun r path entry he => by
      cases hget : s.host.files.snapshot.get? dependency with
      | none =>
        rw [hget] at he
        exact ⟨entry, he, rfl, rfl⟩
      | some identity =>
        rw [hget] at he
        exact depend_code he)
  exact ⟨⟨hs.rests.still.withState _, hs.rests.asked, hs.rests.drafts⟩, hs.host.watched, hs.host.vault, hs.host.mirrors,
    hsincere⟩

/-! ### Asking a resolver -/

/-- The host when work is given a number. -/
theorem Mirroring.number (hs : s.Mirroring c rules v) : s.host.number.2.Mirroring c rules v :=
  ⟨hs.host.watched, hs.host.vault, hs.host.mirrors, hs.host.sincere.chain, hs.host.sincere.sound,
    hs.host.sincere.entries, hs.host.sincere.scripts, hs.host.sincere.modules,
    fun origin id hid => Nat.lt_succ_of_lt (hs.host.sincere.numbered origin id hid)⟩

/-- The session after something came to an end with an outcome, which was told under a number and looked at. -/
def told (ev : Evaluator) (t : Schedule Host Work) (n : Nat) (o : Outcome) : Session :=
  ⟨ev, { t with state := { t.state with outcomes := Table.erase (t.state.tell n o).outcomes n }, root := .finished }⟩

/-- What is done while nothing else runs, and after which nothing runs, is told. -/
theorem perform_of_rests (s : Session) {x : Async Host Work Outcome} {P : Outcome → Schedule Host Work → Prop}
    (hx : ∀ root, x.Ends (plan s.evaluator) 1 (s.numbered root) fun o t => P o t ∧ Rests t) :
    ∃ o t, P o t ∧ Rests t ∧ s.perform x = (some o, told s.evaluator t s.host.nextWork o) := by
  set n : Nat := s.host.nextWork with hn
  set s₁ : Schedule Host Work := { s.running with state := s.host.number.2 } with hs₁
  set y : Async Host Work Unit := do
    let outcome ← x
    Async.change (Host.tell n outcome) with hy
  have hends : y.Ends (plan s.evaluator) (1 + 0) { s₁ with root := .fresh y.fiber, rootReady := false } fun _ s' =>
      ∃ o t, P o t ∧ Rests t ∧ s' = { t with state := t.state.tell n o } := by
    refine ends_bind (hx _) fun o t ⟨hp, hrests⟩ => ends_change ?_
    rw [adopt_of_none (collect_of_asked (by exact hrests.asked))]
    exact ⟨o, t, hp, hrests, rfl⟩
  obtain ⟨_, _, ⟨o, t, hp, hrests, rfl⟩, hrun⟩ := run_of_ends (show 1 + 0 < Schedule.rounds by decide) hends
  have hstill : Schedule.Still { t with state := t.state.tell n o, root := .finished } :=
    ⟨hrests.still.ready, hrests.still.resting, hrests.still.jobs, hrests.still.queue, hrests.still.workers⟩
  rw [Schedule.settle_still hstill rfl] at hrun
  refine ⟨o, t, hp, hrests, ?_⟩
  have hunfold : s.perform x = ((s₁.run (plan s.evaluator) y).state.outcome? n, Session.touch
    ⟨s.evaluator, s₁.run (plan s.evaluator) y⟩ fun h => { h with outcomes := h.outcomes.erase n }) := rfl
  rw [hunfold, hrun]
  refine Prod.ext ?_ rfl
  exact Table.at?_put_same ..

/-- To tell something under a number that no module has that is kept leaves no trace. -/
theorem mirroring_told {t : Schedule Host Work} (hrests : Rests t) (hm : t.state.Mirroring c rules v) {n : Nat}
    (hother : ∀ origin id, t.state.workshop.modules.at? origin = some (.pending id) → id ≠ n) (ev : Evaluator)
    (o : Outcome) : Mirroring c rules v (told ev t n o) ∧ (t.state.Noted v → (told ev t n o).host.Noted v) := by
  have houtcome (id : Nat) (hid : id ≠ n) : Table.at? (Table.erase (t.state.outcomes.put n o) n) id = t.state.outcome? id := by
    rw [Table.at?_erase_ne (Ne.symm hid), Table.at?_put_ne (Ne.symm hid)]
    rfl
  have hdraft (origin : Origin) (draft : Draft) (hd : t.state.workshop.modules.at? origin = some draft) :
      (told ev t n o).host.draftOf draft = t.state.draftOf draft := by
    cases draft with
    | asIs => rfl
    | pending id => exact congrArg Outcome.asCode (houtcome id (hother origin id hd))
  refine ⟨⟨⟨⟨hrests.still.ready, hrests.still.resting, hrests.still.jobs, hrests.still.queue, hrests.still.workers⟩,
    hrests.asked, fun origin id hid => ?_⟩, hm.watched, hm.vault, hm.mirrors, hm.sincere.chain, hm.sincere.sound,
    hm.sincere.entries, hm.sincere.scripts, fun token draft hd => ?_, hm.sincere.numbered⟩, fun hn =>
    ⟨hn.distinct, hn.entries, hn.scripts, fun token draft hd hok => hn.modules token draft hd fun e he =>
      hok e ((hdraft _ draft hd).trans he)⟩⟩
  · obtain ⟨hshare, result, hresult⟩ := hrests.drafts origin id hid
    exact ⟨hshare, result, (houtcome id (hother origin id hid)).trans hresult⟩
  · rw [hdraft _ draft hd]
    exact hm.sincere.modules token draft hd

/-- What serves a file while nothing else runs is told, and the session goes on to mirror the vault. -/
theorem Mirroring.perform (hs : s.Mirroring c rules v) {k : Nat} {x : Async Host Work Outcome} {P : Outcome → Host → Prop}
    (hx : ∀ root, x.Ends (plan s.evaluator) 1 (s.numbered root) fun o s' =>
      P o s'.state ∧ Rests s' ∧ Stocked k c v s.host.number.2 s'.state) :
    ∃ o h outcomes, P o h ∧ (s.perform x).1 = some o ∧ (s.perform x).2.host = { h with outcomes := outcomes } ∧
      (s.perform x).2.host.files.snapshot = s.host.files.snapshot ∧ Mirroring c rules v (s.perform x).2 ∧
      (s.perform x).2.host.files.resolvers.length = s.host.files.resolvers.length ∧
      (k < s.host.files.resolvers.length → s.host.Noted v → (s.perform x).2.host.Noted v) := by
  obtain ⟨o, t, ⟨hp, hserved⟩, hrests, hperform⟩ := perform_of_rests s fun root =>
    (hx root).mono (Nat.le_refl 1) fun o t ⟨hp, hrests, hserved⟩ => And.intro (And.intro hp hserved) hrests
  have hnumber := hs.number
  have hm : t.state.Mirroring c rules v := by
    obtain ⟨_, _, _, _, hrest⟩ := hserved.rest
    refine ⟨?_, hserved.files.2.trans hnumber.vault, ?_, hserved.sincere⟩
    · rw [hrest]
      exact hnumber.watched
    · rw [hserved.files.1]
      exact hnumber.mirrors
  -- no module that is kept has the number under which this is told
  obtain ⟨hmirroring, hnoted⟩ := mirroring_told hrests hm (n := s.host.nextWork) (fun origin id hid => by
    rcases hserved.drafts origin id hid with hold | hnew
    · exact Nat.ne_of_lt (hs.host.sincere.numbered origin id hold)
    · exact Nat.ne_of_gt (Nat.lt_of_lt_of_le (Nat.lt_succ_self _) hnew)) s.evaluator o
  rw [hperform]
  exact ⟨o, t.state, _, hp, rfl, rfl, hserved.files.1, hmirroring, hserved.length, fun hlt hn =>
    hnoted (hserved.noted hlt ⟨hn.distinct, hn.entries, hn.scripts, hn.modules⟩)⟩

/-- A resolver answers for the file that it means as the chain does, or as one failed that was before; and the session
goes on to mirror the vault. -/
theorem Mirroring.resolveBy (hs : s.Mirroring c rules v) (form : Form) (n : Nat) (id : String) (context : Context) :
    Serves n c rules v form (s.host.meantBy? id context n) s.host (s.resolveBy form n id context).1
      (s.resolveBy form n id context).2.host ∧
    (s.resolveBy form n id context).2.host.files.snapshot = s.host.files.snapshot ∧
    Mirroring c rules v (s.resolveBy form n id context).2 ∧
    (s.resolveBy form n id context).2.host.files.resolvers.length = s.host.files.resolvers.length ∧
    (n < s.host.files.resolvers.length → s.host.Noted v → (s.resolveBy form n id context).2.host.Noted v) := by
  have hnumber := hs.number
  have hmeant : s.host.number.2.meantBy? id context n = s.host.meantBy? id context n :=
    (unmoved_number s.host).meantBy? id context n
  have answers {x : Async Host Work Outcome} (hx : ∀ root, x.Ends (plan s.evaluator) 1 (s.numbered root) fun o s' =>
      (∃ r, o = .resolved r ∧ Serves n c rules v form (s.host.number.2.meantBy? id context n) s.host.number.2 r
        s'.state) ∧ Rests s' ∧ Stocked n c v s.host.number.2 s'.state) :
      Serves n c rules v form (s.host.meantBy? id context n) s.host (Outcome.asResolved (s.perform x).1)
          (s.perform x).2.host ∧
        (s.perform x).2.host.files.snapshot = s.host.files.snapshot ∧
        Mirroring c rules v (s.perform x).2 ∧
        (s.perform x).2.host.files.resolvers.length = s.host.files.resolvers.length ∧
        (n < s.host.files.resolvers.length → s.host.Noted v → (s.perform x).2.host.Noted v) := by
    obtain ⟨_, h, outcomes, ⟨r, rfl, hr⟩, ho, hhost, hmirroring⟩ :=
      hs.perform (P := fun o h => ∃ r, o = .resolved r ∧ Serves n c rules v form
        (s.host.number.2.meantBy? id context n) s.host.number.2 r h) hx
    refine ⟨?_, hmirroring⟩
    rw [ho, hhost, ← hmeant]
    exact hr.told outcomes
  have hrests (root : Parked Host Work) : Rests (s.numbered root) := Idle.numbered (s := s) hs.rests root
  cases form with
  | script =>
    refine answers fun root => ?_
    obtain ⟨r, h, hexec, hr, hserved, hdrafts, houtcomes⟩ := ends_resolve_served hnumber.sincere hnumber.mirrors n id context
    have hasked : h.asked = [] := by
      obtain ⟨_, _, _, _, rfl⟩ := hserved.rest
      exact hs.rests.asked
    refine (ends_bind (m := 0) (n := 0) (P := fun r' s' => r' = r ∧ s' = { s.numbered root with state := h })
      (ends_act hexec ?_) ?_).mono (Nat.zero_le 1) fun _ _ hq => hq
    · rw [adopt_of_none (collect_of_asked hasked)]
      exact ⟨rfl, rfl⟩
    · rintro r _ ⟨rfl, rfl⟩
      refine ends_pure ⟨⟨r, rfl, hr⟩, ⟨(hrests root).still.withState h, hasked, fun origin id hid => ?_⟩, hserved⟩
      obtain ⟨hshare, result, hresult⟩ := (hrests root).drafts origin id (hdrafts origin _ hid)
      refine ⟨hshare, result, Eq.trans ?_ hresult⟩
      exact congrArg (Table.at? · id) houtcomes
  | module =>
    refine answers fun root => ?_
    refine ends_bind (m := 1) (n := 0) (ends_resolveLater_served (hrests root) hnumber.sincere rfl hnumber.mirrors
      hnumber.vault n id context) ?_
    rintro r s' ⟨hr, hrests', hserved⟩
    exact ends_pure ⟨⟨r, rfl, hr⟩, hrests', hserved⟩

theorem codeBy_script (s : Session) (n : Nat) (source : Source) :
    (s.codeBy .script n source).1 = Outcome.asCode (s.perform do
      return .code ((← Async.act (Files.code transpilers n source).run).map some)).1 := by
  unfold codeBy
  rfl

theorem codeBy_module (s : Session) (n : Nat) (source : Source) :
    (s.codeBy .module n source).1 = Outcome.asCode (s.perform do
      return .code ((← (Files.code transpilersLater n source).run).map some)).1 := by
  unfold codeBy
  rfl

/-- Where the transpilers keep nothing, the chain is run. -/
theorem codeBy_of_empty (hidle : s.Idle) (hscripts : s.host.workshop.scripts = [])
    (hmodules : s.host.workshop.modules = []) (form : Form) (n : Nat) (path text : String) (token : Nat) :
    (s.codeBy form n (.ofVersion path text token)).1 =
      (s.host.chain.code form (.ofVersion path text token)).map some := by
  have tells {x : Async Host Work Outcome} (hx : ∀ root, x.Ends (plan s.evaluator) 1 (s.numbered root)
      fun o s' => o = .code ((s.host.chain.code form (.ofVersion path text token)).map some) ∧ Dozes s.evaluator s') :
      Outcome.asCode (s.perform x).1 = (s.host.chain.code form (.ofVersion path text token)).map some := by
    obtain ⟨_, rfl, ho⟩ := perform_of_ends hx
    rw [ho]
    rfl
  cases form with
  | script =>
    rw [codeBy_script]
    refine tells fun root => ?_
    obtain ⟨r, h, hexec, hr, hcoded, -, -⟩ := ends_code_script s.host.number.2 n path text token fun kept hk => by
      rw [show s.host.number.2.workshop.scripts = [] from hscripts] at hk
      cases hk
    have hasked : h.asked = [] := hcoded.asked.trans hidle.asked
    have hact : Ends (plan s.evaluator) 0 (Async.act (Files.code transpilers n (.ofVersion path text token)).run)
        (s.numbered root) fun r' s' => r' = r ∧ Dozes s.evaluator s' := by
      refine ends_act hexec ?_
      rw [adopt_of_none (collect_of_asked hasked)]
      exact ⟨rfl, Makes.Rested.dozes ⟨(hidle.numbered root).still.withState h, hasked⟩⟩
    refine (ends_bind (m := 0) (n := 0) hact ?_).mono (Nat.zero_le 1) fun _ _ hq => hq
    rintro r _ ⟨rfl, hd⟩
    exact ends_pure ⟨by rw [hr]; rfl, hd⟩
  | module =>
    rw [codeBy_module]
    refine tells fun root => ?_
    have none {origin : Origin} {draft : Draft} (hd : s.host.workshop.modules.at? origin = some draft) : False := by
      rw [hmodules] at hd
      cases hd
    refine ends_bind (m := 1) (n := 0) (ends_code_module (hidle.numbered root) (fun _ _ hd => (none hd).elim) rfl n path
      text token fun _ hd => (none hd).elim) ?_
    rintro r s' ⟨hr, hrests, -⟩
    refine ends_pure ⟨?_, Makes.Rested.dozes ⟨hrests.still, hrests.asked⟩⟩
    rw [hr]
    rfl

theorem Mirroring.codeBy_emptied (hs : s.Mirroring c rules v) (form : Form) (n : Nat) (path text : String)
    (token : Nat) :
    (s.emptied.codeBy form n (.ofVersion path text token)).1 =
      (c.now.code form (.ofVersion path text token)).map some := by
  have hidle : s.emptied.Idle := ⟨hs.rests.still.withState _, hs.rests.asked, nofun⟩
  have hchain : s.emptied.host.chain = c.now := hs.host.sincere.chain
  rw [codeBy_of_empty hidle rfl rfl, hchain]

/-! ### Runs -/

/-- Whatever is done, a session goes on to mirror the vault. -/
theorem Mirroring.move (hs : s.Mirroring c rules v) (m : FileMove) : ∃ v', Mirroring c rules v' (s.move m) := by
  have hvault := hs.vault_eq
  cases m with
  | write path text =>
    unfold Session.move
    rw [hvault]
    exact ⟨_, hs.adopt (v.touched_write path text)⟩
  | remove path =>
    unfold Session.move
    rw [hvault]
    exact ⟨_, hs.adopt (v.touched_remove path)⟩
  | rename source target =>
    unfold Session.move
    rw [hvault]
    exact ⟨_, hs.adopt (v.touched_rename source target)⟩
  | rebuild => exact ⟨v, hs.rebuild⟩
  | resolve form n id context => exact ⟨v, (hs.resolveBy form n id context).2.2.1⟩
  | depend n parent dependency => exact ⟨v, hs.depend n parent dependency⟩
  | forget n id =>
    refine ⟨v, hs.lessen n (fun f r => (⟨[], (r.invalidate f.snapshot id).1⟩, (r.invalidate f.snapshot id).2))
      fun f r path entry he => ?_⟩
    have hentries : (r.invalidate f.snapshot id).2.entries = r.entries.erase id := (forgetToken_entries ..).1
    exact at?_of_at?_erase (hentries ▸ he)
  | forgetAll n =>
    exact ⟨v, hs.lessen n (fun _ r => (⟨[], r.invalidateAll.1⟩, r.invalidateAll.2)) fun _ _ _ _ he => nomatch he⟩

/-- File resolvers over a vault in memory as they begin, when no file is known yet. -/
def unread (ev : Evaluator) (settings : Settings) (rules : Rules) (compiler : Option (Compile.Request → Compile.Outcome))
    (strategies : List Strategy) (vault : MemoryVault) : Session :=
  ⟨ev,
    { state :=
        { settings := settings
          files :=
            { vault := .memory vault
              snapshot := { rules := rules }
              resolvers := strategies.map fun strategy => { strategy := strategy } }
          workshop := { compiler := compiler } }
      workers := Host.workers settings }⟩

section OverMemory

variable (ev : Evaluator) (settings : Settings) (rules : Rules) (compiler : Option (Compile.Request → Compile.Outcome))
  (strategies : List Strategy) (v : MemoryVault)

theorem overMemory_eq : overMemory ev settings rules compiler strategies v =
    (unread ev settings rules compiler strategies v).change fun h => h.absorb h.files.rebuild := rfl

theorem rests_unread : Rests (unread ev settings rules compiler strategies v).running := by
  refine ⟨⟨rfl, rfl, rfl, rfl, ?_⟩, rfl, nofun⟩
  show max 1 settings.workerThreads ≠ 0
  omega

theorem entries_unread {r : FileResolver}
    (hr : r ∈ (unread ev settings rules compiler strategies v).host.files.resolvers) : r.entries = [] := by
  obtain ⟨strategy, -, rfl⟩ := List.mem_map.1 hr
  rfl

theorem mirroring_overMemory :
    Mirroring ⟨⟨settings, compiler⟩, []⟩ rules v (overMemory ev settings rules compiler strategies v) := by
  rw [overMemory_eq]
  refine mirroring_rebuild (rests_unread ev settings rules compiler strategies v)
    ⟨rfl, Snapshot.sound_empty rules 0, fun r hr path entry he => ?_, nofun, nofun, nofun⟩ rfl rfl
  rw [entries_unread ev settings rules compiler strategies v hr] at he
  cases he

end OverMemory

/-- After whatever was done with file resolvers over a vault in memory: a resolver that is asked for a specifier finds
the file that the specifier means to it, if there is one (at once, if the rules ask for it), and tells its path and the
code, or the failure, that the chain of transpilers tells for the text of the file when nothing is kept. -/
theorem resolveBy_transparent (ev : Evaluator) (settings : Settings) (rules : Rules)
    (compiler : Option (Compile.Request → Compile.Outcome)) (strategies : List Strategy) (vault : MemoryVault)
    (moves : List FileMove) (form : Form) (n : Nat) (id : String) (context : Context) (token : Nat) :
    let s := moves.foldl move (overMemory ev settings rules compiler strategies vault)
    (s.resolveBy form n id context).1.map (·.map Resolved.idAndCode) =
      match s.host.meantBy? id context n with
      | none => .ok none
      | some path =>
        match rules.textFor s.vault path form with
        | none => .ok none
        | some text =>
          (s.emptied.codeBy form n (.ofVersion path text token)).1.map (·.map fun code => (path, code)) := by
  intro s
  obtain ⟨v, hs⟩ : ∃ v, Mirroring ⟨⟨settings, compiler⟩, []⟩ rules v s := by
    have runs (moves : List FileMove) {s : Session} {v : MemoryVault}
        (hs : Mirroring ⟨⟨settings, compiler⟩, []⟩ rules v s) :
        ∃ v', Mirroring ⟨⟨settings, compiler⟩, []⟩ rules v' (moves.foldl move s) := by
      induction moves generalizing s v with
      | nil => exact ⟨v, hs⟩
      | cons m moves ih =>
        obtain ⟨v', hs'⟩ := hs.move m
        exact ih hs'
    exact runs moves (mirroring_overMemory ev settings rules compiler strategies vault)
  rw [(hs.resolveBy form n id context).1.replies.of_none rfl, hs.vault_eq]
  cases s.host.meantBy? id context n with
  | none => rfl
  | some path =>
    dsimp only [chainAnswer]
    cases rules.textFor v path form with
    | none => rfl
    | some text =>
      dsimp only
      rw [hs.codeBy_emptied, code_ofVersion form path text 0 token]
      cases Chain.code _ form (.ofVersion path text token) <;> rfl

end Session

end ScriptVault

import ScriptVault.Proofs.Fresh.Edit
import ScriptVault.Proofs.Fresh.Layers
import ScriptVault.Proofs.Fresh.Versions

/-!
# Freshness — a host gives what a fresh one would

A host that was started loads modules while its files are written and removed.  Whatever it is asked for, it gives
what a host gives that is started over the files as they are then: the same failure, or exports that are the same
tree.
-/

namespace ScriptVault.Host

/-! ### Runs -/

/-- A host that has looked at its files and has some remote modules. -/
def looked (remote : Remote) (watched : Option Nat) (h : Host) : Host :=
  { h.absorb h.files.rebuild with remote := remote, watched := watched }

/-- A host that was built over some files and has looked at them. -/
def started (parts : Parts) (remote : Remote) (watched : Option Nat) (v : MemoryVault) : Except Failure Host :=
  (build { parts with vault := .memory v }).map (looked remote watched)

/-- A host that takes over changed files and follows the change. -/
def edited (change : Change × MemoryVault) (h : Host) : Host :=
  { h with files := { h.files with vault := .memory change.2 } }.follow change.1

/-- What may come of a started host by loading, writing to files that are there and removing files, with the files
that are left.  Each version of the files is clear, a known id is asked for only where it leads to the module with
this id, and a file is removed only if its text was read ahead of time. -/
inductive Run (parts : Parts) (remote : Remote) (watched : Option Nat) (ids : String → Prop) :
    MemoryVault → Host → Prop
  /-- The host was started. -/
  | start {v : MemoryVault} {h : Host} : started parts remote watched v = .ok h → h.world.Clear ids →
    Run parts remote watched ids v h
  /-- A specifier was loaded. -/
  | require {v : MemoryVault} {h : Host} {depth : Nat} {s : String} {cwd : Option String} {x : Except Failure Value}
    {h' : Host} : Run parts remote watched ids v h →
    (∀ t, h.world.answer s cwd = .ok (some t) → ids s → t.id = s) →
    (require Scan.evaluator depth 0 s cwd).exec h = some (x, h') → Run parts remote watched ids v h'
  /-- A file was written. -/
  | write {v : MemoryVault} {h : Host} {path text : String} : Run parts remote watched ids v h →
    v.isFile (Path.normalize path) = true → (h.edited (v.write path text)).world.Clear ids →
    Run parts remote watched ids (v.write path text).2 (h.edited (v.write path text))
  /-- A file was removed. -/
  | remove {v : MemoryVault} {h : Host} {path : String} : Run parts remote watched ids v h →
    (v.isFile (Path.normalize path) = true → h.files.snapshot.rules.selects (Path.normalize path) = true) →
    (h.edited (v.remove path)).world.Clear ids →
    Run parts remote watched ids (v.remove path).2 (h.edited (v.remove path))

/-- A host between two steps of a run. -/
structure Paused (rules : Rules) (ids : String → Prop) (v : MemoryVault) (h : Host) : Prop where
  /-- Its loader is truthful. -/
  truthful : ∃ own, Truthful h.world ids 0 own [] h
  /-- These are the files. -/
  vault : h.files.vault = .memory v
  /-- They are known. -/
  mirrors : h.files.snapshot.Mirrors rules v
  /-- Nothing is being loaded. -/
  context : h.contextOf 0 = {}
  /-- The loader listens. -/
  listening : (h.loader 0).listening = true

variable {parts : Parts} {remote : Remote} {watched : Option Nat} {ids : String → Prop} {v : MemoryVault} {h h' f : Host}
  {rules : Rules}

/-! ### Starting -/

/-- A host that was built over some files and has not looked at them. -/
def unlooked (parts : Parts) (v : MemoryVault) (rules : Rules) : Host :=
  (({ parts with vault := .memory v }.blank rules).createRealm parts.app).2

theorem started_eq (hb : started parts remote watched v = .ok h) :
    ∃ rules, parts.settings.rules = .ok rules ∧
      build { parts with vault := .memory v } = .ok (unlooked parts v rules) ∧
      h = (unlooked parts v rules).looked remote watched := by
  unfold started at hb
  cases hc : build { parts with vault := .memory v } with
  | error e => rw [hc] at hb; cases hb
  | ok h₀ =>
    rw [hc] at hb
    cases hb
    obtain ⟨rules, hr, rfl⟩ := build_eq hc
    exact ⟨rules, hr, rfl, rfl⟩

theorem world_relayed (h : Host) (remote : Remote) (watched : Option Nat) :
    { h with remote := remote, watched := watched }.world =
      { h.world with remote := fun id cwd => (remote.resolve h.settings.enableExternalLinks id cwd).1 } := rfl

theorem looked_world (h : Host) (remote : Remote) (watched : Option Nat) :
    (h.looked remote watched).world =
      { h.world with
        snapshot := h.files.rebuild.2.snapshot
        remote := fun id cwd => (remote.resolve h.world.settings.enableExternalLinks id cwd).1 } := by
  have he := absorb_world h h.files.rebuild
  have hsettings : (h.absorb h.files.rebuild).settings = h.settings := congrArg World.settings he
  rw [looked, world_relayed, he, hsettings]
  rfl

/-- Started hosts differ in their files, and in nothing else. -/
theorem kin_started {v' : MemoryVault} (hb : started parts remote watched v = .ok h)
    (hf : started parts remote watched v' = .ok f) : World.Kin f.world h.world := by
  obtain ⟨rules, hr, -, rfl⟩ := started_eq hb
  obtain ⟨rules', hr', -, rfl⟩ := started_eq hf
  cases hr.symm.trans hr'
  rw [looked_world, looked_world]
  exact ⟨rfl, rfl, rfl, rfl⟩

theorem kept_relayed (hk : h.Kept) (remote : Remote) (watched : Option Nat) :
    { h with remote := remote, watched := watched }.Kept := by
  refine ⟨hk.row, hk.sound, fun r hr path entry he => ?_, fun token kept he => ?_⟩
  · rw [world_relayed]
    refine World.EntryTrue.congr ?_ ?_ ?_ (hk.entries r hr path entry he) <;> rfl
  · rw [world_relayed]
    refine World.ScriptTrue.congr ?_ ?_ ?_ (hk.scripts token kept he) <;> rfl

/-- A host that looks at its files for the first time is paused. -/
theorem paused_looked (hk : (h.absorb h.files.rebuild).Kept) (hl : 0 < h.loaders.length)
    (hgraph : (h.loader 0).graph = {}) (hcontext : h.contextOf 0 = {}) (hlisten : (h.loader 0).listening = true)
    (hvault : h.files.vault = .memory v) (hsnapshot : h.files.snapshot = { rules := rules }) :
    Paused rules ids v (h.looked remote watched) := by
  have hloader : (h.looked remote watched).loader 0 =
      Loader.evictEach (h.loader 0) h.files.rebuild.1.announced := by
    show (h.absorb h.files.rebuild).loader 0 = _
    rw [absorb_loader _ _ hl, if_pos hlisten]
  obtain ⟨graph, hrest⟩ := evictEach_rest (h.loader 0) h.files.rebuild.1.announced
  have horderly : (h.loader 0).graph.Orderly ids := hgraph ▸ Graph.Orderly.empty
  obtain ⟨gone, hsheds, ho, -, -⟩ := sheds_evictEach h.files.rebuild.1.announced horderly
  rw [← hloader] at hsheds ho hrest
  -- nothing was loaded
  have hslot (id : String) : (h.looked remote watched).slotOf 0 id = none := by
    show ((h.looked remote watched).loader 0).graph.scriptOf id = none
    by_cases hg : gone id
    · exact hsheds.lost id hg
    · rw [hsheds.kept id hg, hgraph]
      rfl
  have hadopt := adopt_rest h.files (h.files.snapshot.rebuild h.files.vault)
  have hfiles : (h.looked remote watched).files = h.files.rebuild.2 := absorb_files h h.files.rebuild
  refine ⟨⟨fun _ => none, kept_relayed hk remote watched, (absorb_count h h.files.rebuild).symm ▸ hl, rfl,
    ⟨ho, fun id slot hs => ?_, nofun, nofun, List.nodup_nil, List.isChain_nil⟩, fun r _ _ hs => absurd (hslot _) hs⟩,
    ?_, ?_, ?_, ?_⟩
  · exact nomatch (hslot id).symm.trans hs
  · rw [hfiles]
    exact hadopt.2.1.trans hvault
  · rw [hfiles]
    show Snapshot.Mirrors (h.files.adopt (h.files.snapshot.rebuild h.files.vault)).2.snapshot rules v
    rw [hadopt.1, hvault, hsnapshot]
    exact Snapshot.mirrors_rebuild { rules := rules } v
  · rw [contextOf, hrest]
    exact hcontext
  · rw [hrest]
    exact hlisten

/-- A started host is paused. -/
theorem paused_started (hb : started parts remote watched v = .ok h) :
    ∃ rules, parts.settings.rules = .ok rules ∧ Paused rules ids v h := by
  obtain ⟨rules, hr, hbuild, rfl⟩ := started_eq hb
  exact ⟨rules, hr, paused_looked (kept_of_build hbuild) Nat.zero_lt_one rfl rfl rfl rfl rfl⟩

/-! ### Steps -/

/-- To load a specifier gives what the world says, and leaves the host paused. -/
theorem Paused.served (hs : Paused rules ids v h) (hplain : h.world.meaning.Plain ids)
    (huntangled : h.world.meaning.Untangled) {s : String} {cwd : Option String}
    (hnamed : ∀ t, h.world.answer s cwd = .ok (some t) → ids s → t.id = s) {depth : Nat} {x : Except Failure Value}
    (hr : (require Scan.evaluator depth 0 s cwd).exec h = some (x, h')) :
    Paused rules ids v h' ∧ h'.world = h.world ∧ ∃ own, Truthful h.world ids 0 own [] h' ∧
      Outcome h.world.meaning own [] (h'.loader 0).graph s cwd x := by
  obtain ⟨own, ht⟩ := hs.truthful
  have hcontext : (h.entered 0 cwd).contextOf 0 = ⟨cwd.toList.map some, []⟩ := by
    unfold contextOf entered
    rw [loader_onLoader ht.there, Loader.enter_context]
    rw [show (h.loader 0).context = {} from hs.context]
    rfl
  have hcalling : Calling h.world.meaning ids 0 [] h s cwd cwd := by
    refine ⟨by rw [hcontext]; rfl, ?_, nofun, hnamed⟩
    rw [hcontext]
    cases cwd <;> rfl
  have hback := returns_require depth s cwd ht.kept ht.there hr
  obtain ⟨own', -, ht', ho⟩ := truthful_require hplain huntangled depth ht hcalling hr
  have hsnapshot : h'.files.snapshot = h.files.snapshot := congrArg World.snapshot hback.world
  refine ⟨⟨⟨own', ?_⟩, hback.vault.trans hs.vault, ?_, hback.context.trans hs.context,
    hback.listening.trans hs.listening⟩, hback.world, own', ht', ho⟩
  · rw [hback.world]
    exact ht'
  · rw [hsnapshot]
    exact hs.mirrors

/-- A host that has taken over changed files. -/
def onVault (v : MemoryVault) (h : Host) : Host := { h with files := { h.files with vault := .memory v } }

theorem Truthful.onVault {w : World} {own : Nat → Option Resolved} (ht : Truthful w ids 0 own [] h) (v : MemoryVault) :
    Truthful w ids 0 own [] (h.onVault v) :=
  ⟨⟨ht.kept.row, ht.kept.sound, ht.kept.entries, ht.kept.scripts⟩, ht.there, ht.world, ht.agrees, ht.followed⟩

theorem edited_eq (h : Host) (change : Change × MemoryVault) :
    h.edited change = (h.onVault change.2).absorb
      ((h.onVault change.2).files.adopt (h.files.snapshot.follow (.memory change.2) change.1)) := rfl

theorem kin_edited (h : Host) (change : Change × MemoryVault) : World.Kin h.world (h.edited change).world := by
  rw [edited_eq, absorb_world]
  exact ⟨rfl, rfl, rfl, rfl⟩

section

variable {change : Change × MemoryVault} {notice : Notice} {s : Snapshot}

/-- To follow a change, only what is known of the files is replaced. -/
theorem edited_world (hfollow : h.files.snapshot.follow (.memory change.2) change.1 = ([notice], s)) :
    (h.edited change).world = { h.world with snapshot := s } := by
  obtain ⟨hsnapshot, -⟩ := adopt_rest (h.onVault change.2).files ([notice], s)
  rw [edited_eq, hfollow, absorb_world, hsnapshot]
  rfl

theorem later_of_follow (hfollow : h.files.snapshot.follow (.memory change.2) change.1 = ([notice], s)) :
    h.files.snapshot.Later s := by
  have := (h.files.snapshot.course_follow (.memory change.2) change.1).later
  rwa [hfollow] at this

/-- To follow a change leaves the host paused, if what its loader keeps stays true. -/
theorem Paused.following (hs : Paused rules ids v h)
    (hfollow : h.files.snapshot.follow (.memory change.2) change.1 = ([notice], s))
    (hmirrors : s.Mirrors rules change.2)
    (htruthful : ∃ own, Truthful (h.edited change).world ids 0 own [] (h.edited change)) :
    Paused rules ids change.2 (h.edited change) := by
  obtain ⟨own, ht⟩ := hs.truthful
  have he := edited_eq h change
  rw [hfollow] at he
  obtain ⟨hsnapshot, hvault, -⟩ := adopt_rest (h.onVault change.2).files ([notice], s)
  have hfiles : (h.edited change).files = ((h.onVault change.2).files.adopt ([notice], s)).2 := by
    rw [he, absorb_files]
  have hloader : (h.edited change).loader 0 =
      Loader.evictEach (h.loader 0) ((h.onVault change.2).files.adopt ([notice], s)).1.announced := by
    rw [he, absorb_loader _ _ (ht.onVault change.2).there]
    exact if_pos hs.listening
  obtain ⟨graph, hrest⟩ := evictEach_rest (h.loader 0)
    ((h.onVault change.2).files.adopt ([notice], s)).1.announced
  rw [← hloader] at hrest
  refine ⟨htruthful, ?_, ?_, ?_, ?_⟩
  · rw [hfiles]
    exact hvault
  · rw [hfiles, hsnapshot]
    exact hmirrors
  · rw [contextOf, hrest]
    exact hs.context
  · rw [hrest]
    exact hs.listening

/-- To follow an edit of one file leaves the host paused. -/
theorem Paused.edited (hs : Paused rules ids v h) (hclear : h.world.Clear ids)
    (hfollow : h.files.snapshot.follow (.memory change.2) change.1 = ([notice], s))
    (hedits : h.files.snapshot.Edits notice.path s) (hmirrors : s.Mirrors rules change.2)
    (hclear' : (h.edited change).world.Clear ids) : Paused rules ids change.2 (h.edited change) := by
  obtain ⟨own, ht⟩ := hs.truthful
  refine hs.following hfollow hmirrors ?_
  rw [edited_world hfollow] at hclear' ⊢
  rw [edited_eq, hfollow]
  exact (ht.onVault change.2).absorbed hclear.plain hclear.compiles hs.listening (later_of_follow hfollow) hedits
    hclear'.plain

end

/-- A change that nobody is told of leaves the host paused. -/
theorem Paused.unnoticed (hs : Paused rules ids v h) {change : Change × MemoryVault}
    (hfollow : h.files.snapshot.follow (.memory change.2) change.1 = ([], h.files.snapshot))
    (hmirrors : h.files.snapshot.Mirrors rules change.2) : Paused rules ids change.2 (h.edited change) := by
  obtain ⟨own, ht⟩ := hs.truthful
  have he : h.edited change = h.onVault change.2 := by
    rw [edited_eq, hfollow]
    rfl
  rw [he]
  exact ⟨⟨own, ht.onVault change.2⟩, rfl, hmirrors, hs.context, hs.listening⟩

/-! ### What a run comes to -/

/-- Between two steps of a run the host is paused, its world is clear and differs from that of a started host in the
files alone. -/
theorem Run.paused (hrun : Run parts remote watched ids v h) {v₀ : MemoryVault}
    (hf : started parts remote watched v₀ = .ok f) :
    ∃ rules, parts.settings.rules = .ok rules ∧ Paused rules ids v h ∧ h.world.Clear ids ∧
      World.Kin f.world h.world := by
  induction hrun with
  | start hb hclear =>
    obtain ⟨rules, hr, hs⟩ := paused_started hb
    exact ⟨rules, hr, hs, hclear, kin_started hb hf⟩
  | require _ hnamed hr ih =>
    obtain ⟨rules, hrules, hs, hclear, hkin⟩ := ih
    obtain ⟨hs', hworld, -⟩ := hs.served hclear.plain hclear.untangled hnamed hr
    exact ⟨rules, hrules, hs', hworld ▸ hclear, hworld ▸ hkin⟩
  | @write v h path text _ hfile hclear' ih =>
    obtain ⟨rules, hrules, hs, hclear, hkin⟩ := ih
    obtain ⟨notice, s, hfollow, hedits, hmirrors⟩ := hs.mirrors.write path text hfile
    exact ⟨rules, hrules, hs.edited hclear hfollow hedits hmirrors hclear', hclear', hkin.trans (kin_edited h _)⟩
  | @remove v h path _ hselects hclear' ih =>
    obtain ⟨rules, hrules, hs, hclear, hkin⟩ := ih
    rw [hs.mirrors.ruled] at hselects
    refine ⟨rules, hrules, ?_, hclear', hkin.trans (kin_edited h _)⟩
    rcases hs.mirrors.remove path hselects with ⟨notice, s, hfollow, hedits, hmirrors⟩ | ⟨hfollow, hmirrors⟩
    · exact hs.edited hclear hfollow hedits hmirrors hclear'
    · exact hs.unnoticed hfollow hmirrors

/-- Paused hosts over the same files mean the same, where their worlds differ in nothing else. -/
theorem Paused.meaning (hs : Paused rules ids v h) (hf : Paused rules ids v f) (hkin : World.Kin f.world h.world) :
    h.world.meaning = f.world.meaning :=
  hkin.meaning fun path => (hs.mirrors.view path).trans (hf.mirrors.view path).symm

open Classical in
/-- At rest, what stands for a module that can be loaded pictures it. -/
theorem Agrees.pictures {m : Meaning} {own : Nat → Option Resolved} {g : Graph Slots} {heap : Heap}
    (h : Agrees m own [] none g heap ids) {t : Resolved} {u : Value} (hgood : m.Good t) (hu : Stands own t u) :
    Pictures m heap t u := by
  obtain ⟨own', hown⟩ : ∃ own' : Nat → Option Resolved, ∀ p r, own' p = some r ↔
      own p = some r ∧ r.value = none ∧ m.Good r :=
    ⟨fun p => (own p).filter fun r => r.value = none ∧ m.Good r, fun p r => by
      simp only [Option.filter_eq_some_iff, decide_eq_true_eq]⟩
  have stands {r : Resolved} {u : Value} (hr : m.Good r) (hu : Stands own r u) : Stands own' r u :=
    hu.imp id fun ⟨hv, p, hp, ho⟩ => ⟨hv, p, hp, (hown p r).2 ⟨ho, hv, hr⟩⟩
  refine ⟨own', fun p r hp => ?_, stands hgood hu⟩
  obtain ⟨hp, hv, hr⟩ := (hown p r).1 hp
  obtain ⟨-, hbad | ⟨calls, val, hcalls, hrecord, hall⟩ | ⟨_, hf, -⟩⟩ := h.labels p r hp
  · exact absurd hr hbad
  · refine ⟨calls, val, hcalls, hrecord, fun c hc => ?_⟩
    obtain ⟨t, hl, hs⟩ := hall c hc
    exact ⟨t, hl, stands (hr.leads hv hcalls hc hl) hs⟩
  · cases hf

/-- What two hosts give for one module, or one reason why there is none. -/
theorem Outcome.same {m : Meaning} {own own' : Nat → Option Resolved} {g g' : Graph Slots} {heap heap' : Heap}
    (h : Agrees m own [] none g heap ids) (h' : Agrees m own' [] none g' heap' ids) {s : String} {cwd : Option String}
    {x y : Except Failure Value} (hx : Outcome m own [] g s cwd x) (hy : Outcome m own' [] g' s cwd y) :
    (∃ e, x = .error e ∧ y = .error e) ∨ ∃ t u u', x = .ok u ∧ y = .ok u' ∧ m.answer s cwd = .ok (some t) ∧
      Pictures m heap t u ∧ Pictures m heap' t u' := by
  have bad {t : Resolved} {e : Failure} (hg : m.Good t) (ht : m.answer s cwd = .ok (some t))
      (he : ((m.answer s cwd = .ok none ∧ e = .moduleNotFound s) ∨ m.answer s cwd = .error e) ∨
        ∃ t, m.answer s cwd = .ok (some t) ∧ m.Breaks t e) : False := by
    rcases he with (⟨hn, -⟩ | he) | ⟨t', ht', hb⟩
    · cases hn.symm.trans ht
    · cases he.symm.trans ht
    · cases ht.symm.trans ht'
      exact hb.not_good hg
  cases x with
  | ok u =>
    obtain ⟨t, ht, hg, hu, -⟩ := hx
    cases y with
    | ok u' =>
      obtain ⟨t', ht', -, hu', -⟩ := hy
      cases ht.symm.trans ht'
      exact Or.inr ⟨t, u, u', rfl, rfl, ht, h.pictures hg hu, h'.pictures hg hu'⟩
    | error e => exact (bad hg ht (hy.imp And.left fun ⟨t, ht, hb, _⟩ => ⟨t, ht, hb⟩)).elim
  | error e =>
    left
    cases y with
    | ok u' =>
      obtain ⟨t, ht, hg, -, -⟩ := hy
      exact (bad hg ht (hx.imp And.left fun ⟨t, ht, hb, _⟩ => ⟨t, ht, hb⟩)).elim
    | error e' =>
      suffices he : e = e' from ⟨e, rfl, he ▸ rfl⟩
      rcases hx with ⟨⟨hn, rfl⟩ | he, -⟩ | ⟨t, ht, hb, -⟩ <;> rcases hy with ⟨⟨hn', rfl⟩ | he', -⟩ | ⟨t', ht', hb', -⟩
      · rfl
      · cases hn.symm.trans he'
      · cases hn.symm.trans ht'
      · cases hn'.symm.trans he
      · exact Except.error.inj (he.symm.trans he')
      · cases he.symm.trans ht'
      · cases hn'.symm.trans ht
      · cases he'.symm.trans ht
      · cases ht.symm.trans ht'
        exact hb.unique hb'

/-- A paused host gives what a host gives that is started over the same files. -/
theorem Paused.as_fresh (hs : Paused rules ids v h) (hclear : h.world.Clear ids) (hkin : World.Kin f.world h.world)
    (hrules : parts.settings.rules = .ok rules) (hf : started parts remote watched v = .ok f) {s : String}
    {cwd : Option String} (hnamed : ∀ t, h.world.answer s cwd = .ok (some t) → ids s → t.id = s) {depth depth' : Nat}
    {x y : Except Failure Value} {f' : Host} (hx : (require Scan.evaluator depth 0 s cwd).exec h = some (x, h'))
    (hy : (require Scan.evaluator depth' 0 s cwd).exec f = some (y, f')) :
    (∃ e, x = .error e ∧ y = .error e) ∨ ∃ t u u', x = .ok u ∧ y = .ok u' ∧
      h.world.answer s cwd = .ok (some t) ∧ Pictures h.world.meaning h'.heap t u ∧
        Pictures h.world.meaning f'.heap t u' ∧ SameTree h'.heap u f'.heap u' := by
  obtain ⟨rules', hrules', hsf⟩ := paused_started hf
  cases hrules.symm.trans hrules'
  have hmeaning := hs.meaning hsf hkin
  have hanswer : f.world.answer = h.world.answer := congrArg Meaning.answer hmeaning.symm
  obtain ⟨-, -, own, ht, ho⟩ := hs.served hclear.plain hclear.untangled hnamed hx
  obtain ⟨-, -, own', ht', ho'⟩ := hsf.served (hmeaning ▸ hclear.plain) (hmeaning ▸ hclear.untangled)
    (hanswer ▸ hnamed) hy
  have hagrees := ht'.agrees
  rw [← hmeaning] at hagrees ho'
  rcases Outcome.same ht.agrees hagrees ho ho' with herror | ⟨t, u, u', hu, hu', ht, hp, hp'⟩
  · exact Or.inl herror
  · exact Or.inr ⟨t, u, u', hu, hu', ht, hp, hp', hp.sameTree hp'⟩

/-- A host that loads while its files are written and removed gives what a host gives that is started over the files
as they are then. -/
theorem require_as_fresh (hrun : Run parts remote watched ids v h) (hf : started parts remote watched v = .ok f)
    {s : String} {cwd : Option String} (hnamed : ∀ t, h.world.answer s cwd = .ok (some t) → ids s → t.id = s)
    {depth depth' : Nat} {x y : Except Failure Value} {f' : Host}
    (hx : (require Scan.evaluator depth 0 s cwd).exec h = some (x, h'))
    (hy : (require Scan.evaluator depth' 0 s cwd).exec f = some (y, f')) :
    (∃ e, x = .error e ∧ y = .error e) ∨ ∃ t u u', x = .ok u ∧ y = .ok u' ∧
      h.world.answer s cwd = .ok (some t) ∧ Pictures h.world.meaning h'.heap t u ∧
        Pictures h.world.meaning f'.heap t u' ∧ SameTree h'.heap u f'.heap u' := by
  obtain ⟨rules, hrules, hs, hclear, hkin⟩ := hrun.paused hf
  exact hs.as_fresh hclear hkin hrules hf hnamed hx hy

/-! ### A file is mended -/

/-- What a host is built from that has nothing but its files. -/
def bare : Parts where
  vault := .memory {}

/-- A host that lends nothing has only files. -/
theorem onlyFiles_started (hb : started bare {} watched v = .ok h) : h.world.OnlyFiles := by
  obtain ⟨rules, -, -, rfl⟩ := started_eq hb
  rw [looked_world]
  refine ⟨fun _ => rfl, fun id cwd r hr => ?_⟩
  obtain ⟨m, hm, -⟩ := ready_of_remote hr
  cases hm

/-- A file that calls for another one, which calls for a file that is not there. -/
def torn : MemoryVault where
  texts := [("a.js", "require('./b.js')"), ("b.js", "require('./c.js')")]

/-- A specifier leads nowhere but to the file with this path. -/
def leadsHome (w : World) (s : String) : Bool :=
  match w.answer s none with
  | .ok (some t) => t.id == s
  | _ => true

theorem id_of_leadsHome {w : World} {s : String} (hl : leadsHome w s = true) {t : Resolved}
    (ht : w.answer s none = .ok (some t)) : t.id = s := by
  unfold leadsHome at hl
  rw [ht] at hl
  exact eq_of_beq hl

theorem require_as_fresh_mended :
    ∃ h h₁ h₂ f f₁ e u u', started bare {} none torn = .ok h ∧
      (require Scan.evaluator 5 0 "a.js" none).exec h = some (.error e, h₁) ∧
      Run bare {} none (· ∈ ["a.js", "b.js"]) (torn.write "b.js" "").2 (h₁.edited (torn.write "b.js" "")) ∧
      started bare {} none (torn.write "b.js" "").2 = .ok f ∧
      (require Scan.evaluator 5 0 "a.js" none).exec (h₁.edited (torn.write "b.js" "")) = some (.ok u, h₂) ∧
      (require Scan.evaluator 5 0 "a.js" none).exec f = some (.ok u', f₁) ∧ SameTree h₂.heap u f₁.heap u' := by
  have hrun : ((started bare {} none torn).toOption.bind fun h =>
      ((require Scan.evaluator 5 0 "a.js" none).exec h).bind fun x =>
        let h₂ := x.2.edited (torn.write "b.js" "")
        ((require Scan.evaluator 5 0 "a.js" none).exec h₂).bind fun y =>
          (started bare {} none (torn.write "b.js" "").2).toOption.bind fun f =>
            ((require Scan.evaluator 5 0 "a.js" none).exec f).filter fun _ =>
              !x.1.isOk && y.1.isOk && h.world.layered ["a.js", "b.js"] && leadsHome h.world "a.js" &&
                h₂.world.layered ["a.js", "b.js"] && leadsHome h₂.world "a.js").isSome = true := by
    decide +kernel
  obtain ⟨⟨z, f₁⟩, hx⟩ := Option.isSome_iff_exists.1 hrun
  obtain ⟨h, hb, hx⟩ := Option.bind_eq_some_iff.1 hx
  obtain ⟨⟨x, h₁⟩, hx₁, hx⟩ := Option.bind_eq_some_iff.1 hx
  obtain ⟨⟨y, h₃⟩, hx₂, hx⟩ := Option.bind_eq_some_iff.1 hx
  obtain ⟨f, hf, hx⟩ := Option.bind_eq_some_iff.1 hx
  obtain ⟨hx₃, hr⟩ := Option.filter_eq_some_iff.1 hx
  simp only [Bool.and_eq_true] at hr
  obtain ⟨⟨⟨⟨⟨hfails, hloads⟩, hl⟩, hhome⟩, hl'⟩, hhome'⟩ := hr
  replace hb := eq_ok_of_toOption hb
  replace hf := eq_ok_of_toOption hf
  cases x with
  | ok _ => cases hfails
  | error e =>
    cases y with
    | error _ => cases hloads
    | ok u =>
      have honly := onlyFiles_started hb
      have hstart : Run bare {} none (· ∈ ["a.js", "b.js"]) torn h := Run.start hb (honly.clear hl)
      have hfailed := Run.require hstart (fun t ht _ => id_of_leadsHome hhome ht) hx₁
      obtain ⟨-, -, -, -, hkin⟩ := hfailed.paused hb
      have hmended : Run bare {} none (· ∈ ["a.js", "b.js"]) (torn.write "b.js" "").2
          (h₁.edited (torn.write "b.js" "")) :=
        Run.write hfailed rfl (((honly.kin hkin).kin (kin_edited h₁ _)).clear hl')
      rcases require_as_fresh hmended hf (fun t ht _ => id_of_leadsHome hhome' ht) hx₂ hx₃ with
        ⟨_, he, -⟩ | ⟨_, _, u', hu, hu', -, -, -, hsame⟩
      · cases he
      · cases hu
        cases hu'
        exact ⟨h, h₁, h₃, f, f₁, e, u, u', hb, hx₁, hmended, hf, hx₂, hx₃, hsame⟩

/-! ### A module fails on a circle -/

/-- Two files that call for each other, the first of which calls for a file that is not there, too. -/
def knotted : MemoryVault where
  texts := [("m.js", "require('./q.js'); require('./missing.js')"), ("q.js", "require('./m.js')")]

/-- A module that got the exports of a module that failed later is served, though a fresh host fails. -/
theorem knotted_not_as_fresh :
    ∃ h h₁ h₂ f e e' u, started bare {} none knotted = .ok h ∧
      (require Scan.evaluator 5 0 "m.js" none).exec h = some (.error e, h₁) ∧
      (require Scan.evaluator 5 0 "q.js" none).exec h₁ = some (.ok u, h₂) ∧
      (require Scan.evaluator 5 0 "q.js" none).exec h = some (.error e', f) := by
  have hrun : ((started bare {} none knotted).toOption.bind fun h =>
      ((require Scan.evaluator 5 0 "m.js" none).exec h).bind fun x =>
        ((require Scan.evaluator 5 0 "q.js" none).exec x.2).bind fun y =>
          ((require Scan.evaluator 5 0 "q.js" none).exec h).filter fun z =>
            !x.1.isOk && y.1.isOk && !z.1.isOk).isSome = true := by
    decide +kernel
  obtain ⟨⟨z, f⟩, hx⟩ := Option.isSome_iff_exists.1 hrun
  obtain ⟨h, hb, hx⟩ := Option.bind_eq_some_iff.1 hx
  obtain ⟨⟨x, h₁⟩, hx₁, hx⟩ := Option.bind_eq_some_iff.1 hx
  obtain ⟨⟨y, h₂⟩, hx₂, hx⟩ := Option.bind_eq_some_iff.1 hx
  obtain ⟨hx₃, hr⟩ := Option.filter_eq_some_iff.1 hx
  simp only [Bool.and_eq_true] at hr
  obtain ⟨⟨hfails, hloads⟩, hfails'⟩ := hr
  cases x with
  | ok _ => cases hfails
  | error e =>
    cases y with
    | error _ => cases hloads
    | ok u =>
      cases z with
      | ok _ => cases hfails'
      | error e' => exact ⟨h, h₁, h₂, f, e, e', u, eq_ok_of_toOption hb, hx₁, hx₂, hx₃⟩

/-! ### A file that is no longer followed -/

/-- One file. -/
def oneFile : MemoryVault where
  texts := [("a.js", "")]

/-- The file, which calls for one that is not there. -/
def oneFileSpoilt : Change × MemoryVault := oneFile.write "a.js" "require('./b.js')"

/-- A realm goes on to serve a file that is written to, if another realm was cleared before, and serves it no longer if
none was. -/
theorem cleared_hides_write :
    ∃ h h₁ u u' h₂ e h₃, started bare {} none oneFile = .ok h ∧
      (require Scan.evaluator 5 1 "a.js" none).exec (h.createRealm .undefined).2 = some (.ok u, h₁) ∧
      (require Scan.evaluator 5 1 "a.js" none).exec ((h₁.clearCache mainRealm).2.edited oneFileSpoilt) = some (.ok u', h₂) ∧
      (require Scan.evaluator 5 1 "a.js" none).exec (h₁.edited oneFileSpoilt) = some (.error e, h₃) := by
  have hrun : ((started bare {} none oneFile).toOption.bind fun h =>
      ((require Scan.evaluator 5 1 "a.js" none).exec (h.createRealm .undefined).2).bind fun x =>
        ((require Scan.evaluator 5 1 "a.js" none).exec ((x.2.clearCache mainRealm).2.edited oneFileSpoilt)).bind fun y =>
          ((require Scan.evaluator 5 1 "a.js" none).exec (x.2.edited oneFileSpoilt)).filter fun z =>
            x.1.isOk && y.1.isOk && !z.1.isOk).isSome = true := by
    decide +kernel
  obtain ⟨⟨z, h₃⟩, hx⟩ := Option.isSome_iff_exists.1 hrun
  obtain ⟨h, hb, hx⟩ := Option.bind_eq_some_iff.1 hx
  obtain ⟨⟨x, h₁⟩, hx₁, hx⟩ := Option.bind_eq_some_iff.1 hx
  obtain ⟨⟨y, h₂⟩, hx₂, hx⟩ := Option.bind_eq_some_iff.1 hx
  obtain ⟨hx₃, hr⟩ := Option.filter_eq_some_iff.1 hx
  simp only [Bool.and_eq_true] at hr
  obtain ⟨⟨hloads, hserves⟩, hfails⟩ := hr
  cases x with
  | error _ => cases hloads
  | ok u =>
    cases y with
    | error _ => cases hserves
    | ok u' =>
      cases z with
      | ok _ => cases hfails
      | error e => exact ⟨h, h₁, u, u', h₂, e, h₃, eq_ok_of_toOption hb, hx₁, hx₂, hx₃⟩

end ScriptVault.Host

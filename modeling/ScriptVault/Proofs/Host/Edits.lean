import ScriptVault.Host.Apply
import ScriptVault.Proofs.Host.Loads

/-!
# Edits — what changes when files do

A file that changed is looked at anew: it gets a version that no other file ever had, and whatever was kept of
the version before is forgotten.  All listening loaders are told of it.
-/

namespace ScriptVault

namespace World

/-- The code of a source is told by the settings and the compiler. -/
theorem code_congr {w w' : World} (hs : w.settings = w'.settings) (hc : w.compiler = w'.compiler)
    (source : Source) : w.code source = w'.code source := by
  unfold code compiled toCompile
  rw [hs, hc]

theorem code_snapshot (w : World) (s : Snapshot) (source : Source) :
    code { w with snapshot := s } source = w.code source := by
  apply code_congr <;> rfl

/-- The truth of what is kept is told by the settings, the compiler and the files. -/
theorem EntryTrue.congr {w w' : World} (hs : w'.settings = w.settings) (hc : w'.compiler = w.compiler)
    (hf : w'.snapshot = w.snapshot) {path : String} {entry : Entry} (h : w.EntryTrue path entry) :
    w'.EntryTrue path entry := by
  unfold EntryTrue at h ⊢
  simpa only [hf, code_congr hs hc] using h

theorem ScriptTrue.congr {w w' : World} (hs : w'.settings = w.settings) (hc : w'.compiler = w.compiler)
    (hf : w'.snapshot = w.snapshot) {token : Nat} {kept : Except Failure String} (h : w.ScriptTrue token kept) :
    w'.ScriptTrue token kept := by
  unfold ScriptTrue compiled toCompile at h ⊢
  simpa only [hf, hs, hc] using h

variable {w : World} {s : Snapshot} (hlater : w.snapshot.Later s)

include hlater

/-- Code that is kept for a path stays true: a version that comes later has another token. -/
theorem EntryTrue.later {path : String} {entry : Entry} (h : w.EntryTrue path entry) :
    { w with snapshot := s }.EntryTrue path entry := by
  refine ⟨Nat.lt_of_lt_of_le h.1 hlater.next, fun identity content code hget hcontent hi hcode => ?_⟩
  rcases hlater.same path identity hget with hold | hnew
  · rw [code_snapshot]
    exact h.2 identity content code hold hcontent hi hcode
  · have := h.1
    omega

theorem ScriptTrue.later {token : Nat} {kept : Except Failure String} (h : w.ScriptTrue token kept) :
    { w with snapshot := s }.ScriptTrue token kept := by
  refine ⟨Nat.lt_of_lt_of_le h.1 hlater.next, fun path identity content hget hcontent hi => ?_⟩
  rcases hlater.same path identity hget with hold | hnew
  · exact h.2 path identity content hold hcontent hi
  · have := h.1
    omega

end World

namespace Host

/-! ### What is kept of files -/

/-- Some files keep no more than others of the same row. -/
structure KeepsLess (f f' : Files) : Prop where
  /-- There are the same resolvers. -/
  row : f'.resolvers.map (·.strategy) = f.resolvers.map (·.strategy)
  /-- They keep no other code. -/
  entries : ∀ r' ∈ f'.resolvers, ∃ r ∈ f.resolvers, ∀ path entry, r'.entries.at? path = some entry →
    r.entries.at? path = some entry

theorem KeepsLess.refl (f : Files) : KeepsLess f f := ⟨rfl, fun r hr => ⟨r, hr, fun _ _ h => h⟩⟩

theorem KeepsLess.trans {f f' f'' : Files} (a : KeepsLess f f') (b : KeepsLess f' f'') : KeepsLess f f'' := by
  refine ⟨b.row.trans a.row, fun r'' hr'' => ?_⟩
  obtain ⟨r', hr', h'⟩ := b.entries r'' hr''
  obtain ⟨r, hr, h⟩ := a.entries r' hr'
  exact ⟨r, hr, fun path entry he => h path entry (h' path entry he)⟩

theorem forgetToken_entries (tokens : List Nat) (r : FileResolver) :
    (tokens.foldl FileResolver.forgetToken r).entries = r.entries ∧
      (tokens.foldl FileResolver.forgetToken r).tracked = r.tracked ∧
      (tokens.foldl FileResolver.forgetToken r).strategy = r.strategy := by
  induction tokens generalizing r with
  | nil => exact ⟨rfl, rfl, rfl⟩
  | cons token rest ih => exact ih (r.forgetToken token)

/-- A resolver that follows a notice forgets the path. -/
theorem resolver_follow (r : FileResolver) (notice : Notice) :
    (r.follow notice).2.strategy = r.strategy ∧ (r.follow notice).2.entries = r.entries.erase notice.path ∧
      (r.follow notice).2.tracked = r.tracked.erase notice.path ∧
      (r.follow notice).1.announced = if r.tracked.contains notice.path then [notice.path] else [] := by
  obtain ⟨he, ht, hs⟩ := forgetToken_entries (notice.previous.map (·.token)).toList
    { r with entries := r.entries.erase notice.path }
  refine ⟨hs, he, ?_, ?_⟩
  · exact congrArg (Names.erase · notice.path) ht
  · exact congrArg (fun t : Names => if t.contains notice.path then [notice.path] else []) ht

theorem keepsLess_overall (act : FileResolver → Ripple × FileResolver)
    (hstrategy : ∀ r, (act r).2.strategy = r.strategy)
    (hentries : ∀ r path entry, (act r).2.entries.at? path = some entry → r.entries.at? path = some entry)
    (f : Files) : KeepsLess f (f.overall act).2 := by
  refine ⟨?_, fun r' hr' => ?_⟩
  · simp [Files.overall, hstrategy]
  · simp only [Files.overall, List.map_map, List.mem_map, Function.comp] at hr'
    obtain ⟨r, hr, rfl⟩ := hr'
    exact ⟨r, hr, hentries r⟩

theorem followAll_rest (notices : List Notice) (f : Files) :
    (f.followAll notices).2.snapshot = f.snapshot ∧ (f.followAll notices).2.vault = f.vault ∧
      KeepsLess f (f.followAll notices).2 := by
  induction notices generalizing f with
  | nil => exact ⟨rfl, rfl, KeepsLess.refl f⟩
  | cons notice rest ih =>
    obtain ⟨hs, hv, hk⟩ := ih (f.overall (·.follow notice)).2
    have hone := keepsLess_overall (·.follow notice) (fun r => (resolver_follow r notice).1)
      (fun r path entry h => by
        rw [(resolver_follow r notice).2.1] at h
        exact at?_of_at?_erase h) f
    exact ⟨hs, hv, hone.trans hk⟩

/-! ### What loaders are told -/

/-- To tell the loaders of an id changes nothing but the loaders, besides what is announced. -/
theorem evicts_rest (id : String) (ls : List Nat) (h : Host) :
    ∃ loaders announced asked nextWork startup, loaders.length = h.loaders.length ∧
      ls.foldl (evict id) h =
        { h with
          loaders := loaders, announced := announced, asked := asked, nextWork := nextWork
          startup := startup } := by
  induction ls generalizing h with
  | nil => exact ⟨_, _, _, _, _, rfl, rfl⟩
  | cons l rest ih =>
    obtain ⟨_, _, _, _, h1⟩ := evicting_rest l (·.evict id) h
    obtain ⟨ls, a, b, c, d, hlength, h2⟩ := ih (evict id h l)
    refine ⟨ls, a, b, c, d, ?_, ?_⟩
    · rw [hlength, evict, h1]; simp
    · rw [List.foldl_cons, h2, evict, h1]

theorem evicts_loader (id : String) {ls : List Nat} (hnodup : ls.Nodup) (h : Host) (l : Nat)
    (hl : l < h.loaders.length) :
    (ls.foldl (evict id) h).loader l = if l ∈ ls then ((h.loader l).evict id).2 else h.loader l := by
  induction ls generalizing h with
  | nil => rfl
  | cons k rest ih =>
    obtain ⟨hk, hrest⟩ := List.nodup_cons.1 hnodup
    obtain ⟨_, _, _, _, h1⟩ := evicting_rest k (·.evict id) h
    have hlength : l < (evict id h k).loaders.length := by rw [evict, h1]; simpa using hl
    rw [List.foldl_cons, ih hrest _ hlength]
    by_cases hlk : l = k
    · subst hlk
      rw [if_neg hk, if_pos (List.mem_cons_self ..), evict, h1]
      simp [loader, hl]
    · have : (evict id h k).loader l = h.loader l := by
        rw [evict, h1]
        simp [loader, Ne.symm hlk]
      rw [this]
      simp [hlk]

theorem listeners_nodup (h : Host) : h.listeners.Nodup := by
  have : (h.loaders.zipIdx.map Prod.snd).Nodup := by
    rw [List.zipIdx_map_snd]
    exact List.nodup_range'
  exact this.sublist (List.filter_sublist.map _)

theorem mem_listeners {h : Host} {l : Nat} :
    l ∈ h.listeners ↔ l < h.loaders.length ∧ (h.loader l).listening = true := by
  unfold listeners loader
  simp only [List.mem_map, List.mem_filter, List.mem_zipIdx_iff_getElem?, Prod.exists]
  constructor
  · rintro ⟨x, n, ⟨hx, hlisten⟩, rfl⟩
    obtain ⟨hn, rfl⟩ := List.getElem?_eq_some_iff.1 hx
    exact ⟨hn, by simpa [hn] using hlisten⟩
  · rintro ⟨hl, hlisten⟩
    exact ⟨h.loaders[l], l, ⟨by simp [hl], by simpa [hl] using hlisten⟩, rfl⟩

/-- A loader that listens evicts what is announced, and another one stays as it is. -/
theorem announce_loader (h : Host) (id : String) {l : Nat} (hl : l < h.loaders.length) :
    (announce h id).loader l = if (h.loader l).listening then ((h.loader l).evict id).2 else h.loader l := by
  unfold announce
  rw [evicts_loader id (listeners_nodup h) h l hl]
  by_cases hlisten : (h.loader l).listening = true
  · rw [if_pos (mem_listeners.2 ⟨hl, hlisten⟩), if_pos hlisten]
  · rw [if_neg fun hmem => hlisten (mem_listeners.1 hmem).2, if_neg hlisten]

theorem announces_rest (ids : List String) (h : Host) :
    ∃ loaders announced asked nextWork startup, loaders.length = h.loaders.length ∧
      ids.foldl announce h =
        { h with
          loaders := loaders, announced := announced, asked := asked, nextWork := nextWork
          startup := startup } := by
  induction ids generalizing h with
  | nil => exact ⟨_, _, _, _, _, rfl, rfl⟩
  | cons id rest ih =>
    obtain ⟨_, _, _, _, _, h1, h2⟩ := evicts_rest id h.listeners h
    obtain ⟨ls, a, b, c, d, h3, h4⟩ := ih (announce h id)
    refine ⟨ls, a, b, c, d, ?_, ?_⟩
    · rw [h3, announce, h2]; exact h1
    · rw [List.foldl_cons, h4, announce, h2]

/-- No startup modules run again when modules are evicted. -/
def Quiet (h : Host) : Prop := h.watched = none ∨ h.settings.startupModules = []

theorem startupEvicted_none {h : Host} (hs : h.settings.startupModules = []) (id : String) :
    startupEvicted h id = h := if_pos (by rw [hs]; rfl)

theorem emit_quiet (stream : Nat) {h : Host} (hq : h.Quiet) (id : String) :
    emit stream h id = { h with announced := (stream, id) :: h.announced } := by
  unfold emit
  dsimp only
  split
  · next hw =>
    exact startupEvicted_none (h := { h with announced := (stream, id) :: h.announced })
      (hq.resolve_left fun hnone => nomatch hnone.symm.trans hw) id
  · rfl

theorem emits_quiet (stream : Nat) (ids : List String) {h : Host} (hq : h.Quiet) :
    ∃ announced, ids.foldl (emit stream) h = { h with announced := announced } := by
  induction ids generalizing h with
  | nil => exact ⟨h.announced, rfl⟩
  | cons id ids ih =>
    obtain ⟨announced, he⟩ := ih (h := { h with announced := (stream, id) :: h.announced }) hq
    exact ⟨announced, by rw [List.foldl_cons, emit_quiet stream hq, he]⟩

theorem evicts_quiet (id : String) (ls : List Nat) {h : Host} (hq : h.Quiet) :
    ∃ loaders announced, ls.foldl (evict id) h = { h with loaders := loaders, announced := announced } := by
  induction ls generalizing h with
  | nil => exact ⟨h.loaders, h.announced, rfl⟩
  | cons l ls ih =>
    obtain ⟨announced, hone⟩ := emits_quiet (h.loader l).stream ((h.loader l).evict id).1
      (h := { h with loaders := h.loaders.set l ((h.loader l).evict id).2 }) hq
    have hone : evict id h l =
      { h with loaders := h.loaders.set l ((h.loader l).evict id).2, announced := announced } := hone
    obtain ⟨loaders, announced', he⟩ := ih
      (h := { h with loaders := h.loaders.set l ((h.loader l).evict id).2, announced := announced }) hq
    exact ⟨loaders, announced', by rw [List.foldl_cons, hone, he]⟩

/-- Where no startup modules run again, to tell loaders of ids changes nothing but the loaders and what is announced. -/
theorem announces_quiet (ids : List String) (h : Host) (hq : h.Quiet) :
    ∃ loaders announced, ids.foldl announce h = { h with loaders := loaders, announced := announced } := by
  induction ids generalizing h with
  | nil => exact ⟨h.loaders, h.announced, rfl⟩
  | cons id ids ih =>
    obtain ⟨loaders, announced, hone⟩ := evicts_quiet id h.listeners hq
    obtain ⟨loaders', announced', he⟩ := ih { h with loaders := loaders, announced := announced } hq
    exact ⟨loaders', announced', by rw [List.foldl_cons, announce, hone, he]⟩

/-- What loaders evict one announcement after the other. -/
def Loader.evictEach (loader : Loader) (ids : List String) : Loader :=
  ids.foldl (fun loader id => (loader.evict id).2) loader

theorem announces_loader (ids : List String) (h : Host) {l : Nat} (hl : l < h.loaders.length) :
    (ids.foldl announce h).loader l =
      if (h.loader l).listening then Loader.evictEach (h.loader l) ids else h.loader l := by
  induction ids generalizing h with
  | nil => simp [Loader.evictEach]
  | cons id rest ih =>
    obtain ⟨_, _, _, _, _, h1, h2⟩ := evicts_rest id h.listeners h
    have hl' : l < (announce h id).loaders.length := by rw [announce, h2]; exact h1 ▸ hl
    rw [List.foldl_cons, ih _ hl', announce_loader h id hl]
    cases hlisten : (h.loader l).listening with
    | false => simp [hlisten]
    | true =>
      have : ((h.loader l).evict id).2.listening = true := hlisten
      simp [this, Loader.evictEach]

/-! ### Following a change -/

theorem forgets_rest (tokens : List Nat) (h : Host) :
    ∃ workshop, tokens.foldl (fun h token => h.forget (.file token)) h = { h with workshop := workshop } ∧
      workshop.compiler = h.workshop.compiler ∧
      ∀ origin kept, workshop.scripts.at? origin = some kept → h.workshop.scripts.at? origin = some kept := by
  induction tokens generalizing h with
  | nil => exact ⟨_, rfl, rfl, fun _ _ h => h⟩
  | cons token rest ih =>
    obtain ⟨workshop, h1, h2, h3⟩ := ih (h.forget (.file token))
    exact ⟨workshop, h1, h2, fun origin kept hk => at?_of_at?_erase (h3 origin kept hk)⟩

/-- To absorb a change of the files leaves the rest of the host alone, besides loaders and what is announced. -/
theorem absorb_rest (h : Host) (change : Ripple × Files) :
    ∃ workshop loaders announced asked nextWork startup, loaders.length = h.loaders.length ∧
      workshop.compiler = h.workshop.compiler ∧
      (∀ origin kept, workshop.scripts.at? origin = some kept → h.workshop.scripts.at? origin = some kept) ∧
      h.absorb change =
        { h with
          files := change.2, workshop := workshop, loaders := loaders, announced := announced, asked := asked
          nextWork := nextWork, startup := startup } := by
  obtain ⟨workshop, h1, h2, h3⟩ := forgets_rest change.1.forgotten { h with files := change.2 }
  obtain ⟨ls, a, b, c, d, h4, h5⟩ := announces_rest change.1.announced { h with files := change.2, workshop := workshop }
  refine ⟨workshop, ls, a, b, c, d, h4, h2, h3, ?_⟩
  unfold absorb
  rw [h1]
  exact h5

theorem absorb_loader (h : Host) (change : Ripple × Files) {l : Nat} (hl : l < h.loaders.length) :
    (h.absorb change).loader l =
      if (h.loader l).listening then Loader.evictEach (h.loader l) change.1.announced else h.loader l := by
  obtain ⟨workshop, h1, -, -⟩ := forgets_rest change.1.forgotten { h with files := change.2 }
  unfold absorb
  rw [h1]
  exact announces_loader change.1.announced { h with files := change.2, workshop := workshop } hl

theorem absorb_files (h : Host) (change : Ripple × Files) : (h.absorb change).files = change.2 := by
  obtain ⟨_, _, _, _, _, _, -, -, -, he⟩ := absorb_rest h change
  rw [he]

theorem absorb_count (h : Host) (change : Ripple × Files) :
    (h.absorb change).loaders.length = h.loaders.length := by
  obtain ⟨_, _, _, _, _, _, hcount, -, -, he⟩ := absorb_rest h change
  rw [he]
  exact hcount

theorem absorb_heap (h : Host) (change : Ripple × Files) : (h.absorb change).heap = h.heap := by
  obtain ⟨_, _, _, _, _, _, -, -, -, he⟩ := absorb_rest h change
  rw [he]

/-- To absorb a change of the files changes what is known of them, and nothing else of the world. -/
theorem absorb_world (h : Host) (change : Ripple × Files) :
    (h.absorb change).world = { h.world with snapshot := change.2.snapshot } := by
  obtain ⟨_, _, _, _, _, _, -, hcompiler, -, he⟩ := absorb_rest h change
  rw [he]
  simp only [world, hcompiler]

/-- What is kept stays true when the files are looked at anew. -/
theorem kept_absorb {h : Host} (hk : h.Kept) {change : Ripple × Files} (hless : KeepsLess h.files change.2)
    (hlater : h.files.snapshot.Later change.2.snapshot) : (h.absorb change).Kept := by
  obtain ⟨workshop, _, _, _, _, _, -, -, hscripts, he⟩ := absorb_rest h change
  have hworld := absorb_world h change
  have hfiles := absorb_files h change
  refine ⟨?_, ?_, ?_, ?_⟩
  · rw [hfiles]; exact hless.row.trans hk.row
  · rw [hfiles]; exact hlater.sound hk.sound
  · rw [hfiles, hworld]
    intro r' hr' path entry hentry
    obtain ⟨r, hr, hsub⟩ := hless.entries r' hr'
    exact (hk.entries r hr path entry (hsub path entry hentry)).later hlater
  · rw [hworld, he]
    exact fun token kept hkept => (hk.scripts token kept (hscripts _ _ hkept)).later hlater

theorem adopt_rest (f : Files) (next : List Notice × Snapshot) :
    (f.adopt next).2.snapshot = next.2 ∧ (f.adopt next).2.vault = f.vault ∧ KeepsLess f (f.adopt next).2 := by
  obtain ⟨hs, hv, hless⟩ := followAll_rest next.1 { f with snapshot := next.2 }
  exact ⟨hs, hv, hless.row, hless.entries⟩

theorem kept_adopt {h : Host} (hk : h.Kept) {next : List Notice × Snapshot}
    (hlater : h.files.snapshot.Later next.2) : (h.absorb (h.files.adopt next)).Kept := by
  obtain ⟨hs, -, hless⟩ := adopt_rest h.files next
  exact kept_absorb hk hless (hs ▸ hlater)

/-- What is kept stays true when a change of the vault is followed. -/
theorem kept_follow {h : Host} (hk : h.Kept) (change : Change) : (h.follow change).Kept :=
  kept_adopt hk (Snapshot.course_follow _ _ _).later

/-! ### Building a host -/

/-- A host that has no realm yet. -/
def Parts.blank (parts : Parts) (rules : Rules) : Host where
  settings := parts.settings
  files :=
    { vault := parts.vault
      snapshot := { rules := rules }
      resolvers := strategies.map fun strategy => { strategy := strategy } }
  natives := parts.natives.foldl (fun n (id, v) => n.register id v) {}
  workshop := { compiler := parts.compiler.orElse fun _ => commandCompiler? parts.settings.typescriptCommand }
  network := parts.network
  heap := parts.heap

theorem build_eq {parts : Parts} {h : Host} (hb : build parts = .ok h) :
    ∃ rules, parts.settings.rules = .ok rules ∧ h = ((parts.blank rules).createRealm parts.app).2 := by
  unfold build at hb
  cases hc : parts.settings.check with
  | error e => rw [hc] at hb; cases hb
  | ok _ =>
    cases hr : parts.settings.rules with
    | error e => rw [hc, hr] at hb; cases hb
    | ok rules =>
      rw [hc, hr] at hb
      cases hb
      exact ⟨rules, rfl, rfl⟩

/-- What a host keeps that was built and looked at its files is true. -/
theorem kept_of_build {parts : Parts} {h : Host} (hb : build parts = .ok h) :
    (h.absorb h.files.rebuild).Kept := by
  have hk : h.Kept := by
    obtain ⟨rules, -, rfl⟩ := build_eq hb
    refine ⟨rfl, Snapshot.sound_empty rules 0, fun r hr path entry he => ?_, fun _ _ h => nomatch h⟩
    obtain ⟨s, -, rfl⟩ := List.mem_map.1 hr
    cases he
  exact kept_adopt hk (Snapshot.course_rebuild _ _).later

end Host

end ScriptVault

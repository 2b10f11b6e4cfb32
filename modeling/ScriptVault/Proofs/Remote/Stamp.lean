import ScriptVault.Evaluator.Scan
import ScriptVault.Host.Session
import ScriptVault.Proofs.Remote.Supply

/-!
# Stamp — the settings that remote modules were loaded under

A page becomes a module under the settings that are in force while it is loaded, and the module stays as it is when others
are applied.  Under which settings it was loaded the host does not know; so it is kept beside here: each address has a
stamp.  An address that has a module keeps its stamp, and all others get that of the settings in force.
-/

namespace ScriptVault

open Async Host Sight

variable {ev : Evaluator} {h h' h₁ h₀ : Host}

namespace Host

/-! ### What is done elsewhere -/

/-- What is done has nothing to do with remote modules, and leaves no startup modules to run. -/
structure Elsewhere (h h' : Host) : Prop where
  remote : h'.remote = { h.remote with tracked := h'.remote.tracked }
  network : h'.network = h.network
  tools : SameTools h h'
  kept : ∀ t, h'.kept t = h.kept t
  asked : h'.asked = []
  quiet : h'.Quiet
  told : ∀ n, h'.outcome? n ≠ none → n < h'.nextWork

namespace Elsewhere

theorem trans (a : Elsewhere h h₁) (b : Elsewhere h₁ h') : Elsewhere h h' where
  remote := by
    have h₁ := b.remote
    rw [a.remote] at h₁
    exact h₁
  network := b.network.trans a.network
  tools := a.tools.trans b.tools
  kept t := (b.kept t).trans (a.kept t)
  asked := b.asked
  quiet := b.quiet
  told := b.told

theorem entry (a : Elsewhere h h') (href : String) : h'.entry href = h.entry href := by
  unfold Host.entry
  rw [a.remote]

theorem bears (a : Elsewhere h h') {t : Nat} : h'.Bears t ↔ h.Bears t := by
  unfold Bears
  simp only [a.entry]

theorem still (hs : h.Still) (a : Elsewhere h h') : h'.Still where
  asked := a.asked
  quiet := a.quiet
  rests href t w hl := hs.rests href t w ((a.entry href).symm.trans hl)
  told := a.told
  carried t ht := by
    rw [a.remote]
    exact hs.carried t (a.bears.1 ht)
  kept t ht := a.bears.2 (hs.kept t ((keeps_congr (a.kept t)).1 ht))

end Elsewhere

/-! ### Applying settings, apart from remote modules -/

/-- What is done has nothing to do with remote modules, and keeps the settings. -/
structure Aloof (h h' : Host) : Prop where
  elsewhere : Elsewhere h h'
  settings : h'.settings = h.settings

theorem Aloof.refl (hs : h.Still) : Aloof h h := ⟨⟨rfl, rfl, ⟨rfl, rfl⟩, fun _ => rfl, hs.asked, hs.quiet, hs.told⟩, rfl⟩

theorem Aloof.trans (a : Aloof h h₁) (b : Aloof h₁ h') : Aloof h h' :=
  ⟨a.elsewhere.trans b.elsewhere, b.settings.trans a.settings⟩

theorem kept_forgetFiles (tokens : List Nat) (h : Host) (t : Nat) :
    (tokens.foldl (fun h token => h.forget (.file token)) h).kept t = h.kept t := by
  induction tokens generalizing h with
  | nil => rfl
  | cons token tokens ih =>
    have hne : Origin.file token ≠ .remote t := by simp
    rw [List.foldl_cons, ih]
    exact Prod.ext (Table.at?_erase_ne hne _) (Table.at?_erase_ne hne _)

theorem aloof_absorb (hs : h.Still) (change : Ripple × Files) : Aloof h (h.absorb change) := by
  have hkept (t : Nat) := kept_forgetFiles change.1.forgotten { h with files := change.2 } t
  obtain ⟨workshop, hforgets, hcompiler, -⟩ := forgets_rest change.1.forgotten { h with files := change.2 }
  obtain ⟨loaders, announced, hannounces⟩ :=
    announces_quiet change.1.announced { h with files := change.2, workshop := workshop } hs.quiet
  have habsorb : h.absorb change =
      { h with files := change.2, workshop := workshop, loaders := loaders, announced := announced } := by
    unfold absorb
    rw [hforgets]
    exact hannounces
  rw [hforgets] at hkept
  rw [habsorb]
  exact ⟨⟨rfl, rfl, ⟨rfl, hcompiler⟩, hkept, hs.asked, hs.quiet, hs.told⟩, rfl⟩

theorem aloof_refreshNatives (hs : h.Still) : Aloof h h.refreshNatives := by
  obtain ⟨loaders, announced, hannounces⟩ := announces_quiet h.natives.tracked
    { h with natives := { h.natives with tracked := [] } } hs.quiet
  have hrefresh : h.refreshNatives = { h with
      natives := { h.natives with tracked := [] }, loaders := loaders, announced := announced } := hannounces
  rw [hrefresh]
  exact ⟨⟨rfl, rfl, ⟨rfl, rfl⟩, fun _ => rfl, hs.asked, hs.quiet, hs.told⟩, rfl⟩

theorem aloof_unless (hs : h.Still) (p : Prop) [Decidable p] (a : Aloof h h') : Aloof h (if p then h else h') := by
  split
  · exact .refl hs
  · exact a

/-- What changed settings ask of files and the modules of the host has nothing to do with remote modules. -/
theorem aloof_applyLocal (hs : h.Still) (old : Settings) (rules : Rules) : Aloof h (applyLocal old rules h) := by
  unfold applyLocal
  dsimp only
  have a₁ := aloof_unless hs (old.preloadingRules = h.settings.preloadingRules) (aloof_absorb hs (h.files.setRules rules))
  have hs₁ := a₁.elsewhere.still hs
  have languages {h : Host} (hs : h.Still) : Aloof h h.languagesChanged := aloof_absorb hs _
  have a₂ := aloof_unless hs₁ (old.codeBlockLanguages = h.settings.codeBlockLanguages) (languages hs₁)
  have hs₂ := a₂.elsewhere.still hs₁
  have a₃ := aloof_unless hs₂ (old.exposeInternalModules = h.settings.exposeInternalModules) (aloof_refreshNatives hs₂)
  exact (a₁.trans a₂).trans a₃

/-- Nor has what they ask of the loaders. -/
theorem aloof_applyLoaders (hs : h.Still) (old new : Settings) : Aloof h (applyLoaders old new h) := by
  unfold applyLoaders
  refine aloof_unless hs _ ?_
  have replacing (realms : List Nat) {h : Host} (hs : h.Still) : Aloof h (realms.foldl replaceLoader h) := by
    induction realms generalizing h with
    | nil => exact .refl hs
    | cons realm realms ih =>
      have a : Aloof h (h.replaceLoader realm) := by
        unfold replaceLoader
        split
        · exact .refl hs
        · exact ⟨⟨rfl, rfl, ⟨rfl, rfl⟩, fun _ => rfl, hs.asked, hs.quiet, hs.told⟩, rfl⟩
      exact a.trans (ih (a.elsewhere.still hs))
  exact replacing _ hs

/-! ### What becomes of remote modules -/

/-- What a host becomes as to remote modules: those that come to be there were not there, and are what their pages become
under the settings in force; redirects are known as the network tells them. -/
structure Renews (h h' : Host) : Prop where
  still : h'.Still
  tools : SameTools h h'
  network : h'.network = { h.network with requests := h'.network.requests }
  redirects : ∀ a target, h'.remote.redirects.at? a = some target →
    h.remote.redirects.at? a = some target ∨ h.network.destination a = .ok target
  modules : ∀ href module, h'.entry href = some (.ready module) → h.entry href = some (.ready module) ∨
    (∀ m, h.entry href ≠ some (.ready m)) ∧ h'.loadedPage href module.token = .ok module

theorem Elsewhere.renews (hs : h.Still) (a : Elsewhere h h') : Renews h h' where
  still := a.still hs
  tools := a.tools
  network := by rw [a.network]
  redirects b target hb := Or.inl (by rw [a.remote] at hb; exact hb)
  modules href module hr := Or.inl ((a.entry href).symm.trans hr)

/-- Whatever is done elsewhere before. -/
theorem Renews.before (b : Renews h₁ h') (a : Elsewhere h h₁) : Renews h h' where
  still := b.still
  tools := a.tools.trans b.tools
  network := by
    rw [← a.network]
    exact b.network
  redirects c target hc := by
    rw [← a.network]
    refine (b.redirects c target hc).imp_left fun hold => ?_
    rw [a.remote] at hold
    exact hold
  modules href module hr := by
    have h₁ := b.modules href module hr
    simp only [a.entry] at h₁
    exact h₁

/-- Whatever is done elsewhere afterwards. -/
theorem Renews.after (b : Renews h h₁) (a : Aloof h₁ h') : Renews h h' where
  still := a.elsewhere.still b.still
  tools := b.tools.trans a.elsewhere.tools
  network := by
    rw [a.elsewhere.network]
    exact b.network
  redirects c target hc := b.redirects c target (by rw [a.elsewhere.remote] at hc; exact hc)
  modules href module hr := by
    refine (b.modules href module ((a.elsewhere.entry href).symm.trans hr)).imp_right fun ⟨hnew, hloaded⟩ => ⟨hnew, ?_⟩
    rw [loadedPage_congr a.elsewhere.tools (a.settings ▸ .refl _) (by rw [a.elsewhere.network]), hloaded]

/-- What is done at once to remote modules teaches no redirects. -/
theorem redirects_deed (d : Deed) {a target : String} (ha : (d.apply h).remote.redirects.at? a = some target) :
    h.remote.redirects.at? a = some target := by
  cases d with
  | resolve id context =>
    obtain ⟨hredirects, -⟩ := resolve_rest h.remote h.settings.enableExternalLinks id context.cwd
    exact hredirects ▸ ha
  | invalidate id =>
    have hsame : (h.forgetRemote id).remote = (h.remote.invalidate id).2 := (forgetLoads_same ..).1
    rw [show ((Deed.invalidate id).apply h).remote = _ from hsame] at ha
    exact at?_of_at?_erase ha
  | invalidateAll =>
    have hsame : h.forgetRemotes.remote = h.remote.invalidateAll.2 := (forgetLoads_same ..).1
    rw [show (Deed.invalidateAll.apply h).remote = _ from hsame] at ha
    cases ha
  | online => exact ha
  | publish network => exact ha

/-- It leaves the pages, unless others are published. -/
theorem network_deed (d : Deed) (hd : ∀ network, d = .publish network → network = h.network) :
    (d.apply h).network = h.network := by
  cases d with
  | invalidate id => exact (forgetLoads_same ..).2
  | invalidateAll => exact (forgetLoads_same ..).2
  | publish network => exact hd network rfl
  | _ => rfl

/-- It lets no module come to be there. -/
theorem renews_deed (hs : h.Still) (d : Deed) (hd : ∀ network, d = .publish network → network = h.network) :
    Renews h (d.apply h) where
  still := (withdraws_apply d h).still hs
  tools := (withdraws_apply d h).alike.sameTools
  network := by rw [network_deed d hd]
  redirects _ _ ha := Or.inl (redirects_deed d ha)
  modules href module hr := by
    rcases (withdraws_apply d h).entries href with he | he | he
    · exact Or.inl (he.symm.trans hr)
    · cases he.symm.trans hr
    · cases he.symm.trans hr

/-! ### Loads -/

variable {s : Outset} {answers : Nat → Sight → Prop} {c : Weave Host Work}

/-- Where loads have ended, the modules that came to be there are what their pages became. -/
theorem renews_loading {fiber : Fiber Host Work} (hs : ∃ x₀, Loading ev s answers (s.host.rooted fiber) x₀)
    (hsteps : Weave.Steps (plan ev) (s.host.rooted fiber) c) (hstuck : ∀ c', ¬c.Step (plan ev) c') :
    Renews s.host c.state ∧ c.state.settings = s.host.settings := by
  obtain ⟨x₀, hx₀⟩ := hs
  obtain ⟨x, hc, -⟩ := loading_steps hx₀ hsteps
  have hf := hc.finished hstuck
  have hcalm := hc.inv.calm s rfl
  have hstate := hc.state
  refine ⟨⟨still_of_finished hc hf, hstate ▸ hcalm.alike.sameTools, hstate ▸ hcalm.network, fun a target ha => ?_,
    fun href module hr => ?_⟩, hstate ▸ hcalm.alike.settings⟩
  · rcases hcalm.redirects a with he | ⟨-, target', hd, he⟩
    · exact Or.inl (he.symm.trans (hstate ▸ ha))
    · rw [hstate, ha] at he
      cases he
      exact Or.inr hd
  · by_cases hload : ∃ w t, x.Loads w href t
    · obtain ⟨w, t, hw⟩ := hload
      have hentry := (loaded_of_finished hc hf (hc.begun_iff.2 hw)).1
      have hloaded : s.host.loadedPage href t = .ok module := by
        cases hpage : s.host.loadedPage href t with
        | error e => rw [hpage, hr] at hentry; cases hentry
        | ok m => rw [hpage, hr] at hentry; cases hentry; rfl
      refine Or.inr ⟨fun m hm => ?_, ?_⟩
      · rcases hcalm.free w href t hw with hfree | hfree <;> cases hfree.symm.trans hm
      · rw [← hstate, loadedPage_congr hcalm.alike.sameTools hcalm.alike.agree hcalm.network, loadedPage_token hloaded]
        exact hloaded
    · left
      rw [← hcalm.rest href fun w t hw => hload ⟨w, t, hw⟩, hstate]
      exact hr

/-! ### Applying settings -/

/-- To announce all addresses that were asked for is done aside. -/
theorem meets_refreshRemote {k : Option Outset} {me : Nat} {m : Moment Host Work (Nat → Option Nat)} (hm : m.Fit k) :
    (Async.change refreshRemote).Meets (remotePact k) (plan ev) me true m fun _ m' => m.Sees k me true m' := by
  obtain ⟨loaders, announced, he⟩ := announces_quiet m.view.state.remote.tracked
    { m.view.state with remote := { m.view.state.remote with tracked := [] } } hm.inv.quiet
  have a : Aside k me m.view { m.view with state := { m.view.state with
      remote := { m.view.state.remote with tracked := [] }, loaders := loaders, announced := announced } } :=
    ⟨turn_aside k me m.view [] loaders announced, fun _ => rfl, fun _ => rfl, rfl⟩
  show (Async.step fun h => ((), refreshRemote h)).Meets (remotePact k) (plan ev) me true m _
  exact meets_aside hm he.symm a rfl (fun _ => rfl) fun _ _ hm' => hm'

/-- What changed settings ask of remote modules keeps to the pact. -/
theorem applyRemote_keeps {k : Option Outset} {me : Nat} {x : Sight} (hcall : x.threads me = some none)
    (old new : Settings) (hs : ∀ s, k = some s → s.host.settings = new ∧ ∀ href ∈ new.preloadedExternalLinks,
      ∀ a, s.host.finalAddress? href none = some a → a ∈ s.within) {Q : Sight → Prop} (hq : ∀ y, Q y) :
    (applyRemote old new).fiber.DoesLater (remotePact k) (plan ev) me true Q x := by
  unfold applyRemote
  split
  · exact preload_keeps hcall _ (fun s hk href hhref => (hs s hk).2 href (List.mem_filter.1 hhref).1) hq
  · intro z others hz hf
    have hfit : Moment.Fit k ⟨z, others, none⟩ := ⟨hz.inv, rfl, hf⟩
    have hcallz : z.threads me = some none := hz.keep.threads me _ hcall
    refine Meets.does (meets_bind (meets_refreshRemote hfit) ?_)
    intro _ m₁ hm₁
    have hcall₁ : m₁.view.threads me = some none := hm₁.sees.keep.threads me _ hcallz
    refine meets_bind (R := fun hrefs m' => hrefs = m₁.view.state.settings.preloadedExternalLinks ∧ m' = m₁)
      (meets_view ⟨rfl, rfl⟩) ?_
    rintro _ _ ⟨rfl, rfl⟩
    refine (meets_preload hm₁.fit hcall₁ _ fun s hk href hhref => ?_).mono fun _ m' hm' => ?_
    · obtain ⟨hsettings, hwithin⟩ := hs s hk
      rw [(hm₁.fit.inv.calm s hk).alike.settings, hsettings] at hhref
      exact hwithin href hhref
    · exact ⟨hm'.owed, hm'.fits, fun y _ => hq y⟩

/-- What changed settings ask of remote modules. -/
theorem loading_applyRemote (hs : h.Still) (ev : Evaluator) (old new : Settings) (hnew : h.settings = new) :
    ∃ x, Loading ev (h.outset (new.preloadedExternalLinks.filterMap fun href => h.finalAddress? href none))
      (fun _ _ => True) (h.rooted (applyRemote old new).fiber) x :=
  loading_begin hs rfl fun _ _ hcall _ => applyRemote_keeps hcall old new (fun s hs => by
    obtain rfl := Option.some.inj hs
    exact ⟨hnew, fun href hhref a ha => List.mem_append_left _ (List.mem_filterMap.2 ⟨href, hhref, ha⟩)⟩)
    fun _ => trivial

/-- What is done when settings are applied, up to the startup modules. -/
theorem applySettings_run {new : Settings} {rules : Rules} (hc : new.check = .ok ()) (hr : new.rules = .ok rules) :
    (applySettings new).run = (do
      let old ← Async.step fun h => (h.settings, { h with settings := new })
      Async.change (applyLocal old rules)
      applyRemote old new
      Async.change (applyLoaders old new)
      applyStartup old new
      return .ok ()) := by
  unfold applySettings
  rw [hc, hr]
  rfl

/-! ### Affairs -/

/-- Something is done to its end: a remote module is asked for, addresses are loaded ahead of time, something is done at
once to remote modules or elsewhere, or other settings are applied, under which no startup modules run. -/
inductive Affair (ev : Evaluator) (h : Host) : Host → Prop
  | ask (id : String) (context : Context) {c : Weave Host Work} : Weave.Steps (plan ev) (h.call id context) c →
      (∀ c', ¬c.Step (plan ev) c') → Affair ev h c.state
  | preload (hrefs : List String) {c : Weave Host Work} :
      Weave.Steps (plan ev) (h.rooted (Host.preload hrefs).fiber) c → (∀ c', ¬c.Step (plan ev) c') → Affair ev h c.state
  | deed (d : Deed) : (∀ network, d = .publish network → network = h.network) → Affair ev h (d.apply h)
  | aloof {h' : Host} : Aloof h h' → Affair ev h h'
  | apply (new : Settings) (rules : Rules) {c : Weave Host Work} : new.check = .ok () → new.rules = .ok rules →
      Quiet { h with settings := new } → Weave.Steps (plan ev)
        ((applyLocal h.settings rules { h with settings := new }).rooted (applyRemote h.settings new).fiber) c →
      (∀ c', ¬c.Step (plan ev) c') → Affair ev h (applyLoaders h.settings new c.state)

/-- In each of them remote modules come to be there only as their pages become modules under the settings in force. -/
theorem Affair.renews (ha : Affair ev h h') (hs : h.Still) : Renews h h' := by
  cases ha with
  | ask id context hsteps hstuck => exact (renews_loading (loading_call hs ev id context) hsteps hstuck).1
  | preload hrefs hsteps hstuck => exact (renews_loading (loading_preload hs ev hrefs) hsteps hstuck).1
  | deed d hd => exact renews_deed hs d hd
  | aloof a => exact a.elsewhere.renews hs
  | apply new rules _ _ hq hsteps hstuck =>
    have a₁ : Elsewhere h { h with settings := new } :=
      ⟨rfl, rfl, ⟨rfl, rfl⟩, fun _ => rfl, hs.asked, hq, hs.told⟩
    have hs₁ := a₁.still hs
    have a₂ := aloof_applyLocal hs₁ h.settings rules
    have hs₂ := a₂.elsewhere.still hs₁
    obtain ⟨hloaded, -⟩ := renews_loading (loading_applyRemote hs₂ ev h.settings new a₂.settings) hsteps hstuck
    exact (hloaded.before (a₁.trans a₂.elsewhere)).after (aloof_applyLoaders hloaded.still h.settings new)

/-! ### Stamps -/

/-- The stamps after something was done: an address that had a module keeps its stamp, all others get that of the settings
in force. -/
def restamp (h h' : Host) (stamp : String → Settings) (href : String) : Settings :=
  match h.entry href with
  | some (.ready _) => stamp href
  | _ => h'.settings

theorem restamp_of_new {stamp : String → Settings} {href : String} (hnew : ∀ m, h.entry href ≠ some (.ready m)) :
    restamp h h' stamp href = h'.settings := by
  unfold restamp
  split
  · next m hm => exact (hnew m hm).elim
  · rfl

/-- A host has done some affairs, one after another, which left these stamps. -/
inductive Stamped (ev : Evaluator) (h₀ : Host) : Host → (String → Settings) → Prop
  | start : Stamped ev h₀ h₀ fun _ => h₀.settings
  | next {h h' : Host} {stamp : String → Settings} : Stamped ev h₀ h stamp → Affair ev h h' →
      Stamped ev h₀ h' (restamp h h' stamp)

/-- Each module is what its page becomes, at the start, under the settings that its stamp tells. -/
structure Genuine (h₀ h : Host) (stamp : String → Settings) : Prop where
  still : h.Still
  tools : SameTools h₀ h
  network : h.network = { h₀.network with requests := h.network.requests }
  redirects : ∀ a target, h.remote.redirects.at? a = some target → h₀.network.destination a = .ok target
  modules : ∀ href module, h.entry href = some (.ready module) →
    loadedPage { h₀ with settings := stamp href } href module.token = .ok module

/-- One affair leaves it so. -/
theorem Genuine.renews {stamp : String → Settings} (hg : Genuine h₀ h stamp) (a : Renews h h') :
    Genuine h₀ h' (restamp h h' stamp) := by
  have hnetwork : h'.network = { h₀.network with requests := h'.network.requests } := by
    have hn := a.network
    rw [hg.network] at hn
    exact hn
  have htools := hg.tools.trans a.tools
  refine ⟨a.still, htools, hnetwork, fun b target hb => ?_, fun href module hr => ?_⟩
  · refine (a.redirects b target hb).elim (hg.redirects b target) fun hd => ?_
    rw [hg.network] at hd
    exact hd
  · rcases a.modules href module hr with hold | ⟨hnew, hloaded⟩
    · have hkeeps : restamp h h' stamp href = stamp href := by
        unfold restamp
        rw [hold]
      rw [hkeeps]
      exact hg.modules href module hold
    · rw [restamp_of_new hnew, ← hloaded]
      exact (loadedPage_congr (h := { h₀ with settings := h'.settings }) ⟨htools.natives, htools.compiler⟩ (.refl _)
        hnetwork href module.token).symm

/-- So do all affairs of a host that was built. -/
theorem genuine_of_stamped {parts : Parts} (hb : build parts = .ok h₀) {stamp : String → Settings}
    (hrun : Stamped ev h₀ h stamp) : Genuine h₀ h stamp := by
  induction hrun with
  | start =>
    have hs := still_of_build hb
    obtain ⟨rules, -, rfl⟩ := build_eq hb
    refine ⟨hs, ⟨rfl, rfl⟩, rfl, fun a target ha => ?_, fun href module hr => ?_⟩
    · cases ha
    · cases hr
  | next _ ha ih => exact ih.renews (ha.renews ih.still)

/-! ### Fresh hosts -/

/-- What a page becomes depends on the number of its load in that number only. -/
theorem loadedPage_of_token {href : String} {t : Nat} {module : RemoteModule} (hm : h.loadedPage href t = .ok module)
    (t' : Nat) : h.loadedPage href t' = .ok { module with token := t' } := by
  unfold loadedPage at hm ⊢
  cases hbody : (h.network.fetch href).1 with
  | error e => rw [hbody] at hm; cases hm
  | ok body => rw [hbody] at hm; cases hm; rfl

/-- A module that a call was given is that of the address that is meant in the end. -/
theorem found_of_finished {s : Outset} {c : Weave Host Work} {x : Sight} {id : String} {cwd : Option String}
    (hc : Loading ev s (Answered (some s) id cwd) c x) (hf : c.Finished)
    (hlinks : s.host.settings.enableExternalLinks = true) {n : Nat} (hn : ∃ u ∈ c.threads, u.id = n ∧ u.work = none)
    {found : Resolved} (hfound : c.state.outcome? n = some (.resolved (.ok (some found)))) :
    s.host.finalAddress? id cwd = some found.id ∧
      ∃ module, c.state.entry found.id = some (.ready module) ∧ found = Remote.resolved found.id module := by
  have htold := told_of_finished hc hf hlinks hn
  cases hfinal : s.host.finalAddress? id cwd with
  | none =>
    rw [hfinal] at htold
    cases hfound.symm.trans htold
  | some a =>
    rw [hfinal] at htold
    obtain ⟨r, hentry, ho⟩ := htold
    cases r with
    | error e => cases hfound.symm.trans ho
    | ok module =>
      cases hfound.symm.trans ho
      exact ⟨rfl, module, hentry, rfl⟩

/-- Whatever redirects are known, a specifier means the same address in the end as when none is. -/
theorem Genuine.finalAddress {stamp : String → Settings} (hg : Genuine h₀ h stamp) {f : Host}
    (hn : f.network = { h₀.network with requests := f.network.requests }) (hnone : f.remote.redirects = [])
    (id : String) (cwd : Option String) : f.finalAddress? id cwd = h.finalAddress? id cwd := by
  have hnetwork (a : String) : h₀.network.destination a = f.network.destination a := by
    rw [hn]
    rfl
  unfold finalAddress?
  cases Url.normalize? id cwd with
  | none => rfl
  | some href =>
    refine congrArg some ?_
    dsimp only
    rw [hnone, hg.network]
    cases hr : h.remote.redirects.at? href with
    | none =>
      show (f.network.destination href).toOption.getD href = (h₀.network.destination href).toOption.getD href
      rw [hnetwork]
    | some target =>
      have hd := hg.redirects href target hr
      rw [hnetwork] at hd
      show (f.network.destination href).toOption.getD href = target
      rw [hd]
      rfl

/-- Remote modules are handed out as they were loaded: whatever was done to a host since it was built, a module that a call
is given is the one that a host built afresh hands out, under any settings that make the same of pages as its stamp. -/
theorem handed_out_as_stamped (ev : Evaluator) {parts : Parts} (hb : build parts = .ok h₀) {stamp : String → Settings}
    (hrun : Stamped ev h₀ h stamp) (hlinks : h.settings.enableExternalLinks = true) (id : String) (context : Context)
    {c : Weave Host Work} (hsteps : Weave.Steps (plan ev) (h.call id context) c) (hstuck : ∀ c', ¬c.Step (plan ev) c')
    {found : Resolved} (hfound : c.state.outcome? h.nextWork = some (.resolved (.ok (some found)))) {settings : Settings}
    (hagree : (restamp h c.state stamp found.id).Agree settings) (hallowed : settings.enableExternalLinks = true)
    {f : Host} (hf : build { parts with settings := settings } = .ok f)
    (hcompiler : f.workshop.compiler = h₀.workshop.compiler) :
    (f.call id context).Halts (plan ev) ∧ ∀ c', Weave.Steps (plan ev) (f.call id context) c' →
      (∀ c'', ¬c'.Step (plan ev) c'') → c'.state.outcome? f.nextWork = some (.resolved (.ok (some found))) := by
  have hg := genuine_of_stamped hb hrun
  obtain ⟨x₀, hx₀⟩ := loading_call hg.still ev id context
  obtain ⟨x, hc, -⟩ := loading_steps hx₀ hsteps
  obtain ⟨hfinal, module, hentry, hmodule⟩ :=
    found_of_finished hc (hc.finished hstuck) hlinks (root_of_steps hsteps) hfound
  have hloaded := (hg.renews (renews_loading ⟨x₀, hx₀⟩ hsteps hstuck).1).modules found.id module hentry
  -- what the fresh host is built from
  have hs := still_of_build hf
  obtain ⟨rules₀, -, rfl⟩ := build_eq hb
  obtain ⟨rules, -, rfl⟩ := build_eq hf
  set f : Host := (({ parts with settings := settings } : Parts).blank rules).createRealm parts.app |>.2 with hfresh
  obtain ⟨hhalts, hall⟩ := prefetch_ends ev hs hallowed id context
  refine ⟨hhalts, fun c' hsteps' hstuck' => ?_⟩
  obtain ⟨-, -, hend⟩ := hall c' hsteps'
  obtain ⟨-, -, -, htold⟩ := hend hstuck'
  have hmeant : f.finalAddress? id context.cwd = some found.id := (hg.finalAddress rfl rfl id context.cwd).trans hfinal
  rw [hmeant] at htold
  obtain ⟨-, token, ho⟩ := htold
  have hpage : f.loadedPage found.id token = .ok { module with token := token } := by
    rw [← loadedPage_of_token hloaded token]
    apply loadedPage_congr
    · exact ⟨rfl, hcompiler⟩
    · exact hagree
    · rfl
  have hhanded : f.handed found.id token = .ok (some found) := by
    unfold handed
    rw [show f.entry found.id = none from rfl, hpage]
    exact congrArg (Except.ok ∘ some) hmodule.symm
  rw [ho, hhanded]

/-- Two pages, one of which requires the other. -/
def pageChain : Parts where
  vault := .memory {}
  settings := { enableExternalLinks := true }
  network := { pages := [("https://a.example/m.js", "require('./d.js')"), ("https://a.example/d.js", "")] }

/-- Settings under which scripts find the loader by another name. -/
def renamed : Settings := { enableExternalLinks := true, requireName := "load" }

theorem check_of_build {parts : Parts} {h : Host} (hb : build parts = .ok h) : parts.settings.check = .ok () := by
  unfold build at hb
  cases hc : parts.settings.check with
  | error e => rw [hc] at hb; cases hb
  | ok _ => rfl

/-- After other settings were applied, a page that was not loaded before is handed out as by a fresh host. -/
theorem handed_out_as_stamped_renamed : ∃ h₀, build pageChain = .ok h₀ ∧ ∃ h stamp,
    Stamped Scan.evaluator h₀ h stamp ∧ h.settings.requireName = "load" ∧
    ∃ c found, Weave.Steps (plan Scan.evaluator) (h.call "https://a.example/m.js" {}) c ∧
      c.state.outcome? h.nextWork = some (.resolved (.ok (some found))) ∧
      found.code = "self[\"load\"](\"https://a.example/d.js\")" ∧
      ∃ f, build { pageChain with settings := renamed } = .ok f ∧
        ∀ c', Weave.Steps (plan Scan.evaluator) (f.call "https://a.example/m.js" {}) c' →
          (∀ c'', ¬c'.Step (plan Scan.evaluator) c'') → c'.state.outcome? f.nextWork = some (.resolved (.ok (some found))) := by
  have hrun : ((build pageChain).toOption.bind fun h₀ => (build { pageChain with settings := renamed }).toOption.bind fun f =>
      renamed.rules.toOption.bind fun rules =>
        (((h₀.call "https://a.example/d.js" {}).turns? (plan Scan.evaluator) [0, 0, 1, 1, 2, 2, 2, 1, 1, 1, 0]).filter
          (·.isFinished)).bind fun c₁ =>
            let h₁ := applyLocal c₁.state.settings rules { c₁.state with settings := renamed }
            (((h₁.rooted (applyRemote c₁.state.settings renamed).fiber).turns? (plan Scan.evaluator) [0]).filter
              (·.isFinished)).bind fun c₂ =>
                let h := applyLoaders c₁.state.settings renamed c₂.state
                ((h.call "https://a.example/m.js" {}).turns? (plan Scan.evaluator)
                  [0, 0, 1, 1, 2, 2, 2, 1, 1, 1, 1, 1, 1, 1, 0]).filter fun c => c.isFinished &&
                    h.settings.enableExternalLinks && h.settings.requireName == "load" &&
                    c.state.settings.requireName == "load" && c.state.settings.exposeInternalModules &&
                    c.state.settings.sourceRoot == "vault://" && (h.entry "https://a.example/m.js").isNone &&
                    ((c.state.outcome? h.nextWork).bind Outcome.found?).any fun found =>
                      found.id == "https://a.example/m.js" &&
                        found.code == "self[\"load\"](\"https://a.example/d.js\")").isSome = true := by
    decide +kernel
  obtain ⟨c, hx⟩ := Option.isSome_iff_exists.1 hrun
  obtain ⟨h₀, hb, hx⟩ := Option.bind_eq_some_iff.1 hx
  obtain ⟨f, hf, hx⟩ := Option.bind_eq_some_iff.1 hx
  obtain ⟨rules, hrules, hx⟩ := Option.bind_eq_some_iff.1 hx
  obtain ⟨c₁, hc₁, hx⟩ := Option.bind_eq_some_iff.1 hx
  obtain ⟨c₂, hc₂, hx⟩ := Option.bind_eq_some_iff.1 hx
  obtain ⟨hturns₁, hended₁⟩ := Option.filter_eq_some_iff.1 hc₁
  obtain ⟨hturns₂, hended₂⟩ := Option.filter_eq_some_iff.1 hc₂
  obtain ⟨hturns, htest⟩ := Option.filter_eq_some_iff.1 hx
  simp only [Bool.and_eq_true, beq_iff_eq] at htest
  obtain ⟨⟨⟨⟨⟨⟨⟨hended, hlinks⟩, hload⟩, hname⟩, hexposed⟩, hroot⟩, hnone⟩, hfound⟩ := htest
  obtain ⟨found, ho, hfound⟩ := (Option.any_eq_true _ _).1 hfound
  simp only [Bool.and_eq_true, beq_iff_eq] at hfound
  obtain ⟨hid, hcode⟩ := hfound
  replace ho := Outcome.eq_of_found? ho
  replace hb := eq_ok_of_toOption hb
  replace hf := eq_ok_of_toOption hf
  have hask : Affair Scan.evaluator h₀ c₁.state :=
    .ask _ {} (Weave.steps_of_turns? hturns₁) (Weave.not_step_of_isFinished hended₁)
  have hcheck := check_of_build hf
  have happly : Affair Scan.evaluator c₁.state (applyLoaders c₁.state.settings renamed c₂.state) :=
    .apply renamed rules hcheck (eq_ok_of_toOption hrules) (Or.inr rfl) (Weave.steps_of_turns? hturns₂)
      (Weave.not_step_of_isFinished hended₂)
  obtain ⟨stamp, hstamped⟩ : ∃ stamp, Stamped Scan.evaluator h₀ (applyLoaders c₁.state.settings renamed c₂.state) stamp :=
    ⟨_, (Stamped.start.next hask).next happly⟩
  have hsteps := Weave.steps_of_turns? hturns
  have hagree : (restamp (applyLoaders c₁.state.settings renamed c₂.state) c.state stamp found.id).Agree renamed := by
    rw [hid, restamp_of_new fun m hm => by rw [hm] at hnone; cases hnone]
    exact ⟨hname.symm, hexposed.symm, hroot.symm⟩
  have hcompiler : f.workshop.compiler = h₀.workshop.compiler := by
    obtain ⟨rules₀, -, rfl⟩ := build_eq hb
    obtain ⟨rules, -, rfl⟩ := build_eq hf
    rfl
  obtain ⟨-, hfresh⟩ := handed_out_as_stamped Scan.evaluator hb hstamped hlinks "https://a.example/m.js" {} hsteps
    (Weave.not_step_of_isFinished hended) ho hagree rfl hf hcompiler
  exact ⟨h₀, hb, _, _, hstamped, hload, c, found, hsteps, ho, hcode, f, hf, hfresh⟩

end Host

namespace Session

/-- The code that a specifier stands for as a module. -/
def codeOf? (s : Session) (id : String) : Option String :=
  (s.resolve .module id {}).1.toOption.join.map (·.code)

/-- A module that was there before other settings were applied is still handed out as it was, though a host that is built
afresh with these settings hands out another. -/
theorem renamed_not_as_fresh : ∃ s f, build Scan.evaluator Host.pageChain = .ok s ∧
    build Scan.evaluator { Host.pageChain with settings := Host.renamed } = .ok f ∧
    let applied := (s.start.resolve .module "https://a.example/m.js" {}).2.applySettings Host.renamed
    applied.1.isOk = true ∧ applied.2.host.settings.requireName = "load" ∧
      applied.2.codeOf? "https://a.example/m.js" = some "self[\"require\"](\"https://a.example/d.js\")" ∧
      f.start.codeOf? "https://a.example/m.js" = some "self[\"load\"](\"https://a.example/d.js\")" := by
  have hrun : ((build Scan.evaluator Host.pageChain).toOption.bind fun s =>
      (build Scan.evaluator { Host.pageChain with settings := Host.renamed }).toOption.filter fun f =>
        let applied := (s.start.resolve .module "https://a.example/m.js" {}).2.applySettings Host.renamed
        applied.1.isOk && applied.2.host.settings.requireName == "load" &&
          applied.2.codeOf? "https://a.example/m.js" == some "self[\"require\"](\"https://a.example/d.js\")" &&
          f.start.codeOf? "https://a.example/m.js" == some "self[\"load\"](\"https://a.example/d.js\")").isSome = true := by
    decide +kernel
  obtain ⟨f, hx⟩ := Option.isSome_iff_exists.1 hrun
  obtain ⟨s, hs, hx⟩ := Option.bind_eq_some_iff.1 hx
  obtain ⟨hf, htest⟩ := Option.filter_eq_some_iff.1 hx
  simp only [Bool.and_eq_true, beq_iff_eq] at htest
  obtain ⟨⟨⟨hok, hname⟩, hold⟩, hnew⟩ := htest
  exact ⟨s, f, eq_ok_of_toOption hs, eq_ok_of_toOption hf, hok, hname, hold, hnew⟩

end Session

end ScriptVault

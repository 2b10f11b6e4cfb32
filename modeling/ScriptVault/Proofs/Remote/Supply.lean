import ScriptVault.Host.Session
import ScriptVault.Proofs.Remote.Prefetch

/-!
# Supply — modules that are handed out with what they require

When a module has been loaded, all that it requires was loaded before, or has failed.  A module that is there already is
handed out as it is; so what it requires is still settled only as long as nobody takes it away, or lets it wait to be
loaded again.  Where only that is spared, all modules stay supplied, whatever else is loaded, asked for or forgotten.
-/

namespace ScriptVault

open Host Sight

variable {ev : Evaluator} {h h' : Host}

namespace Host

/-! ### Modules that are supplied -/

/-- A URL is settled: it is known where it leads, and what is there can be had, or has failed. -/
def Settles (h : Host) (url : String) : Prop :=
  h.remote.address? url none = h.finalAddress? url none ∧
    ∀ a, h.finalAddress? url none = some a → ∃ r, h.entry a = some (.ofResult r)

/-- All that modules require which are there is settled. -/
def Supplied (h : Host) : Prop :=
  ∀ href module, h.entry href = some (.ready module) → ∀ url ∈ h.pageRequires href, h.Settles url

/-- A settled URL is not passed over when it is asked for at once: there is a module, or the failure of its load. -/
theorem resolve_of_settles {url : String} (hs : h.Settles url) (hurl : Url.normalize? url none ≠ none) :
    (h.remote.resolve true url none).1 ≠ .ok none := by
  obtain ⟨hknown, hsettled⟩ := hs
  unfold finalAddress? at hknown hsettled
  obtain ⟨href, hhref⟩ := Option.ne_none_iff_exists'.1 hurl
  rw [hhref, Option.map_some] at hknown hsettled
  obtain ⟨r, hr⟩ := hsettled _ rfl
  unfold Remote.resolve
  rw [hknown]
  dsimp only
  have hentry (a : String) : (h.remote.track a).modules = h.remote.modules := rfl
  rw [hentry, show h.remote.modules.at? _ = _ from hr]
  cases r <;> nofun

theorem Akin.pageRequires (a : Akin h h') (hn : h'.network = { h.network with requests := h'.network.requests })
    (href : String) : h'.pageRequires href = h.pageRequires href := by
  unfold Host.pageRequires
  rw [fetch_congr hn]
  split
  · rfl
  · rw [a.pageRewritten]

/-- Modules stay supplied where no other come to be there, and what they require stays settled. -/
theorem Supplied.mono (hs : h.Supplied) (a : Akin h h') (hn : h'.network = h.network)
    (hready : ∀ href module, h'.entry href = some (.ready module) → h.entry href = some (.ready module) ∧
      ∀ url ∈ h.pageRequires href, h.Settles url → h'.Settles url) : h'.Supplied := by
  intro href module hentry url hurl
  rw [a.pageRequires (by rw [hn])] at hurl
  obtain ⟨hold, hstays⟩ := hready href module hentry
  exact hstays url hurl (hs href module hold url hurl)

/-! ### What is done at once -/

/-- The address that is forgotten with an id. -/
def victim (h : Host) (id : String) : String := (h.remote.redirects.at? id).getD id

/-- A deed takes nothing away that is required by a module which stays, and lets nothing of it wait to be loaded again. -/
def Deed.Spares (h : Host) : Deed → Prop
  | resolve _ _ => True
  | invalidate id => ∀ href module, h.entry href = some (.ready module) → href ≠ h.victim id →
      ∀ url ∈ h.pageRequires href, h.remote.address? url none ≠ some (h.victim id)
  | invalidateAll => True
  | online => ∀ href module, h.entry href = some (.ready module) → ∀ url ∈ h.pageRequires href,
      ∀ a, h.remote.address? url none = some a → ∀ e, h.entry a ≠ some (.failed e)
  | publish network => network = h.network

/-- What is settled stays so where its redirect does not change and its entry stays. -/
theorem Settles.mono {url : String} (hs : h.Settles url) (hn : h'.network = h.network)
    (hr : ∀ href, Url.normalize? url none = some href → h'.remote.redirects.at? href = h.remote.redirects.at? href)
    (he : ∀ a r, h.remote.address? url none = some a → h.entry a = some (.ofResult r) → h'.entry a = some (.ofResult r)) :
    h'.Settles url := by
  have hfinal : h'.finalAddress? url none = h.finalAddress? url none := by
    unfold finalAddress?
    cases hnormal : Url.normalize? url none with
    | none => rfl
    | some href => rw [Option.map_some, Option.map_some, hr href hnormal, hn]
  have haddress : h'.remote.address? url none = h.remote.address? url none := by
    unfold Remote.address?
    cases hnormal : Url.normalize? url none with
    | none => rfl
    | some href => rw [Option.map_some, Option.map_some, hr href hnormal]
  refine ⟨by rw [hfinal, haddress, hs.1], fun a ha => ?_⟩
  rw [hfinal] at ha
  obtain ⟨r, hentry⟩ := hs.2 a ha
  exact ⟨r, he a r (hs.1.trans ha) hentry⟩

theorem supplied_resolve (hs : h.Supplied) (id : String) (context : Context) :
    ((Deed.resolve id context).apply h).Supplied := by
  obtain ⟨hredirects, -, hentries⟩ := resolve_rest h.remote h.settings.enableExternalLinks id context.cwd
  have hsettled {a : String} {r : Except Failure RemoteModule} (hr : h.entry a = some (.ofResult r)) :
      ((Deed.resolve id context).apply h).entry a = some (.ofResult r) := by
    rcases hentries a with he | ⟨-, hnone⟩
    · exact he.trans hr
    · cases hnone.symm.trans hr
  refine hs.mono ⟨rfl, rfl, rfl⟩ rfl fun href module hready => ⟨?_, fun url _ hurl =>
    hurl.mono rfl (fun _ _ => by rw [show ((Deed.resolve id context).apply h).remote.redirects = _ from hredirects])
      fun a r _ hr => hsettled hr⟩
  rcases hentries href with he | ⟨hmark, -⟩
  · exact he.symm.trans hready
  · cases hmark.symm.trans hready

theorem supplied_online (hs : h.Supplied) (hspares : Deed.online.Spares h) : h.online.Supplied := by
  have hready {href : String} {module : RemoteModule} (hr : h.online.entry href = some (.ready module)) :
      h.entry href = some (.ready module) := by
    have honline : h.online.entry href = _ := at?_online h.remote href
    rw [hr] at honline
    obtain ⟨state, hstate, he⟩ := Option.map_eq_some_iff.1 honline.symm
    cases state <;> cases he
    exact hstate
  refine hs.mono ⟨rfl, rfl, rfl⟩ rfl fun href module hr => ⟨hready hr, fun url hurl hsettles =>
    hsettles.mono rfl (fun _ _ => rfl) fun a r ha hentry => ?_⟩
  have honline : h.online.entry a = _ := at?_online h.remote a
  rw [show h.remote.modules.at? a = _ from hentry] at honline
  cases r with
  | ok m => exact honline
  | error e => exact (hspares href module (hready hr) url hurl a ha e hentry).elim

theorem supplied_forgetRemotes (h : Host) : h.forgetRemotes.Supplied := by
  intro href module hentry
  obtain ⟨workshop, he, -⟩ := forgetLoads_rest { h with remote := h.remote.invalidateAll.2 } h.remote.invalidateAll.1
  rw [show h.forgetRemotes = _ from he] at hentry
  cases hentry

theorem supplied_forgetRemote {id : String} (hs : h.Supplied) (hspares : (Deed.invalidate id).Spares h) :
    (h.forgetRemote id).Supplied := by
  obtain ⟨workshop, he, hc⟩ := forgetLoads_rest { h with remote := (h.remote.invalidate id).2 } (h.remote.invalidate id).1
  rw [show h.forgetRemote id = _ from he]
  have hentry (a : String) : Table.at? (h.remote.modules.erase (h.victim id)) a = _ := Table.at?_erase ..
  refine hs.mono ⟨rfl, rfl, hc⟩ rfl fun href module hr => ?_
  have hr : Table.at? (h.remote.modules.erase (h.victim id)) href = _ := hr
  rw [hentry] at hr
  split at hr
  · cases hr
  · next hne =>
    refine ⟨hr, fun url hurl hsettles => ?_⟩
    have hother := hspares href module hr hne url hurl
    refine hsettles.mono rfl (fun n hn => Table.at?_erase_ne (fun hid => hother ?_) _) fun a r ha hr => ?_
    · -- the id that is forgotten would lead to what is forgotten with it
      unfold Remote.address?
      rw [hn, ← hid]
      rfl
    · have hne : a ≠ h.victim id := fun heq => hother (heq ▸ ha)
      exact ((hentry a).trans (if_neg hne)).trans hr

/-- What is done at once leaves modules supplied, if it spares what they require. -/
theorem Supplied.deed (hs : h.Supplied) {d : Deed} (hspares : d.Spares h) : (d.apply h).Supplied := by
  cases d with
  | resolve id context => exact supplied_resolve hs id context
  | invalidate id => exact supplied_forgetRemote hs hspares
  | invalidateAll => exact supplied_forgetRemotes h
  | online => exact supplied_online hs hspares
  | publish network =>
    obtain rfl : network = h.network := hspares
    exact hs

/-- What is done at once leaves a host at rest. -/
theorem Withdraws.still (hs : h.Still) (a : Withdraws h h') : h'.Still where
  asked := a.asked.trans hs.asked
  quiet := by
    unfold Quiet
    rw [a.watched, a.alike.settings]
    exact hs.quiet
  rests href t w hl := hs.rests href t w (a.loading hl)
  told n hn := by
    rw [a.next]
    exact hs.told n fun h => hn (by rw [outcome?, a.outcomes]; exact h)
  carried t ht := a.tokens ▸ hs.carried t (a.bears ht)
  kept t ht := by
    have hkeeps : h.Keeps t := (keeps_congr ((a.kept t).resolve_right fun h => h ht)).1 ht
    exact (a.lost t (hs.kept t hkeeps)).resolve_right fun h => h ht

end Host

/-! ### What is loaded -/

variable {s : Outset} {answers : Nat → Sight → Prop} {c : Weave Host Work} {x : Sight}

/-- Where all threads have ended that went on by themselves, the host is at rest again. -/
theorem still_of_finished (hc : Loading ev s answers c x) (hf : c.Finished) : c.state.Still :=
  still_of_grounded hc ⟨fun u hu _ _ _ => hf u hu, rests_of_finished hc hf⟩

/-- It leads to the same address in the end, whatever was learnt meanwhile. -/
theorem Sight.Calm.finalAddress {x : Sight} (hc : Calm s x) (id : String) (cwd : Option String) :
    x.state.finalAddress? id cwd = s.host.finalAddress? id cwd := by
  unfold finalAddress?
  cases Url.normalize? id cwd with
  | none => rfl
  | some href =>
    refine congrArg some ?_
    dsimp only
    have hdestination : x.state.network.destination href = s.host.network.destination href := by
      rw [hc.network]
      rfl
    rw [hdestination]
    rcases hc.redirects href with he | ⟨hnone, target, hd, he⟩
    · rw [he]
    · rw [he, hnone, hd]
      rfl

/-- Modules are supplied when all threads have ended. -/
theorem supplied_of_finished (hs : s.host.Supplied) {fiber : Fiber Host Work} {x₀ : Sight}
    (hx₀ : Loading ev s answers (s.host.rooted fiber) x₀) (hsteps : Weave.Steps (plan ev) (s.host.rooted fiber) c)
    (hf : c.Finished) : c.state.Supplied := by
  obtain ⟨x, hc, hkeep⟩ := loading_steps hx₀ hsteps
  have hcalm := hc.inv.calm s rfl
  intro href module hentry url hurl
  rw [← hc.state] at hentry hurl ⊢
  rw [hcalm.alike.pageRequires hcalm.network] at hurl
  unfold Settles
  rw [hcalm.finalAddress]
  by_cases hload : ∃ w t, x.Loads w href t
  · obtain ⟨w, t, hw⟩ := hload
    obtain ⟨hknown, hsettled⟩ := (loaded_of_finished hc hf (hc.begun_iff.2 hw)).2 url hurl
    rw [← hc.state] at hknown hsettled
    exact ⟨hknown, hsettled⟩
  · -- what was there at the start was supplied then
    rw [hcalm.rest href fun w t hw => hload ⟨w, t, hw⟩] at hentry
    obtain ⟨hknown, hsettled⟩ := hs href module hentry url hurl
    have hstart : x₀.state = s.host.number.2 := hx₀.state
    refine ⟨hkeep.knows rfl hc.inv (show Knows s x₀ url none from ?_), fun a ha => ?_⟩
    · unfold Knows
      rw [hstart]
      exact hknown
    · obtain ⟨r, hr⟩ := hsettled a ha
      exact ⟨r, hkeep.settled (by nofun) a r (by rw [hstart]; exact hr)⟩

/-! ### Runs -/

/-- Something is done with remote modules, to its end: a specifier is asked for, addresses are loaded ahead of time, or
what is done at once spares what modules require. -/
inductive Round (ev : Evaluator) (h : Host) : Host → Prop
  | ask (id : String) (context : Context) {c : Weave Host Work} : Weave.Steps (plan ev) (h.call id context) c →
      (∀ c', ¬c.Step (plan ev) c') → Round ev h c.state
  | preload (hrefs : List String) {c : Weave Host Work} : Weave.Steps (plan ev) (h.rooted (preload hrefs).fiber) c →
      (∀ c', ¬c.Step (plan ev) c') → Round ev h c.state
  | deed (d : Deed) : d.Spares h → Round ev h (d.apply h)

/-- A round leaves a host at rest, its modules supplied, and its settings as they are. -/
theorem Round.supplied (hr : Round ev h h') (hs : h.Still) (hsup : h.Supplied) :
    h'.Still ∧ h'.Supplied ∧ h'.settings = h.settings := by
  cases hr with
  | ask id context hsteps hstuck =>
    obtain ⟨x₀, hx₀⟩ := loading_call hs ev id context
    obtain ⟨x, hc, -⟩ := loading_steps hx₀ hsteps
    have hf := hc.finished hstuck
    exact ⟨still_of_finished hc hf, supplied_of_finished hsup hx₀ hsteps hf, hc.state ▸ (hc.inv.calm _ rfl).alike.settings⟩
  | preload hrefs hsteps hstuck =>
    obtain ⟨x₀, hx₀⟩ := loading_preload hs ev hrefs
    obtain ⟨x, hc, -⟩ := loading_steps hx₀ hsteps
    have hf := hc.finished hstuck
    exact ⟨still_of_finished hc hf, supplied_of_finished hsup hx₀ hsteps hf, hc.state ▸ (hc.inv.calm _ rfl).alike.settings⟩
  | deed d hspares =>
    exact ⟨(withdraws_apply d h).still hs, hsup.deed hspares, (withdraws_apply d h).alike.settings⟩

/-- So does any number of them. -/
theorem rounds_supplied (hr : Relation.ReflTransGen (Round ev) h h') (hs : h.Still) (hsup : h.Supplied) :
    h'.Still ∧ h'.Supplied ∧ h'.settings = h.settings := by
  induction hr with
  | refl => exact ⟨hs, hsup, rfl⟩
  | tail _ hround ih =>
    obtain ⟨hs', hsup', hsettings⟩ := ih
    obtain ⟨hs'', hsup'', hsettings'⟩ := hround.supplied hs' hsup'
    exact ⟨hs'', hsup'', hsettings'.trans hsettings⟩

/-- Modules are handed out with what they require: after any rounds in which what is done at once spares what modules
require, whenever a call is given a module, every URL that it requires is settled, so whoever asks for it at once is given
the module or the failure of its load. -/
theorem handed_out_supplied (ev : Evaluator) (hs : h.Still) (hsup : h.Supplied)
    (hlinks : h.settings.enableExternalLinks = true) (hrun : Relation.ReflTransGen (Round ev) h h') (id : String)
    (context : Context) {c : Weave Host Work} (hsteps : Weave.Steps (plan ev) (h'.call id context) c)
    (hstuck : ∀ c', ¬c.Step (plan ev) c') {found : Resolved}
    (hfound : c.state.outcome? h'.nextWork = some (.resolved (.ok (some found)))) :
    ∀ url ∈ c.state.pageRequires found.id, c.state.Settles url ∧
      (Url.normalize? url none ≠ none → (c.state.remote.resolve true url none).1 ≠ .ok none) := by
  obtain ⟨hs', hsup', hsettings⟩ := rounds_supplied hrun hs hsup
  obtain ⟨x₀, hx₀⟩ := loading_call hs' ev id context
  obtain ⟨x, hc, -⟩ := loading_steps hx₀ hsteps
  have hf := hc.finished hstuck
  have htold := told_of_finished hc hf (show h'.settings.enableExternalLinks = true by rw [hsettings, hlinks])
    (root_of_steps hsteps)
  have hready : ∃ module, c.state.entry found.id = some (.ready module) := by
    split at htold
    · cases hfound.symm.trans htold
    · next a _ =>
      obtain ⟨r, hentry, ho⟩ := htold
      cases r with
      | error e => cases hfound.symm.trans ho
      | ok module =>
        cases hfound.symm.trans ho
        exact ⟨module, hentry⟩
  obtain ⟨module, hentry⟩ := hready
  intro url hurl
  have hsettles := supplied_of_finished hsup' hx₀ hsteps hf found.id module hentry url hurl
  exact ⟨hsettles, resolve_of_settles hsettles⟩

/-- The module that was handed out. -/
def Outcome.found? : Outcome → Option Resolved
  | .resolved (.ok found) => found
  | _ => none

theorem Outcome.eq_of_found? {outcome : Option Outcome} {found : Resolved} (h : outcome.bind found? = some found) :
    outcome = some (.resolved (.ok (some found))) := by
  obtain ⟨o, rfl, ho⟩ := Option.bind_eq_some_iff.1 h
  unfold Outcome.found? at ho
  split at ho
  · rw [ho]
  · cases ho

/-- After the circle was loaded, a page of it is handed out again, and the page that is not there is known to have
failed. -/
theorem handed_out_supplied_circle : ∃ h, Host.build Host.pageCircle = .ok h ∧
    ∃ h', Relation.ReflTransGen (Round Scan.evaluator) h h' ∧
      ∃ c, Weave.Steps (plan Scan.evaluator) (h'.call "https://a.example/b.js" {}) c ∧
        (∃ found, c.state.outcome? h'.nextWork = some (.resolved (.ok (some found))) ∧
          found.id = "https://a.example/b.js") ∧
        (c.state.remote.resolve true "https://a.example/c.js" none).1 ≠ .ok none := by
  have hrun : (((Host.build Host.pageCircle).toOption.filter (·.settings.enableExternalLinks)).bind fun h =>
      (((h.call "https://a.example/a.js" {}).turns? (plan Scan.evaluator) [0, 0, 1, 1, 2, 2, 2, 1, 1, 1, 1, 1, 1, 3, 3, 4,
        4, 4, 3, 3, 3, 3, 3, 3, 3, 3, 5, 5, 3, 3, 3, 3, 3, 1, 1, 1, 0]).filter (·.isFinished)).bind fun c =>
            ((c.state.call "https://a.example/b.js" {}).turns? (plan Scan.evaluator) [0]).filter fun c' =>
              c'.isFinished &&
                ((((c'.state.outcome? c.state.nextWork).bind Outcome.found?).any (·.id == "https://a.example/b.js") &&
                  (c'.state.pageRequires "https://a.example/b.js").contains "https://a.example/c.js") &&
                  (Url.normalize? "https://a.example/c.js" none).isSome)).isSome = true := by
    decide +kernel
  obtain ⟨c', hc'⟩ := Option.isSome_iff_exists.1 hrun
  obtain ⟨h, hh, hc'⟩ := Option.bind_eq_some_iff.1 hc'
  obtain ⟨hbuild, hlinks⟩ := Option.filter_eq_some_iff.1 hh
  obtain ⟨c, hc, hc'⟩ := Option.bind_eq_some_iff.1 hc'
  obtain ⟨hturns, hended⟩ := Option.filter_eq_some_iff.1 hc
  obtain ⟨hturns', htest⟩ := Option.filter_eq_some_iff.1 hc'
  obtain ⟨hended', htest⟩ := Bool.and_eq_true_iff.1 htest
  obtain ⟨htest, hurl⟩ := Bool.and_eq_true_iff.1 htest
  obtain ⟨hfound, hrequires⟩ := Bool.and_eq_true_iff.1 htest
  have hb : Host.build Host.pageCircle = .ok h := eq_ok_of_toOption hbuild
  have hround : Round Scan.evaluator h c.state :=
    .ask "https://a.example/a.js" {} (Weave.steps_of_turns? hturns) (Weave.not_step_of_isFinished hended)
  have hsteps := Weave.steps_of_turns? hturns'
  obtain ⟨found, ho, hid⟩ := (Option.any_eq_true _ _).1 hfound
  replace ho := Outcome.eq_of_found? ho
  replace hid := beq_iff_eq.1 hid
  have hnew : h.Supplied := fun href module hr => by
    obtain ⟨rules, -, rfl⟩ := build_eq hb
    cases hr
  refine ⟨h, hb, c.state, .single hround, c', hsteps, ⟨found, ho, hid⟩, ?_⟩
  refine (handed_out_supplied Scan.evaluator (still_of_build hb) hnew hlinks (.single hround) "https://a.example/b.js" {}
    hsteps (Weave.not_step_of_isFinished hended') ho _ ?_).2 fun hnone => ?_
  · rw [hid]
    exact List.contains_iff_mem.1 hrequires
  · rw [hnone] at hurl
    cases hurl

/-! ### What is not spared -/

namespace Session

/-- A module is handed out, and of what it requires something is passed over when it is asked for at once. -/
def Lacks (s : Session) (id url : String) : Prop :=
  ∃ found s', s.resolve .module id {} = (.ok (some found), s') ∧ url ∈ s'.host.pageRequires found.id ∧
    (s'.resolve .script url {}).1 = .ok none

/-- A test for that. -/
def lacks (s : Session) (id url : String) : Bool :=
  match s.resolve .module id {} with
  | (.ok (some found), s') => (s'.host.pageRequires found.id).contains url &&
      match (s'.resolve .script url {}).1 with
      | .ok none => true
      | _ => false
  | _ => false

theorem lacks_of_test {s : Session} {id url : String} (h : s.lacks id url = true) : s.Lacks id url := by
  unfold lacks at h
  split at h
  · next found s' hfound =>
    obtain ⟨hmem, hnone⟩ := Bool.and_eq_true_iff.1 h
    refine ⟨found, s', hfound, List.contains_iff_mem.1 hmem, ?_⟩
    split at hnone
    · assumption
    · cases hnone
  · cases h

/-- A page that requires another one. -/
def dependent (pages : List (String × String)) : Host.Parts where
  vault := .memory {}
  settings := { enableExternalLinks := true }
  network := { pages := ("https://a.example/m.js", "require('./d.js')") :: pages }

/-- Where what a module requires is forgotten, or could not be loaded and may be loaded again, the module is still handed
out as it is. -/
theorem handed_out_lacking :
    (∃ s, build Scan.evaluator (dependent [("https://a.example/d.js", "")]) = .ok s ∧
      ((s.start.resolve .module "https://a.example/m.js" {}).2.change (Host.forgetId "https://a.example/d.js")).Lacks
        "https://a.example/m.js" "https://a.example/d.js") ∧
    ∃ s, build Scan.evaluator (dependent []) = .ok s ∧
      ((s.start.resolve .module "https://a.example/m.js" {}).2.change Host.online).Lacks
        "https://a.example/m.js" "https://a.example/d.js" := by
  have built {parts : Host.Parts} {f : Session → Session} {id url : String}
      (hrun : (build Scan.evaluator parts).toOption.any (fun s => (f s).lacks id url) = true) :
      ∃ s, build Scan.evaluator parts = .ok s ∧ (f s).Lacks id url := by
    obtain ⟨s, hs, htest⟩ := (Option.any_eq_true _ _).1 hrun
    exact ⟨s, eq_ok_of_toOption hs, lacks_of_test htest⟩
  exact ⟨built (by decide +kernel), built (by decide +kernel)⟩

end Session

end ScriptVault

import ScriptVault.Proofs.Host.Basis
import ScriptVault.Proofs.Host.Call
import ScriptVault.Proofs.Host.Later
import ScriptVault.Proofs.Host.Stacks
import ScriptVault.Proofs.Remote.Supply

/-!
# Renewal — remote modules that are fetched again

A remote module that is there is handed out as it is; one that was forgotten is fetched anew by the next import that
means it.  What is forgotten goes by the spelling alone: it is the address that the spelling is redirected to, or else
the spelling itself.  An import goes by the address that the spelling means in its working directory.  The two agree
where the spelling is that address written in full; under any other spelling nothing is forgotten.
-/

namespace ScriptVault

open Async Host

/-! ### What a computation comes to -/

section

variable {σ ω α β : Type} {plan : Plan σ ω}

/-- What is done at once is done by whoever moves. -/
theorem Fiber.Runs.move {f f' : Fiber σ ω} {h h' : σ} (hr : f.Runs plan h f' h') : f.move plan h = f'.move plan h' := by
  induction hr with
  | refl => rfl
  | look _ ih => exact ih
  | leave hc _ ih => simp only [Fiber.move, hc, ih, List.nil_append]

/-- At once a computation comes to begin with another one, in a state as `P` says. -/
def Async.ComesTo (plan : Plan σ ω) (x : Async σ ω α) (h : σ) (y : Async σ ω β) (P : σ → Prop) : Prop :=
  ∃ h', P h' ∧ ∀ k, ∃ k', (x k).Runs plan h (y k') h'

namespace Async

variable {γ : Type} {h : σ} {y : Async σ ω γ} {P : σ → Prop}

theorem comesTo_self {x : Async σ ω α} (hp : P h) : x.ComesTo plan h x P := ⟨h, hp, fun k => ⟨k, .refl _ h⟩⟩

theorem comesTo_bind {x : Async σ ω α} {f : α → Async σ ω β} (hx : x.ComesTo plan h y P) :
    (x >>= f).ComesTo plan h y P := by
  obtain ⟨h', hp, hrun⟩ := hx
  exact ⟨h', hp, fun k => hrun fun a => f a k⟩

theorem comesTo_after {x : Async σ ω α} {f : α → Async σ ω β} {Q : α → σ → Prop} (hx : x.Gives plan h Q)
    (hf : ∀ a h', Q a h' → (f a).ComesTo plan h' y P) : (x >>= f).ComesTo plan h y P := by
  obtain ⟨a, h', hq, hrun⟩ := hx
  obtain ⟨h'', hp, hrun'⟩ := hf a h' hq
  refine ⟨h'', hp, fun k => ?_⟩
  obtain ⟨k', hk⟩ := hrun' k
  exact ⟨k', (hrun fun a => f a k).trans hk⟩

theorem comesTo_except {x : ExceptT Failure (Async σ ω) α} {f : α → ExceptT Failure (Async σ ω) β}
    (hx : x.run.ComesTo plan h y P) : (x >>= f).run.ComesTo plan h y P :=
  comesTo_bind (f := ExceptT.bindCont f) hx

theorem comesTo_then {x : ExceptT Failure (Async σ ω) α} {f : α → ExceptT Failure (Async σ ω) β} {a : α} {t : σ}
    (hx : x.run.Gives plan h fun r h' => r = .ok a ∧ h' = t) (hf : (f a).run.ComesTo plan t y P) :
    (x >>= f).run.ComesTo plan h y P := by
  refine comesTo_after (f := ExceptT.bindCont f) hx ?_
  rintro _ _ ⟨rfl, rfl⟩
  exact hf

end Async

end

variable {ev : Evaluator} {h h' : Host}

namespace Host

/-! ### What is meant by no file -/

theorem firstFile?_eq_none_iff {known : Nat → String → Bool} {id : String} {context : Context} {ns : List Nat} :
    h.firstFile? known id context ns = none ↔ ∀ n ∈ ns, (h.meantBy? id context n).filter (known n) = none := by
  induction ns with
  | nil => exact ⟨nofun, fun _ => rfl⟩
  | cons n ns ih =>
    unfold firstFile?
    rw [List.forall_mem_cons, ← ih]
    cases (h.meantBy? id context n).filter (known n) with
    | none => simp
    | some path => simp

/-- A module from the network is meant where neither the host lends one nor a resolver knows a file. -/
theorem meant_eq_remote_iff {known : Nat → String → Bool} {id : String} {context : Context} :
    h.meant known id context = .remote ↔
      (if h.settings.exposeInternalModules then h.natives.modules.at? id else none) = none ∧
        ∀ n ∈ List.range strategies.length, (h.meantBy? id context n).filter (known n) = none := by
  rw [← firstFile?_eq_none_iff]
  unfold meant
  cases (if h.settings.exposeInternalModules then h.natives.modules.at? id else none) with
  | some value => simp
  | none => cases h.firstFile? known id context (List.range strategies.length) <;> simp

/-! ### Importing comes to ask the network -/

/-- The host is the same as far as remote modules are concerned; only what was asked for may be noted. -/
structure Poised (h h' : Host) : Prop where
  redirects : h'.remote.redirects = h.remote.redirects
  modules : h'.remote.modules = h.remote.modules
  token : h'.remote.nextToken = h.remote.nextToken
  network : h'.network = h.network
  settings : h'.settings = h.settings
  watched : h'.watched = h.watched
  asked : h'.asked = h.asked

/-- The modules of the host leave the question to others where none is lent. -/
theorem gives_resolveNative_passes (ha : h.asked = []) {id : String}
    (hlent : (if h.settings.exposeInternalModules then h.natives.modules.at? id else none) = none) :
    (liftM (resolveNative id) : Errand (Option Resolved)).run.Gives (plan ev) h fun r h' =>
      r = .ok none ∧ h' = { h with natives := (h.natives.resolve h.settings.exposeInternalModules id).2 } := by
  have hexec : (resolveNative id).exec h = some (.ok (h.natives.resolve h.settings.exposeInternalModules id).1,
      { h with natives := (h.natives.resolve h.settings.exposeInternalModules id).2 }) :=
    Action.exec_modifyGet _ h
  have hfound : (h.natives.resolve h.settings.exposeInternalModules id).1 = none := by
    show (if h.settings.exposeInternalModules then (h.natives.modules.at? id).map _ else none) = none
    split at hlent
    · rw [hlent, Option.map_none, ite_self]
    · next hno => exact if_neg hno
  exact gives_act hexec (collect_of_asked (by exact ha)) ⟨congrArg Except.ok hfound, rfl⟩

/-- The resolvers of files pass, and leave the question to the network. -/
theorem comesTo_firstAnswer {β : Type} {y : Async Host Work β} {P : Host → Prop} (ha : h.asked = []) {id : String}
    {context : Context} (hlast : ∀ h', Unmoved h h' → h'.watched = h.watched →
      (resolveRemoteLater id context).run.ComesTo (plan ev) h' y P) (ns : List Nat)
    (hnone : ∀ n ∈ ns, (h.meantBy? id context n).filter (h.canImport n) = none) :
    ∀ h', Unmoved h h' → h'.watched = h.watched →
      (firstAnswer (ns.map (fun n => Files.resolveLater transpilersLater n id context) ++
        [resolveRemoteLater id context])).run.ComesTo (plan ev) h' y P := by
  induction ns with
  | nil => exact fun h' a hw => comesTo_except (hlast h' a hw)
  | cons n ns ih =>
    intro h' a hw
    obtain ⟨hn, hns⟩ := List.forall_mem_cons.1 hnone
    rw [← a.meantBy?, ← a.canImport] at hn
    obtain ⟨_, h'', ⟨rfl, a', hw'⟩, hrun⟩ := @gives_resolveLater_passes ev _ (a.asked.trans ha) n id context hn
    exact comesTo_then ⟨_, h'', ⟨rfl, rfl⟩, hrun⟩ (ih hns h'' (a.trans a') (hw'.trans hw))

/-- The network is asked for what may be loaded from it. -/
theorem comesTo_resolveRemoteLater (ha : h.asked = []) (hlinks : h.settings.enableExternalLinks = true) {id : String}
    {context : Context} {href : String} (hid : Url.normalize? id context.cwd = some href) :
    (resolveRemoteLater id context).run.ComesTo (plan ev) h (fetchRemote id context.cwd true).run (Poised h) := by
  obtain ⟨remote, htrack, hremote⟩ : ∃ remote, trackRemote id context.cwd h = (true, { h with remote := remote }) ∧
      ∃ target, remote = h.remote.track target := by
    unfold trackRemote Remote.address?
    rw [hid, Option.map_some, hlinks]
    exact ⟨_, rfl, _, rfl⟩
  obtain ⟨target, rfl⟩ := hremote
  refine comesTo_then (a := true) (t := { h with remote := h.remote.track target }) ?_ ?_
  · refine gives_lift (gives_step ?_ ?_)
    · rw [htrack]
      exact collect_of_asked ha
    · rw [htrack]
      exact ⟨rfl, rfl⟩
  · exact comesTo_except (comesTo_self ⟨rfl, rfl, rfl, rfl, rfl, rfl, rfl⟩)

/-- An import of what is neither lent nor a file comes to fetch a remote module. -/
theorem comesTo_importAs {l : Nat} {cwd : Option String} {id href : String} (ha : h.asked = [])
    (hlinks : h.settings.enableExternalLinks = true)
    (hmeant : h.meant h.canImport id ((h.entered l cwd).contextOf l) = .remote)
    (hid : Url.normalize? id ((h.entered l cwd).contextOf l).cwd = some href) (interop : Bool) :
    (importAs l id cwd interop).run.ComesTo (plan ev) h
      (fetchRemote id ((h.entered l cwd).contextOf l).cwd true).run (Poised h) := by
  obtain ⟨hlent, hfiles⟩ := meant_eq_remote_iff.1 hmeant
  set context := (h.entered l cwd).contextOf l with hcontext
  unfold importAs withinLater
  refine comesTo_after (Q := fun _ h' => h' = h.entered l cwd) (gives_change (collect_of_asked (by exact ha)) rfl) ?_
  rintro _ _ rfl
  refine comesTo_bind (comesTo_then (a := context) (gives_lift (gives_view ⟨rfl, rfl⟩)) ?_)
  refine comesTo_then (gives_lift (gives_change (collect_of_asked (by exact ha)) ⟨rfl, rfl⟩)) (comesTo_except ?_)
  set h₁ : Host := depend l context id (h.entered l cwd) with hh₁
  have hlast (h' : Host) (a : Unmoved h₁ h') (hw : h'.watched = h₁.watched) :
      (resolveRemoteLater id context).run.ComesTo (plan ev) h' (fetchRemote id context.cwd true).run (Poised h) := by
    obtain ⟨h'', p, hrun⟩ :=
      @comesTo_resolveRemoteLater ev h' (a.asked.trans ha) (a.settings ▸ hlinks) id context href hid
    refine ⟨h'', ⟨?_, ?_, ?_, p.network.trans a.network, p.settings.trans a.settings, p.watched.trans hw,
      p.asked.trans a.asked⟩, hrun⟩
    · rw [p.redirects, a.remote]; rfl
    · rw [p.modules, a.remote]; rfl
    · rw [p.token, a.remote]; rfl
  -- no module of the host is lent, so the resolvers of files are asked, and the network after them
  exact comesTo_then (gives_resolveNative_passes (h := h₁) ha hlent)
    (comesTo_firstAnswer (h := h₁) ha hlast (List.range strategies.length) hfiles _ (unmoved_natives ..) rfl)

/-! ### Fetching what is not there -/

/-- Loads an address; `wait` tells whether a load under way is waited for. -/
def fetchAt (href : String) (wait : Bool) : Errand (Option (String × RemoteModule)) := do
  match ← (Async.step (claimRemote href wait) : Async Host Work _) with
  | .settled (.error failure) => throw failure
  | .settled (.ok module) => return module.map (href, ·)
  | .pending work => loaded href work
  | .begun work token =>
    (Async.share work (.fetching href token) : Async Host Work Unit)
    loaded href work

theorem fetchRemote_run (id : String) (cwd : Option String) (wait : Bool)
    (k : Except Failure (Option (String × RemoteModule)) → Fiber Host Work) :
    (fetchRemote id cwd wait).run k = destination id cwd fun
      | some href => (fetchAt href wait).run k
      | none => k (.ok none) := by
  unfold fetchRemote
  show destination id cwd _ = destination id cwd _
  congr 1
  funext href
  cases href <;> rfl

/-- The load of an address of which nothing is known is begun, and waited for. -/
theorem fetchAt_move (ha : h.asked = []) {href : String} (hfree : h.entry href = none)
    (k : Except Failure (Option (String × RemoteModule)) → Fiber Host Work) :
    ∃ next, ((fetchAt href true).run k).move (plan ev) h = (.awaiting h.nextWork next,
      { h.number.2 with remote := (h.remote.beginLoad href h.nextWork).2 },
      [(h.nextWork, .fetching href h.remote.nextToken)]) := by
  set h₁ : Host := { h.number.2 with remote := (h.remote.beginLoad href h.nextWork).2 } with hh₁
  have hclaim : claimRemote href true h = (.begun h.nextWork h.remote.nextToken, h₁) := by
    unfold claimRemote
    rw [show h.remote.modules.at? href = none from hfree]
    rfl
  have hgives : (ExceptT.lift (Async.step (claimRemote href true)) : Errand Claim).run.Gives (plan ev) h fun r h' =>
      r = .ok (.begun h.nextWork h.remote.nextToken) ∧ h' = h₁ := by
    refine gives_lift (gives_step ?_ ?_) <;> rw [hclaim]
    · exact collect_of_asked ha
    · exact ⟨rfl, rfl⟩
  obtain ⟨_, _, ⟨rfl, rfl⟩, hrun⟩ := hgives
  exact ⟨_, (hrun _).move⟩

/-- To ask where an address leads changes nothing of the modules that there are. -/
theorem askNetwork_eq (hq : h.Quiet) (href : String) : ∃ remote loaders announced, askNetwork href h =
      ((h.network.destination href).toOption.getD href,
        { h with remote := remote, loaders := loaders, announced := announced }) ∧
    remote.modules = h.remote.modules ∧ remote.nextToken = h.remote.nextToken := by
  unfold askNetwork
  cases h.network.destination href with
  | error e => exact ⟨h.remote, h.loaders, h.announced, rfl, rfl, rfl⟩
  | ok target =>
    obtain ⟨loaders, announced, he⟩ := announces_quiet (h.remote.announce href).1
      { h with remote := (h.remote.announce href).2 } hq
    have he : h.announceRemote href = _ := he
    dsimp only
    rw [he]
    exact ⟨_, loaders, announced, rfl, rfl, rfl⟩

/-- Where an address is known to lead is told at once; otherwise the network is asked. -/
theorem runs_destination {id start : String} {cwd : Option String} (hid : Url.normalize? id cwd = some start)
    (k : Option String → Fiber Host Work) : (destination id cwd k).Runs (plan ev) h
      (match h.remote.redirects.at? start with
        | some target => k (some target)
        | none => .consult (Async.step (askNetwork start) fun target => k (some target))) h := by
  unfold destination
  rw [hid]
  refine .look ?_
  dsimp only
  cases h.remote.redirects.at? start with
  | some target => exact .refl ..
  | none => exact .refl ..

/-- A remote module that is not there is fetched: it is asked where its address leads, if that is not known, and then
its load is begun and waited for. -/
theorem fetchRemote_moves (ha : h.asked = []) (hq : h.Quiet) {id href : String} {cwd : Option String}
    (hfinal : h.finalAddress? id cwd = some href) (hfree : h.entry href = none)
    (k : Except Failure (Option (String × RemoteModule)) → Fiber Host Work) :
    ∃ work next h', h'.network = h.network ∧
      (((fetchRemote id cwd true).run k).move (plan ev) h =
          (.awaiting work next, h', [(work, .fetching href h.remote.nextToken)]) ∨
        ∃ fiber, ((fetchRemote id cwd true).run k).move (plan ev) h = (.going fiber, h, []) ∧
          fiber.move (plan ev) h = (.awaiting work next, h', [(work, .fetching href h.remote.nextToken)])) := by
  obtain ⟨start, hid, htarget⟩ := Option.map_eq_some_iff.1 hfinal
  rw [fetchRemote_run, (runs_destination hid _).move]
  cases hknown : h.remote.redirects.at? start with
  | some target =>
    rw [hknown, Option.getD_some] at htarget
    subst htarget
    obtain ⟨next, hmove⟩ := @fetchAt_move ev h ha target hfree k
    refine ⟨h.nextWork, next, _, ?_, .inl hmove⟩
    rfl
  | none =>
    rw [hknown, Option.getD_none] at htarget
    obtain ⟨remote, loaders, announced, hask, hmodules, htoken⟩ := @askNetwork_eq h hq start
    rw [htarget] at hask
    set h₁ : Host := { h with remote := remote, loaders := loaders, announced := announced } with hh₁
    have hfree₁ : h₁.entry href = none := (congrArg (Table.at? · href) hmodules).trans hfree
    obtain ⟨next, hmove⟩ := @fetchAt_move ev h₁ ha href hfree₁ k
    rw [htoken] at hmove
    have hgives : (Async.step (askNetwork start) : Async Host Work String).Gives (plan ev) h fun a h' =>
        a = href ∧ h' = h₁ := by
      refine gives_step ?_ ?_ <;> rw [hask]
      · exact collect_of_asked ha
      · exact ⟨rfl, rfl⟩
    obtain ⟨_, _, ⟨rfl, rfl⟩, hrun⟩ := hgives
    refine ⟨h₁.nextWork, next, _, ?_, .inr ⟨_, rfl, (hrun _).move.trans hmove⟩⟩
    rfl

/-! ### What a load does first -/

/-- Up to where it first waits, a computation leaves the network alone. -/
def SparesNetwork (ev : Evaluator) (α : Type) (x : Async Host Work α) : Prop :=
  ∀ k : α → Fiber Host Work, (∀ a h, ((k a).move (plan ev) h).2.1.network = h.network) →
    ∀ h, ((x k).move (plan ev) h).2.1.network = h.network

theorem spares_step {α : Type} {f : Host → α × Host} (hf : ∀ h, (f h).2.network = h.network) :
    SparesNetwork ev α (Async.step f) := fun _ hk h => (hk _ _).trans (hf h)

theorem spares_change {f : Host → Host} (hf : ∀ h, (f h).network = h.network) :
    SparesNetwork ev Unit (Async.change f) := spares_step (f := fun h => ((), f h)) hf

theorem spares_view {α : Type} (f : Host → α) : SparesNetwork ev α (Async.view f) := fun _ hk h => hk _ h

theorem spares_closed : Closed (SparesNetwork ev) where
  pure a := fun _ hk h => hk a h
  bind hx hf := fun k hk => hx _ fun a => hf a k hk
  files _ := spares_step fun _ => rfl

theorem spares_drafted (id : Nat) : SparesNetwork ev _ (drafted id).run := fun _ _ _ => rfl

theorem spares_draft (source : Source) (request : Compile.Request) : SparesNetwork ev _ (draft source request) :=
  spares_closed.bind (spares_step fun _ => rfl) fun _ => spares_closed.bind (spares_change fun _ => rfl) fun _ =>
    spares_closed.bind (fun _ hk h => hk () h) fun _ => spares_closed.pure _

theorem spares_moduleOf (source : Source) (given : Option Header) : SparesNetwork ev _ (moduleOf source given).run := by
  unfold moduleOf
  refine spares_closed.except.bind (spares_closed.lift (spares_view _)) fun kept => ?_
  split
  · exact spares_closed.except.pure none
  · exact spares_drafted _
  · split
    · exact spares_closed.except.bind (spares_closed.lift (spares_change fun _ => rfl)) fun _ =>
        spares_closed.except.pure none
    · split
      · exact spares_closed.except.bind (spares_closed.lift (spares_draft source _)) spares_drafted
      · exact spares_closed.except.bind (spares_closed.lift (spares_step fun _ => rfl)) fun _ _ _ _ => rfl

theorem spares_prepare (href : String) (token : Nat) (body : String) :
    SparesNetwork ev _ (prepare href token body) := by
  unfold prepare
  refine spares_closed.bind (spares_moduleOf _ _) fun _ => spares_closed.bind (spares_change fun h => ?_) fun _ => ?_
  · split <;> rfl
  · -- it waits for a worker to replace the calls
    exact spares_closed.bind (spares_view _) fun _ => spares_closed.bind (spares_step fun _ => rfl) fun _ _ _ _ => rfl

/-- A load lets others go on once, and then fetches the page. -/
theorem fetching_moves (id : Nat) (href : String) (token : Nat) :
    ∃ fiber, ((plan ev).perform id (.fetching href token)).move (plan ev) h = (.going fiber, h, []) ∧
      ∀ h, (fiber.move (plan ev) h).2.1.network = (h.network.fetch href).2 := by
  have hfetch (rest : Except Failure String → Async Host Work Unit)
      (hrest : ∀ body, SparesNetwork ev Unit (rest body)) (h : Host) :
      ((Async.step (fun h => ((h.network.fetch href).1, { h with network := (h.network.fetch href).2 })) >>= rest :
        Async Host Work Unit) fun _ => .done).move (plan ev) h |>.2.1.network = (h.network.fetch href).2 :=
    hrest (h.network.fetch href).1 (fun _ => .done) (fun _ _ => rfl) _
  refine ⟨_, rfl, hfetch _ fun body => ?_⟩
  cases body with
  | error e => exact spares_change fun _ => rfl
  | ok body => exact spares_closed.bind (spares_prepare href token body) fun _ => spares_change fun _ => rfl

/-! ### The next import -/

/-- In whatever order threads go on that an import begins, they come to where a load of an address was begun under a new
number and asked for its page; no other page was asked for before. -/
def Refetches (ev : Evaluator) (h : Host) (l : Nat) (id : String) (cwd : Option String) (interop : Bool)
    (href : String) : Prop :=
  (h.rooted (importAs l id cwd interop).run.fiber).Comes (plan ev) fun c =>
    c.state.network = (h.network.fetch href).2 ∧ ∃ work, c.Begun work (.fetching href h.remote.nextToken)

/-- While one thread waits for a load, the load fetches its page. -/
theorem comes_of_begun (root work : Nat) (next : Fiber Host Work) (href : String) (token : Nat) (h : Host) :
    Weave.Comes (plan ev)
      (fun c => c.state.network = (h.network.fetch href).2 ∧ ∃ work, c.Begun work (.fetching href token))
      ⟨h, [⟨root, none, .awaiting work next⟩,
        ⟨work, some (.fetching href token), .going ((plan ev).perform work (.fetching href token))⟩]⟩ := by
  obtain ⟨fiber, hfirst, hthen⟩ := @fetching_moves ev h work href token
  set waiting : Thread Host Work := ⟨root, none, .awaiting work next⟩ with hwaiting
  have hstuck (loading : Thread Host Work) (hgoing : loading.strand ≠ .ended) :
      ∀ u ∈ [waiting], ∀ strand h' begun,
        ¬u.strand.Moves (plan ev) (Weave.Over ⟨h, [waiting, loading]⟩) h strand h' begun := by
    intro u hu strand h' begun hm
    rw [List.mem_singleton.1 hu] at hm
    obtain ⟨t, ht, -, hended⟩ : Weave.Over ⟨h, [waiting, loading]⟩ work := by
      cases hm
      assumption
    rcases List.mem_cons.1 ht with rfl | ht
    · cases hended
    · exact hgoing (List.mem_singleton.1 ht ▸ hended)
  refine Weave.comes_of_move [waiting] hfirst (hstuck _ nofun) ?_
  refine Weave.comes_of_move [waiting] rfl (hstuck _ nofun) (.here ⟨hthen h, work, ?_⟩)
  exact ⟨_, List.mem_cons_of_mem _ List.mem_cons_self, rfl, rfl⟩

/-- An import fetches the module that it means in the end, if nothing is known of that module. -/
theorem refetches_of_free {l : Nat} {id href : String} {cwd : Option String} (ha : h.asked = []) (hq : h.Quiet)
    (hlinks : h.settings.enableExternalLinks = true)
    (hmeant : h.meant h.canImport id ((h.entered l cwd).contextOf l) = .remote)
    (hfinal : h.finalAddress? id ((h.entered l cwd).contextOf l).cwd = some href) (hfree : h.entry href = none)
    (interop : Bool) : h.Refetches ev l id cwd interop href := by
  obtain ⟨start, hid, -⟩ := Option.map_eq_some_iff.1 hfinal
  obtain ⟨h₁, p, hrun⟩ := @comesTo_importAs ev h.number.2 l cwd id start ha hlinks hmeant hid interop
  obtain ⟨k, hrun⟩ := hrun fun _ => .done
  have hfinal₁ : h₁.finalAddress? id ((h.entered l cwd).contextOf l).cwd = some href := by
    rw [← hfinal]
    unfold finalAddress?
    rw [p.redirects, p.network]
    rfl
  have hfree₁ : h₁.entry href = none := (congrArg (Table.at? · href) p.modules).trans hfree
  have hq₁ : h₁.Quiet := by
    unfold Quiet
    rw [p.watched, p.settings]
    exact hq
  -- the load is begun in the first move, or in the second one where it is asked first where the address leads
  obtain ⟨work, next, h₂, hnetwork, hmoves⟩ := fetchRemote_moves (p.asked.trans ha) hq₁ hfinal₁ hfree₁ k
  rw [p.token] at hmoves
  have hbegun := @comes_of_begun ev h.nextWork work next href h.remote.nextToken h₂
  rw [hnetwork, p.network] at hbegun
  have hstart := hrun.move
  rcases hmoves with hmove | ⟨fiber, hmove, hmove'⟩
  · exact Weave.comes_of_move [] (hstart.trans hmove) (fun _ hu => nomatch hu) hbegun
  · exact Weave.comes_of_move [] (hstart.trans hmove) (fun _ hu => nomatch hu)
      (Weave.comes_of_move [] hmove' (fun _ hu => nomatch hu) hbegun)

/-! ### What is forgotten -/

theorem absorb_of_quiet (hq : h.Quiet) (change : Ripple × Files) : ∃ workshop loaders announced, h.absorb change =
    { h with files := change.2, workshop := workshop, loaders := loaders, announced := announced } := by
  obtain ⟨workshop, hforgets, -, -⟩ := forgets_rest change.1.forgotten { h with files := change.2 }
  obtain ⟨loaders, announced, hannounces⟩ :=
    announces_quiet change.1.announced { h with files := change.2, workshop := workshop } hq
  refine ⟨workshop, loaders, announced, ?_⟩
  unfold absorb
  rw [hforgets]
  exact hannounces

/-- To invalidate an id lets all resolvers forget it, and else changes what loaders and transpilers keep. -/
theorem invalidate_eq (hq : h.Quiet) (m : Nat) (x : String) : ∃ workshop loaders announced, h.invalidate m x =
    { h with
      natives := h.natives.invalidate x, files := (h.files.invalidate x).2, remote := (h.remote.invalidate x).2
      workshop := workshop, loaders := loaders, announced := announced } := by
  obtain ⟨loaders, announced, hevict⟩ := evicts_quiet x [m] hq
  set h₁ : Host := { h with loaders := loaders, announced := announced, natives := h.natives.invalidate x } with hh₁
  obtain ⟨workshop, loaders', announced', habsorb⟩ := absorb_of_quiet (h := h₁) hq (h.files.invalidate x)
  obtain ⟨workshop', hforgets, -⟩ := forgetLoads_rest
    { h with
      natives := h.natives.invalidate x, files := (h.files.invalidate x).2, remote := (h.remote.invalidate x).2
      workshop := workshop, loaders := loaders', announced := announced' } (h.remote.invalidate x).1
  refine ⟨workshop', loaders', announced', ?_⟩
  unfold invalidate
  rw [show evict x h m = _ from hevict, forgetId_eq, habsorb]
  exact hforgets

/-- Loaders work in the same directories afterwards. -/
theorem contextOf_invalidate {l : Nat} (hl : l < h.loaders.length) (m : Nat) (x : String) (cwd : Option String) :
    ((h.invalidate m x).entered l cwd).contextOf l = (h.entered l cwd).contextOf l := by
  obtain ⟨hlength, hsame⟩ : SameStacks h (h.invalidate m x) := allows_invalidate m x h
  unfold contextOf entered
  rw [loader_onLoader hl, loader_onLoader (Nat.lt_of_lt_of_le hl hlength), Loader.enter_context, Loader.enter_context,
    hsame l hl]

/-- A resolver of files that forgets an id forgets the code of that path. -/
theorem resolver_invalidate (f : Files) (x : String) (n : Nat) :
    ((f.invalidate x).2.resolver n).strategy = (f.resolver n).strategy ∧
      ((f.invalidate x).2.resolver n).entries = (f.resolver n).entries.erase x := by
  by_cases hn : n < f.resolvers.length
  · obtain ⟨hentries, -, hstrategy⟩ := forgetToken_entries ((f.snapshot.get? x).map (·.token)).toList
      { f.resolver n with
        tracked := (f.resolver n).tracked.erase x, entries := (f.resolver n).entries.erase x }
    rw [Files.invalidate, Files.resolver_overall _ hn]
    exact ⟨hstrategy, hentries⟩
  · have hle := Nat.le_of_not_lt hn
    rw [Files.invalidate, Files.resolver_overall_of_le _ hle, Files.resolver_of_le hle]
    exact ⟨rfl, rfl⟩

/-- Where fewer entries are kept, no other code is. -/
theorem lookup_of_erase {r r' : FileResolver} {x : String} (hr : r'.entries = r.entries.erase x) (s : Snapshot)
    (identity : Identity) (form : Compile.Form) (hkept : (r'.lookup s identity form).1.1.isSome) :
    (r.lookup s identity form).1.1.isSome := by
  unfold FileResolver.lookup at hkept ⊢
  cases hentry : r'.entries.at? identity.path with
  | none =>
    rw [hentry] at hkept
    cases hkept
  | some entry =>
    rw [hr] at hentry
    rw [hr, hentry] at hkept
    rw [at?_of_at?_erase hentry]
    dsimp only at hkept ⊢
    split at hkept
    · cases hkept
    · next htoken =>
      rw [if_neg htoken]
      split at hkept
      · next hall =>
        rw [if_pos hall]
        exact hkept
      · cases hkept

/-- What means a module from the network goes on to mean one when something is forgotten. -/
theorem meant_invalidate (hq : h.Quiet) (m : Nat) (x : String) {id : String} {context : Context}
    (hmeant : h.meant h.canImport id context = .remote) :
    (h.invalidate m x).meant (h.invalidate m x).canImport id context = .remote := by
  obtain ⟨hlent, hfiles⟩ := meant_eq_remote_iff.1 hmeant
  obtain ⟨workshop, loaders, announced, he⟩ := invalidate_eq hq m x
  rw [he]
  refine meant_eq_remote_iff.2 ⟨hlent, fun n hn => Option.filter_eq_none_iff.2 fun path hpath hknown => ?_⟩
  obtain ⟨hstrategy, hentries⟩ := resolver_invalidate h.files x n
  unfold meantBy? at hpath
  rw [hstrategy] at hpath
  refine Option.filter_eq_none_iff.1 (hfiles n hn) path hpath ?_
  -- whoever knows the file afterwards knew it before: no more is kept of it
  unfold canImport at hknown ⊢
  refine Bool.or_eq_true_iff.2 ((Bool.or_eq_true_iff.1 hknown).imp_right fun hkeeps => ?_)
  obtain ⟨identity, hget, hkept⟩ := (Option.any_eq_true _ _).1 hkeeps
  exact (Option.any_eq_true _ _).2 ⟨identity, hget, lookup_of_erase hentries _ _ _ hkept⟩

/-- Of remote modules the one goes that the id is redirected to, or else the one of that very address. -/
theorem entry_invalidate (hq : h.Quiet) (m : Nat) (x href : String) : (h.invalidate m x).entry href =
    if href = (h.remote.redirects.at? x).getD x then none else h.entry href := by
  obtain ⟨workshop, loaders, announced, he⟩ := invalidate_eq hq m x
  rw [he]
  exact Table.at?_erase ..

/-- An import after an id was forgotten fetches the module that it means then, if that is the one that was forgotten
with the id. -/
theorem refetches_of_invalidate {l m : Nat} {s x href : String} {cwd : Option String} (hl : l < h.loaders.length)
    (ha : h.asked = []) (hq : h.Quiet) (hlinks : h.settings.enableExternalLinks = true)
    (hmeant : h.meant h.canImport s ((h.entered l cwd).contextOf l) = .remote) {start : String}
    (hs : Url.normalize? s ((h.entered l cwd).contextOf l).cwd = some start)
    (hfinal : ((h.remote.redirects.erase x).at? start).getD ((h.network.destination start).toOption.getD start) = href)
    (hvictim : (h.remote.redirects.at? x).getD x = href) (interop : Bool) :
    (h.invalidate m x).Refetches ev l s cwd interop href := by
  obtain ⟨workshop, loaders, announced, he⟩ := invalidate_eq hq m x
  have hmeant' := meant_invalidate hq m x hmeant
  rw [← contextOf_invalidate hl m x cwd] at hmeant' hs
  have hasked : (h.invalidate m x).asked = [] := by rw [he]; exact ha
  have hquiet : (h.invalidate m x).Quiet := by rw [he]; exact hq
  have hallowed : (h.invalidate m x).settings.enableExternalLinks = true := by rw [he]; exact hlinks
  refine refetches_of_free hasked hquiet hallowed hmeant' ?_ ?_ interop
  · unfold finalAddress?
    rw [hs, he]
    exact congrArg some hfinal
  · rw [entry_invalidate hq, if_pos hvictim.symm]

/-- Invalidating an address reloads what it is redirected to: where a remote module is imported by an address as it is
written in full, and its address in the end is known, the next import fetches it again, whether the one or the other was
invalidated. -/
theorem invalidate_refetches (ev : Evaluator) {l : Nat} {s c : String} {cwd : Option String} (hl : l < h.loaders.length)
    (ha : h.asked = []) (hq : h.Quiet) (hlinks : h.settings.enableExternalLinks = true)
    (hmeant : h.meant h.canImport s ((h.entered l cwd).contextOf l) = .remote)
    (hs : Url.normalize? s ((h.entered l cwd).contextOf l).cwd = some s)
    (hc : h.remote.address? s ((h.entered l cwd).contextOf l).cwd = some c)
    (hend : (h.remote.redirects.at? c).getD c = c) (hnetwork : (h.network.destination s).toOption.getD s = c)
    (m : Nat) (interop : Bool) :
    (h.invalidate m s).Refetches ev l s cwd interop c ∧ (h.invalidate m c).Refetches ev l s cwd interop c := by
  have htarget : (h.remote.redirects.at? s).getD s = c := by
    unfold Remote.address? at hc
    rw [hs] at hc
    exact Option.some.inj hc
  refine ⟨refetches_of_invalidate hl ha hq hlinks hmeant hs ?_ htarget interop,
    refetches_of_invalidate hl ha hq hlinks hmeant hs ?_ hend interop⟩
  · rw [Table.at?_erase_same]
    exact hnetwork
  · -- the address itself may be the one that it leads to in the end
    rw [Table.at?_erase]
    split
    · exact hnetwork
    · cases hknown : h.remote.redirects.at? s with
      | none => exact hnetwork
      | some target =>
        rw [hknown] at htarget
        exact htarget

/-- A test whether a specifier means a module from the network. -/
def meansRemote (h : Host) (id : String) (context : Context) : Bool :=
  match h.meant h.canImport id context with
  | .remote => true
  | _ => false

theorem meant_of_meansRemote {id : String} {context : Context} (htest : h.meansRemote id context = true) :
    h.meant h.canImport id context = .remote := by
  unfold meansRemote at htest
  split at htest
  · assumption
  · cases htest

/-- A page that moved. -/
def movedPage : Parts where
  vault := .memory {}
  settings := { enableExternalLinks := true }
  network := {
    pages := [("https://b.example/m.js", "")]
    redirects := [("https://a.example/m.js", "https://b.example/m.js")] }

/-- A page that moved is fetched again after its old address was invalidated, as well as after its new one was. -/
theorem invalidate_refetches_moved : ∃ s, Session.build Scan.evaluator movedPage = .ok s ∧
    ∃ h : Host, h = (s.start.importAs 0 "https://a.example/m.js" none false).2.host ∧
      h.network.requests = ["https://b.example/m.js"] ∧
      (h.invalidate 0 "https://a.example/m.js").Refetches Scan.evaluator 0 "https://a.example/m.js" none false
        "https://b.example/m.js" ∧
      (h.invalidate 0 "https://b.example/m.js").Refetches Scan.evaluator 0 "https://a.example/m.js" none false
        "https://b.example/m.js" := by
  have hrun : (Session.build Scan.evaluator movedPage).toOption.any (fun s =>
      let h := (s.start.importAs 0 "https://a.example/m.js" none false).2.host
      let context := (h.entered 0 none).contextOf 0
      (((decide (0 < h.loaders.length) && h.asked.isEmpty) &&
          (h.settings.startupModules.isEmpty && h.settings.enableExternalLinks)) &&
        (h.meansRemote "https://a.example/m.js" context &&
          (Url.normalize? "https://a.example/m.js" context.cwd == some "https://a.example/m.js"))) &&
      (((h.remote.address? "https://a.example/m.js" context.cwd == some "https://b.example/m.js") &&
          ((h.remote.redirects.at? "https://b.example/m.js").getD "https://b.example/m.js" ==
            "https://b.example/m.js")) &&
        (((h.network.destination "https://a.example/m.js").toOption.getD "https://a.example/m.js" ==
          "https://b.example/m.js") && (h.network.requests == ["https://b.example/m.js"])))) = true := by
    decide +kernel
  obtain ⟨s, hs, htest⟩ := (Option.any_eq_true _ _).1 hrun
  simp only [Bool.and_eq_true_iff, decide_eq_true_eq, List.isEmpty_iff, beq_iff_eq] at htest
  obtain ⟨⟨⟨⟨hl, ha⟩, hq, hlinks⟩, hmeant, hurl⟩, ⟨hc, hend⟩, hnetwork, hrequests⟩ := htest
  exact ⟨s, eq_ok_of_toOption hs, _, rfl, hrequests, invalidate_refetches Scan.evaluator hl ha (.inr hq) hlinks
    (meant_of_meansRemote hmeant) hurl hc hend hnetwork 0 false⟩

/-- A page that is there. -/
def onePage : Parts where
  vault := .memory {}
  settings := { enableExternalLinks := true }
  network := { pages := [("https://a.example/m.js", "")] }

/-- A page that was imported under another spelling of its address stays when that spelling is invalidated: the loader
knows what the spelling stands for and evicts the module, but the next import of it fetches nothing.  It does after the
address was invalidated. -/
theorem not_refetched_other_spelling : ∃ s, Session.build Scan.evaluator onePage = .ok s ∧
    ∃ s₁ : Session, s₁ = (s.start.importAs 0 "https://a.example/x/../m.js" none false).2 ∧
      (s₁.host.loader 0).graph.aliased.at? "https://a.example/x/../m.js" = some "https://a.example/m.js" ∧
      s₁.host.network.requests = ["https://a.example/m.js"] ∧
      ((s₁.change (invalidate 0 "https://a.example/x/../m.js")).importAs 0 "https://a.example/x/../m.js" none
        false).2.host.network.requests = ["https://a.example/m.js"] ∧
      ((s₁.change (invalidate 0 "https://a.example/m.js")).importAs 0 "https://a.example/x/../m.js" none
        false).2.host.network.requests = ["https://a.example/m.js", "https://a.example/m.js"] := by
  have hrun : (Session.build Scan.evaluator onePage).toOption.any (fun s =>
      let s₁ := (s.start.importAs 0 "https://a.example/x/../m.js" none false).2
      (((s₁.host.loader 0).graph.aliased.at? "https://a.example/x/../m.js" == some "https://a.example/m.js") &&
          (s₁.host.network.requests == ["https://a.example/m.js"])) &&
        ((((s₁.change (invalidate 0 "https://a.example/x/../m.js")).importAs 0 "https://a.example/x/../m.js" none
            false).2.host.network.requests == ["https://a.example/m.js"]) &&
          (((s₁.change (invalidate 0 "https://a.example/m.js")).importAs 0 "https://a.example/x/../m.js" none
            false).2.host.network.requests == ["https://a.example/m.js", "https://a.example/m.js"]))) = true := by
    decide +kernel
  obtain ⟨s, hs, htest⟩ := (Option.any_eq_true _ _).1 hrun
  simp only [Bool.and_eq_true_iff, beq_iff_eq] at htest
  obtain ⟨⟨halias, hfirst⟩, hspelling, haddress⟩ := htest
  exact ⟨s, eq_ok_of_toOption hs, _, rfl, halias, hfirst, hspelling, haddress⟩

end Host

end ScriptVault

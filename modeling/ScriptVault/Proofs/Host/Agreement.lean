import ScriptVault.Proofs.Host.Edits
import ScriptVault.Proofs.Host.Later
import ScriptVault.Proofs.Host.Program

/-!
# Agreement — a specifier stands for the same module at once and later

Required and imported, a specifier stands for the same module: the same value that is lent, the same file, the same
address.  Only a file that was not read ahead can be imported and not required; an address may turn out to lead
elsewhere; and a compiler may fail for one of the two forms.
-/

namespace ScriptVault

namespace Host

open Async

variable {ev : Evaluator} {h : Host} {s : Schedule Host Work}

/-! ### Tasks that begin with a nap -/

/-- A task that waits for time, or will as soon as it runs. -/
inductive Naps (ev : Evaluator) (s : Schedule Host Work) : Parked Host Work → Prop where
  /-- It is to run startup modules again, after a while. -/
  | reloading (id : Nat) (ids : List String) : Naps ev s (.fresh ((plan ev).perform id (.reloading reloadDelay ids)))
  /-- It sleeps. -/
  | sleeping {timer : Nat} {next : Fiber Host Work} (hset : s.isSet timer = true) : Naps ev s (.sleeping timer next)

/-- All tasks that can run only come to wait for time. -/
structure Dozes (ev : Evaluator) (s : Schedule Host Work) : Prop where
  /-- No task is to be started. -/
  asked : s.state.asked = []
  /-- Nobody lets others go first. -/
  resting : s.resting = []
  /-- No worker has a job. -/
  jobs : s.jobs = []
  /-- A task that can run naps. -/
  naps : ∀ id ∈ s.ready, ∀ parked, s.tasks.at? id = some parked → Naps ev s parked

/-- A task that naps comes to wait for time, and tells nothing. -/
theorem resume_naps {s : Schedule Host Work} (ha : s.state.asked = []) {parked : Parked Host Work} (hn : Naps ev s parked)
    (pump : Nat → Schedule Host Work → Schedule Host Work) (waker : Waker) :
    ∃ timer next state timers n, Schedule.resume (plan ev) pump waker parked s =
      (.sleeping timer next, { s with state := state, timers := timers, next := n }) ∧
      state.outcomes = s.state.outcomes ∧ state.asked = [] ∧
      timers.any (·.id == timer) = true ∧ ∀ t, s.isSet t = true → timers.any (·.id == t) = true := by
  cases hn with
  | @sleeping timer next hset =>
    have hretimed (t : Nat) : (s.timers.map fun t => if t.id = timer then { t with waker := waker } else t).any (·.id == t) =
        s.isSet t := by
      rw [List.any_map]
      congr 1
      funext t'
      simp only [Function.comp]
      split <;> rfl
    refine ⟨timer, next, s.state, _, s.next, ?_, rfl, ha, (hretimed timer).trans hset, fun t ht => (hretimed t).trans ht⟩
    unfold Schedule.resume
    rw [if_pos hset]
    rfl
  | reloading id ids =>
    rcases s with ⟨⟨⟩⟩
    cases ha
    refine ⟨_, _, _, _, _, rfl, rfl, rfl, ?_, ?_⟩
    · exact (List.any_append ..).trans (by simp)
    · exact fun t ht => (List.any_append ..).trans (Bool.or_eq_true_iff.2 (Or.inl ht))

theorem Naps.mono {s s' : Schedule Host Work} (hset : ∀ t, s.isSet t = true → s'.isSet t = true)
    {parked : Parked Host Work} (hn : Naps ev s parked) : Naps ev s' parked := by
  cases hn with
  | reloading id ids => exact .reloading id ids
  | sleeping h => exact .sleeping (hset _ h)

theorem Naps.same {s s' : Schedule Host Work} (ht : s'.timers = s.timers) {parked : Parked Host Work}
    (hn : Naps ev s parked) : Naps ev s' parked := hn.mono fun t hset => by
  unfold Schedule.isSet at hset ⊢
  rwa [ht]

/-- What is told of work stays so while all tasks that can run come to wait for time. -/
theorem Dozes.runReady {s : Schedule Host Work} (hs : Dozes ev s) (fuel : Nat) :
    Dozes ev (s.runReady (plan ev) fuel) ∧ (s.runReady (plan ev) fuel).root = s.root ∧
      (s.runReady (plan ev) fuel).state.outcomes = s.state.outcomes := by
  induction fuel generalizing s with
  | zero => exact ⟨hs, rfl, rfl⟩
  | succ fuel ih =>
    unfold Schedule.runReady
    cases hready : s.ready with
    | nil => exact ⟨hs, rfl, rfl⟩
    | cons id rest =>
      dsimp only
      have hrest {id' : Nat} (hid : id' ∈ rest) : id' ∈ s.ready := hready ▸ List.mem_cons_of_mem id hid
      cases htask : s.tasks.at? id with
      | none =>
        have hrun : Schedule.runTask (plan ev) { s with ready := rest } id = { s with ready := rest } := by
          unfold Schedule.runTask
          rw [htask]
        rw [hrun]
        exact ih ⟨hs.asked, hs.resting, hs.jobs, fun id' hid p hp => (hs.naps id' (hrest hid) p hp).same (by rfl)⟩
      | some parked =>
        have hnaps : Naps ev { s with ready := rest, running := some id, again := false } parked :=
          (hs.naps id (hready ▸ List.mem_cons_self ..) parked htask).same (by rfl)
        obtain ⟨timer, next, state, timers, n, hresume, houtcomes, hasked, hset, hmono⟩ :=
          resume_naps (by exact hs.asked) hnaps (Schedule.pump (plan ev) Schedule.shareDepth) (.task id)
        have hrun : Schedule.runTask (plan ev) { s with ready := rest } id = { s with
            state := state, timers := timers, next := n, running := none, again := false, ready := rest
            tasks := s.tasks.put id (.sleeping timer next) } := by
          unfold Schedule.runTask
          rw [htask]
          dsimp only
          rw [hresume]
          rfl
        rw [hrun]
        obtain ⟨hdozes, hroot, hout⟩ := ih (s := { s with
            state := state, timers := timers, next := n, running := none, again := false, ready := rest
            tasks := s.tasks.put id (.sleeping timer next) }) ⟨hasked, hs.resting, hs.jobs, fun id' hid p hp => by
          rw [Table.at?_put] at hp
          split at hp
          · cases hp
            exact .sleeping hset
          · exact (hs.naps id' (hrest hid) p hp).mono hmono⟩
        exact ⟨hdozes, hroot, hout.trans houtcomes⟩

/-- What is told of work stays so until nothing goes on without time passing. -/
theorem Dozes.settle {s : Schedule Host Work} (hs : Dozes ev s) (hroot : s.root.isFinished = true) (fuel : Nat) :
    (s.settle (plan ev) fuel).state.outcomes = s.state.outcomes := by
  cases fuel with
  | zero => rfl
  | succ fuel =>
    obtain ⟨hdozes, hroot', hout⟩ := hs.runReady fuel
    have hstir : (s.runReady (plan ev) fuel).stir? (plan ev) = none := by
      unfold Schedule.stir?
      rw [hdozes.resting, hdozes.jobs, hroot', hroot, Bool.not_true, Bool.and_false]
      rfl
    unfold Schedule.settle
    dsimp only
    rw [hstir]
    exact hout

theorem Makes.Rested.dozes {s : Schedule Host Work} (hs : Makes.Rested s) : Dozes ev s :=
  ⟨hs.2, hs.1.resting, hs.1.jobs, fun id hid => by rw [hs.1.ready] at hid; cases hid⟩

/-! ### Addresses -/

/-- Tasks are asked for, all of which begin with a nap. -/
def Asks (h h' : Host) : Prop :=
  ∃ asks : List (Nat × Work), h'.asked = h.asked ++ asks ∧ ∀ a ∈ asks, ∃ ids, a.2 = .reloading reloadDelay ids

theorem Asks.refl (h : Host) : Asks h h := ⟨[], (List.append_nil _).symm, nofun⟩

theorem Asks.trans {h h' h'' : Host} (a : Asks h h') (b : Asks h' h'') : Asks h h'' := by
  obtain ⟨xs, hxs, hnap⟩ := a
  obtain ⟨ys, hys, hnap'⟩ := b
  refine ⟨xs ++ ys, by rw [hys, hxs, List.append_assoc], fun a ha => ?_⟩
  exact (List.mem_append.1 ha).elim (hnap a) (hnap' a)

theorem asks_foldl {α : Type} {step : Host → α → Host} (hstep : ∀ h x, Asks h (step h x)) (xs : List α) (h : Host) :
    Asks h (xs.foldl step h) := by
  induction xs generalizing h with
  | nil => exact Asks.refl h
  | cons x xs ih => exact (hstep h x).trans (ih _)

theorem asks_emit (stream : Nat) (h : Host) (id : String) : Asks h (emit stream h id) := by
  unfold emit startupEvicted
  dsimp only
  split
  · split
    · exact Asks.refl h
    · split
      · exact ⟨[(h.nextWork, .reloading reloadDelay [id])], rfl, fun a ha => ⟨[id], by rw [List.mem_singleton.1 ha]⟩⟩
      · exact Asks.refl h
  · exact Asks.refl h

/-- An announcement only asks for tasks that begin with a nap. -/
theorem asks_announce (h : Host) (id : String) : Asks h (announce h id) :=
  asks_foldl (fun h l => asks_foldl (asks_emit _) _ { h with loaders := h.loaders.set l ((h.loader l).evict id).2 })
    h.listeners h

/-- Tasks that begin with a nap may be started while nothing else can run. -/
theorem Dozes.adopt {s : Schedule Host Work} (hs : Dozes ev s) {state : Host}
    (hasks : ∀ a ∈ state.asked, ∃ ids, a.2 = .reloading reloadDelay ids) :
    Dozes ev (s.adopt (plan ev) state) ∧ (s.adopt (plan ev) state).state = { state with asked := [] } := by
  have starting (asks : List (Nat × Work)) {s : Schedule Host Work} (hs : Dozes ev s)
      (hasks : ∀ a ∈ asks, ∃ ids, a.2 = .reloading reloadDelay ids) :
      Dozes ev (asks.foldl (fun s (id, work) => s.start id ((plan ev).perform id work)) s) ∧
        (asks.foldl (fun s (id, work) => s.start id ((plan ev).perform id work)) s).state = s.state := by
    induction asks generalizing s with
    | nil => exact ⟨hs, rfl⟩
    | cons a asks ih =>
      obtain ⟨id, work⟩ := a
      obtain ⟨ids, rfl⟩ := hasks _ (List.mem_cons_self ..)
      refine ih (s := s.start id ((plan ev).perform id (.reloading reloadDelay ids))) ⟨hs.asked, hs.resting, hs.jobs, ?_⟩
        fun a ha => hasks a (List.mem_cons_of_mem _ ha)
      intro id' hid parked hp
      rw [show (s.start id _).tasks = s.tasks.put id _ from rfl, Table.at?_put] at hp
      split at hp
      · cases hp
        exact .reloading id ids
      · next hne =>
        rcases List.mem_append.1 hid with hid | hid
        · exact (hs.naps id' hid parked hp).same (by rfl)
        · exact absurd (List.mem_singleton.1 hid) hne
  obtain ⟨hdozes, hstate⟩ := starting state.asked (s := { s with state := { state with asked := [] } })
    ⟨rfl, hs.resting, hs.jobs, fun id hid p hp => (hs.naps id hid p hp).same (by rfl)⟩ hasks
  exact ⟨hdozes, hstate⟩

/-- An address that the network leads elsewhere is known to lead there. -/
def KnownToLead (h : Host) (id : String) (context : Context) : Prop :=
  ∀ href target, Url.normalize? id context.cwd = some href → h.network.destination href = .ok target → target ≠ href →
    (h.remote.redirects.at? href).isSome = true

theorem Unmoved.knownToLead {h' : Host} (a : Unmoved h h') {id : String} {context : Context} :
    h'.KnownToLead id context ↔ h.KnownToLead id context := by
  unfold KnownToLead
  rw [a.network, a.remote]

/-- An address that is known to lead somewhere is found there, and then nothing but naps is begun. -/
theorem ends_destination_known {id : String} {context : Context} {address : String} (hasked : s.state.asked = [])
    (hk : s.state.KnownToLead id context) (haddress : s.state.remote.address? id context.cwd = some address) :
    ∃ h', Asks s.state h' ∧ h'.remote.modules = s.state.remote.modules ∧
      (destination id context.cwd).Ends (plan ev) 0 s fun a s' => a = some address ∧ s' = s.adopt (plan ev) h' := by
  obtain ⟨href, hhref, rfl⟩ := Option.map_eq_some_iff.1 haddress
  unfold destination
  rw [hhref]
  dsimp only
  cases hredirect : s.state.remote.redirects.at? href with
  | some target =>
    refine ⟨s.state, Asks.refl s.state, rfl,
      ends_bind (n := 0) (P := fun a s' => a = some target ∧ s' = s) (Async.ends_view ⟨hredirect, rfl⟩) ?_⟩
    rintro _ _ ⟨rfl, hs'⟩
    exact ends_pure ⟨rfl, hs'.trans (adopt_of_none (collect_of_asked (by exact hasked)) s).symm⟩
  | none =>
    have hanswer : (askNetwork href s.state).1 = href ∧ Asks s.state (askNetwork href s.state).2 ∧
        (askNetwork href s.state).2.remote.modules = s.state.remote.modules := by
      unfold askNetwork
      cases hdestination : s.state.network.destination href with
      | error e => exact ⟨rfl, Asks.refl s.state, rfl⟩
      | ok target =>
        have hsame : target = href := by
          by_contra hne
          rw [hk href target hhref hdestination hne |> Option.isSome_iff_exists.1 |>.choose_spec] at hredirect
          cases hredirect
        subst hsame
        refine ⟨rfl, (asks_foldl asks_announce _ _ :
          Asks { s.state with remote := (s.state.remote.announce target).2 } _), ?_⟩
        obtain ⟨_, _, _, _, _, _, hrest⟩ := announces_rest (s.state.remote.announce target).1
          { s.state with remote := (s.state.remote.announce target).2 }
        exact congrArg (·.remote.modules) hrest
    obtain ⟨htarget, hasks, hmodules⟩ := hanswer
    refine ⟨_, hasks, hmodules,
      ends_bind (n := 0) (P := fun a s' => a = none ∧ s' = s) (Async.ends_view ⟨hredirect, rfl⟩) ?_⟩
    rintro _ t ⟨rfl, ht⟩
    subst t
    refine ends_bind (n := 0) (P := fun _ s' => s' = s) (ends_consult rfl) ?_
    rintro _ t ht
    subst t
    refine ends_bind (n := 0)
      (P := fun a s' => a = href ∧ s' = Schedule.adopt (plan ev) s (askNetwork href s.state).2)
      (ends_step ⟨htarget, rfl⟩) ?_
    rintro _ _ ⟨rfl, rfl⟩
    exact ends_pure ⟨rfl, rfl⟩

/-- A remote module that is there is answered later, too. -/
theorem ends_resolveRemoteLater (hs : Rests s) {id : String} {context : Context} {found : Resolved}
    (hsaid : s.state.Says id context .remote found) (hk : s.state.KnownToLead id context) :
    (resolveRemoteLater id context).run.Ends (plan ev) 0 s fun r s' => r = .ok (some found) ∧ Dozes ev s' := by
  obtain ⟨hallowed, address, module, haddress, hmodule, rfl⟩ := hsaid
  set h₁ : Host := { s.state with remote := s.state.remote.track address } with hh₁
  have htrack : trackRemote id context.cwd s.state = (true, h₁) := by
    unfold trackRemote
    rw [haddress, hallowed]
  unfold resolveRemoteLater
  refine ends_then (a := true) (t := { s with state := h₁ }) (ends_lift (ends_step ?_)) ?_
  · rw [htrack, adopt_of_none (collect_of_asked (by exact hs.asked))]
    exact ⟨rfl, rfl⟩
  -- the redirect may have to be asked for, and then startup modules may be to be run again
  obtain ⟨h₂, ⟨asks, hasked, hnaps⟩, hmodules, hdestination⟩ :=
    @ends_destination_known ev { s with state := h₁ } _ _ _ hs.asked
      (fun href target hh ht hne => hk href target hh ht hne) haddress
  have hasks : ∀ a ∈ h₂.asked, ∃ ids, a.2 = .reloading reloadDelay ids := by
    rw [hasked, show h₁.asked = [] from hs.asked]
    exact hnaps
  have hdozes₁ : Dozes ev { s with state := h₁ } := Makes.Rested.dozes ⟨hs.still.withState h₁, hs.asked⟩
  obtain ⟨hdozes, hstate⟩ := hdozes₁.adopt hasks
  set s₂ := Schedule.adopt (plan ev) { s with state := h₁ } h₂ with hs₂
  have hready : s₂.state.remote.modules.at? address = some (.ready module) := by
    rw [hstate]
    show h₂.remote.modules.at? address = _
    rw [hmodules]
    exact hmodule
  have hclaim : claimRemote address true s₂.state = (.settled (.ok (some module)), s₂.state) := by
    unfold claimRemote
    rw [hready]
  have hfetch : (fetchRemote id context.cwd true).run.Ends (plan ev) 0 { s with state := h₁ } fun r s' =>
      r = .ok (some (address, module)) ∧ s' = s₂ := by
    unfold fetchRemote
    refine ends_then (a := some address) (t := s₂)
      (ends_lift (hdestination.mono (Nat.le_refl 0) fun a _ ha => ⟨congrArg Except.ok ha.1, ha.2⟩)) ?_
    refine ends_then (a := .settled (.ok (some module))) (t := s₂) (ends_lift (ends_step ?_)) (ends_pure ⟨rfl, rfl⟩)
    rw [hclaim, adopt_of_none (collect_of_asked (by exact hdozes.asked))]
    exact ⟨rfl, rfl⟩
  exact ends_then hfetch (ends_then (ends_changing _ hdozes.asked) (ends_pure
    ⟨rfl, hdozes.asked, hdozes.resting, hdozes.jobs, fun id hid p hp => (hdozes.naps id hid p hp).same (by rfl)⟩))

/-! ### All resolvers -/

theorem meant_congr {known known' : Nat → String → Bool} {id : String} {context : Context}
    (hf : h.firstFile? known id context (List.range strategies.length) =
      h.firstFile? known' id context (List.range strategies.length)) :
    h.meant known id context = h.meant known' id context := by
  unfold meant
  rw [hf]

theorem meant_ne_remote {known : Nat → String → Bool} {id path : String} {context : Context}
    (hf : h.firstFile? known id context (List.range strategies.length) = some path) :
    h.meant known id context ≠ .remote := by
  unfold meant
  rw [hf]
  split <;> exact nofun

instance : IsPreorder Host fun h h' => h'.asked = h.asked where
  refl _ := rfl
  trans _ _ _ a b := b.trans a

/-- To tell what a specifier stands for asks for no tasks. -/
theorem asked_of_resolve {id : String} {context : Context} {r : Except Failure (Option Resolved)} {h' : Host}
    (hr : (resolve id context).exec h = some (r, h')) : h'.asked = h.asked :=
  obeys_resolving (R := fun h h' => h'.asked = h.asked) (fun _ _ => rfl) (fun _ _ => rfl) (fun _ _ => rfl)
    (fun _ _ => rfl) id context h r h' hr

theorem ends_resolveNativeLater (hs : Rests s) (id : String) :
    (liftM (resolveNative id) : Errand (Option Resolved)).run.Ends (plan ev) 0 s fun r s' =>
      r = .ok ((if s.state.settings.exposeInternalModules then s.state.natives.modules.at? id else none).map fun value =>
        { id := id, value := some value }) ∧ ∃ h, s' = { s with state := h } ∧ Unmoved s.state h := by
  obtain ⟨r, h, hexec, a, hr⟩ := ends_resolveNative_any s.state id
  refine ends_act hexec ⟨hr, h, ?_, a⟩
  rw [adopt_of_none (collect_of_asked (a.asked.trans hs.asked))]

/-- The first file that is known is known. -/
theorem known_of_firstFile {known : Nat → String → Bool} {id : String} {context : Context} {ns : List Nat} {path : String}
    (hfirst : h.firstFile? known id context ns = some path) : ∃ n, known n path = true := by
  induction ns with
  | nil => cases hfirst
  | cons n rest ih =>
    unfold firstFile? at hfirst
    split at hfirst
    · next path' hknown =>
      cases hfirst
      exact ⟨n, (Option.filter_eq_some_iff.1 hknown).2⟩
    · exact ih hfirst

theorem ends_firstFileLater {m : Nat} (hs : Rests s) (hready : s.rootReady = false) (id : String) (context : Context)
    (last : List (Errand (Option Resolved))) (ns : List Nat) {Q : Except Failure (Option Resolved) → Schedule Host Work → Prop}
    (hfile : ∀ path, s.state.firstFile? s.state.canImport id context ns = some path →
      s.state.isReadAhead path = true ∧ ∀ r s', Makes.Rested s' → s.state.AnswersLater path r → Q r s')
    (hlast : s.state.firstFile? s.state.canImport id context ns = none → ∀ h, Unmoved s.state h →
      (firstAnswer last).run.Ends (plan ev) m { s with state := h } Q) :
    (firstAnswer (ns.map (fun n => Files.resolveLater transpilersLater n id context) ++ last)).run.Ends (plan ev)
      (1 + m) s Q := by
  induction ns generalizing s with
  | nil => exact (hlast rfl _ (Unmoved.refl _)).mono (Nat.le_add_left ..) fun _ _ hq => hq
  | cons n rest ih =>
    unfold firstFile? at hfile hlast
    cases hknown : (s.state.meantBy? id context n).filter (s.state.canImport n) with
    | none =>
      rw [hknown] at hfile hlast
      refine (ends_except (m := 0) (n := 1 + m) (ends_resolveLater_passes hs n id context hknown) ?_ ?_).mono
        (Nat.le_of_eq (Nat.zero_add _)) fun _ _ hq => hq
      · rintro found _ ⟨hnone, h, rfl, a⟩
        obtain rfl := Except.ok.inj hnone
        refine ih (hs.unmoved a) hready (fun path hpath => ?_) fun hnone h' a' => ?_
        · rw [a.canImport, a.firstFile?] at hpath
          obtain ⟨hahead, hq⟩ := hfile path hpath
          exact ⟨by rwa [a.isReadAhead], fun r s' hr ha => hq r s' hr (a.answersLater ha)⟩
        · rw [a.canImport, a.firstFile?] at hnone
          exact hlast hnone h' (a.trans a')
      · rintro _ _ ⟨hnone, -⟩
        cases hnone
    | some path =>
      rw [hknown] at hfile
      obtain ⟨hahead, hq⟩ := hfile path rfl
      obtain ⟨hmeant, -⟩ := Option.filter_eq_some_iff.1 hknown
      refine (ends_except (m := 1) (n := 0) (ends_resolveLater_answers hs hready n id context hmeant hahead) ?_ ?_).mono
        (Nat.le_add_right 1 m) fun _ _ hq => hq
      · rintro found s' ⟨hr, ha⟩
        cases found with
        | none => exact ha.elim
        | some found => exact ends_pure (hq _ _ hr ha)
      · rintro e s' ⟨hr, ha⟩
        exact hq _ _ hr ha

/-- Where a specifier means the same later as it does at once, it is resolved to the same module. -/
theorem ends_resolveLater_meant (hs : Rests s) (hready : s.rootReady = false) {id : String} {context : Context}
    {found : Resolved} (hsaid : s.state.Says id context (s.state.meant (fun _ => s.state.isReadAhead) id context) found)
    (hsame : s.state.meant s.state.canImport id context = s.state.meant (fun _ => s.state.isReadAhead) id context)
    (hk : s.state.meant (fun _ => s.state.isReadAhead) id context = .remote → s.state.KnownToLead id context) :
    (resolveLater id context).run.Ends (plan ev) 1 s fun r s' => Dozes ev s' ∧
      ((∃ again, r = .ok (some again) ∧ again.Is found.id found.cwd) ∨
        ∃ e, s.state.FailsAsModule found.id e ∧ r = .error e) := by
  unfold resolveLater
  unfold meant at hsaid hsame hk
  cases hlent : (if s.state.settings.exposeInternalModules then s.state.natives.modules.at? id else none) with
  | some value =>
    rw [hlent] at hsaid
    obtain rfl : found = { id := id, value := some value } := hsaid
    refine (ends_except (m := 0) (n := 0) (ends_resolveNativeLater hs id) ?_ fun _ _ h => nomatch h.1).mono
      (Nat.zero_le 1) fun _ _ hq => hq
    rintro _ _ ⟨hr, h, rfl, a⟩
    rw [hlent] at hr
    obtain rfl := Except.ok.inj hr
    exact ends_pure ⟨(Makes.Rested.dozes ⟨(hs.unmoved a).still, (hs.unmoved a).asked⟩), Or.inl ⟨_, rfl, rfl, rfl⟩⟩
  | none =>
    rw [hlent] at hsaid hsame hk
    refine ends_except (m := 0) (n := 1) (ends_resolveNativeLater hs id) ?_ fun _ _ h => nomatch h.1
    rintro _ _ ⟨hr, h, rfl, a⟩
    rw [hlent] at hr
    obtain rfl := Except.ok.inj hr
    have hfirst : h.firstFile? h.canImport id context (List.range strategies.length) =
        s.state.firstFile? (fun _ => s.state.isReadAhead) id context (List.range strategies.length) := by
      rw [a.firstFile?, a.canImport]
      revert hsame
      generalize s.state.firstFile? s.state.canImport id context (List.range strategies.length) = x
      generalize s.state.firstFile? (fun _ => s.state.isReadAhead) id context (List.range strategies.length) = y
      cases x <;> cases y <;> simp
    refine ends_firstFileLater (m := 0) (hs.unmoved a) hready id context [resolveRemoteLater id context] _ ?_ ?_
    · intro path hpath
      rw [hfirst] at hpath
      obtain ⟨_, hahead⟩ := known_of_firstFile hpath
      refine ⟨by rwa [a.isReadAhead], fun r s' hr ha => ⟨hr.dozes, ?_⟩⟩
      rw [hpath] at hsaid
      obtain ⟨hid, hcwd⟩ : found.Is path (some (Path.directory path)) := hsaid
      rw [hid, hcwd]
      replace ha := a.answersLater ha
      match r with
      | .ok none => exact ha.elim
      | .ok (some again) => exact Or.inl ⟨again, rfl, ha⟩
      | .error e => exact Or.inr ⟨e, ha, rfl⟩
    · intro hnone h' a'
      rw [hfirst] at hnone
      rw [hnone] at hsaid
      have a'' := a.trans a'
      have hsaid' : h'.Says id context .remote found := a''.said.2 hsaid
      have hk' : h'.KnownToLead id context := a''.knownToLead.2 (hk (by rw [hnone]; rfl))
      refine ends_except (m := 0) (n := 0) (ends_resolveRemoteLater (hs.unmoved a'') hsaid' hk') ?_ fun _ _ h => nomatch h.1
      rintro _ s' ⟨hr, hd⟩
      obtain rfl := Except.ok.inj hr
      exact ends_pure ⟨hd, Or.inl ⟨found, rfl, rfl, rfl⟩⟩

end Host

/-! ### What a session tells -/

namespace Session

open Async Host

/-- A session at rest. -/
def Idle (s : Session) : Prop := Rests s.running

/-- The host when work is about to be given a number. -/
def numbered (s : Session) (root : Parked Host Work) : Schedule Host Work :=
  { s.running with state := s.host.number.2, root := root, rootReady := false }

theorem unmoved_number (h : Host) : Unmoved h h.number.2 :=
  ⟨rfl, rfl, rfl, rfl, fun _ => rfl, fun _ _ => rfl, rfl, rfl, rfl, fun _ _ hd => hd, rfl, rfl⟩

theorem Idle.numbered {s : Session} (hs : s.Idle) (root : Parked Host Work) : Rests (s.numbered root) :=
  ⟨⟨hs.still.ready, hs.still.resting, hs.still.jobs, hs.still.queue, hs.still.workers⟩, hs.asked, hs.drafts⟩

/-- What comes of a computation that ends while nothing else runs is told. -/
theorem perform_of_ends {s : Session} {x : Async Host Work Outcome} {P : Outcome → Prop}
    (hx : ∀ root, x.Ends (plan s.evaluator) 1 (s.numbered root) fun o s' => P o ∧ Dozes s.evaluator s') :
    ∃ o, P o ∧ (s.perform x).1 = some o := by
  set n : Nat := s.host.nextWork with hn
  set s₁ : Schedule Host Work := { s.running with state := s.host.number.2 } with hs₁
  set y : Async Host Work Unit := do
    let outcome ← x
    Async.change (Host.tell n outcome) with hy
  have hends : y.Ends (plan s.evaluator) (1 + 0) { s₁ with root := .fresh y.fiber, rootReady := false } fun _ s' =>
      ∃ o, P o ∧ Dozes s.evaluator s' ∧ s'.state.outcome? n = some o := by
    refine ends_bind (hx _) fun o s' ⟨hp, hd⟩ => ends_change ?_
    rw [adopt_of_none (collect_of_asked (by exact hd.asked))]
    exact ⟨o, hp, ⟨hd.asked, hd.resting, hd.jobs, fun id hid p hp => (hd.naps id hid p hp).same (by rfl)⟩,
      Table.at?_put_same ..⟩
  obtain ⟨_, s', ⟨o, hp, hd, ho⟩, hrun⟩ := run_of_ends (show 1 + 0 < Schedule.rounds by decide) hends
  refine ⟨o, hp, ?_⟩
  have hd' : Dozes s.evaluator { s' with root := .finished } :=
    ⟨hd.asked, hd.resting, hd.jobs, fun id hid p hp => (hd.naps id hid p hp).same (by rfl)⟩
  show Table.at? (s₁.run (plan s.evaluator) y).state.outcomes n = some o
  rw [hrun, hd'.settle rfl]
  exact ho

theorem resolve_script (s : Session) (id : String) (context : Context) :
    (s.resolve .script id context).1 =
      Outcome.asResolved (s.perform do return .resolved (← Async.act (Host.resolve id context).run)).1 := by
  unfold resolve
  rfl

theorem resolve_module (s : Session) (id : String) (context : Context) :
    (s.resolve .module id context).1 =
      Outcome.asResolved (s.perform do return .resolved (← (Host.resolveLater id context).run)).1 := by
  unfold resolve
  rfl

/-- What a specifier is resolved to at once is what it means where the files are known that were read ahead. -/
theorem says_of_resolve {s : Session} (hs : s.Idle) {id : String} {context : Context} {found : Resolved}
    (hfound : (s.resolve .script id context).1 = .ok (some found)) :
    s.host.Says id context (s.host.meant (fun _ => s.host.isReadAhead) id context) found := by
  obtain ⟨r, h, hexec, hsaid⟩ := ends_resolve_meant s.host.number.2 id context
  obtain ⟨_, rfl, ho⟩ := perform_of_ends (s := s) (P := (· = .resolved r))
    (x := do return .resolved (← Async.act (Host.resolve id context).run)) fun root => by
      refine (ends_bind (m := 0) (n := 0) (P := fun r' s' => r' = r ∧ Dozes s.evaluator s') (ends_act hexec ?_) ?_).mono
        (Nat.zero_le 1) fun _ _ hq => hq
      · have hasked : h.asked = [] :=
          (asked_of_resolve hexec).trans hs.asked
        rw [adopt_of_none (collect_of_asked hasked)]
        exact ⟨rfl, Makes.Rested.dozes ⟨(hs.numbered root).still.withState h, hasked⟩⟩
      · rintro _ s' ⟨rfl, hd⟩
        exact ends_pure ⟨rfl, hd⟩
  rw [resolve_script, ho] at hfound
  exact hsaid found hfound

/-- A specifier stands for the same module at once and later, unless a file is nearer that can only be read later, or
the network is yet to tell that the address leads elsewhere, or the file fails to become a module. -/
theorem resolve_agrees {s : Session} (hs : s.Idle) {id : String} {context : Context} {found : Resolved}
    (hfound : (s.resolve .script id context).1 = .ok (some found))
    (hnear : s.host.meant s.host.canImport id context = s.host.meant (fun _ => s.host.isReadAhead) id context)
    (hlead : s.host.meant (fun _ => s.host.isReadAhead) id context = .remote → s.host.KnownToLead id context) :
    (∃ again, (s.resolve .module id context).1 = .ok (some again) ∧ again.id = found.id ∧ again.cwd = found.cwd) ∨
      ∃ e, s.host.FailsAsModule found.id e ∧ (s.resolve .module id context).1 = .error e := by
  have hsaid := says_of_resolve hs hfound
  obtain ⟨_, ⟨r, rfl, hr⟩, ho⟩ := perform_of_ends (s := s)
    (P := fun o => ∃ r, o = .resolved r ∧ ((∃ again, r = .ok (some again) ∧ again.Is found.id found.cwd) ∨
      ∃ e, s.host.FailsAsModule found.id e ∧ r = .error e))
    (x := do return .resolved (← (Host.resolveLater id context).run)) fun root => by
      have a := unmoved_number s.host
      rw [← a.meant, ← a.canImport, ← a.isReadAhead] at hnear
      rw [← a.meant, ← a.isReadAhead, ← a.knownToLead] at hlead
      rw [← a.said, ← a.meant, ← a.isReadAhead] at hsaid
      refine ends_bind (m := 1) (n := 0) (ends_resolveLater_meant (hs.numbered root) rfl hsaid hnear hlead) ?_
      rintro r s' ⟨hd, hr⟩
      exact ends_pure ⟨⟨r, rfl, hr.imp_right fun ⟨e, he, hr⟩ => ⟨e, a.failsAsModule he, hr⟩⟩, hd⟩
  rw [resolve_module, ho]
  rcases hr with ⟨again, rfl, hid, hcwd⟩ | ⟨e, he, rfl⟩
  · exact Or.inl ⟨again, rfl, hid, hcwd⟩
  · exact Or.inr ⟨e, he, rfl⟩

/-- A module was made, or could not be made. -/
def hasEnded (s : Session) : Compile.Draft → Bool
  | .asIs => true
  | .pending id =>
    (s.running.shares.at? id).isNone &&
      match s.host.outcome? id with
      | some (.code _) => true
      | _ => false

/-- A test for rest. -/
def isIdle (s : Session) : Bool :=
  s.running.ready.isEmpty && s.running.resting.isEmpty && s.running.jobs.isEmpty && s.running.queue.isEmpty &&
    s.running.workers != 0 && s.host.asked.isEmpty && s.host.workshop.modules.all fun (_, draft) => s.hasEnded draft

theorem idle_of_isIdle {s : Session} (h : s.isIdle = true) : s.Idle := by
  simp only [isIdle, Bool.and_eq_true, List.isEmpty_iff, bne_iff_ne] at h
  obtain ⟨⟨⟨⟨⟨⟨hready, hresting⟩, hjobs⟩, hqueue⟩, hworkers⟩, hasked⟩, hmodules⟩ := h
  refine ⟨⟨hready, hresting, hjobs, hqueue, hworkers⟩, hasked, fun origin id hid => ?_⟩
  obtain ⟨⟨_, _⟩, hmem, rfl⟩ := List.mem_map.1 (Table.mem_values_of_at? hid)
  obtain ⟨hshare, houtcome⟩ := Bool.and_eq_true_iff.1 (List.all_eq_true.1 hmodules _ hmem)
  refine ⟨Option.isNone_iff_eq_none.1 hshare, ?_⟩
  split at houtcome
  · next result hresult => exact ⟨result, hresult⟩
  · cases houtcome

/-- A session that is built and not started is at rest. -/
theorem idle_build {ev : Evaluator} {parts : Host.Parts} {s : Session} (hs : build ev parts = .ok s) : s.Idle := by
  obtain ⟨h, hh, rfl⟩ : ∃ h, Host.build parts = .ok h ∧
      (⟨ev, { state := h, workers := Host.workers parts.settings }⟩ : Session) = s := by
    unfold build at hs
    cases hh : Host.build parts with
    | error e => rw [hh] at hs; cases hs
    | ok h => rw [hh] at hs; exact ⟨h, rfl, Except.ok.inj hs⟩
  have hnew : h.asked = [] ∧ h.workshop.modules = [] := by
    unfold Host.build at hh
    cases hcheck : parts.settings.check with
    | error e => rw [hcheck] at hh; cases hh
    | ok u =>
      cases hrules : parts.settings.rules with
      | error e => rw [hcheck, hrules] at hh; cases hh
      | ok rules =>
        rw [hcheck, hrules] at hh
        obtain rfl := Except.ok.inj hh
        exact ⟨rfl, rfl⟩
  refine ⟨⟨rfl, rfl, rfl, rfl, ?_⟩, hnew.1, fun origin id hid => ?_⟩
  · show max 1 parts.settings.workerThreads ≠ 0
    omega
  · rw [show h.workshop.modules = [] from hnew.2] at hid
    cases hid

/-- There are two files of one name, of which one is read ahead. -/
def oneAhead : Host.Parts where
  vault := .memory { texts := [("lib/x.js", ""), ("x.js", "")] }
  settings := { preloadingRules := ["+x.js"] }

/-- Where nothing is nearer than the file that was read ahead, it is loaded either way. -/
theorem resolve_agrees_oneAhead :
    ∃ s found, build Scan.evaluator oneAhead = .ok s ∧ s.start.Idle ∧
      (s.start.resolve .script "x.js" { cwds := [some "src"] }).1 = .ok (some found) ∧ found.id = "x.js" ∧
      ∃ again, (s.start.resolve .module "x.js" { cwds := [some "src"] }).1 = .ok (some again) ∧
        again.id = found.id ∧ again.cwd = found.cwd := by
  have hrun : ((build Scan.evaluator oneAhead).toOption.bind fun s =>
      ((s.start.resolve .script "x.js" { cwds := [some "src"] }).1.toOption.join.filter fun found =>
        s.start.isIdle && found.id == "x.js" &&
          s.start.host.firstFile? (fun _ => s.start.host.isReadAhead) "x.js" { cwds := [some "src"] } (List.range 4) ==
            some "x.js" &&
          s.start.host.firstFile? s.start.host.canImport "x.js" { cwds := [some "src"] } (List.range 4) == some "x.js" &&
          (s.start.resolve .module "x.js" { cwds := [some "src"] }).1.toOption.isSome).map fun found =>
            (s, found)).isSome = true := by
    decide +kernel
  obtain ⟨⟨s, found⟩, hrun⟩ := Option.isSome_iff_exists.1 hrun
  obtain ⟨s', hs', hrun⟩ := Option.bind_eq_some_iff.1 hrun
  obtain ⟨found', hfilter, he⟩ := Option.map_eq_some_iff.1 hrun
  cases he
  obtain ⟨hjoin, hcheck⟩ := Option.filter_eq_some_iff.1 hfilter
  simp only [Bool.and_eq_true, beq_iff_eq] at hcheck
  obtain ⟨⟨⟨⟨hidle, hid⟩, hahead⟩, hcan⟩, hmade⟩ := hcheck
  have hidle := idle_of_isIdle hidle
  have hfound := eq_ok_of_toOption (Option.join_eq_some_iff.1 hjoin)
  have hagrees := resolve_agrees hidle hfound (meant_congr (hcan.trans hahead.symm))
    fun hremote => absurd hremote (meant_ne_remote hahead)
  rcases hagrees with hagain | ⟨e, -, he⟩
  · exact ⟨s, found, eq_ok_of_toOption hs', hidle, hfound, hid, hagain⟩
  · rw [he] at hmade
    cases hmade

/-- From rest, over files in memory, a specifier is found at once, and later another module is found or none. -/
def Disagrees (s : Session) (id : String) (context : Context) : Prop :=
  s.Idle ∧ (∃ vault, s.host.files.vault = .memory vault) ∧
    ∃ found, (s.resolve .script id context).1 = .ok (some found) ∧
      ¬∃ again, (s.resolve .module id context).1 = .ok (some again) ∧ again.id = found.id ∧ again.cwd = found.cwd

/-- A test for a session in which a specifier is found at once, and later not so. -/
def disagrees (s : Session) (id : String) (context : Context) : Bool :=
  s.isIdle && (match s.host.files.vault with | .memory _ => true | .directory _ => false) &&
    match (s.resolve .script id context).1 with
    | .ok (some found) => (s.resolve .module id context).1.toOption.join.map (·.id) != some found.id
    | _ => false

theorem disagrees_of_test {s : Session} {id : String} {context : Context} (h : s.disagrees id context = true) :
    s.Disagrees id context := by
  unfold disagrees at h
  obtain ⟨h, htest⟩ := Bool.and_eq_true_iff.1 h
  obtain ⟨hidle, hvault⟩ := Bool.and_eq_true_iff.1 h
  refine ⟨idle_of_isIdle hidle, ?_, ?_⟩
  · cases hv : s.host.files.vault with
    | memory v => exact ⟨v, rfl⟩
    | directory _ => rw [hv] at hvault; cases hvault
  · split at htest
    · next found hfound =>
      refine ⟨found, hfound, ?_⟩
      rintro ⟨again, hagain, hid, -⟩
      rw [hagain] at htest
      simp [Except.toOption, hid] at htest
    · cases htest

/-- A page that leads to another one is loaded ahead of time, while it cannot be told where addresses lead. -/
def astray : Host.Parts where
  vault := .memory {}
  settings := { enableExternalLinks := true, preloadedExternalLinks := ["https://a.example/a.js"] }
  network :=
    { pages := [("https://a.example/a.js", ""), ("https://a.example/b.js", "")]
      redirects := [("https://a.example/a.js", "https://a.example/b.js")]
      directionless := true }

/-- From now on it can be told where addresses lead. -/
def directed (s : Session) : Session := s.touch fun h => { h with network := { h.network with directionless := false } }

/-- A compiler that only makes scripts. -/
def halfCompiler : Host.Parts where
  vault := .memory { texts := [("x.ts", "")] }
  compiler := some fun request => match request.form with
    | .script => .ok ""
    | .module => .error ["no modules"]

/-- A nearer file that was not read ahead is loaded later; an address may be found to lead elsewhere later; and a file
may fail to become a module. -/
theorem resolve_disagrees :
    (∃ s, build Scan.evaluator oneAhead = .ok s ∧ s.start.Disagrees "x.js" { cwds := [some "lib"] }) ∧
    (∃ s, build Scan.evaluator astray = .ok s ∧ s.start.directed.Disagrees "https://a.example/a.js" {}) ∧
    ∃ s, build Scan.evaluator halfCompiler = .ok s ∧ s.start.Disagrees "x.ts" {} := by
  have built {parts : Host.Parts} {P : Session → Prop} {test : Session → Bool} (hp : ∀ s, test s = true → P s)
      (hrun : (build Scan.evaluator parts).toOption.any test = true) : ∃ s, build Scan.evaluator parts = .ok s ∧ P s := by
    obtain ⟨s, hs, htest⟩ := (Option.any_eq_true _ _).1 hrun
    exact ⟨s, eq_ok_of_toOption hs, hp s htest⟩
  exact ⟨built (fun _ => disagrees_of_test) (by decide +kernel), built (fun _ => disagrees_of_test) (by decide +kernel),
    built (fun _ => disagrees_of_test) (by decide +kernel)⟩

end Session

end ScriptVault

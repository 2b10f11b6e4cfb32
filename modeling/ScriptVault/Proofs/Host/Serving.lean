import ScriptVault.Proofs.Host.Program

/-!
# Serving — whoever asks is served by one evaluation

A session is asked to load and import modules, to evict them, to follow its files and to take over settings, and
lets time pass.  However much of this overlaps, it is made of moves; so between two removals of a slot one
evaluation starts at most, and all who are served see that one.
-/

namespace ScriptVault

/-! ### Sessions -/

/-- What may be asked of a session. -/
inductive Request where
  /-- Starts the host. -/
  | start
  /-- Loads a specifier as a script. -/
  | require (l : Nat) (id : String) (cwd : Option String)
  /-- Imports a specifier. -/
  | importAs (l : Nat) (id : String) (cwd : Option String) (interop : Bool)
  /-- Imports some specifiers side by side. -/
  | importAll (l : Nat) (ids : List String) (cwd : Option String) (interop : Bool)
  /-- Begins to import a specifier. -/
  | takeOff (l : Nat) (id : String) (cwd : Option String) (interop : Bool)
  /-- Waits for an import that was begun. -/
  | land (n : Nat)
  /-- Evicts a module. -/
  | invalidate (l : Nat) (id : String)
  /-- Evicts all modules of a loader. -/
  | invalidateAll (l : Nat)
  /-- Evicts all modules of a realm. -/
  | clearCache (realm : Nat)
  /-- Makes a realm. -/
  | createRealm (app : Value)
  /-- Removes a realm. -/
  | teardownRealm (realm : Nat)
  /-- Takes over a changed vault. -/
  | adopt (change : Change) (vault : MemoryVault) (silent : Bool)
  /-- Replaces the settings. -/
  | applySettings (settings : Settings)
  /-- Runs startup modules. -/
  | startModules (renew : Bool) (delay : Nat) (ids : List String)
  /-- Lets some nanoseconds pass. -/
  | sleep (nanos : Nat)

namespace Session

/-- Does what is asked of a session. -/
def serve (s : Session) : Request → Session
  | .start => s.start
  | .require l id cwd => (s.require l id cwd).2
  | .importAs l id cwd interop => (s.importAs l id cwd interop).2
  | .importAll l ids cwd interop => (s.importAll l ids cwd interop).2
  | .takeOff l id cwd interop => (s.takeOff l id cwd interop).2
  | .land n => (s.land n).2
  | .invalidate l id => s.change (Host.invalidate l id)
  | .invalidateAll l => s.change (Host.invalidateAll l)
  | .clearCache realm => s.change fun h => (h.clearCache realm).2
  | .createRealm app => s.change fun h => (h.createRealm app).2
  | .teardownRealm realm => s.change fun h => (h.teardownRealm realm).2
  | .adopt change vault silent => s.adopt change vault silent
  | .applySettings settings => (s.applySettings settings).2
  | .startModules renew delay ids => (s.startModules renew delay ids).2
  | .sleep nanos => s.sleep nanos

/-- From a session whose tasks are made of moves it comes to another one, by moves. -/
def Leads (s s' : Session) : Prop :=
  s.evaluator.Tame → s.running.Obeys Host.Reaches →
    s'.evaluator.Tame ∧ s'.running.Obeys Host.Reaches ∧ s.host.Reaches s'.host

variable {s s' s'' : Session}

theorem Leads.refl (s : Session) : Leads s s := fun hev hs => ⟨hev, hs, Host.Reaches.refl _⟩

theorem Leads.trans (a : Leads s s') (b : Leads s' s'') : Leads s s'' := by
  intro hev hs
  obtain ⟨hev', hs', hr⟩ := a hev hs
  obtain ⟨hev'', hs'', hr'⟩ := b hev' hs'
  exact ⟨hev'', hs'', hr.trans hr'⟩

theorem leads_touch (s : Session) {f : Host → Host} (hf : ∀ h, Host.Reaches h (f h)) : Leads s (s.touch f) :=
  fun hev hs => ⟨hev, hs.moved (hf _), hf _⟩

theorem leads_run {α : Type} (s : Session) {x : Async Host Work α} (hx : x.Obeys Host.Reaches) :
    Leads s (s.run x) := by
  intro hev hs
  obtain ⟨hs', hr⟩ := Schedule.leads_run (Host.plan_obeys hev) hx s.running hs
  exact ⟨hev, hs', hr⟩

theorem leads_change (s : Session) {f : Host → Host} (hf : ∀ h, Host.Reaches h (f h)) : Leads s (s.change f) :=
  s.leads_run (Async.obeys_change hf)

theorem leads_number (s : Session) : Leads s s.number.2 := fun hev hs =>
  ⟨hev, hs.moved (Host.allows_number _), Host.allows_number _⟩

theorem leads_perform (s : Session) {x : Async Host Work Outcome} (hx : s.evaluator.Tame → x.Obeys Host.Reaches) :
    Leads s (s.perform x).2 := by
  intro hev hs
  have hrun := s.number.2.leads_run (Host.later.bind (hx hev) fun outcome =>
    Async.obeys_change (Host.allows_tell s.number.1 outcome))
  refine s.leads_number.trans (hrun.trans (leads_touch _ fun h => ?_)) hev hs
  exact Host.Beside.allowed ⟨rfl, Nat.le_refl _, Nat.le_refl _⟩

theorem leads_numbers (ids : List String) (numbers : List Nat) (s : Session) :
    Leads s (ids.foldl
      (fun (all, (s : Session)) _ =>
        let (n, s) := s.number
        (all ++ [n], s))
      (numbers, s)).2 := by
  induction ids generalizing numbers s with
  | nil => exact Leads.refl s
  | cons id ids ih => exact s.leads_number.trans (ih _ _)

/-- Whatever is asked of a session is done by moves. -/
theorem leads_serve (s : Session) (request : Request) : Leads s (s.serve request) := by
  cases request with
  | start => exact s.leads_run Host.later.start
  | require l id cwd =>
    refine s.leads_perform fun hev => ?_
    have hrequire := Host.obeys_require (R := Host.Reaches) hev Host.depthLimit l id cwd
    exact Host.later.bind (Async.obeys_act hrequire) fun _ => Host.later.pure _
  | importAs l id cwd interop =>
    exact s.leads_perform fun _ => Host.later.bind (Host.later.importAs l id cwd interop) fun _ => Host.later.pure _
  | importAll l ids cwd interop =>
    exact (leads_numbers ids [] s).trans (leads_run _ (Host.later.importAll l _ cwd interop))
  | takeOff l id cwd interop => exact s.leads_number.trans (leads_run _ (Async.obeys_spawn _ _))
  | land n => exact s.leads_run (Async.obeys_join n none)
  | invalidate l id => exact s.leads_change (Host.allows_invalidate l id)
  | invalidateAll l => exact s.leads_change (Host.allows_invalidateAll l)
  | clearCache realm => exact s.leads_change (Host.allows_clearCache realm)
  | createRealm app => exact s.leads_change (Host.allows_createRealm app)
  | teardownRealm realm => exact s.leads_change (Host.allows_teardownRealm realm)
  | adopt change vault silent =>
    have htouch := s.leads_touch fun h => Host.allows_files h { h.files with vault := .memory vault }
    show Leads s (if silent then _ else _)
    split
    · exact htouch
    · exact htouch.trans (leads_change _ (Host.allows_follow change))
  | applySettings settings =>
    exact s.leads_perform fun _ => Host.later.bind (Host.later.applySettings Async.obeys_spawn settings) fun _ => Host.later.pure _
  | startModules renew delay ids =>
    refine s.leads_perform fun _ => ?_
    cases renew with
    | true => exact Host.later.bind (Host.later.reloadStartup delay ids) fun _ => Host.later.pure _
    | false => exact Host.later.bind (Host.later.loadStartup delay ids) fun _ => Host.later.pure _
  | sleep nanos => exact s.leads_run (Async.obeys_sleep nanos)

/-- A session that was just built has nothing to run. -/
theorem obeys_build {ev : Evaluator} {parts : Host.Parts} (hs : build ev parts = .ok s) :
    s.evaluator = ev ∧ s.running.Obeys Host.Reaches := by
  unfold build at hs
  cases hb : Host.build parts with
  | error e => rw [hb] at hs; cases hs
  | ok host =>
    rw [hb] at hs
    cases hs
    exact ⟨rfl, trivial, nofun, nofun, nofun⟩

theorem leads_requests (requests : List Request) (s : Session) : Leads s (requests.foldl serve s) := by
  induction requests generalizing s with
  | nil => exact Leads.refl s
  | cons request requests ih => exact (s.leads_serve request).trans (ih _)

end Session

namespace Host

/-! ### Callers -/

/-- What a load at once comes to. -/
inductive Answers (l : Nat) (h : Host) : Except Failure Value → Host → Prop where
  /-- No module is found. -/
  | unfound {e : Failure} {h' : Host} (hr : Reaches h h') : Answers l h (.error e) h'
  /-- A module is found, and served from its slot. -/
  | served {resolved : Resolved} {h₁ h' : Host} {found : Except Failure Value} (hr : Reaches h h₁)
    (hc : (claim l resolved h₁).1 = .inl found) (hr' : Reaches (claim l resolved h₁).2 h') : Answers l h found h'
  /-- A module is found and started, and it runs. -/
  | ran {resolved : Resolved} {h₁ h' : Host} {n : Nat} (hr : Reaches h h₁)
    (hs : (Move.claim l resolved).Starts l resolved.id .script n h₁) (hr' : Reaches (claim l resolved h₁).2 h') :
    Answers l h (.ok (h'.heap.get n (.text "exports"))) h'
  /-- A module is found and started, and it fails. -/
  | failed {resolved : Resolved} {h₁ h₂ h' : Host} {n : Nat} {e : Failure} (hr : Reaches h h₁)
    (hs : (Move.claim l resolved).Starts l resolved.id .script n h₁) (hr' : Reaches (claim l resolved h₁).2 h₂)
    (hr'' : Reaches (fail l resolved.id n e h₂) h') : Answers l h (.error e) h'

theorem obeys_find (l : Nat) (id : String) : (find l id).Obeys Reaches := by
  refine Action.obeys_bind Action.obeys_get fun h => ?_
  refine Action.obeys_bind (Action.obeys_modify (allows_depend l _ id)) fun _ => ?_
  exact Action.obeys_bind (obeys_resolve id _) fun found => obeys_known l id _ found

/-- What runs well as a script is answered with its exports. -/
theorem runScript_exports {ev : Evaluator} {load : String → Action Value} {l : Nat} {resolved : Resolved}
    {object : Nat} {h h' : Host} {v : Value}
    (hr : (runScript ev load l resolved object).exec h = some (.ok v, h')) :
    v = h'.heap.get object (.text "exports") := by
  have hclose {h₁ : Host} (hc : (do
      within l [resolved.cwd] [resolved.id] do
        modify fun h => { h with scripts := h.scripts + 1 }
        ev.runScript load (scopeFor (← get) l resolved object)
      modifyGet (close object) : Action Value).exec h₁ = some (.ok v, h')) :
      v = h'.heap.get object (.text "exports") := by
    rw [Action.exec_bind] at hc
    obtain ⟨⟨r, h₂⟩, -, hc⟩ := Option.bind_eq_some_iff.1 hc
    cases r with
    | error e => cases hc
    | ok u =>
      rw [Action.andThen_ok, Action.exec_modifyGet] at hc
      obtain ⟨hv, rfl⟩ := Prod.mk.inj (Option.some.inj hc)
      rw [close_get, Except.ok.inj hv]
  unfold runScript at hr
  split at hr
  · rw [Action.exec_bind] at hr
    obtain ⟨⟨r, h₁⟩, -, hr⟩ := Option.bind_eq_some_iff.1 hr
    cases r with
    | error e => cases hr
    | ok u => exact hclose hr
  · exact hclose hr

theorem answers_require {ev : Evaluator} (hev : ev.Tame) {depth l : Nat} {id : String} {cwd : Option String}
    {h h' : Host} {r : Except Failure Value} (hr : (require ev (depth + 1) l id cwd).exec h = some (r, h')) :
    Answers l h r h' := by
  rw [exec_require] at hr
  obtain ⟨⟨r, h₃⟩, hr, he⟩ := Option.map_eq_some_iff.1 hr
  cases he
  obtain ⟨⟨found, h₁⟩, hfind, hr⟩ := Option.bind_eq_some_iff.1 ‹_›
  have henter : Reaches h (h.entered l cwd) := reaches_onLoader h l fun _ => rfl
  have hleave : Reaches h₃ (h₃.onLoader l (·.leave cwd.toList.length 0)) := reaches_onLoader h₃ l fun _ => rfl
  have hfound : Reaches h h₁ := henter.trans (obeys_find l id _ _ _ hfind)
  cases found with
  | error e =>
    cases hr
    exact .unfound (hfound.trans hleave)
  | ok resolved =>
    rw [Action.andThen_ok] at hr
    cases hc : claim l resolved h₁ with
    | mk claimed h₂ =>
      cases claimed with
      | inl found =>
        rw [exec_serve_slot hc] at hr
        cases hr
        exact .served hfound (by rw [hc]) (by rw [hc]; exact hleave)
      | inr n =>
        have hs : (Move.claim l resolved).Starts l resolved.id .script n h₁ := .script rfl (by rw [hc])
        have hrun := obeys_runScript (R := Reaches) hev (fun id => obeys_require hev depth l id none) l resolved n
        rw [exec_serve hc] at hr
        obtain ⟨⟨x, h₄⟩, hx, he⟩ := Option.map_eq_some_iff.1 hr
        have hran : Reaches (claim l resolved h₁).2 h₄ := by rw [hc]; exact hrun _ _ _ hx
        cases x with
        | ok v =>
          cases he
          rw [runScript_exports hx]
          exact .ran hfound hs (hran.trans hleave)
        | error e =>
          cases he
          exact .failed hfound hs hran hleave

/-- What a slot of imports gives: what is told under the number that it holds. -/
def given (h : Host) : ImportSlot → Except Failure Value
  | .value v => .ok v
  | .pending work => Outcome.asValue (h.outcome? work)

/-- What an import comes to. -/
inductive Obtains (l : Nat) (interop : Bool) (h : Host) : Except Failure Value → Host → Prop where
  /-- No module is found. -/
  | unfound {e : Failure} {h' : Host} (hr : Reaches h h') : Obtains l interop h (.error e) h'
  /-- A module is found, and obtained from what its slot holds or is filled with. -/
  | obtained {resolved : Resolved} {h₁ h₂ h' : Host} (hr : Reaches h h₁)
    (hr' : Reaches (claimImport l resolved interop h₁).2 h₂) (hr'' : Reaches h₂ h') :
    Obtains l interop h (h₂.given (claimImport l resolved interop h₁).1.1) h'

theorem Obtains.before {l : Nat} {interop : Bool} {h h₁ h' : Host} {r : Except Failure Value}
    (ho : Obtains l interop h₁ r h') (hr : Reaches h h₁) : Obtains l interop h r h' := by
  cases ho with
  | unfound hr' => exact .unfound (hr.trans hr')
  | obtained hr₁ hr₂ hr₃ => exact .obtained (hr.trans hr₁) hr₂ hr₃

theorem Obtains.after {l : Nat} {interop : Bool} {h h' h'' : Host} {r : Except Failure Value}
    (ho : Obtains l interop h r h') (hr : Reaches h' h'') : Obtains l interop h r h'' := by
  cases ho with
  | unfound hr' => exact .unfound (hr'.trans hr)
  | obtained hr₁ hr₂ hr₃ => exact .obtained hr₁ hr₂ (hr₃.trans hr)

theorem yields_awaitImport (l : Nat) (id : String) (interop : Bool) (slot : ImportSlot) (h : Host) :
    (awaitImport l id interop slot).Yields Reaches h fun r h' =>
      ∃ h₂, r = h₂.given slot ∧ Reaches h h₂ ∧ Reaches h₂ h' := by
  cases slot with
  | value v => exact Async.yields_pure ⟨h, rfl, Reaches.refl h, Reaches.refl h⟩
  | pending work =>
    refine Async.yields_bind (P := fun _ h₂ => Reaches h h₂) (Async.yields_await fun _ hr => hr) fun _ h₂ hr => ?_
    refine Async.yields_bind (P := fun r h' => r = h₂.given (.pending work) ∧ h' = h₂)
      (Async.yields_view ⟨rfl, rfl⟩) fun r h' hread => ?_
    obtain ⟨rfl, rfl⟩ := hread
    have hkept : (Async.Yields Reaches (pure (h'.given (.pending work)) : Async Host Work _) h' fun r h'' =>
        ∃ h₂, r = h₂.given (.pending work) ∧ Reaches h h₂ ∧ Reaches h₂ h'') :=
      Async.yields_pure ⟨h', rfl, hr, Reaches.refl h'⟩
    split
    · split
      · have hforget := Reaches.act (.forgetImport l id interop work) h'
        refine Async.yields_bind (P := fun _ h₃ => Reaches h' h₃)
          (Async.yields_change hforget fun _ hr' => hforget.trans hr') fun _ h₃ hr' => ?_
        exact Async.yields_pure ⟨h', rfl, hr, hr'⟩
      · exact hkept
    · exact hkept

/-- An import finds no module, or gives what comes of the slot that it looks into. -/
theorem yields_importAs (l : Nat) (id : String) (cwd : Option String) (interop : Bool) (h : Host) :
    (importAs l id cwd interop).run.Yields Reaches h (Obtains l interop h) := by
  have henter := reaches_onLoader h l (f := (·.enter (cwd.toList.map some) [])) fun _ => rfl
  refine Async.yields_bind (P := fun _ h₁ => Reaches h h₁)
    (Async.yields_change henter fun _ hr => henter.trans hr) fun _ h₁ hr₁ => ?_
  refine Async.yields_bind (P := Obtains l interop h₁) ?_ fun r h₂ ho => ?_
  · have hcontext := later.closed.lift (Async.obeys_view (R := Reaches) fun h : Host => (h.loader l).context)
    have hunfound (e : Failure) (h' : Host) (hr : Reaches h₁ h') : Obtains l interop h₁ (.error e) h' := .unfound hr
    refine Async.yields_except (hcontext h₁) (fun context h₂ hr₂ => ?_) hunfound
    have hdepend := later.closed.lift (Async.obeys_change (allows_depend l context id))
    refine Async.yields_except (hdepend h₂) (fun _ h₃ hr₃ => ?_) fun e h' hr => hunfound e h' (hr₂.trans hr)
    have hr₃ := hr₂.trans hr₃
    refine Async.yields_except (later.resolveLater id context h₃) (fun found h₄ hr₄ => ?_) fun e h' hr =>
      hunfound e h' (hr₃.trans hr)
    have hr₄ := hr₃.trans hr₄
    refine Async.yields_except (later.known l id context found h₄) (fun resolved h₅ hr₅ => ?_)
      fun e h' hr => hunfound e h' (hr₄.trans hr)
    have hr₅ := hr₄.trans hr₅
    have hclaim : Reaches h₅ (claimImport l resolved interop h₅).2 := Reaches.act (.claimImport l resolved interop) h₅
    have hstep : (ExceptT.lift (Async.step (claimImport l resolved interop)) : Errand _).run.Yields Reaches h₅
        fun r h' => r = .ok (claimImport l resolved interop h₅).1 ∧ Reaches (claimImport l resolved interop h₅).2 h' :=
      Async.yields_lift (Async.yields_step hclaim fun _ hr => ⟨rfl, hr⟩)
    obtain ⟨⟨slot, begun⟩, h₆, hc⟩ : ∃ claimed h₆, claimImport l resolved interop h₅ = (claimed, h₆) := ⟨_, _, rfl⟩
    rw [hc] at hclaim hstep
    refine Async.yields_except hstep ?_ fun e h' hr => by cases hr.1
    rintro _ h₇ ⟨hclaimed, hr₇⟩
    obtain rfl := Except.ok.inj hclaimed
    have hawait {h' : Host} (hr : Reaches h₆ h') :
        (awaitImport l resolved.id interop slot).Yields Reaches h' (Obtains l interop h₁) := by
      refine (yields_awaitImport l resolved.id interop slot h').mono ?_
      rintro _ h'' ⟨h₂, rfl, ha, hb⟩
      have ho : Obtains l interop h₁ (h₂.given (claimImport l resolved interop h₅).1.1) h'' :=
        .obtained hr₅ (by rw [hc]; exact hr.trans ha) hb
      rwa [hc] at ho
    cases begun with
    | none => exact hawait hr₇
    | some work =>
      have hshare := later.closed.lift (Async.obeys_share work (.importing l resolved interop))
      exact Async.yields_except (hshare h₇) (fun _ h₈ hr₈ => hawait (hr₇.trans hr₈))
        fun e h' hr => hunfound e h' (hr₅.trans (hclaim.trans (hr₇.trans hr)))
  · have hleave := reaches_onLoader h₂ l (f := (·.leave (cwd.toList.map some).length 0)) fun _ => rfl
    refine Async.yields_bind (P := fun _ h₃ => Reaches h₂ h₃)
      (Async.yields_change hleave fun _ hr => hleave.trans hr) fun _ h₃ hr₃ => ?_
    exact Async.yields_pure ((ho.before hr₁).after hr₃)

/-- Whoever asks for a module after some moves is served by an evaluation that is in its slot: a script shows what
its module object exports by now, or fails as it failed. -/
def ServedBy (l : Nat) (id : String) : Kind → Nat → List Move → Host → Prop
  | .script, n, ms, h => ∀ resolved : Resolved, resolved.id = id →
    claim l resolved h = (.inl ((failureIn l id n ms).elim (.ok (h.heap.get n (.text "exports"))) .error), h)
  | .imported interop, n, _, h => ∀ resolved : Resolved, resolved.id = id →
    claimImport l resolved interop h = ((.pending n, none), h)

theorem servedBy_of_held {l : Nat} {id : String} {k : Kind} {n : Nat} {ms : List Move} {h : Host}
    (hheld : h.held l id k = some (verdict l id k n ms)) : ServedBy l id k n ms h := by
  cases k with
  | script =>
    rintro resolved rfl
    rw [verdict] at hheld
    cases hf : failureIn l resolved.id n ms with
    | none =>
      rw [hf] at hheld
      exact claim_of_slot (slotOf_of_held hheld)
    | some e =>
      rw [hf] at hheld
      exact claim_of_slot (slotOf_of_held_failed hheld)
  | imported interop =>
    rintro resolved rfl
    have hslot := importOf_of_held hheld
    obtain ⟨slot, hslot', he⟩ | ⟨hnone, -⟩ | ⟨hnone, -⟩ := claimImport_cases l resolved interop h
    · rw [he]
      rw [hslot] at hslot'
      rw [← Option.some.inj hslot']
    · rw [hslot] at hnone; cases hnone
    · rw [hslot] at hnone; cases hnone

end Host

end ScriptVault

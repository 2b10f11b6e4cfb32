import ScriptVault.Proofs.Host.Resolution

/-!
# Call — what a load consists of

A load finds the module that its specifier stands for, and then serves it: from its slot, or by running its
script, which calls for other modules in turn.
-/

namespace ScriptVault.Host

/-! ### The two halves of a load -/

/-- Finds the module that a specifier stands for, seen from the innermost working directory. -/
def find (l : Nat) (id : String) : Action Resolved := do
  let context := ((← get).loader l).context
  modify (depend l context id)
  known l id context (← resolve id context)

/-- Serves a module that was found. -/
def serve (ev : Evaluator) (depth l : Nat) (resolved : Resolved) : Action Value := do
  match ← modifyGet (claim l resolved) with
  | .inl found => ExceptT.mk (pure found)
  | .inr object =>
    tryCatch (runScript ev (fun id => require ev depth l id none) l resolved object) fun failure => do
      modify (fail l resolved.id object failure)
      throw failure

/-- The host in which a call looks for its module. -/
def entered (l : Nat) (cwd : Option String) (h : Host) : Host := h.onLoader l (·.enter (cwd.toList.map some) [])

theorem exec_require (ev : Evaluator) (depth l : Nat) (id : String) (cwd : Option String) (h : Host) :
    (require ev (depth + 1) l id cwd).exec h =
      (((find l id).exec (h.entered l cwd)).bind (Action.andThen (serve ev depth l))).map fun (r, h) =>
        (r, h.onLoader l (·.leave cwd.toList.length 0)) := by
  rw [require, exec_within]
  simp only [List.length_map, List.length_nil]
  rw [← Action.exec_bind]
  unfold find serve
  simp only [bind_assoc]
  rfl

/-! ### Finding -/

/-- The stacks of a loader. -/
def contextOf (h : Host) (l : Nat) : Context := (h.loader l).context

/-- What comes of looking for a module. -/
inductive Finding (l : Nat) (id : String) (h : Host) : Except Failure Resolved → Host → Prop
  /-- It is known, and the specifier stands for it from now on. -/
  | settled {resolved : Resolved} {h' : Host} :
    Asked (depend l (h.contextOf l) id h) h' →
    h.world.answer id (h.contextOf l).cwd = .ok (some resolved.anew) →
    (resolved.InVault → h'.Tracked resolved.id) →
    Finding l id h (.ok resolved) (settle l id resolved (h.contextOf l) h')
  /-- Nobody knows it. -/
  | unknown {h' : Host} :
    Asked (depend l (h.contextOf l) id h) h' →
    h.world.answer id (h.contextOf l).cwd = .ok none →
    Finding l id h (.error (.moduleNotFound id)) h'
  /-- It cannot be told. -/
  | failed {e : Failure} {h' : Host} :
    Asked (depend l (h.contextOf l) id h) h' →
    h.world.answer id (h.contextOf l).cwd = .error e →
    Finding l id h (.error e) h'

theorem depend_kept {h : Host} (hk : h.Kept) (l : Nat) (context : Context) (id : String) :
    (depend l context id h).Kept := ⟨hk.row, hk.sound, hk.entries, hk.scripts⟩

/-- To look for a module comes to an end. -/
theorem ends_find {h : Host} (hk : h.Kept) (l : Nat) (id : String) :
    (find l id).Ends h (Finding l id h) := by
  unfold find
  refine Action.ends_bind ⟨_, _, Action.exec_get h, Action.ends_bind ⟨_, _, Action.exec_modify _ h, ?_⟩⟩
  refine Action.ends_bind ?_
  refine (attempts_resolve _ id _ _ (depend_kept hk l _ id) rfl).mono fun r h' ⟨ha, hr, ht⟩ => ?_
  cases r with
  | error e => exact Finding.failed ha hr.symm
  | ok found =>
    cases found with
    | none => exact ⟨_, _, rfl, Finding.unknown ha hr.symm⟩
    | some resolved => exact ⟨_, _, rfl, Finding.settled ha hr.symm (ht resolved rfl)⟩

theorem finding_of_exec {h h' : Host} (hk : h.Kept) {l : Nat} {id : String} {r : Except Failure Resolved}
    (hr : (find l id).exec h = some (r, h')) : Finding l id h r h' := by
  obtain ⟨r₀, h₀, hr₀, hf⟩ := ends_find hk l id
  cases hr.symm.trans hr₀
  exact hf

/-! ### Running -/

/-- The host in which the script of a module runs. -/
def opened (l : Nat) (resolved : Resolved) (h : Host) : Host :=
  { h.onLoader l (·.enter [resolved.cwd] [resolved.id]) with scripts := h.scripts + 1 }

/-- The host after the script of a module has run. -/
def closed (l : Nat) (h : Host) : Host := h.onLoader l (·.leave 1 1)

@[simp] theorem exec_loadAll_nil (load : String → Action Value) (exports : Value) (h : Host) :
    (Scan.loadAll load exports []).exec h = some (.ok (), h) := rfl

@[simp] theorem exec_loadAll_cons (load : String → Action Value) (exports : Value) (call : Script.Call)
    (calls : List Script.Call) (h : Host) :
    (Scan.loadAll load exports (call :: calls)).exec h =
      ((load call.specifier).exec h).bind fun
        | (.ok v, h) => (Scan.loadAll load exports calls).exec
            { h with heap := (h.heap.write exports (.text call.specifier) v).2 }
        | (.error e, h) => some (.error e, h) := by
  rw [Scan.loadAll, Action.exec_bind]
  cases (load call.specifier).exec h with
  | none => rfl
  | some r => obtain ⟨r, h'⟩ := r; cases r <;> rfl

theorem exec_loadAll_append (load : String → Action Value) (exports : Value) (before after : List Script.Call)
    (h : Host) :
    (Scan.loadAll load exports (before ++ after)).exec h =
      ((Scan.loadAll load exports before).exec h).bind fun
        | (.ok _, h) => (Scan.loadAll load exports after).exec h
        | (.error e, h) => some (.error e, h) := by
  induction before generalizing h with
  | nil => rfl
  | cons call before ih =>
    rw [List.cons_append, exec_loadAll_cons, exec_loadAll_cons]
    cases (load call.specifier).exec h with
    | none => rfl
    | some r =>
      obtain ⟨r, h'⟩ := r
      cases r with
      | ok v => exact ih _
      | error e => rfl

/-- A module is checked unless it was compiled before, and then its calls are read. -/
theorem calls_eq (w : World) (resolved : Resolved) :
    w.calls resolved =
      match (if resolved.compiled.isNone then Script.check resolved.id resolved.code.toList else .ok ()) with
      | .ok _ => Script.calls resolved.id (w.script resolved).toList
      | .error e => .error e := by
  unfold World.calls
  cases resolved.compiled.isNone with
  | false => rfl
  | true => cases Script.check resolved.id resolved.code.toList <;> rfl

/-- A script is checked, and then what it calls for is loaded with its entries on the stacks. -/
theorem exec_runScript_eq (load : String → Action Value) (l : Nat) (resolved : Resolved) (object : Nat)
    (h : Host) :
    (runScript Scan.evaluator load l resolved object).exec h =
      match (if resolved.compiled.isNone then Script.check resolved.id resolved.code.toList else .ok ()) with
      | .error e => some (.error e, h)
      | .ok _ =>
        ((Scan.follow load resolved.id (h.world.script resolved) (h.heap.get object (.text "exports"))).exec
          (h.opened l resolved)).map fun
            | (.ok _, h) => (.ok (close object (h.closed l)).1, (close object (h.closed l)).2)
            | (.error e, h) => (.error e, h.closed l) := by
  have after : (within l [resolved.cwd] [resolved.id] (do
        modify fun h => { h with scripts := h.scripts + 1 }
        Scan.evaluator.runScript load (scopeFor (← get) l resolved object)) >>= fun _ =>
      modifyGet (close object) : Action Value).exec h =
        ((Scan.follow load resolved.id (h.world.script resolved) (h.heap.get object (.text "exports"))).exec
          (h.opened l resolved)).map fun
            | (.ok _, h) => (.ok (close object (h.closed l)).1, (close object (h.closed l)).2)
            | (.error e, h) => (.error e, h.closed l) := by
    rw [Action.exec_bind, exec_within]
    have : (do
        modify fun h => { h with scripts := h.scripts + 1 }
        Scan.evaluator.runScript load (scopeFor (← get) l resolved object) : Action Unit).exec
          (h.onLoader l (·.enter [resolved.cwd] [resolved.id])) =
        (Scan.follow load resolved.id (h.world.script resolved) (h.heap.get object (.text "exports"))).exec
          (h.opened l resolved) := by
      rw [Action.exec_bind, Action.exec_modify, Option.bind_some, Action.andThen_ok, Action.exec_bind,
        Action.exec_get]
      rfl
    rw [this]
    cases (Scan.follow load resolved.id (h.world.script resolved)
      (h.heap.get object (.text "exports"))).exec (h.opened l resolved) with
    | none => rfl
    | some r => obtain ⟨r, h'⟩ := r; cases r <;> rfl
  unfold runScript
  cases resolved.compiled.isNone with
  | false => exact after
  | true =>
    simp only [if_true]
    rw [Action.exec_bind]
    unfold runScript.liftExcept
    rw [Action.exec_mk]
    cases hc : Scan.evaluator.check resolved.id resolved.code with
    | error e =>
      rw [show Script.check resolved.id resolved.code.toList = .error e from hc]
      rfl
    | ok _ =>
      rw [show Script.check resolved.id resolved.code.toList = .ok () from hc]
      exact after

/-- A script that can be read loads what it calls for, and is closed. -/
theorem exec_runScript {h : Host} {resolved : Resolved} {calls : List Script.Call}
    (hcalls : h.world.calls resolved = .ok calls) (load : String → Action Value) (l object : Nat) :
    (runScript Scan.evaluator load l resolved object).exec h =
      ((Scan.loadAll load (h.heap.get object (.text "exports")) calls).exec (h.opened l resolved)).map fun
        | (.ok _, h) => (.ok (close object (h.closed l)).1, (close object (h.closed l)).2)
        | (.error e, h) => (.error e, h.closed l) := by
  rw [calls_eq] at hcalls
  rw [exec_runScript_eq]
  split at hcalls
  · next hcheck =>
    rw [hcheck]
    dsimp only
    congr 1
    unfold Scan.follow
    rw [Action.exec_bind, hcalls]
    rfl
  · cases hcalls

/-- A script that cannot be read fails at once. -/
theorem exec_runScript_error {h : Host} {resolved : Resolved} {e : Failure}
    (hcalls : h.world.calls resolved = .error e) (load : String → Action Value) (l object : Nat) :
    ∃ h', (runScript Scan.evaluator load l resolved object).exec h = some (.error e, h') ∧
      (h' = h ∨ h' = (h.opened l resolved).closed l) := by
  rw [calls_eq] at hcalls
  rw [exec_runScript_eq]
  split at hcalls
  · next hcheck =>
    rw [hcheck]
    refine ⟨_, ?_, Or.inr rfl⟩
    dsimp only
    unfold Scan.follow
    rw [Action.exec_bind, hcalls]
    rfl
  · next e' hcheck =>
    rw [hcheck]
    exact ⟨h, by rw [Except.error.inj hcalls], Or.inl rfl⟩

/-- What is known once a module was served by running it. -/
theorem exec_serve {ev : Evaluator} {depth l : Nat} {resolved : Resolved} {h h' : Host} {object : Nat}
    (hclaim : claim l resolved h = (.inr object, h')) :
    (serve ev depth l resolved).exec h =
      ((runScript ev (fun id => require ev depth l id none) l resolved object).exec h').map fun
        | (.ok v, h) => (.ok v, h)
        | (.error e, h) => (.error e, fail l resolved.id object e h) := by
  unfold serve
  rw [Action.exec_bind, Action.exec_modifyGet, hclaim, Option.bind_some, Action.andThen_ok]
  show Action.exec (tryCatch _ _) h' = _
  rw [Action.exec_tryCatch]
  cases (runScript ev (fun id => require ev depth l id none) l resolved object).exec h' with
  | none => rfl
  | some r => obtain ⟨r, h''⟩ := r; cases r <;> rfl

/-- A module that is served from its slot. -/
theorem exec_serve_slot {ev : Evaluator} {depth l : Nat} {resolved : Resolved} {h h' : Host}
    {found : Except Failure Value} (hclaim : claim l resolved h = (.inl found, h')) :
    (serve ev depth l resolved).exec h = some (found, h') := by
  unfold serve
  rw [Action.exec_bind, Action.exec_modifyGet, hclaim]
  rfl

/-! ### The course of a load -/

/-- A call finds the module that it asks for. -/
def Finds (l : Nat) (h : Host) (id : String) (cwd : Option String) (resolved : Resolved) (h' : Host) : Prop :=
  (find l id).exec (h.entered l cwd) = some (.ok resolved, h')

/-- To load what a module calls for, with its object. -/
def loading (depth l : Nat) (object : Nat) (h : Host) (calls : List Script.Call) : Action Unit :=
  Scan.loadAll (fun id => require Scan.evaluator depth l id none) (h.heap.get object (.text "exports")) calls

/-- The course of a load until its entries are taken off the stacks again. -/
inductive Course (depth l : Nat) (id : String) (cwd : Option String) (h : Host) :
    Except Failure Value → Host → Prop
  /-- It finds no module. -/
  | unfound {e : Failure} {h₁ : Host} :
    (find l id).exec (h.entered l cwd) = some (.error e, h₁) → Course depth l id cwd h (.error e) h₁
  /-- It is served without running a script. -/
  | served {resolved : Resolved} {h₁ : Host} {found : Except Failure Value} {h₂ : Host} :
    Finds l h id cwd resolved h₁ → claim l resolved h₁ = (.inl found, h₂) → Course depth l id cwd h found h₂
  /-- The script cannot be read. -/
  | unreadable {resolved : Resolved} {h₁ : Host} {object : Nat} {h₂ : Host} {e : Failure} {h₃ : Host} :
    Finds l h id cwd resolved h₁ → claim l resolved h₁ = (.inr object, h₂) →
    h₂.world.calls resolved = .error e → (h₃ = h₂ ∨ h₃ = (h₂.opened l resolved).closed l) →
    Course depth l id cwd h (.error e) (fail l resolved.id object e h₃)
  /-- All that the script calls for is loaded. -/
  | finished {resolved : Resolved} {h₁ : Host} {object : Nat} {h₂ : Host} {calls : List Script.Call} {h₃ : Host} :
    Finds l h id cwd resolved h₁ → claim l resolved h₁ = (.inr object, h₂) →
    h₂.world.calls resolved = .ok calls →
    (loading depth l object h₂ calls).exec (h₂.opened l resolved) = some (.ok (), h₃) →
    Course depth l id cwd h (.ok (close object (h₃.closed l)).1) (close object (h₃.closed l)).2
  /-- Something that the script calls for fails. -/
  | broken {resolved : Resolved} {h₁ : Host} {object : Nat} {h₂ : Host} {calls : List Script.Call} {e : Failure}
    {h₃ : Host} :
    Finds l h id cwd resolved h₁ → claim l resolved h₁ = (.inr object, h₂) →
    h₂.world.calls resolved = .ok calls →
    (loading depth l object h₂ calls).exec (h₂.opened l resolved) = some (.error e, h₃) →
    Course depth l id cwd h (.error e) (fail l resolved.id object e (h₃.closed l))

/-- A load that ends takes one of these courses. -/
theorem course_of_exec {depth l : Nat} {id : String} {cwd : Option String} {h h' : Host}
    {r : Except Failure Value} (hr : (require Scan.evaluator (depth + 1) l id cwd).exec h = some (r, h')) :
    ∃ h₁, Course depth l id cwd h r h₁ ∧ h' = h₁.onLoader l (·.leave cwd.toList.length 0) := by
  rw [exec_require] at hr
  obtain ⟨⟨r, h₁⟩, hbefore, he⟩ := Option.map_eq_some_iff.1 hr
  cases he
  refine ⟨h₁, ?_, rfl⟩
  obtain ⟨⟨found, h₂⟩, hfind, hserve⟩ := Option.bind_eq_some_iff.1 hbefore
  cases found with
  | error e => cases hserve; exact .unfound hfind
  | ok resolved =>
    rw [Action.andThen_ok] at hserve
    rcases hclaim : claim l resolved h₂ with ⟨found | object, h₃⟩
    · rw [exec_serve_slot hclaim] at hserve
      cases hserve
      exact .served hfind hclaim
    · rw [exec_serve hclaim] at hserve
      obtain ⟨⟨r₄, h₄⟩, hrun, hserve⟩ := Option.map_eq_some_iff.1 hserve
      cases hcalls : h₃.world.calls resolved with
      | error e =>
        obtain ⟨h₅, hrun', h₅'⟩ := exec_runScript_error hcalls
          (fun id => require Scan.evaluator depth l id none) l object
        cases hrun'.symm.trans hrun
        cases hserve
        exact .unreadable hfind hclaim hcalls h₅'
      | ok calls =>
        rw [exec_runScript hcalls] at hrun
        obtain ⟨⟨r₅, h₅⟩, hloads, hrun⟩ := Option.map_eq_some_iff.1 hrun
        cases r₅ with
        | ok u => cases hrun; cases hserve; exact .finished hfind hclaim hcalls hloads
        | error e => cases hrun; cases hserve; exact .broken hfind hclaim hcalls hloads

/-- A load comes to an end if it does so once the script of a module is run. -/
theorem ends_require {depth l : Nat} {id : String} {cwd : Option String} {h : Host} (hk : h.Kept)
    (hloads : ∀ resolved h₁ object h₂ calls, Finds l h id cwd resolved h₁ →
      claim l resolved h₁ = (.inr object, h₂) → h₂.world.calls resolved = .ok calls →
        ∃ x, (loading depth l object h₂ calls).exec (h₂.opened l resolved) = some x) :
    ∃ x, (require Scan.evaluator (depth + 1) l id cwd).exec h = some x := by
  rw [exec_require]
  obtain ⟨found, h₁, hfind, -⟩ := ends_find (h := h.entered l cwd) ⟨hk.row, hk.sound, hk.entries, hk.scripts⟩ l id
  rw [hfind, Option.bind_some]
  cases found with
  | error e => exact ⟨_, rfl⟩
  | ok resolved =>
    rw [Action.andThen_ok]
    rcases hclaim : claim l resolved h₁ with ⟨found | object, h₂⟩
    · rw [exec_serve_slot hclaim]
      exact ⟨_, rfl⟩
    · rw [exec_serve hclaim]
      cases hcalls : h₂.world.calls resolved with
      | error e =>
        obtain ⟨h₃, hrun, -⟩ := exec_runScript_error hcalls
          (fun id => require Scan.evaluator depth l id none) l object
        rw [hrun]
        exact ⟨_, rfl⟩
      | ok calls =>
        obtain ⟨⟨r, h₃⟩, hx⟩ := hloads resolved h₁ object h₂ calls hfind hclaim hcalls
        unfold loading at hx
        rw [exec_runScript hcalls, hx]
        cases r <;> exact ⟨_, rfl⟩

/-! ### How deep scripts may load others -/

/-- What can be loaded in one way is loaded alike in another way that agrees with it where it comes to an end. -/
theorem exec_loadAll_mono {load load' : String → Action Value}
    (hle : ∀ s h x, (load s).exec h = some x → (load' s).exec h = some x) {exports : Value}
    {calls : List Script.Call} {h : Host} {x : Except Failure Unit × Host}
    (hx : (Scan.loadAll load exports calls).exec h = some x) :
    (Scan.loadAll load' exports calls).exec h = some x := by
  induction calls generalizing h with
  | nil => exact hx
  | cons call calls ih =>
    rw [exec_loadAll_cons] at hx ⊢
    obtain ⟨⟨r, h₁⟩, hr, hx⟩ := Option.bind_eq_some_iff.1 hx
    rw [hle _ _ _ hr, Option.bind_some]
    cases r with
    | ok v => exact ih hx
    | error e => exact hx

theorem exec_runScript_mono {load load' : String → Action Value}
    (hle : ∀ s h x, (load s).exec h = some x → (load' s).exec h = some x) {l : Nat} {resolved : Resolved}
    {object : Nat} {h : Host} {x : Except Failure Value × Host}
    (hx : (runScript Scan.evaluator load l resolved object).exec h = some x) :
    (runScript Scan.evaluator load' l resolved object).exec h = some x := by
  rw [exec_runScript_eq] at hx ⊢
  split at hx
  · exact hx
  · obtain ⟨y, hy, hx⟩ := Option.map_eq_some_iff.1 hx
    refine Option.map_eq_some_iff.2 ⟨y, ?_, hx⟩
    unfold Scan.follow at hy ⊢
    rw [Action.exec_bind] at hy ⊢
    obtain ⟨⟨calls, h₁⟩, hcalls, hy⟩ := Option.bind_eq_some_iff.1 hy
    rw [hcalls, Option.bind_some]
    cases calls with
    | error e => exact hy
    | ok calls => exact exec_loadAll_mono hle hy

/-- A load that comes to an end does so in the same way where scripts may load others deeper. -/
theorem exec_require_succ {depth l : Nat} {id : String} {cwd : Option String} {h : Host}
    {x : Except Failure Value × Host} (hx : (require Scan.evaluator depth l id cwd).exec h = some x) :
    (require Scan.evaluator (depth + 1) l id cwd).exec h = some x := by
  induction depth generalizing h id cwd x with
  | zero => cases hx
  | succ depth ih =>
    rw [exec_require] at hx ⊢
    obtain ⟨y, hy, hx⟩ := Option.map_eq_some_iff.1 hx
    obtain ⟨⟨found, h₁⟩, hfind, hy⟩ := Option.bind_eq_some_iff.1 hy
    rw [hfind, Option.bind_some]
    cases found with
    | error e =>
      rw [Action.andThen_error] at hy ⊢
      exact Option.map_eq_some_iff.2 ⟨y, hy, hx⟩
    | ok resolved =>
      rw [Action.andThen_ok] at hy ⊢
      rcases hclaim : claim l resolved h₁ with ⟨found | object, h₂⟩
      · rw [exec_serve_slot hclaim] at hy ⊢
        exact Option.map_eq_some_iff.2 ⟨y, hy, hx⟩
      · rw [exec_serve hclaim] at hy ⊢
        refine Option.map_eq_some_iff.2 ⟨y, ?_, hx⟩
        obtain ⟨z, hz, hy⟩ := Option.map_eq_some_iff.1 hy
        exact Option.map_eq_some_iff.2 ⟨z, exec_runScript_mono (fun _ _ _ hs => ih hs) hz, hy⟩

theorem exec_require_mono {depth depth' : Nat} (hle : depth ≤ depth') {l : Nat} {id : String}
    {cwd : Option String} {h : Host} {x : Except Failure Value × Host}
    (hx : (require Scan.evaluator depth l id cwd).exec h = some x) :
    (require Scan.evaluator depth' l id cwd).exec h = some x := by
  induction hle with
  | refl => exact hx
  | step _ ih => exact exec_require_succ ih

theorem exec_loading_mono {depth depth' : Nat} (hle : depth ≤ depth') {l object : Nat} {h₀ : Host}
    {calls : List Script.Call} {h : Host} {x : Except Failure Unit × Host}
    (hx : (loading depth l object h₀ calls).exec h = some x) :
    (loading depth' l object h₀ calls).exec h = some x :=
  exec_loadAll_mono (fun _ _ _ hs => exec_require_mono hle hs) hx

/-! ### One call after the other -/

/-- Puts what a call gave into the exports. -/
def put (exports : Value) (specifier : String) (v : Value) (h : Host) : Host :=
  { h with heap := (h.heap.write exports (.text specifier) v).2 }

section Walk

variable {load : String → Action Value} {exports : Value} {calls : List Script.Call}
  (inv : List Script.Call → Host → Prop)
  (step : ∀ before call after h v h', calls = before ++ call :: after → inv before h →
    (load call.specifier).exec h = some (.ok v, h') → inv (before ++ [call]) (h'.put exports call.specifier v))

include step

/-- What each call keeps holds until one fails. -/
theorem loadAll_walk {h h' : Host} (h0 : inv [] h) {r : Except Failure Unit}
    (hr : (Scan.loadAll load exports calls).exec h = some (r, h')) :
    (r = .ok () ∧ inv calls h') ∨
      ∃ e before call after h₁, r = .error e ∧ calls = before ++ call :: after ∧ inv before h₁ ∧
        (load call.specifier).exec h₁ = some (.error e, h') := by
  suffices walk : ∀ rest before (h : Host), calls = before ++ rest → inv before h →
      (Scan.loadAll load exports rest).exec h = some (r, h') →
        (r = .ok () ∧ inv calls h') ∨
          ∃ e before call after h₁, r = .error e ∧ calls = before ++ call :: after ∧ inv before h₁ ∧
            (load call.specifier).exec h₁ = some (.error e, h') from walk calls [] h rfl h0 hr
  intro rest
  induction rest with
  | nil =>
    intro before h hcalls hinv hr
    cases hr
    rw [List.append_nil] at hcalls
    exact Or.inl ⟨rfl, hcalls ▸ hinv⟩
  | cons call rest ih =>
    intro before h hcalls hinv hr
    rw [exec_loadAll_cons] at hr
    obtain ⟨⟨r₁, h₁⟩, hr₁, hr⟩ := Option.bind_eq_some_iff.1 hr
    cases r₁ with
    | error e =>
      cases hr
      exact Or.inr ⟨e, before, call, rest, h, rfl, hcalls, hinv, hr₁⟩
    | ok v =>
      exact ih (before ++ [call]) _ (by rw [hcalls]; simp) (step before call rest h v h₁ hcalls hinv hr₁) hr

/-- All calls come to an end if each does while what they keep holds. -/
theorem ends_loadAll (ends : ∀ before call after h, calls = before ++ call :: after → inv before h →
      ∃ x, (load call.specifier).exec h = some x) {h : Host} (h0 : inv [] h) :
    ∃ x, (Scan.loadAll load exports calls).exec h = some x := by
  suffices walk : ∀ rest before (h : Host), calls = before ++ rest → inv before h →
      ∃ x, (Scan.loadAll load exports rest).exec h = some x from walk calls [] h rfl h0
  intro rest
  induction rest with
  | nil => exact fun _ _ _ _ => ⟨_, rfl⟩
  | cons call rest ih =>
    intro before h hcalls hinv
    obtain ⟨⟨r₁, h₁⟩, hr₁⟩ := ends before call rest h hcalls hinv
    rw [exec_loadAll_cons, hr₁]
    cases r₁ with
    | error e => exact ⟨_, rfl⟩
    | ok v =>
      exact ih (before ++ [call]) _ (by rw [hcalls]; simp) (step before call rest h v h₁ hcalls hinv hr₁)

end Walk

end ScriptVault.Host

import ScriptVault.Proofs.Remote.Deeds

/-!
# Errands — what loads do, and those who wait for them

A load, and an errand that asks for a remote module, keep to the pact of remote modules.  Where nothing is done from
outside, a load comes to what its page becomes, and has claimed what the page requires; and who asks for an address hears
what its entry says in the end.
-/

namespace ScriptVault

open Async Host Sight

variable {k : Option Outset} {ev : Evaluator} {me : Nat} {main : Bool} {m : Moment Host Work (Nat → Option Nat)}

namespace Sight

variable {x y : Sight} {others : Nat → Prop}

/-! ### Steps that leave alone what is the thread's own -/

/-- A thread makes a turn that touches nothing of its own. -/
structure Aside (k : Option Outset) (me : Nat) (x y : Sight) : Prop where
  turn : Turn k me x y
  kept : ∀ t, y.state.kept t = x.state.kept t
  told : ∀ n, y.state.outcome? n = x.state.outcome? n
  requests : y.state.network.requests = x.state.network.requests

theorem Turn.acts (hx : Orderly k x) (a : Turn k me x y) : (remotePact k).Acts me true x y :=
  ⟨a.orderly hx, .single ⟨hx, a⟩, nofun⟩

theorem Aside.acts (hx : Orderly k x) (a : Aside k me x y) (main : Bool) : (remotePact k).Acts me main x y :=
  ⟨a.turn.orderly hx, .single ⟨hx, a.turn⟩, fun _ => a.turn.own_of_aside hx a.kept a.told a.requests me⟩

theorem Aside.sees (hx : Orderly k x) (a : Aside k me x y) (main : Bool) : (remotePact k).Sees me main x y :=
  ⟨a.turn.orderly hx, a.turn.keep hx, fun _ => a.turn.own_of_aside hx a.kept a.told a.requests me⟩

/-- Where no entry changes, others see to what they saw to before. -/
theorem fits_congr {but : Option Nat} (he : ∀ href, y.state.entry href = x.state.entry href)
    (hf : (remotePact k).Fits x others but) : (remotePact k).Fits y others but :=
  fun w ⟨href, t, hl⟩ => hf w ⟨href, t, (he href).symm.trans hl⟩

theorem Orderly.collect (hx : Orderly k x) : (plan ev).collect x.state = ([], x.state) := by
  obtain ⟨state, _, _⟩ := x
  cases state
  cases hx.asked
  rfl

end Sight

/-- A moment at which a fiber may stop: it owes nothing, and others see to all that the state is still to hear of. -/
structure Moment.Fit (k : Option Outset) (m : Moment Host Work (Nat → Option Nat)) : Prop where
  inv : Sight.Orderly k m.view
  owed : m.owed = none
  fits : (remotePact k).Fits m.view m.others

/-- What comes of a fiber that touches nothing of its thread's own: it sees what others did meanwhile. -/
structure Moment.Sees (k : Option Outset) (me : Nat) (main : Bool) (m m' : Moment Host Work (Nat → Option Nat)) : Prop where
  fit : m'.Fit k
  sees : (remotePact k).Sees me main m.view m'.view

namespace Moment

theorem Fit.sees (hm : m.Fit k) : m.Sees k me main m := ⟨hm, .refl hm.inv⟩

theorem Sees.trans {m' m'' : Moment Host Work (Nat → Option Nat)} (a : m.Sees k me main m') (b : m'.Sees k me main m'') :
    m.Sees k me main m'' := ⟨b.fit, a.sees.trans b.sees⟩

/-- After a pause. -/
theorem Sees.of_pause {z : Sight} {others : Nat → Prop} (hz : (remotePact k).Sees me main m.view z)
    (hf : (remotePact k).Fits z others) : m.Sees k me main ⟨z, others, none⟩ := ⟨⟨hz.inv, rfl, hf⟩, hz⟩

end Moment

/-! ### Asking for an address -/

/-- To look at a state and change it aside. -/
theorem meets_aside {α : Type} {f : Host → α × Host} {R : α → Moment Host Work (Nat → Option Nat) → Prop} (hm : m.Fit k)
    {y : Sight} (hy : y.state = (f m.view.state).2) (a : Sight.Aside k me m.view y) (ht : y.threads = m.view.threads)
    (he : ∀ href, y.state.entry href = m.view.state.entry href)
    (h : ∀ m', m'.view = y → m.Sees k me main m' → R (f m.view.state).1 m') :
    Meets (remotePact k) (plan ev) me main (step f) m R := by
  have hfit : Moment.Fit k ⟨y, m.others, none⟩ := ⟨a.turn.orderly hm.inv, rfl, fits_congr he hm.fits⟩
  refine meets_step (hy ▸ hfit.inv.collect) y none hy (a.acts hm.inv main) (.of_eq ht) (Or.inl rfl) ?_
  rw [show Option.or none m.owed = none from hm.owed]
  exact h _ rfl ⟨hfit, a.sees hm.inv main⟩

/-- Where an address leads, as far as the start and the network tell. -/
theorem Sight.Calm.redirect {s : Outset} {x : Sight} (hc : Calm s x) {href target : String}
    (h : x.state.remote.redirects.at? href = some target) :
    (s.host.remote.redirects.at? href).getD ((s.host.network.destination href).toOption.getD href) = target := by
  rcases hc.redirects href with he | ⟨hnone, target', hd, he⟩
  · rw [← he, h]
    rfl
  · obtain rfl := Option.some.inj (h.symm.trans he)
    rw [hnone, hd]
    rfl

theorem Sight.Calm.noRedirect {s : Outset} {x : Sight} (hc : Calm s x) {href : String}
    (h : x.state.remote.redirects.at? href = none) : s.host.remote.redirects.at? href = none := by
  rcases hc.redirects href with he | ⟨hnone, -⟩
  · rw [← he, h]
  · exact hnone

/-- Where nothing is done from outside, what is known of where a specifier leads stays known. -/
theorem Sight.Keep.knows {x y : Sight} (a : Keep k x y) {s : Outset} (hs : k = some s) (hy : Orderly k y)
    {id : String} {cwd : Option String} (h : Knows s x id cwd) : Knows s y id cwd := by
  unfold Knows Remote.address? finalAddress? at h ⊢
  cases hn : Url.normalize? id cwd with
  | none => rfl
  | some href =>
    rw [hn] at h
    refine congrArg some ?_
    dsimp only
    cases hr : y.state.remote.redirects.at? href with
    | some target => exact ((hy.calm s hs).redirect hr).symm
    | none =>
      have hnone : x.state.remote.redirects.at? href = none := by
        by_contra hne
        obtain ⟨target, htarget⟩ := Option.ne_none_iff_exists'.1 hne
        cases hr.symm.trans (a.redirects (by rw [hs]; nofun) href target htarget)
      have h := Option.some.inj h
      dsimp only at h
      rw [hnone] at h
      exact h

/-- What the network answers is kept, aside of all else. -/
theorem aside_askNetwork (main : Bool) {x : Sight} (hx : Orderly k x) (me : Nat) (href : String)
    (hs : ∀ s, k = some s → s.host.remote.redirects.at? href = none) :
    (askNetwork href x.state).1 = (x.state.network.destination href).toOption.getD href ∧
      ∃ y, y.state = (askNetwork href x.state).2 ∧ Orderly k y ∧ (remotePact k).Acts me main x y ∧
        (remotePact k).Sees me main x y ∧ y.threads = x.threads ∧ (∀ a, y.state.entry a = x.state.entry a) ∧
          ∀ target, x.state.network.destination href = .ok target → y.state.remote.redirects.at? href = some target := by
  cases hd : x.state.network.destination href with
  | error e =>
    have hask : askNetwork href x.state = (href, x.state) := by
      unfold askNetwork
      rw [hd]
    rw [hask]
    exact ⟨rfl, x, rfl, hx, .refl hx, .refl hx, rfl, fun _ => rfl, nofun⟩
  | ok target =>
    have hask : askNetwork href x.state = (target, { x.state.announceRemote href with
        remote := { (x.state.announceRemote href).remote with
          redirects := (x.state.announceRemote href).remote.redirects.put href target } }) := by
      unfold askNetwork
      rw [hd]
    rw [hask]
    obtain ⟨loaders, announced, he⟩ := announces_quiet (x.state.remote.announce href).1
      { x.state with remote := (x.state.remote.announce href).2 } hx.quiet
    set x₁ : Sight := { x with state := { x.state with
      remote := { x.state.remote with tracked := (x.state.remote.announce href).2.tracked }
      loaders := loaders, announced := announced } }
    have a₁ : Aside k me x x₁ :=
      ⟨turn_aside k me x (x.state.remote.announce href).2.tracked loaders announced, fun _ => rfl, fun _ => rfl, rfl⟩
    have hy₁ := a₁.turn.orderly hx
    have a₂ : Aside k me x₁ _ := ⟨turn_redirect k me x₁ hd hs, fun _ => rfl, fun _ => rfl, rfl⟩
    refine ⟨rfl, _, ?_, a₂.turn.orderly hy₁, (a₁.acts hx main).trans (a₂.acts hy₁ main),
      (a₁.sees hx main).trans (a₂.sees hy₁ main), rfl, fun _ => rfl, ?_⟩
    · have hannounce : x.state.announceRemote href = x₁.state := he
      rw [hannounce]
    · intro target' he
      cases he
      exact Table.at?_put_same ..

/-- The address that a specifier means in the end is asked for aside of all else. -/
theorem meets_destination (hm : m.Fit k) (id : String) (cwd : Option String) :
    (destination id cwd).Meets (remotePact k) (plan ev) me main m fun a m' => m.Sees k me main m' ∧
      ∀ s, k = some s → a = s.host.finalAddress? id cwd ∧ Knows s m'.view id cwd := by
  unfold destination Knows Remote.address? finalAddress?
  cases hn : Url.normalize? id cwd with
  | none => exact meets_pure ⟨hm.sees, fun _ _ => ⟨rfl, rfl⟩⟩
  | some href =>
    refine meets_bind (R := fun a m' => m' = m ∧ a = m.view.state.remote.redirects.at? href)
      (meets_view ⟨rfl, rfl⟩) ?_
    rintro _ m ⟨rfl, rfl⟩
    cases hr : m.view.state.remote.redirects.at? href with
    | some target =>
      refine meets_pure ⟨hm.sees, fun s hs => ?_⟩
      have hfinal := (hm.inv.calm s hs).redirect hr
      refine ⟨congrArg some hfinal.symm, congrArg some ?_⟩
      dsimp only
      rw [hr]
      exact hfinal.symm
    | none =>
      have hnone (s : Outset) (hs : k = some s) := (hm.inv.calm s hs).noRedirect hr
      refine meets_bind (R := fun _ m' => m.Sees k me main m')
        (meets_consult hm.owed hm.fits fun z others hz hf => .of_pause hz hf) fun _ m' hm' => ?_
      obtain ⟨hvalue, y, hy, hinv, hacts, hsees, hthreads, hentries, hknown⟩ :=
        aside_askNetwork main hm'.fit.inv me href hnone
      have hfit : Moment.Fit k ⟨y, m'.others, none⟩ := ⟨hinv, rfl, fits_congr hentries hm'.fit.fits⟩
      have hfinal (s : Outset) (hs : k = some s) : (askNetwork href m'.view.state).1 =
          (s.host.remote.redirects.at? href).getD ((s.host.network.destination href).toOption.getD href) := by
        rw [hvalue, hnone s hs, (hm'.fit.inv.calm s hs).network]
        rfl
      refine meets_bind (R := fun a m'' => a = (askNetwork href m'.view.state).1 ∧ m'' = ⟨y, m'.others, none⟩)
        (meets_step (hy ▸ hfit.inv.collect) y none hy hacts (.of_eq hthreads) (Or.inl rfl) ?_) ?_
      · rw [show Option.or none m'.owed = none from hm'.fit.owed]
        exact ⟨rfl, rfl⟩
      · rintro _ _ ⟨rfl, rfl⟩
        refine meets_pure ⟨hm'.trans ⟨hfit, hsees⟩, fun s hs => ⟨congrArg some (hfinal s hs), congrArg some ?_⟩⟩
        dsimp only
        cases hr : y.state.remote.redirects.at? href with
        | some target => exact ((hinv.calm s hs).redirect hr).symm
        | none =>
          -- no network could tell where the address leads
          cases hd : m'.view.state.network.destination href with
          | ok target => cases hr.symm.trans (hknown target hd)
          | error e =>
            rw [← hfinal s hs, hvalue, hd]
            rfl

/-- An address that can be claimed is claimed for new work. -/
theorem claimRemote_free (main : Bool) {x : Sight} (hx : Orderly k x) (hme : Asks x me) {href : String} (wait : Bool)
    (hf : x.state.Free href) (hs : ∀ s, k = some s → href ∈ s.within) :
    ∃ y, claimRemote href wait x.state = (.begun x.state.nextWork x.state.remote.nextToken, y.state) ∧
      (remotePact k).Acts me main x y ∧ (remotePact k).Sees me main x y ∧ y.threads = (x.claimed href).threads ∧
        y.state.network = x.state.network ∧ (∀ t, y.state.kept t = x.state.kept t) ∧
          (∀ n, y.state.outcome? n = x.state.outcome? n) ∧
            ∀ a, y.state.entry a = if a = href then some (.loading x.state.remote.nextToken x.state.nextWork)
              else x.state.entry a := by
  have a₁ : Aside k me x (x.claimed href) := ⟨turn_claimed hx hme hf hs, fun _ => rfl, fun _ => rfl, rfl⟩
  have hentries (a : String) : (x.claimed href).state.entry a =
      if a = href then some (.loading x.state.remote.nextToken x.state.nextWork) else x.state.entry a :=
    Table.at?_put ..
  rcases hf with hf | hf
  · refine ⟨x.claimed href, ?_, a₁.acts hx main, a₁.sees hx main, rfl, rfl, fun _ => rfl, fun _ => rfl, hentries⟩
    have hf : x.state.remote.modules.at? href = none := hf
    unfold claimRemote
    rw [hf]
    rfl
  · have hx₁ := a₁.turn.orderly hx
    obtain ⟨loaders, announced, he⟩ := announces_quiet ((x.claimed href).state.remote.announce href).1
      { (x.claimed href).state with remote := ((x.claimed href).state.remote.announce href).2 } hx₁.quiet
    have a₂ : Aside k me (x.claimed href) _ :=
      ⟨turn_aside k me (x.claimed href) ((x.claimed href).state.remote.announce href).2.tracked loaders announced,
        fun _ => rfl, fun _ => rfl, rfl⟩
    refine ⟨_, ?_, (a₁.acts hx main).trans (a₂.acts hx₁ main), (a₁.sees hx main).trans (a₂.sees hx₁ main), rfl, rfl,
      fun _ => rfl, fun _ => rfl, hentries⟩
    have hf : x.state.remote.modules.at? href = some .awaited := hf
    have hannounce : (x.claimed href).state.announceRemote href = _ := he
    unfold claimRemote
    rw [hf]
    exact congrArg (Prod.mk _) hannounce

/-- Who asks for an address hears what its entry says. -/
def Sight.Hears (x : Sight) (href : String) (r : Except Failure (Option (String × RemoteModule))) : Prop :=
  (∃ module, r = .ok (some (href, module)) ∧ x.state.entry href = some (.ready module)) ∨
    ∃ e, r = .error e ∧ x.state.entry href = some (.failed e)

theorem Sight.hears_ofResult {x : Sight} {href : String} {r : Except Failure RemoteModule}
    (h : x.state.entry href = some (.ofResult r)) : x.Hears href (r.map fun module => some (href, module)) := by
  cases r with
  | ok module => exact Or.inl ⟨module, rfl, h⟩
  | error e => exact Or.inr ⟨e, rfl, h⟩

theorem endLoad_pending {r : Remote} {href : String} {t w : Nat} {result : Except Failure RemoteModule}
    (h : r.modules.at? href = some (.loading t w)) :
    r.endLoad href w result = { r with modules := r.modules.put href (.ofResult result) } := by
  have hp : r.isPending href w = true := by
    unfold Remote.isPending
    rw [h]
    exact beq_self_eq_true w
  unfold Remote.endLoad
  rw [if_pos hp]
  cases result <;> rfl

theorem endLoad_settled {r : Remote} {href : String} {w : Nat} {result : Except Failure RemoteModule}
    (h : ∀ t, r.modules.at? href ≠ some (.loading t w)) : r.endLoad href w result = r := by
  have hp : r.isPending href w = false := by
    unfold Remote.isPending
    split
    · next t w' he => exact beq_eq_false_iff_ne.2 fun hw => h t (hw ▸ he)
    · rfl
  unfold Remote.endLoad
  rw [hp]
  rfl

/-- Who waits for a load enters what came of it, where the entry still waits for it. -/
theorem meets_loaded {x : Sight} {others : Nat → Prop} {href : String} {t w : Nat}
    (hf : (remotePact k).Fits x others (some w)) (hw : x.Loads w href t) (hme : ∀ work, x.Works me work → me < w) :
    (loaded href w).run.Meets (remotePact k) (plan ev) me main ⟨x, others, none⟩ fun r m' =>
      Moment.Sees k me main ⟨x, others, none⟩ m' ∧ (k ≠ none → Hears m'.view href r) := by
  unfold loaded
  refine meets_then (R := fun _ m' => ∃ z others', m' = ⟨z, others', none⟩ ∧ (remotePact k).Sees me main x z ∧
    Told k w z ∧ (remotePact k).Fits z others' (some w)) (meets_await rfl hme ⟨_, hw⟩ hf
      fun z others' hz ht hf' => ⟨z, others', rfl, hz, ht, hf'⟩) ?_
  rintro _ _ ⟨z, others', rfl, hz, ht, hf'⟩
  have hzw : Loads z w href t := hz.keep.threads w _ hw
  obtain ⟨r, hr, -⟩ : ∃ r, z.state.outcome? w = some (.remote r) ∧ _ := by
    unfold Told at ht
    rw [show z.threads w = _ from hzw] at ht
    exact ht
  -- no other entry waits for this work
  have honly (a : String) (t' : Nat) (ha : z.state.entry a = some (.loading t' w)) : a = href := by
    have he := hzw.symm.trans (hz.inv.loading a t' w ha)
    cases he
    rfl
  set h' : Host := { z.state with remote := z.state.remote.endLoad href w r } with hh'
  have hended : ∃ y, y.state = h' ∧ Orderly k y ∧ (remotePact k).Acts me main z y ∧ (remotePact k).Sees me main z y ∧
      y.threads = z.threads ∧ (remotePact k).Fits y others' ∧ (k ≠ none → y.state.entry href = some (.ofResult r)) := by
    by_cases hp : ∃ t', z.state.entry href = some (.loading t' w)
    · obtain ⟨t', hp⟩ := hp
      have a : Aside k me z _ := ⟨turn_settled me hp hr, fun _ => rfl, fun _ => rfl, rfl⟩
      refine ⟨_, ?_, a.turn.orderly hz.inv, a.acts hz.inv main, a.sees hz.inv main, rfl, ?_, fun _ => Table.at?_put_same ..⟩
      · rw [hh', endLoad_pending hp]
      · rintro w' ⟨b, t'', hb⟩
        have hb : Table.at? (z.state.remote.modules.put href (.ofResult r)) b = some (.loading t'' w') := hb
        rw [Table.at?_put] at hb
        split at hb
        · cases r <;> cases hb
        · next hne =>
          refine Or.inl ((hf' w' ⟨b, t'', hb⟩).resolve_right fun he => ?_)
          obtain rfl := Option.some.inj he
          exact hne (honly b t'' hb)
    · have hnone : ∀ t', z.state.remote.modules.at? href ≠ some (.loading t' w) := fun t' ht' => hp ⟨t', ht'⟩
      refine ⟨z, by rw [hh', endLoad_settled hnone], hz.inv, .refl hz.inv, .refl hz.inv, rfl, ?_, fun hk => ?_⟩
      · rintro w' ⟨b, t'', hb⟩
        refine Or.inl ((hf' w' ⟨b, t'', hb⟩).resolve_right fun he => ?_)
        obtain rfl := Option.some.inj he
        exact hp ⟨t'', honly b t'' hb ▸ hb⟩
      · obtain ⟨s, hs⟩ := Option.ne_none_iff_exists'.1 hk
        rcases (hz.inv.calm s hs).entered w href t hzw with hl | ⟨r', hentry, hr'⟩
        · exact (hp ⟨t, hl⟩).elim
        · cases hr.symm.trans hr'
          exact hentry
  obtain ⟨y, hy, hinv, hacts, hsees, hthreads, hfits, hentry⟩ := hended
  have hend : Moment.Sees k me main ⟨x, others, none⟩ ⟨y, others', none⟩ := ⟨⟨hinv, rfl, hfits⟩, hz.trans hsees⟩
  refine meets_except (R := fun r' m' => r' = r ∧ m' = ⟨y, others', none⟩) ?_ ?_ ?_
  · have hresult : Outcome.asRemote (z.state.outcome? w) = r := by
      rw [hr]
      rfl
    show Meets (remotePact k) (plan ev) me main (Async.step _) _ _
    refine meets_step ?_ y none ?_ hacts (.of_eq hthreads) (Or.inl rfl) ?_
    · dsimp only
      rw [hresult, ← hh', ← hy]
      exact hinv.collect
    · dsimp only
      rw [hresult, hy]
    · dsimp only
      exact ⟨hresult, rfl⟩
  · rintro module _ ⟨hok, rfl⟩
    refine meets_pure ⟨hend, fun hk => ?_⟩
    have hhears := hears_ofResult (hentry hk)
    rw [← hok] at hhears
    exact hhears
  · rintro e _ ⟨herror, rfl⟩
    refine ⟨hend, fun hk => ?_⟩
    have hhears := hears_ofResult (hentry hk)
    rw [← herror] at hhears
    exact hhears

/-! ### Claiming an address -/

/-- Who claims an address hears what its entry says; where a load is under way that is not waited for, it hears of no
module. -/
def Sight.Claimed (x : Sight) (href : String) (wait : Bool) (r : Except Failure (Option (String × RemoteModule))) : Prop :=
  x.Hears href r ∨ wait = false ∧ r = .ok none ∧ ∃ t w, x.state.entry href = some (.loading t w)

/-- Claims an address, and waits for its load. -/
def Host.claiming (href : String) (wait : Bool) : Errand (Option (String × RemoteModule)) := do
  match ← (Async.step (claimRemote href wait) : Async Host Work _) with
  | .settled (.error failure) => throw failure
  | .settled (.ok module) => return module.map (href, ·)
  | .pending work => loaded href work
  | .begun work token =>
    (Async.share work (.fetching href token) : Async Host Work Unit)
    loaded href work

theorem fetchRemote_eq (id : String) (cwd : Option String) (wait : Bool) : fetchRemote id cwd wait = (do
    let some href ← (destination id cwd : Async Host Work _) | return none
    claiming href wait) := rfl

theorem Sight.Asks.ne {x : Sight} (h : Asks x me) : x.threads me ≠ none := by
  rcases h with h | ⟨a, t, h⟩
  · rw [h]
    nofun
  · rw [show x.threads me = _ from h]
    nofun

/-- What is known of the load of an address that can be claimed. -/
theorem Sight.Orderly.begun_load {x y : Sight} {href : String} (hx : Orderly k x) (hfree : x.state.Free href)
    (hload : Loads y x.state.nextWork href x.state.remote.nextToken) (hnetwork : y.state.network = x.state.network)
    (hkept : ∀ t, y.state.kept t = x.state.kept t) (htold : ∀ n, y.state.outcome? n = x.state.outcome? n) :
    Begun k x.state.nextWork (.fetching href x.state.remote.nextToken) y := by
  refine ⟨hload, (htold _).trans hx.fresh.2.2, fun hkeeps => ?_, fun s hs => ?_⟩
  · exact Nat.lt_irrefl _ (hx.kept _ ((keeps_congr (hkept _)).1 hkeeps))
  · -- what can be claimed was not loaded yet, so its address was not asked for
    have hcalm := hx.calm s hs
    obtain ⟨new, hnew, -, hloads⟩ := hcalm.requests
    rw [hnetwork, hnew, List.count_append, List.count_eq_zero_of_not_mem fun hmem => ?_, Nat.zero_add]
    obtain ⟨w, t, hw⟩ := hloads href hmem
    rcases hcalm.entered w href t hw with h | ⟨r, h, -⟩
    · rcases hfree with hf | hf <;> cases hf.symm.trans h
    · rcases hfree with hf | hf <;> cases r <;> cases hf.symm.trans h

/-- An address that can be claimed is loaded. -/
theorem meets_claiming_free (hm : m.Fit k) {href : String} (hfree : m.view.state.Free href) (wait : Bool)
    (hme : Asks m.view me) (hs : ∀ s, k = some s → href ∈ s.within) :
    (claiming href wait).run.Meets (remotePact k) (plan ev) me main m fun r m' =>
      m.Sees k me main m' ∧ (k ≠ none → Hears m'.view href r) := by
  obtain ⟨x, others, owed⟩ := m
  obtain rfl : owed = none := hm.owed
  have hx := hm.inv
  obtain ⟨y, hclaim, hacts, hsees, hthreads, hnetwork, hkept, htold, hentries⟩ :=
    claimRemote_free main hx hme wait hfree hs
  have hlt : me < x.state.nextWork := hx.begun me hme.ne
  have hload : Loads y x.state.nextWork href x.state.remote.nextToken := by
    show y.threads _ = _
    rw [hthreads]
    exact Function.update_self ..
  have hgrows : x.Grows y [(x.state.nextWork, .fetching href x.state.remote.nextToken)] := by
    refine ⟨fun p hp => ?_, fun i hi => ?_, List.nodup_singleton _⟩
    · obtain rfl := List.mem_singleton.1 hp
      exact ⟨hx.fresh.1, hload⟩
    · rw [hthreads]
      exact Function.update_of_ne (fun he => hi _ (List.mem_singleton.2 rfl) he.symm) ..
  unfold claiming
  refine meets_then (R := fun c m' => c = .begun x.state.nextWork x.state.remote.nextToken ∧
    m' = ⟨y, others, some (x.state.nextWork, .fetching href x.state.remote.nextToken)⟩) ?_ ?_
  · refine meets_step ?_ y (some (x.state.nextWork, .fetching href x.state.remote.nextToken)) ?_ hacts hgrows
      (Or.inr rfl) ?_
    · dsimp only
      rw [hclaim]
      exact hsees.inv.collect
    · dsimp only
      rw [hclaim]
    · dsimp only
      rw [hclaim]
      exact ⟨rfl, rfl⟩
  rintro _ _ ⟨rfl, rfl⟩
  refine meets_then (R := fun _ m' => m' = ⟨y, others, none⟩)
    (meets_share rfl (Nat.ne_of_gt hlt) (hx.begun_load hfree hload hnetwork hkept htold) rfl) ?_
  rintro _ _ rfl
  have hfits : (remotePact k).Fits y others (some x.state.nextWork) := by
    rintro w ⟨a, t, ha⟩
    rw [hentries] at ha
    split at ha
    · cases ha
      exact Or.inr rfl
    · exact Or.inl ((hm.fits w ⟨a, t, ha⟩).resolve_right nofun)
  exact (meets_loaded hfits hload fun _ _ => hlt).mono fun r m' ⟨hm', hhears⟩ =>
    ⟨⟨hm'.fit, hsees.trans hm'.sees⟩, hhears⟩

/-- An entry that is there already is looked at, and what is under way is waited for, if at all. -/
theorem meets_claiming_known (hm : m.Fit k) {href : String} (hknown : ¬m.view.state.Free href) (wait : Bool)
    (hwait : wait = true → ∀ work, ¬m.view.Works me work) :
    (claiming href wait).run.Meets (remotePact k) (plan ev) me main m fun r m' =>
      m.Sees k me main m' ∧ (k ≠ none → Claimed m'.view href wait r) := by
  obtain ⟨x, others, owed⟩ := m
  obtain rfl : owed = none := hm.owed
  have hx := hm.inv
  have still (claim : Claim) (hc : claimRemote href wait x.state = (claim, x.state)) :
      (Async.step (claimRemote href wait)).Meets (remotePact k) (plan ev) me main ⟨x, others, none⟩
        fun c m' => c = claim ∧ m' = ⟨x, others, none⟩ := by
    refine meets_step ?_ x none ?_ (.refl hx) (.refl x) (Or.inl rfl) ?_
    · dsimp only
      rw [hc]
      exact hx.collect
    · dsimp only
      rw [hc]
    · dsimp only
      rw [hc]
      exact ⟨rfl, rfl⟩
  unfold claiming
  cases hentry : x.state.entry href with
  | none => exact (hknown (Or.inl hentry)).elim
  | some state =>
    have hat : x.state.remote.modules.at? href = some state := hentry
    cases state with
    | awaited => exact (hknown (Or.inr hentry)).elim
    | ready module =>
      refine meets_then (still (.settled (.ok (some module))) (by unfold claimRemote; rw [hat])) ?_
      rintro _ _ ⟨rfl, rfl⟩
      exact meets_pure ⟨hm.sees, fun _ => Or.inl (Or.inl ⟨module, rfl, hentry⟩)⟩
    | failed e =>
      refine meets_then (still (.settled (.error e)) (by unfold claimRemote; rw [hat])) ?_
      rintro _ _ ⟨rfl, rfl⟩
      exact meets_pure ⟨hm.sees, fun _ => Or.inl (Or.inr ⟨e, rfl, hentry⟩)⟩
    | loading t w =>
      cases wait with
      | true =>
        refine meets_then (still (.pending w) (by unfold claimRemote; rw [hat]; rfl)) ?_
        rintro _ _ ⟨rfl, rfl⟩
        exact (meets_loaded (hm.fits.but (some w)) (hx.loading href t w hentry) fun work h =>
          (hwait rfl work h).elim).mono fun r m' ⟨hm', hhears⟩ => ⟨hm', fun hk => Or.inl (hhears hk)⟩
      | false =>
        refine meets_then (still (.settled (.ok none)) (by unfold claimRemote; rw [hat]; rfl)) ?_
        rintro _ _ ⟨rfl, rfl⟩
        exact meets_pure ⟨hm.sees, fun _ => Or.inr ⟨rfl, rfl, t, w, hentry⟩⟩

/-! ### Loading what a specifier means -/

/-- Who asks for what a specifier means hears what was claimed for it. -/
def Sight.Answers (s : Outset) (x : Sight) (id : String) (cwd : Option String) (wait : Bool)
    (r : Except Failure (Option (String × RemoteModule))) : Prop :=
  match s.host.finalAddress? id cwd with
  | none => r = .ok none
  | some href => x.Claimed href wait r

/-- The load of what a specifier means is claimed, or waited for.  Work only waits for loads that it has begun. -/
theorem meets_fetchRemote (hm : m.Fit k) (id : String) (cwd : Option String) (wait : Bool)
    (hme : Asks m.view me) (hwait : wait = true → ∀ work, ¬m.view.Works me work)
    (hs : ∀ s, k = some s → ∀ a, s.host.finalAddress? id cwd = some a → a ∈ s.within) :
    (fetchRemote id cwd wait).run.Meets (remotePact k) (plan ev) me main m fun r m' =>
      m.Sees k me main m' ∧ ∀ s, k = some s → Knows s m'.view id cwd ∧ Answers s m'.view id cwd wait r := by
  rw [fetchRemote_eq]
  refine meets_then (meets_destination hm id cwd) ?_
  rintro (_ | href) m₁ ⟨hm₁, haddress⟩
  · refine meets_pure ⟨hm₁, fun s hs => ⟨(haddress s hs).2, ?_⟩⟩
    unfold Answers
    rw [← (haddress s hs).1]
  have hkeep := hm₁.sees.keep
  have hasks : Asks m₁.view me := hme.imp (hkeep.threads me _) fun ⟨a, t, h⟩ => ⟨a, t, hkeep.threads me _ h⟩
  have hworks {work : Work} (h : m₁.view.Works me work) : m.view.Works me work := by
    obtain ⟨v, hv⟩ := Option.ne_none_iff_exists'.1 hme.ne
    exact hv.trans ((hkeep.threads me v hv).symm.trans h)
  have hclaimed : (claiming href wait).run.Meets (remotePact k) (plan ev) me main m₁ fun r m' =>
      m₁.Sees k me main m' ∧ (k ≠ none → Claimed m'.view href wait r) := by
    by_cases hfree : m₁.view.state.Free href
    · exact (meets_claiming_free hm₁.fit hfree wait hasks fun s hs' => hs s hs' href (haddress s hs').1.symm).mono
        fun r m' ⟨hm', hhears⟩ => ⟨hm', fun hk => Or.inl (hhears hk)⟩
    · exact meets_claiming_known hm₁.fit hfree wait fun h work hw => hwait h work (hworks hw)
  refine hclaimed.mono fun r m' ⟨hm', hr⟩ => ⟨hm₁.trans hm', fun s hs' => ⟨?_, ?_⟩⟩
  · exact hm'.sees.keep.knows hs' hm'.fit.inv (haddress s hs').2
  · unfold Answers
    rw [← (haddress s hs').1]
    exact hr (by rw [hs']; nofun)

end ScriptVault

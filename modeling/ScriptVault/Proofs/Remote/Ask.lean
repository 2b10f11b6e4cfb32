import ScriptVault.Proofs.Remote.Load

/-!
# Ask — what who asks hears

Who asks for a remote module waits until it is there or has failed, and then tells what it heard.
-/

namespace ScriptVault

open Async Host Sight

/-- Asks the network for what a specifier stands for, and tells what came of it under a number. -/
def Host.asking (n : Nat) (id : String) (context : Context) : Async Host Work Unit := do
  let result ← (resolveRemoteLater id context).run
  Async.change (Host.tell n (.resolved result))

variable {k : Option Outset} {ev : Evaluator} {me : Nat} {m m' : Moment Host Work (Nat → Option Nat)}

/-- A call is under way: it has told nothing. -/
structure Moment.Waits (k : Option Outset) (me : Nat) (m : Moment Host Work (Nat → Option Nat)) : Prop where
  fit : m.Fit k
  call : m.view.threads me = some none
  untold : m.view.state.outcome? me = none

/-- What others do while it waits does not touch a call. -/
theorem Moment.Waits.sees (hm : m.Waits k me) (hs : m.Sees k me true m') : m'.Waits k me := by
  have hholds : m.view.notes me = some me := hm.fit.inv.holds me (by rw [hm.call]; nofun)
  exact ⟨hs.fit, hs.sees.keep.threads me _ hm.call, ((hs.sees.own rfl).held me hholds).2.trans hm.untold⟩

namespace Sight

/-- What a call tells, where nothing is done from outside: what the entry says of the address that is meant in the end,
or nothing, where no address is meant or none may be loaded. -/
def Answer (s : Outset) (x : Sight) (id : String) (cwd : Option String) (r : Except Failure (Option Resolved)) : Prop :=
  match s.host.finalAddress? id cwd with
  | none => r = .ok none
  | some href => s.host.settings.enableExternalLinks = false ∧ r = .ok none ∨
      s.host.settings.enableExternalLinks = true ∧
        ((∃ module, r = .ok (some (Remote.resolved href module)) ∧ x.state.entry href = some (.ready module)) ∨
          ∃ e, r = .error e ∧ x.state.entry href = some (.failed e))

/-- What is known when a call has ended. -/
def Answered (k : Option Outset) (id : String) (cwd : Option String) (me : Nat) (x : Sight) : Prop :=
  ∃ r, x.state.outcome? me = some (.resolved r) ∧ ∀ s, k = some s → Answer s x id cwd r

variable {x y : Sight}

/-- What is settled stays so where nothing is done from outside, so an answer stays true. -/
theorem Keep.answer (a : Keep k x y) {s : Outset} (hs : k = some s) {id : String} {cwd : Option String}
    {r : Except Failure (Option Resolved)} (h : Answer s x id cwd r) : Answer s y id cwd r := by
  have hk : k ≠ none := by rw [hs]; nofun
  unfold Answer at h ⊢
  split at h
  · exact h
  · next href _ =>
    refine h.imp_right fun ⟨hlinks, h⟩ => ⟨hlinks, ?_⟩
    rcases h with ⟨module, hr, he⟩ | ⟨e, hr, he⟩
    · exact Or.inl ⟨module, hr, a.settled hk href (.ok module) he⟩
    · exact Or.inr ⟨e, hr, a.settled hk href (.error e) he⟩

end Sight

/-- To note that an address was asked for is done aside. -/
theorem aside_track (me : Nat) (x : Sight) (remote : Remote) (hr : remote = { x.state.remote with tracked := remote.tracked }) :
    Aside k me x { x with state := { x.state with remote := remote } } := by
  obtain ⟨tracked, redirects, modules, nextToken⟩ := remote
  cases hr
  exact ⟨turn_aside k me x tracked x.state.loaders x.state.announced, fun _ => rfl, fun _ => rfl, rfl⟩

/-- Whether a specifier may be loaded is told beside noting it. -/
theorem meets_trackRemote (hm : m.Fit k) (id : String) (cwd : Option String) :
    (Async.step (trackRemote id cwd)).Meets (remotePact k) (plan ev) me true m fun b m' => m.Sees k me true m' ∧
      ∀ s, k = some s → b = ((s.host.finalAddress? id cwd).isSome && s.host.settings.enableExternalLinks) := by
  have hfound : (m.view.state.remote.address? id cwd).isSome = (Url.normalize? id cwd).isSome := Option.isSome_map ..
  have hvalue (s : Outset) (hs : k = some s) : (trackRemote id cwd m.view.state).1 =
      ((s.host.finalAddress? id cwd).isSome && s.host.settings.enableExternalLinks) := by
    have hfinal : (s.host.finalAddress? id cwd).isSome = (Url.normalize? id cwd).isSome := Option.isSome_map ..
    rw [hfinal, ← hfound, ← (hm.inv.calm s hs).alike.settings]
    unfold trackRemote
    cases m.view.state.remote.address? id cwd <;> rfl
  have hstate : ∃ remote : Remote, (trackRemote id cwd m.view.state).2 = { m.view.state with remote := remote } ∧
      remote = { m.view.state.remote with tracked := remote.tracked } := by
    unfold trackRemote
    cases m.view.state.remote.address? id cwd with
    | none => exact ⟨m.view.state.remote, rfl, rfl⟩
    | some href => exact ⟨m.view.state.remote.track href, rfl, rfl⟩
  obtain ⟨remote, hremote, htracked⟩ := hstate
  exact meets_aside hm hremote.symm (aside_track me m.view remote htracked) rfl (fun href => by rw [htracked]; rfl)
    fun m' _ hm' => ⟨hm', hvalue⟩

/-- Who waits hears what the entry says. -/
theorem Sight.Answers.hears {s : Outset} {x : Sight} {id : String} {cwd : Option String} {href : String}
    {r : Except Failure (Option (String × RemoteModule))} (h : Answers s x id cwd true r)
    (hf : s.host.finalAddress? id cwd = some href) : Hears x href r := by
  unfold Answers at h
  rw [hf] at h
  exact h.resolve_right fun h => nomatch h.1

/-- A call that is under way keeps to the pact, and comes to an answer. -/
theorem meets_resolveRemoteLater (hm : m.Waits k me) (id : String) (context : Context)
    (hs : ∀ s, k = some s → ∀ a, s.host.finalAddress? id context.cwd = some a → a ∈ s.within) :
    (resolveRemoteLater id context).run.Meets (remotePact k) (plan ev) me true m fun r m' =>
      m'.Waits k me ∧ ∀ s, k = some s → Answer s m'.view id context.cwd r := by
  unfold resolveRemoteLater
  refine meets_then (meets_trackRemote hm.fit id context.cwd) ?_
  rintro b m₁ ⟨hm₁, hb⟩
  have hwaits₁ : m₁.Waits k me := hm.sees hm₁
  cases b with
  | false =>
    refine meets_pure ⟨hwaits₁, fun s hs => ?_⟩
    have hfalse := hb s hs
    unfold Answer
    cases ha : s.host.finalAddress? id context.cwd with
    | none => rfl
    | some href =>
      rw [ha] at hfalse
      exact Or.inl ⟨hfalse.symm, rfl⟩
  | true =>
    have hfinal (s : Outset) (hs : k = some s) : ∃ href, s.host.finalAddress? id context.cwd = some href ∧
        s.host.settings.enableExternalLinks = true := by
      obtain ⟨hsome, hlinks⟩ := Bool.and_eq_true_iff.1 (hb s hs).symm
      obtain ⟨href, hhref⟩ := Option.isSome_iff_exists.1 hsome
      exact ⟨href, hhref, hlinks⟩
    refine meets_except (R := fun r m' => m'.Waits k me ∧ ∀ s, k = some s →
        Answers s m'.view id context.cwd true r)
      ((meets_fetchRemote hwaits₁.fit id context.cwd true (Or.inl hwaits₁.call)
        (fun _ work hw => nomatch hwaits₁.call.symm.trans hw) hs).mono fun r m' ⟨hm', ha⟩ =>
          ⟨hwaits₁.sees hm', fun s hs => (ha s hs).2⟩) ?_ ?_
    · rintro (_ | ⟨href, module⟩) m₂ ⟨hm₂, ha⟩
      · refine meets_pure ⟨hm₂, fun s hs => ?_⟩
        obtain ⟨href, hhref, -⟩ := hfinal s hs
        rcases (ha s hs).hears hhref with ⟨module, h, -⟩ | ⟨e, h, -⟩ <;> cases h
      · have a : Aside k me m₂.view { m₂.view with state :=
            { m₂.view.state with remote := m₂.view.state.remote.track href } } := aside_track me m₂.view _ rfl
        have hm₃ : m₂.Sees k me true ⟨_, m₂.others, none⟩ :=
          ⟨⟨a.turn.orderly hm₂.fit.inv, rfl, fits_congr (fun _ => rfl) hm₂.fit.fits⟩, a.sees hm₂.fit.inv true⟩
        refine meets_then (R := fun _ m' => m' = ⟨_, m₂.others, none⟩) (meets_change hm₃.fit.inv.collect _ none rfl
          (a.acts hm₂.fit.inv true) (.of_eq rfl) (Or.inl rfl) (by rw [hm₂.fit.owed]; rfl)) ?_
        rintro _ _ rfl
        refine meets_pure ⟨hm₂.sees hm₃, fun s hs => hm₃.sees.keep.answer hs ?_⟩
        obtain ⟨a, hfa, hlinks⟩ := hfinal s hs
        unfold Answer
        rw [hfa]
        rcases (ha s hs).hears hfa with ⟨module', h, hentry⟩ | ⟨e, h, -⟩
        · cases h
          exact Or.inr ⟨hlinks, Or.inl ⟨module, rfl, hentry⟩⟩
        · cases h
    · rintro e m₂ ⟨hm₂, ha⟩
      refine ⟨hm₂, fun s hs => ?_⟩
      obtain ⟨href, hhref, hlinks⟩ := hfinal s hs
      unfold Answer
      rw [hhref]
      rcases (ha s hs).hears hhref with ⟨module, h, -⟩ | ⟨e', h, hentry⟩
      · cases h
      · cases h
        exact Or.inr ⟨hlinks, Or.inr ⟨e, rfl, hentry⟩⟩

/-- A call keeps to the pact, and tells its answer in the end. -/
theorem asking_keeps {x : Sight} (hx : Orderly k x) (hcall : x.threads me = some none)
    (hnone : x.state.outcome? me = none) (id : String) (context : Context)
    (hs : ∀ s, k = some s → ∀ a, s.host.finalAddress? id context.cwd = some a → a ∈ s.within) {Q : Sight → Prop}
    (hq : ∀ y, Answered k id context.cwd me y → Q y) :
    (asking me id context).fiber.DoesLater (remotePact k) (plan ev) me true Q x := by
  intro z others hz hf
  have hx' : Moment.Waits k me ⟨x, fun _ => True, none⟩ := ⟨⟨hx, rfl, fun _ _ => Or.inl trivial⟩, hcall, hnone⟩
  have hm : Moment.Waits k me ⟨z, others, none⟩ := hx'.sees (.of_pause hz hf)
  unfold asking
  refine Meets.does (meets_bind (meets_resolveRemoteLater hm id context hs) ?_)
  rintro r ⟨y, others', owed⟩ ⟨hy, ha⟩
  obtain rfl : owed = none := hy.fit.owed
  have hheld : y.notes me = some me := hy.fit.inv.holds me (by rw [show y.threads me = _ from hy.call]; nofun)
  have a : Turn k me y ⟨Host.tell me (.resolved r) y.state, y.threads, y.notes⟩ :=
    turn_told hheld hy.untold rfl rfl rfl fun href t hl => nomatch hy.call.symm.trans hl
  refine meets_change (a.orderly hy.fit.inv).collect _ none rfl (a.acts hy.fit.inv) (.of_eq rfl) (Or.inl rfl)
    ⟨rfl, hy.fit.fits, fun u hu => ?_⟩
  exact hq u ⟨r, hu.keep.outcomes me _ (Table.at?_put_same ..), fun s hs =>
    ((a.keep hy.fit.inv).trans hu.keep).answer hs (ha s hs)⟩

/-- A call that loads addresses ahead of time keeps to the pact. -/
theorem meets_preload (hm : m.Fit k) (hcall : m.view.threads me = some none) (hrefs : List String)
    (hs : ∀ s, k = some s → ∀ href ∈ hrefs, ∀ a, s.host.finalAddress? href none = some a → a ∈ s.within) :
    (preload hrefs).Meets (remotePact k) (plan ev) me true m fun _ m' => m'.Fit k := by
  unfold preload
  refine meets_bind (R := fun _ m' => m' = m) (meets_view rfl) ?_
  rintro b _ rfl
  cases b with
  | false => exact meets_pure hm
  | true =>
    refine meets_all (T := fun _ _ => True) hrefs hm.owed hm.inv hm.fits (fun href hhref u others hu hf => ?_)
      fun u others hu hf _ => ⟨hu.inv, rfl, hf⟩
    have hcallu : u.threads me = some none := hu.keep.threads me _ hcall
    refine Meets.mono (meets_discard (meets_fetchRemote (m := ⟨u, others, none⟩) ⟨hu.inv, rfl, hf⟩ href none true
      (Or.inl hcallu) (fun _ work hw => nomatch hcallu.symm.trans hw) fun s hk => hs s hk href hhref)) ?_
    rintro _ m' ⟨r, hm', -⟩
    exact ⟨hm'.fit.owed, hm'.fit.fits, fun _ _ => trivial⟩

theorem preload_keeps {x : Sight} (hcall : x.threads me = some none) (hrefs : List String)
    (hs : ∀ s, k = some s → ∀ href ∈ hrefs, ∀ a, s.host.finalAddress? href none = some a → a ∈ s.within)
    {Q : Sight → Prop} (hq : ∀ y, Q y) :
    (preload hrefs).fiber.DoesLater (remotePact k) (plan ev) me true Q x := by
  intro z others hz hf
  have hcallz : z.threads me = some none := hz.keep.threads me _ hcall
  refine Meets.does ((meets_preload (m := ⟨z, others, none⟩) ⟨hz.inv, rfl, hf⟩ hcallz hrefs hs).mono fun _ m' hm' => ?_)
  exact ⟨hm'.owed, hm'.fits, fun y _ => hq y⟩

end ScriptVault

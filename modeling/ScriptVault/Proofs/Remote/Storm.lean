import ScriptVault.Evaluator.Scan
import ScriptVault.Proofs.Remote.Withdraw

/-!
# Storm — remote modules loaded while anything is done to them

Any number of calls ask for remote modules, and between two moves of them, or of the loads that they begin, remote modules
are asked for at once, forgotten, or let be loaded again.  In whatever order this happens, an entry is only settled with
what came of the load that it waits for, a load that lost its entry never gets one again, and nothing stays kept that no
entry stands for.
-/

namespace ScriptVault

open Host Sight

variable {ev : Evaluator} {c c' c'' : Weave Host Work}

/-! ### Runs -/

/-- A host that is at rest as to remote modules: none is on its way, all numbers in use were given out, and what is kept
of loads is what entries stand for. -/
structure Host.Still (h : Host) : Prop where
  asked : h.asked = []
  quiet : h.Quiet
  rests : ∀ href t w, h.entry href ≠ some (.loading t w)
  told : ∀ n, h.outcome? n ≠ none → n < h.nextWork
  carried : ∀ t, h.Bears t → t < h.remote.nextToken
  kept : ∀ t, h.Keeps t → h.Bears t

/-- A host that was built is at rest. -/
theorem Host.still_of_build {parts : Parts} {h : Host} (hb : build parts = .ok h) : h.Still := by
  obtain ⟨rules, -, rfl⟩ := build_eq hb
  exact ⟨rfl, Or.inl rfl, fun _ _ _ hl => (by cases hl), fun _ hn => (hn rfl).elim, fun _ ⟨_, _, hs, _⟩ => (by cases hs),
    fun _ ht => (ht rfl).elim⟩

/-- A thread makes a move, a specifier is asked for, or something is done to remote modules. -/
inductive Storm (ev : Evaluator) : Weave Host Work → Weave Host Work → Prop
  | move {c c' : Weave Host Work} : c.Step (plan ev) c' → Storm ev c c'
  | ask (c : Weave Host Work) (id : String) (context : Context) : Storm ev c ⟨c.state.number.2,
      c.threads ++ [⟨c.state.nextWork, none, .going (asking c.state.nextWork id context).fiber⟩]⟩
  | deed (c : Weave Host Work) (d : Deed) : Storm ev c { c with state := d.apply c.state }

/-- Some of this happens, one after another. -/
def Storms (ev : Evaluator) : Weave Host Work → Weave Host Work → Prop := Relation.ReflTransGen (Storm ev)

/-! ### One step -/

namespace Sight

variable {k : Option Outset} {me : Nat} {x y z : Sight}

/-- What may come of the entry of an address: it stays, it is taken away or waits to be loaded, it is claimed for new
work, or settled with what came of the load that it waits for. -/
inductive Passes (x y : Sight) (href : String) : Prop where
  | same : y.state.entry href = x.state.entry href → Passes x y href
  | withdrawn : y.state.entry href = none ∨ y.state.entry href = some .awaited → Passes x y href
  | claimed (t w : Nat) : y.state.entry href = some (.loading t w) → x.state.remote.nextToken ≤ t →
      x.threads w = none → y.Loads w href t → y.state.outcome? w = none → Passes x y href
  | settled (t w : Nat) (r : Except Failure RemoteModule) : x.state.entry href = some (.loading t w) →
      y.state.entry href = some (.ofResult r) → y.state.outcome? w = some (.remote r) → Passes x y href

/-- Work that is begun in a turn is new, and has told nothing. -/
theorem Turn.untold (hx : Orderly k x) (a : Turn k me x y) {w : Nat} (hw : x.threads w = none) (hy : y.threads w ≠ none) :
    y.state.outcome? w = none := by
  have hle := (a.numbers.begun w hw hy).1
  have hfresh : x.state.outcome? w = none := by
    by_contra h
    exact absurd (hx.told w h) (Nat.not_lt.2 hle)
  rcases a.told w with he | ⟨-, hheld, -⟩
  · exact he.trans hfresh
  · exact absurd (hx.held w (by rw [hheld]; nofun)) (Nat.not_lt.2 hle)

/-- In one turn an entry passes on. -/
theorem Turn.passes (hx : Orderly k x) (a : Turn k me x y) (href : String) : Passes x y href := by
  cases a.entries with
  | same hsame _ _ => exact .same (hsame href)
  | claimed b w _ _ hnone hloads _ hentry hothers _ =>
    by_cases he : href = b
    · subst he
      exact .claimed _ w hentry (Nat.le_refl _) hnone hloads (a.untold hx hnone (by rw [show y.threads w = _ from hloads]; nofun))
    · exact .same (hothers href he)
  | settled b t w r hl ho hentry hothers _ _ =>
    by_cases he : href = b
    · subst he
      exact .settled t w r hl hentry (a.outcome ho)
    · exact .same (hothers href he)

/-- What is begun in turns of one thread tells nothing in further turns of it. -/
theorem Turns.untold (a : Turns k me x y) {w : Nat} (hme : x.threads me ≠ none) (hw : x.threads w = none)
    (hy : y.threads w ≠ none) : y.state.outcome? w = none := by
  induction a with
  | refl => exact (hy hw).elim
  | @tail z y hxz hzy ih =>
    obtain ⟨hz, a⟩ := hzy
    by_cases hwz : z.threads w = none
    · exact a.untold hz hwz hy
    · rcases a.told w with he | ⟨-, hheld, -⟩
      · exact he.trans (ih hwz)
      · -- who holds the number of a thread is the thread
        obtain rfl := Option.some.inj ((hz.holds w hwz).symm.trans hheld)
        exact (hme hw).elim

/-- In the turns of one step an entry passes on. -/
theorem Turns.passes (a : Turns k me x y) (hme : x.threads me ≠ none) (href : String) : Passes x y href := by
  induction a with
  | refl => exact .same rfl
  | @tail z y hxz hzy ih =>
    have hxy : Turns k me x y := hxz.tail hzy
    have hkeep : Keep k x z := Turns.keep hxz
    obtain ⟨hz, a⟩ := hzy
    have hnone {w : Nat} (hw : z.threads w = none) : x.threads w = none := by
      by_contra h
      obtain ⟨v, hv⟩ := Option.ne_none_iff_exists'.1 h
      exact nomatch hw.symm.trans (hkeep.threads w v hv)
    have huntold {w t : Nat} (hw : x.threads w = none) (hl : y.Loads w href t) : y.state.outcome? w = none :=
      Turns.untold hxy hme hw (by rw [show y.threads w = _ from hl]; nofun)
    cases a.passes hz href with
    | withdrawn h => exact .withdrawn h
    | claimed t w hentry hle hw hl ho => exact .claimed t w hentry (Nat.le_trans hkeep.tokens hle) (hnone hw) hl ho
    | same hsame =>
      cases ih with
      | same h => exact .same (hsame.trans h)
      | withdrawn h => exact .withdrawn (by rw [hsame]; exact h)
      | claimed t w hentry hle hw hl ho =>
        exact .claimed t w (hsame.trans hentry) hle hw (a.numbers.loads hl) (huntold hw (a.numbers.loads hl))
      | settled t w r hl hentry ho => exact .settled t w r hl (hsame.trans hentry) (a.outcome ho)
    | settled t w r hl hentry ho =>
      cases ih with
      | same h => exact .settled t w r (h.symm.trans hl) hentry ho
      | withdrawn h => rcases h with h | h <;> cases h.symm.trans hl
      | claimed t' w' hentry' hle hw hloads ho' =>
        cases hentry'.symm.trans hl
        cases (huntold hw (a.numbers.loads hloads)).symm.trans ho
      | settled t' w' r' hl' hentry' ho' => cases r' <;> cases hentry'.symm.trans hl

/-- What is withdrawn passes on. -/
theorem passes_withdraw {h' : Host} (a : Host.Withdraws x.state h') (href : String) :
    Passes x ⟨h', x.threads, x.notes⟩ href := 
  (a.entries href).elim (fun h => .same h) fun h => .withdrawn h

end Sight

/-! ### Runs keep to the pact -/

/-- What is known of calls that have ended: they have told something. -/
def Sight.Heard (n : Nat) (x : Sight) : Prop := ∃ r, x.state.outcome? n = some (.resolved r)

theorem Host.Still.orderly {h : Host} (hs : h.Still) {k : Option Outset} (hk : ∀ s, k = some s → s.host = h) :
    Orderly k ⟨h, fun _ => none, fun _ => none⟩ where
  asked := hs.asked
  quiet := hs.quiet
  begun _ hi := (hi rfl).elim
  told := hs.told
  held _ hi := (hi rfl).elim
  holds _ hi := (hi rfl).elim
  loading href t w hl := (hs.rests href t w hl).elim
  tokens _ _ _ hw := nomatch hw
  apart _ _ _ _ _ hw := nomatch hw
  carried := hs.carried
  stands _ _ _ hw := nomatch hw
  kept t ht := hs.carried t (hs.kept t ht)
  strays t ht := (ht.2 (hs.kept t ht.1)).elim
  reports _ _ _ _ hw := nomatch hw
  calm s hs' := by
    obtain rfl := hk s hs'
    have hnone {w t : Nat} {href : String} : ¬Sight.Loads ⟨s.host, fun _ => none, fun _ => none⟩ w href t := nofun
    exact ⟨.refl _, rfl, fun _ _ _ _ _ hw => (hnone hw).elim, fun _ _ _ hw => (hnone hw).elim,
      fun _ _ _ hw => (hnone hw).elim, fun _ _ _ hw => (hnone hw).elim, fun _ _ => rfl,
      ⟨[], rfl, List.nodup_nil, nofun⟩, fun _ => Or.inl rfl⟩

/-- All threads of a run keep to the pact. -/
abbrev Stormy (ev : Evaluator) (c : Weave Host Work) (x : Sight) : Prop :=
  (remotePact none).Accord (plan ev) Heard c x

theorem stormy_begin {h : Host} (hs : h.Still) (ev : Evaluator) : Stormy ev ⟨h, []⟩ ⟨h, fun _ => none, fun _ => none⟩ where
  state := rfl
  inv := hs.orderly fun _ hk => by cases hk
  distinct := List.nodup_nil
  threads := nofun
  known _ hi := (hi rfl).elim
  stands := nofun
  fits _ hw := by
    obtain ⟨href, t, hl⟩ := hw
    exact (hs.rests href t _ hl).elim

/-- The threads still keep to it after each step, and entries pass on. -/
theorem Storm.stormy {x : Sight} (hc : Stormy ev c x) (hs : Storm ev c c') :
    ∃ y, Stormy ev c' y ∧ Keep none x y ∧ ∀ href, Passes x y href := by
  cases hs with
  | move hm =>
    obtain ⟨t, begun, hm⟩ := hm
    obtain ⟨y, hy, hacts, -⟩ := hc.moves (plan_keeps none ev) hm
    have hme : x.threads t.id ≠ none := by
      rw [hc.threads t hm.mem]
      nofun
    exact ⟨y, hy, hacts.move.keep, Turns.passes hacts.move hme⟩
  | ask id context =>
    have hx := hc.inv
    have hstate := hc.state
    refine ⟨x.called, ?_, keep_called hx, fun _ => .same rfl⟩
    rw [← hstate]
    refine hc.joined hx.called hx.fresh.1 rfl (keep_called hx) (fun i _ => own_called hx i) (fun _ hw => hw) ?_
    exact asking_keeps hx.called (Function.update_self ..) hx.fresh.2.2 id context (fun _ hk => by cases hk)
      fun _ ⟨r, hr, _⟩ => ⟨r, hr⟩
  | deed d =>
    have hx := hc.inv
    have a : Withdraws x.state (d.apply c.state) := hc.state ▸ withdraws_apply d x.state
    refine ⟨⟨d.apply c.state, x.threads, x.notes⟩, ?_, keep_withdraw a, passes_withdraw a⟩
    exact hc.touched (hx.withdraw a) rfl (keep_withdraw a) (own_withdraw a) fun w ⟨href, t, hl⟩ => ⟨href, t, a.loading hl⟩

theorem Storms.stormy {h : Host} (hs : h.Still) (hrun : Storms ev ⟨h, []⟩ c) : ∃ x, Stormy ev c x := by
  induction hrun with
  | refl => exact ⟨_, stormy_begin hs ev⟩
  | tail _ hstep ih =>
    obtain ⟨x, hx⟩ := ih
    obtain ⟨y, hy, -⟩ := hstep.stormy hx
    exact ⟨y, hy⟩

theorem Storms.keep {x : Sight} (hc : Stormy ev c x) (hrun : Storms ev c c') : ∃ y, Stormy ev c' y ∧ Keep none x y := by
  induction hrun with
  | refl => exact ⟨x, hc, .refl x⟩
  | tail _ hstep ih =>
    obtain ⟨y, hy, hkeep⟩ := ih
    obtain ⟨z, hz, hkeep', -⟩ := hstep.stormy hy
    exact ⟨z, hz, hkeep.trans hkeep'⟩

/-! ### What holds of all runs -/

/-- In a step what came of a load is entered, for the address and by the work that the entry waited for. -/
structure Lands (c c' : Weave Host Work) (href : String) (t w : Nat) (r : Except Failure RemoteModule) : Prop where
  waited : c.state.entry href = some (.loading t w)
  entered : c'.state.entry href = some (.ofResult r)

/-- No load is in flight: all have ended, and no entry waits for one. -/
structure Grounded (c : Weave Host Work) : Prop where
  ended : ∀ u ∈ c.threads, ∀ href t, u.work = some (.fetching href t) → u.strand = .ended
  rests : ∀ href t w, c.state.entry href ≠ some (.loading t w)

/-- An entry is settled only with what the very load told that it waited for, under the token of that load. -/
theorem Storm.lands {x : Sight} (hc : Stormy ev c x) (hstep : Storm ev c c') {href : String}
    {r : Except Failure RemoteModule} (hr : c'.state.entry href = some (.ofResult r))
    (hnew : c.state.entry href ≠ some (.ofResult r)) : ∃ t w, Lands c c' href t w r ∧ c.Begun w (.fetching href t) ∧
      c'.state.outcome? w = some (.remote r) ∧ ∀ module, r = .ok module → module.token = t := by
  obtain ⟨y, hy, hkeep, hpasses⟩ := hstep.stormy hc
  rw [← hy.state] at hr ⊢
  rw [← hc.state] at hnew
  cases hpasses href with
  | same h => exact (hnew (h.symm.trans hr)).elim
  | withdrawn h => rcases h with h | h <;> cases r <;> cases h.symm.trans hr
  | claimed t w h => cases r <;> cases h.symm.trans hr
  | settled t w r' hl hentry ho =>
    have hload := hc.inv.loading href t w hl
    obtain ⟨r'', hr'', hreports⟩ := hy.inv.reports w href t _ (hkeep.threads w _ hload) ho
    cases hr''
    have hsame : r' = r := by cases r <;> cases r' <;> cases hentry.symm.trans hr <;> rfl
    subst hsame
    exact ⟨t, w, ⟨hc.state ▸ hl, hy.state ▸ hr⟩, hc.begun_iff.2 hload, ho, hreports.token⟩

/-- A load that its entry does not stand for any more never comes to stand in one. -/
theorem Storms.dead {x : Sight} (hc : Stormy ev c x) {w t : Nat} {href : String} (hw : c.Begun w (.fetching href t))
    (hgone : ∀ state, c.state.entry href = some state → state.token? ≠ some t) (hrun : Storms ev c c') :
    ¬c'.state.Bears t := by
  obtain ⟨y, hy, hkeep⟩ := hrun.keep hc
  have hload := hc.begun_iff.1 hw
  rw [← hc.state] at hgone
  rw [← hy.state]
  intro hcarries
  obtain ⟨a, state, hentry, ht⟩ := hkeep.dead t (hc.inv.tokens w href t hload) hcarries
  obtain rfl := hc.inv.stands w href t hload a state hentry ht
  exact hgone state hentry ht

/-- Where no load is in flight the host is at rest again. -/
theorem still_of_grounded {k : Option Outset} {answers : Nat → Sight → Prop} {x : Sight}
    (hc : (remotePact k).Accord (plan ev) answers c x) (hg : Grounded c) : c.state.Still := by
  have hx := hc.inv
  rw [← hc.state]
  refine ⟨hx.asked, hx.quiet, fun href t w => hc.state ▸ hg.rests href t w, hx.told, hx.carried, fun t ht => ?_⟩
  by_contra hcarries
  obtain ⟨w, href, hload, hnone⟩ := hx.strays t ⟨ht, hcarries⟩
  obtain ⟨u, hu, rfl, hwork⟩ := hc.begun_iff.2 hload
  have hended := hc.ends hu (hg.ended u hu href t hwork)
  unfold Thread.Ends at hended
  rw [hwork] at hended
  have htold : Told k u.id x := hended
  unfold Told at htold
  rw [show x.threads u.id = _ from hload] at htold
  obtain ⟨r, hr, -⟩ := htold
  cases hnone.symm.trans hr

/-- Late loads never land: however calls, loads and what is done to remote modules interleave, an entry becomes ready or
failed only with what the very load told that it waited for; a load that lost its entry never enters anything again; and
where no load is in flight, all that the transpilers keep of remote modules is kept under tokens of modules that are
there. -/
theorem late_loads_never_land (ev : Evaluator) {h : Host} (hs : h.Still) {c : Weave Host Work}
    (hrun : Storms ev ⟨h, []⟩ c) :
    (∀ c', Storm ev c c' → ∀ href r, c'.state.entry href = some (.ofResult r) → c.state.entry href ≠ some (.ofResult r) →
      ∃ t w, Lands c c' href t w r ∧ c.Begun w (.fetching href t) ∧ c'.state.outcome? w = some (.remote r) ∧
        ∀ module, r = .ok module → module.token = t) ∧
    (∀ w href t, c.Begun w (.fetching href t) →
      (∀ state, c.state.entry href = some state → state.token? ≠ some t) → ∀ c', Storms ev c c' →
        ¬c'.state.Bears t ∧ ∀ c'', Storm ev c' c'' → ∀ a t' r, ¬Lands c' c'' a t' w r) ∧
    (Grounded c → ∀ t, c.state.Keeps t →
      ∃ href module, c.state.entry href = some (.ready module) ∧ module.token = t) := by
  obtain ⟨x, hx⟩ := Storms.stormy hs hrun
  refine ⟨fun c' hstep href r hr hnew => hstep.lands hx hr hnew, fun w href t hw hgone c' hrun' => ?_, fun hg t ht => ?_⟩
  · have hdead := Storms.dead hx hw hgone hrun'
    refine ⟨hdead, fun c'' _ a t' r hl => hdead ⟨a, _, hl.waited, ?_⟩⟩
    -- the entry waits for the load, and so under its token
    obtain ⟨y, hy, hkeep⟩ := hrun'.keep hx
    have hload := hkeep.threads w _ (hx.begun_iff.1 hw)
    cases hload.symm.trans (hy.inv.loading a t' w (hy.state ▸ hl.waited))
    rfl
  · obtain ⟨href, state, hentry, htoken⟩ := (still_of_grounded hx hg).kept t ht
    cases state with
    | ready module => exact ⟨href, module, hentry, Option.some.inj htoken⟩
    | loading t' w => exact (hg.rests href t' w hentry).elim
    | awaited => cases htoken
    | failed e => cases htoken

/-- One page. -/
def Host.lone : Parts where
  vault := .memory {}
  settings := { enableExternalLinks := true }
  network := { pages := [("https://a.example/a.js", "")] }

/-- The work of a number was begun to load an address under a token. -/
def Weave.begins (c : Weave Host Work) (w : Nat) (href : String) (t : Nat) : Bool :=
  c.threads.any fun u => u.id == w && match u.work with
    | some (.fetching href' t') => href' == href && t' == t
    | _ => false

theorem Weave.begun_of_begins {w t : Nat} {href : String} (h : c.begins w href t = true) :
    c.Begun w (.fetching href t) := by
  obtain ⟨u, hu, h⟩ := List.any_eq_true.1 h
  obtain ⟨hid, hwork⟩ := Bool.and_eq_true_iff.1 h
  refine ⟨u, hu, beq_iff_eq.1 hid, ?_⟩
  split at hwork
  · next he =>
    obtain ⟨h₁, h₂⟩ := Bool.and_eq_true_iff.1 hwork
    rw [he, beq_iff_eq.1 h₁, beq_iff_eq.1 h₂]
  · cases hwork

/-- The only page is forgotten while its text is on its way: what comes of the load is told, and never lands. -/
theorem late_loads_never_land_lone : ∃ h, Host.build Host.lone = .ok h ∧ ∃ c, Storms Scan.evaluator ⟨h, []⟩ c ∧
    c.Finished ∧ c.Begun 2 (.fetching "https://a.example/a.js" 0) ∧ c.state.entry "https://a.example/a.js" = none ∧
      ∀ c', Storms Scan.evaluator c c' → ¬c'.state.Bears 0 := by
  let asked (h : Host) : Weave Host Work := ⟨h.number.2,
    [⟨h.nextWork, none, .going (asking h.nextWork "https://a.example/a.js" {}).fiber⟩]⟩
  let forgotten (c : Weave Host Work) : Weave Host Work :=
    { c with state := (Deed.invalidate "https://a.example/a.js").apply c.state }
  have hrun : ((Host.build Host.lone).toOption.bind fun h =>
      ((asked h).turns? (plan Scan.evaluator) [0, 0, 1, 1]).bind fun c =>
        ((forgotten c).turns? (plan Scan.evaluator) [2, 2, 2, 1, 1, 1, 0]).filter fun c =>
          c.threads.all (·.strand.isEnded) && (c.begins 2 "https://a.example/a.js" 0 &&
            (c.state.entry "https://a.example/a.js").isNone)).isSome = true := by
    decide +kernel
  obtain ⟨c, hc⟩ := Option.isSome_iff_exists.1 hrun
  obtain ⟨h, hbuild, hc⟩ := Option.bind_eq_some_iff.1 hc
  obtain ⟨c₁, hturns₁, hc⟩ := Option.bind_eq_some_iff.1 hc
  obtain ⟨hturns₂, htest⟩ := Option.filter_eq_some_iff.1 hc
  obtain ⟨hended, htest⟩ := Bool.and_eq_true_iff.1 htest
  obtain ⟨hbegins, hnone⟩ := Bool.and_eq_true_iff.1 htest
  have hb : Host.build Host.lone = .ok h := eq_ok_of_toOption hbuild
  have hmoves {c c' : Weave Host Work} (hs : Weave.Steps (plan Scan.evaluator) c c') : Storms Scan.evaluator c c' :=
    Relation.ReflTransGen.mono (fun _ _ hstep => .move hstep) _ _ hs
  have hstorms : Storms Scan.evaluator ⟨h, []⟩ c :=
    .head (.ask ⟨h, []⟩ "https://a.example/a.js" {}) ((hmoves (Weave.steps_of_turns? hturns₁)).trans
      (.head (.deed c₁ (.invalidate "https://a.example/a.js")) (hmoves (Weave.steps_of_turns? hturns₂))))
  have hbegun := Weave.begun_of_begins hbegins
  have hentry := Option.isNone_iff_eq_none.1 hnone
  refine ⟨h, hb, c, hstorms, fun t ht => Strand.eq_ended (List.all_eq_true.1 hended t ht), hbegun, hentry, fun c' hrun' => ?_⟩
  exact ((late_loads_never_land Scan.evaluator (still_of_build hb) hstorms).2.1 2 _ 0 hbegun
    (fun state hs => by cases hentry.symm.trans hs) c' hrun').1

end ScriptVault

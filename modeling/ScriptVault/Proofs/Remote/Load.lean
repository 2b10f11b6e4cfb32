import ScriptVault.Host.Start
import ScriptVault.Proofs.Remote.Errands

/-!
# Load — what a load comes to

A load asks for its page, has it compiled by work of its own, replaces the calls, claims what the page requires and tells
the module.  Until it has told something it alone has anything kept under its token; and when it tells, nothing that is
kept under it strays.
-/

namespace ScriptVault

open Async Host Sight

variable {k : Option Outset} {ev : Evaluator} {me : Nat} {m m' : Moment Host Work (Nat → Option Nat)}

/-! ### A load under way -/

/-- A load is under way: it has told nothing. -/
structure Moment.Runs (k : Option Outset) (me : Nat) (href : String) (t : Nat)
    (m : Moment Host Work (Nat → Option Nat)) : Prop where
  fit : m.Fit k
  loads : Loads m.view me href t
  untold : m.view.state.outcome? me = none

namespace Moment

variable {href : String} {t : Nat} {z : Sight} {others : Nat → Prop}

theorem Runs.sees (hm : m.Runs k me href t) (hz : (remotePact k).Sees me true m.view z)
    (hf : (remotePact k).Fits z others) : Runs k me href t ⟨z, others, none⟩ := by
  have hholds : m.view.notes me = some me := hm.fit.inv.holds me (by rw [show m.view.threads me = _ from hm.loads]; nofun)
  exact ⟨⟨hz.inv, rfl, hf⟩, hz.keep.threads me _ hm.loads, ((hz.own rfl).held me hholds).2.trans hm.untold⟩

/-- A turn of a load under way that tells nothing under its number. -/
theorem Runs.turn {y : Sight} (hm : m.Runs k me href t) (a : Turn k me m.view y)
    (ho : y.state.outcome? me = m.view.state.outcome? me) (he : ∀ a, y.state.entry a = m.view.state.entry a) :
    Runs k me href t ⟨y, m.others, none⟩ :=
  ⟨⟨a.orderly hm.fit.inv, rfl, fits_congr he hm.fit.fits⟩, a.numbers.loads hm.loads, ho.trans hm.untold⟩

end Moment

/-! ### Compiling -/

theorem compile_congr {w w' : Compile.Workshop} (h : w'.compiler = w.compiler) (request : Compile.Request) :
    (w'.compile request).1 = (w.compile request).1 := by
  unfold Compile.Workshop.compile
  rw [h]
  split <;> rfl

theorem compile_rest (w : Compile.Workshop) (request : Compile.Request) : (w.compile request).2.compiler = w.compiler ∧
    (w.compile request).2.scripts = w.scripts ∧ (w.compile request).2.modules = w.modules := by
  unfold Compile.Workshop.compile
  split <;> exact ⟨rfl, rfl, rfl⟩

/-- What comes of compiling is told, whatever else goes on. -/
theorem compiling_keeps {x : Sight} {id : Nat} {request : Compile.Request} (hx : Orderly k x)
    (hb : Begun k id (.compiling request) x) :
    (compiling id request).fiber.DoesLater (remotePact k) (plan ev) id true (Told k id) x := by
  intro z others hz hf
  have hheld : x.notes id = some id := hx.holds id (by rw [show x.threads id = _ from hb.1]; nofun)
  refine Meets.does (meets_offload rfl hf fun u hu => ?_)
  have hxu : (remotePact k).Sees id true x u := hz.trans hu
  obtain ⟨hheldu, hout⟩ := (hxu.own rfl).held id hheld
  have hwork : u.Works id (.compiling request) := hxu.keep.threads id _ hb.1
  obtain ⟨hcompiler, hscripts, hmodules⟩ := compile_rest u.state.workshop request
  have a : Turn k id u ⟨Host.tell id (.code ((u.state.workshop.compile request).1.map some))
      { u.state with workshop := (u.state.workshop.compile request).2 }, u.threads, u.notes⟩ :=
    turn_told hheldu (hout.trans hb.2.1) hcompiler hscripts hmodules fun href t hl => by
      cases hl.symm.trans hwork
  refine ⟨(a.orderly hu.inv).collect, _, rfl, a.acts hu.inv, .of_eq rfl, fun w hw => hw, fun v others' hv hf' => ⟨rfl, hf', fun y hy => ?_⟩⟩
  have hvy := hv.trans hy
  have htold : y.state.outcome? id = some (.code ((u.state.workshop.compile request).1.map some)) :=
    hvy.keep.outcomes id _ (Table.at?_put_same ..)
  have hworky : y.threads id = some (some (.compiling request)) := hvy.keep.threads id _ hwork
  unfold Told
  rw [hworky]
  dsimp only
  rw [htold, compile_congr (hvy.keep.alike.compiler.trans hcompiler)]

/-- The page of a load as a source. -/
def pageSource (href body : String) (t : Nat) : Source := ⟨body, some href, some (.remote t)⟩

/-- A page is compiled by work of its own, under the token of its load. -/
theorem meets_moduleOf {href : String} {t : Nat} (hm : m.Runs k me href t) (hkeeps : ¬m.view.state.Keeps t) (body : String) :
    (moduleOf (pageSource href body t) (some remoteHeader)).run.Meets (remotePact k) (plan ev) me true m fun r m' =>
      m'.Runs k me href t ∧ Keep k m.view m'.view ∧
        r = m.view.state.chain.made .module ⟨body, some href, none⟩ (some remoteHeader) := by
  obtain ⟨x, others, owed⟩ := m
  obtain rfl : owed = none := hm.fit.owed
  have hx := hm.fit.inv
  have hdraft : x.state.workshop.draft? (some (.remote t)) = none := by
    by_contra h
    exact hkeeps fun he => h (congrArg Prod.snd he)
  obtain ⟨request, hrequest⟩ : ∃ request, Compile.Workshop.request? (pageSource href body t) (some remoteHeader) .module =
      some request := ⟨_, rfl⟩
  have hrequest' : Compile.Workshop.request? ⟨body, some href, none⟩ (some remoteHeader) .module = some request := hrequest
  have hmade : x.state.chain.made .module ⟨body, some href, none⟩ (some remoteHeader) =
      (x.state.workshop.compile request).1.map some := by
    unfold Chain.made
    rw [hrequest']
    refine congrArg (Except.map some) ?_
    apply compile_congr
    rfl
  set c : Nat := x.state.nextWork with hc
  have hlt : me < c := hx.begun me (by rw [show x.threads me = _ from hm.loads]; nofun)
  have hfresh := hx.fresh
  -- the number is given out and the work counts as begun, then the draft is kept
  set x₁ : Sight := Sight.begun x (.compiling request) with hx₁
  have a₁ : Turn k me x x₁ := turn_begun hx (Or.inr ⟨href, t, hm.loads⟩) request
  have hm₁ : Moment.Runs k me href t ⟨x₁, others, none⟩ := hm.turn a₁ rfl fun _ => rfl
  set x₂ : Sight := { x₁ with state := { x₁.state with
    workshop := x₁.state.workshop.keep (some (.remote t)) (.pending c) } } with hx₂
  have a₂ : Turn k me x₁ x₂ :=
    turn_kept hm₁.loads hm₁.untold rfl fun o ho => ⟨rfl, Table.at?_put_ne (Ne.symm ho) ..⟩
  have hm₂ : Moment.Runs k me href t ⟨x₂, others, none⟩ := hm₁.turn a₂ rfl fun _ => rfl
  have hwork : x₂.Works c (.compiling request) := Function.update_self ..
  have hkeep₂ : Keep k x x₂ := (a₁.keep hx).trans (a₂.keep hm₁.fit.inv)
  have hgrows : x.Grows x₁ [(c, .compiling request)] := by
    refine ⟨fun p hp => ?_, fun i hi => ?_, List.nodup_singleton _⟩
    · obtain rfl := List.mem_singleton.1 hp
      exact ⟨hfresh.1, hwork⟩
    · exact Function.update_of_ne (fun he => hi _ (List.mem_singleton.2 rfl) he.symm) ..
  unfold moduleOf
  refine meets_then (R := fun d m' => d = none ∧ m' = ⟨x, others, none⟩) (meets_view ⟨hdraft, rfl⟩) ?_
  rintro _ _ ⟨rfl, rfl⟩
  dsimp only
  rw [hrequest]
  dsimp only
  rw [if_pos (by rfl)]
  refine meets_then (R := fun a m' => a = c ∧ m' = ⟨x₂, others, none⟩) ?_ ?_
  · unfold draft fresh
    refine meets_bind (R := fun a m' => a = c ∧ m' = ⟨x₁, others, some (c, .compiling request)⟩)
      (meets_step hm₁.fit.inv.collect x₁ (some (c, .compiling request)) rfl (a₁.acts hx) hgrows (Or.inr rfl) ⟨rfl, rfl⟩) ?_
    rintro _ _ ⟨rfl, rfl⟩
    refine meets_bind (R := fun _ m' => m' = ⟨x₂, others, some (c, .compiling request)⟩)
      (meets_change hm₂.fit.inv.collect x₂ none rfl (a₂.acts hm₁.fit.inv) (.of_eq rfl) (Or.inl rfl) rfl) ?_
    rintro _ _ rfl
    refine meets_bind (R := fun _ m' => m' = ⟨x₂, others, none⟩)
      (meets_share rfl (Nat.ne_of_gt hlt) ⟨hwork, hfresh.2.2, trivial⟩ rfl) ?_
    rintro _ _ rfl
    exact meets_pure ⟨rfl, rfl⟩
  rintro _ _ ⟨rfl, rfl⟩
  unfold drafted
  refine meets_then (R := fun _ m' => m'.Runs k me href t ∧ Keep k x m'.view ∧
      m'.view.Works c (.compiling request) ∧ Told k c m'.view)
    (meets_await rfl (fun _ _ => hlt) ⟨_, hwork⟩ (hm₂.fit.fits.but (some c)) fun z others' hz ht hf => ?_) ?_
  · -- no entry waits for the work of compiling
    have hcode : z.Works c (.compiling request) := hz.keep.threads c _ hwork
    have hf' : (remotePact k).Fits z others' := fun w hw => by
      refine Or.inl ((hf w hw).resolve_right fun he => ?_)
      obtain rfl := Option.some.inj he
      obtain ⟨a, t', ha⟩ := hw
      cases hcode.symm.trans (hz.inv.loading a t' c ha)
    exact ⟨hm₂.sees hz hf', hkeep₂.trans hz.keep, hcode, ht⟩
  · rintro _ m' ⟨hm', hkeep', hcode, ht⟩
    refine meets_view ⟨hm', hkeep', ?_⟩
    unfold Told at ht
    rw [show m'.view.threads c = _ from hcode] at ht
    dsimp only at ht
    rw [ht, hmade, ← compile_congr hkeep'.alike.compiler]
    rfl

/-! ### What a page becomes -/

theorem isLoading_carries {h : Host} {href : String} {t : Nat} (hl : h.remote.isLoading href t = true) :
    h.Bears t := by
  unfold Remote.isLoading at hl
  split at hl
  · next t' w he => exact ⟨href, _, he, congrArg some (beq_iff_eq.1 hl)⟩
  · cases hl

/-- Once nothing strays of its load, nothing will, whatever others do. -/
theorem Sight.Own.settles {x y : Sight} (a : Own k me x y) {href : String} {t : Nat} (hl : x.Loads me href t)
    (hs : ¬x.state.Strays t) : ¬y.state.Strays t := fun h => hs (a.strays href t hl h)

/-- What is kept of a load that lost its entry is forgotten. -/
theorem meets_retire {href : String} {t : Nat} (hm : m.Runs k me href t) :
    (Async.change fun h => if h.remote.isLoading href t then h else h.forget (.remote t)).Meets (remotePact k)
      (plan ev) me true m fun _ m' => m'.Runs k me href t ∧ Keep k m.view m'.view ∧ ¬m'.view.state.Strays t := by
  obtain ⟨x, others, owed⟩ := m
  obtain rfl : owed = none := hm.fit.owed
  have hx := hm.fit.inv
  by_cases hl : x.state.remote.isLoading href t = true
  · refine meets_change ?_ x none ?_ (.refl hx) (.refl x) (Or.inl rfl) ⟨hm, .refl x, fun hs => hs.2 (isLoading_carries hl)⟩
    · dsimp only
      rw [if_pos hl]
      exact hx.collect
    · exact (if_pos hl).symm
  · set y : Sight := { x with state := x.state.forget (.remote t) } with hy
    have a : Turn k me x y := turn_kept hm.loads hm.untold rfl fun o ho =>
      ⟨Table.at?_erase_ne (Ne.symm ho) _, Table.at?_erase_ne (Ne.symm ho) _⟩
    have hm' : Moment.Runs k me href t ⟨y, others, none⟩ := hm.turn a rfl fun _ => rfl
    refine meets_change ?_ y none ?_ (a.acts hx) (.of_eq rfl) (Or.inl rfl) ⟨hm', a.keep hx, fun hs => hs.1 ?_⟩
    · dsimp only
      rw [if_neg hl]
      exact hm'.fit.inv.collect
    · exact (if_neg hl).symm
    · exact Prod.ext (Table.at?_erase_same ..) (Table.at?_erase_same ..)

/-- A load takes a number to hold. -/
theorem meets_fresh {href : String} {t : Nat} (hm : m.Runs k me href t) (hs : ¬m.view.state.Strays t) :
    fresh.Meets (remotePact k) (plan ev) me true m fun n m' => m'.Runs k me href t ∧ Keep k m.view m'.view ∧
      ¬m'.view.state.Strays t ∧ n ≠ me ∧ m'.view.notes n = some me ∧ m'.view.state.outcome? n = none := by
  obtain ⟨x, others, owed⟩ := m
  obtain rfl : owed = none := hm.fit.owed
  have hx := hm.fit.inv
  have hlt : me < x.state.nextWork := hx.begun me (by rw [show x.threads me = _ from hm.loads]; nofun)
  have a : Turn k me x (Sight.numbered x me) := turn_numbered hx me me
  have hm' : Moment.Runs k me href t ⟨Sight.numbered x me, others, none⟩ := hm.turn a rfl fun _ => rfl
  exact meets_step hm'.fit.inv.collect (Sight.numbered x me) none rfl (a.acts hx) (.of_eq rfl) (Or.inl rfl)
    ⟨hm', a.keep hx, hs, Nat.ne_of_gt hlt, Function.update_self .., hx.fresh.2.2⟩

/-- The calls of a page are replaced under a number that the load holds. -/
theorem meets_rewriting {href : String} {t n : Nat} (hm : m.Runs k me href t) (hs : ¬m.view.state.Strays t)
    (hn : n ≠ me) (hheld : m.view.notes n = some me) (hnone : m.view.state.outcome? n = none) (settings : Settings)
    (code : String) :
    (rewriting n settings href code).Meets (remotePact k) (plan ev) me true m fun _ m' => m'.Runs k me href t ∧
      Keep k m.view m'.view ∧ ¬m'.view.state.Strays t ∧ m'.view.state.outcome? n = some (.rewritten
        (Script.rewrite href code.toList (Script.loaderExpression settings.requireName).toList
          (m.view.state.remoteTarget settings.exposeInternalModules href))) := by
  set result := Script.rewrite href code.toList (Script.loaderExpression settings.requireName).toList
    (m.view.state.remoteTarget settings.exposeInternalModules href) with hresult
  refine meets_offload hm.fit.owed hm.fit.fits fun z hz => ?_
  -- what others see to matters only where the fiber may stop
  have hmz : Moment.Runs k me href t ⟨z, fun _ => True, none⟩ := hm.sees hz fun _ _ => Or.inl trivial
  obtain ⟨hheldz, hnonez⟩ := (hz.own rfl).held n hheld
  have a : Turn k me z ⟨Host.tell n (.rewritten result) z.state, z.threads, z.notes⟩ :=
    turn_told hheldz (hnonez.trans hnone) rfl rfl rfl fun href' t' hl =>
      (hn (Option.some.inj ((hz.inv.holds n (by rw [show z.threads n = _ from hl]; nofun)).symm.trans hheldz))).elim
  have hmy : Moment.Runs k me href t ⟨⟨Host.tell n (.rewritten result) z.state, z.threads, z.notes⟩, fun _ => True,
      none⟩ := hmz.turn a (Table.at?_put_ne hn ..) fun _ => rfl
  have hsz : ¬z.state.Strays t := (hz.own rfl).settles hm.loads hs
  have htarget : z.state.remoteTarget settings.exposeInternalModules href =
      m.view.state.remoteTarget settings.exposeInternalModules href := hz.keep.alike.remoteTarget _ _
  refine ⟨?_, _, ?_, a.acts hz.inv, .of_eq rfl, fun w hw => hw, fun u others' hu hf =>
    ⟨hmy.sees hu hf, hz.keep.trans ((a.keep hz.inv).trans hu.keep), (hu.own rfl).settles hmy.loads hsz,
      hu.keep.outcomes n _ (Table.at?_put_same ..)⟩⟩
  · rw [htarget]
    exact hmy.fit.inv.collect
  · rw [htarget]

/-- Where nothing is done from outside, what was begun stays so. -/
theorem Sight.Keep.begins {x y : Sight} (a : Keep k x y) (hk : k ≠ none) {href : String} (h : Begins x href) :
    Begins y href := by
  rcases h with ⟨r, h⟩ | ⟨t, w, h⟩
  · exact Or.inl ⟨r, a.settled hk href r h⟩
  · exact (a.loading hk href t w h).elim (fun h => Or.inr ⟨t, w, h⟩) Or.inl

/-- A result that is not asked for does not matter. -/
theorem meets_discard {α : Type} {main : Bool} {x : Async Host Work α} {R : α → Moment Host Work (Nat → Option Nat) → Prop}
    (hx : x.Meets (remotePact k) (plan ev) me main m R) :
    (discard x).Meets (remotePact k) (plan ev) me main m fun _ m' => ∃ a, R a m' :=
  fun _ _ hk => hx _ _ fun a m' ha => hk _ m' ⟨a, ha⟩

/-- Who hears of an address knows that it is settled, or on its way. -/
theorem Sight.Answers.begins {s : Outset} {x : Sight} {id : String} {cwd : Option String} {wait : Bool}
    {r : Except Failure (Option (String × RemoteModule))} (h : Answers s x id cwd wait r) {a : String}
    (ha : s.host.finalAddress? id cwd = some a) : Begins x a := by
  unfold Answers at h
  rw [ha] at h
  rcases h with (⟨module, -, h⟩ | ⟨e, -, h⟩) | ⟨-, -, t, w, h⟩
  · exact Or.inl ⟨.ok module, h⟩
  · exact Or.inl ⟨.error e, h⟩
  · exact Or.inr ⟨t, w, h⟩

/-- What a page requires is claimed, side by side. -/
theorem meets_requires {href : String} {t : Nat} (hm : m.Runs k me href t) (hs : ¬m.view.state.Strays t)
    (requires : List String) (hr : ∀ s, k = some s → requires = s.host.pageRequires href) :
    (Async.all (requires.map fun url => discard (fetchRemote url none false).run)).Meets (remotePact k)
      (plan ev) me true m fun _ m' => m'.Runs k me href t ∧ Keep k m.view m'.view ∧ ¬m'.view.state.Strays t ∧
        ∀ s, k = some s → Required s m'.view href := by
  let T (url : String) (z : Sight) : Prop :=
    ∀ s, k = some s → Knows s z url none ∧ ∀ a, s.host.finalAddress? url none = some a → Begins z a
  refine meets_all (T := T) requires hm.fit.owed hm.fit.inv hm.fit.fits (fun url hurl z others hz hf => ?_)
    fun z others hz hf ht => ⟨hm.sees hz hf, hz.keep, (hz.own rfl).settles hm.loads hs, fun s hk url hurl =>
      ht url (by rw [hr s hk]; exact hurl) s hk⟩
  have hwithin (s : Outset) (hk : k = some s) (a : String) (ha : s.host.finalAddress? url none = some a) :
      a ∈ s.within :=
    s.closed href ((hm.fit.inv.calm s hk).within me href t hm.loads) url (by rw [← hr s hk]; exact hurl) a ha
  have hmz : Asks z me := Or.inr ⟨href, t, hz.keep.threads me _ hm.loads⟩
  have hfit : Moment.Fit k ⟨z, others, none⟩ := ⟨hz.inv, rfl, hf⟩
  refine Meets.mono (meets_discard (meets_fetchRemote hfit url none false hmz nofun hwithin)) ?_
  rintro _ m' ⟨r, hm', ha⟩
  refine ⟨hm'.fit.owed, hm'.fit.fits, fun y hy s hk => ⟨hy.keep.knows hk hy.inv (ha s hk).1, fun a hfinal => ?_⟩⟩
  exact hy.keep.begins (by rw [hk]; nofun) ((ha s hk).2.begins hfinal)

/-- The page of a load becomes a module, and what it requires is claimed. -/
theorem meets_prepare {href : String} {t : Nat} (hm : m.Runs k me href t) (hkeeps : ¬m.view.state.Keeps t) {body : String}
    (hbody : ∀ s, k = some s → (s.host.network.fetch href).1 = .ok body) :
    (prepare href t body).Meets (remotePact k) (plan ev) me true m fun module m' => m'.Runs k me href t ∧
      Keep k m.view m'.view ∧ ¬m'.view.state.Strays t ∧ module = m.view.state.pageModule href body t ∧
        ∀ s, k = some s → Required s m'.view href := by
  unfold prepare
  refine meets_bind (meets_moduleOf hm hkeeps body) ?_
  rintro _ m₁ ⟨hm₁, hkeep₁, rfl⟩
  set code : String := m.view.state.pageCode href body with hcode
  refine meets_bind (meets_retire hm₁) ?_
  rintro _ m₂ ⟨hm₂, hkeep₂, hs₂⟩
  have hkeep : Keep k m.view m₂.view := hkeep₁.trans hkeep₂
  have hrequires (s : Outset) (hk : k = some s) : s.host.pageRequires href =
      ((m.view.state.pageRewritten href body).toOption.map (·.requires)).getD [] := by
    have hpage := (hm.fit.inv.calm s hk).alike.pageRewritten href body
    cases hr : m.view.state.pageRewritten href body <;>
      simp [Host.pageRequires, hbody s hk, ← hpage, hr, Except.toOption]
  refine meets_bind (R := fun a m' => a = m.view.state.settings ∧ m' = m₂) (meets_view ⟨hkeep.alike.settings, rfl⟩) ?_
  rintro _ m₂ ⟨rfl, rfl⟩
  refine meets_bind (meets_fresh hm₂ hs₂) ?_
  rintro n m₃ ⟨hm₃, hkeep₃, hs₃, hn, hheld, hnone⟩
  refine meets_bind (meets_rewriting hm₃ hs₃ hn hheld hnone m.view.state.settings code) ?_
  rintro _ m₄ ⟨hm₄, hkeep₄, hs₄, ho⟩
  have hkeep₀₃ : Keep k m.view m₃.view := hkeep.trans hkeep₃
  have hkeep₀₄ : Keep k m.view m₄.view := hkeep₀₃.trans hkeep₄
  rw [hkeep₀₃.alike.remoteTarget] at ho
  refine meets_bind (R := fun a m' => a = m.view.state.pageRewritten href body ∧ m' = m₄)
    (meets_view ⟨by rw [ho]; rfl, rfl⟩) ?_
  rintro _ m₄ ⟨rfl, rfl⟩
  unfold Host.pageModule
  cases hr : m.view.state.pageRewritten href body with
  | error e =>
    rw [hr] at hrequires
    refine meets_pure ⟨hm₄, hkeep₀₄, hs₄, rfl, fun s hk url hurl => ?_⟩
    rw [hrequires s hk] at hurl
    cases hurl
  | ok rewritten =>
    rw [hr] at hrequires
    refine meets_bind (meets_requires hm₄ hs₄ rewritten.requires fun s hk => (hrequires s hk).symm) ?_
    rintro _ m₅ ⟨hm₅, hkeep₅, hs₅, hrequired⟩
    exact meets_pure ⟨hm₅, hkeep₀₄.trans hkeep₅, hs₅, rfl, hrequired⟩

/-! ### What a load tells -/

/-- Where nothing is done from outside, all that is required stays begun. -/
theorem Sight.Keep.required {x y : Sight} (a : Keep k x y) {s : Outset} (hs : k = some s) (hy : Orderly k y)
    {href : String} (h : Required s x href) : Required s y href := fun url hurl =>
  ⟨a.knows hs hy (h url hurl).1, fun b hb => a.begins (by rw [hs]; nofun) ((h url hurl).2 b hb)⟩

/-- A load ends by telling what came of it. -/
theorem meets_tell {href : String} {t : Nat} (hm : m.Runs k me href t) (hs : ¬m.view.state.Strays t)
    {r : Except Failure RemoteModule} (hr : Reports k m.view href t r)
    (hrequired : ∀ s, k = some s → Required s m.view href) :
    (Async.change (Host.tell me (.remote r))).Meets (remotePact k) (plan ev) me true m fun _ m' =>
      m'.owed = none ∧ (remotePact k).Fits m'.view m'.others ∧
        ∀ z, (remotePact k).Sees me true m'.view z → Told k me z := by
  obtain ⟨x, others, owed⟩ := m
  obtain rfl : owed = none := hm.fit.owed
  have hx := hm.fit.inv
  have hheld : x.notes me = some me := hx.holds me (by rw [show x.threads me = _ from hm.loads]; nofun)
  have a : Turn k me x ⟨Host.tell me (.remote r) x.state, x.threads, x.notes⟩ :=
    turn_told hheld hm.untold rfl rfl rfl fun href' t' hl => by
      cases hm.loads.symm.trans hl
      exact ⟨hs, r, rfl, hr⟩
  refine meets_change (a.orderly hx).collect _ none rfl (a.acts hx) (.of_eq rfl) (Or.inl rfl)
    ⟨rfl, hm.fit.fits, fun z hz => ?_⟩
  have hkeep : Keep k x z := (a.keep hx).trans hz.keep
  unfold Told
  rw [hkeep.threads me _ hm.loads]
  exact ⟨r, hz.keep.outcomes me _ (Table.at?_put_same ..), fun s hs => hkeep.required hs hz.inv (hrequired s hs)⟩

/-- A load keeps to the pact, and tells what came of it. -/
theorem fetching_keeps {x : Sight} {id : Nat} {href : String} {t : Nat} (hx : Orderly k x)
    (hb : Begun k id (.fetching href t) x) :
    (fetching id href t).fiber.DoesLater (remotePact k) (plan ev) id true (Told k id) x := by
  intro z others hz hf
  obtain ⟨hload, hnone, hkeeps, hcount⟩ := hb
  have hmx : Moment.Runs k id href t ⟨x, fun _ => True, none⟩ := ⟨⟨hx, rfl, fun _ _ => Or.inl trivial⟩, hload, hnone⟩
  unfold fetching
  refine Meets.does (meets_bind (R := fun _ m' => m'.Runs k id href t ∧ (remotePact k).Sees id true x m'.view)
    (meets_consult rfl hf fun u others' hu hf' => ⟨hmx.sees (hz.trans hu) hf', hz.trans hu⟩) ?_)
  rintro _ ⟨u, others', owed⟩ ⟨hm, hu⟩
  obtain rfl : owed = none := hm.fit.owed
  have hkeepsu : ¬u.state.Keeps t := fun h => by
    rcases (hu.own rfl).kept href t hload with he | hnot
    · exact hkeeps ((keeps_congr he).1 h)
    · exact hnot h
  have a : Turn k id u { u with state := { u.state with network := (u.state.network.fetch href).2 } } :=
    turn_requested hm.loads fun s hs => ((hu.own rfl).requests (by rw [hs]; nofun) href t hload).trans (hcount s hs)
  set y : Sight := { u with state := { u.state with network := (u.state.network.fetch href).2 } } with hy
  have hm' : Moment.Runs k id href t ⟨y, others', none⟩ := hm.turn a rfl fun _ => rfl
  have hkeepsy : ¬y.state.Keeps t := hkeepsu
  have hpage (s : Outset) (hs : k = some s) : (s.host.network.fetch href).1 = (u.state.network.fetch href).1 :=
    (fetch_congr (hm.fit.inv.calm s hs).network href).symm
  refine meets_bind (R := fun body m' => body = (u.state.network.fetch href).1 ∧ m' = ⟨y, others', none⟩)
    (meets_step hm'.fit.inv.collect y none rfl (a.acts hm.fit.inv) (.of_eq rfl) (Or.inl rfl) ⟨rfl, rfl⟩) ?_
  rintro _ _ ⟨rfl, rfl⟩
  cases hbody : (u.state.network.fetch href).1 with
  | error e =>
    refine meets_tell hm' (fun hs => hkeepsy hs.1) ⟨nofun, fun _ _ => hkeepsy, fun s hs => ?_⟩ fun s hs url hurl => ?_
    · unfold Host.loadedPage
      rw [hpage s hs, hbody]
      rfl
    · unfold Host.pageRequires at hurl
      rw [hpage s hs, hbody] at hurl
      cases hurl
  | ok body =>
    refine meets_bind (meets_prepare hm' hkeepsy fun s hs => (hpage s hs).trans hbody) ?_
    rintro module m₂ ⟨hm₂, hkeep₂, hs₂, rfl, hrequired⟩
    refine meets_tell hm₂ hs₂ ⟨fun _ he => by cases he; rfl, nofun, fun s hs => ?_⟩ hrequired
    unfold Host.loadedPage
    rw [hpage s hs, hbody, Except.map, (hm'.fit.inv.calm s hs).alike.pageModule]

/-- All work that is begun for remote modules keeps to the pact. -/
theorem plan_keeps (k : Option Outset) (ev : Evaluator) : (plan ev).Keeps (remotePact k) := by
  intro id work x hx hb
  cases work with
  | fetching href t => exact fetching_keeps hx hb
  | compiling request => exact compiling_keeps hx hb
  | _ => exact hb.2.2.elim

end ScriptVault

import Mathlib.Data.Finset.Dedup
import ScriptVault.Evaluator.Scan
import ScriptVault.Proofs.Graph.Tables
import ScriptVault.Proofs.Remote.Storm

/-!
# Prefetch — a graph of pages is loaded once and to its end

One call asks for an address, and nothing else is done.  Whatever the pages require of each other, and in whatever order
calls and loads go on, they come to an end: every load is begun for an address that none was begun for, and there are
finitely many that pages lead to.  In the end all addresses that the loaded pages require are settled, and what the call
tells depends on the page of its own address only.
-/

namespace ScriptVault

open Host Sight

variable {ev : Evaluator} {h : Host}

/-! ### The addresses that may be loaded -/

namespace Host

/-- Some addresses, and those to which all pages of the network lead. -/
def addresses (h : Host) (roots : List String) : List String :=
  roots ++ h.network.pages.keys.flatMap fun page => (h.pageRequires page).filterMap fun url => h.finalAddress? url none

/-- Only a page that the network serves requires anything. -/
theorem mem_pages_of_requires {href url : String} (hu : url ∈ h.pageRequires href) : href ∈ h.network.pages.keys := by
  by_contra hnot
  have hfetch : ∃ e, (h.network.fetch href).1 = .error e := by
    unfold Network.fetch
    split
    · exact ⟨_, rfl⟩
    · rw [Table.at?_of_notMem hnot]
      exact ⟨_, rfl⟩
  obtain ⟨e, he⟩ := hfetch
  unfold pageRequires at hu
  rw [he] at hu
  cases hu

/-- Where some addresses are asked for, nothing else is loaded. -/
def outset (h : Host) (roots : List String) : Outset where
  host := h
  within := h.addresses roots
  closed _ _ url hurl _ ha := List.mem_append_right _ (List.mem_flatMap.2
    ⟨_, mem_pages_of_requires hurl, List.mem_filterMap.2 ⟨url, hurl, ha⟩⟩)

/-- One thread begins to go on. -/
def rooted (h : Host) (fiber : Fiber Host Work) : Weave Host Work := ⟨h.number.2, [⟨h.nextWork, none, .going fiber⟩]⟩

/-- One call asks for a specifier. -/
def call (h : Host) (id : String) (context : Context) : Weave Host Work :=
  h.rooted (asking h.nextWork id context).fiber

end Host

/-- All threads keep to the pact, where nothing is done from outside. -/
abbrev Loading (ev : Evaluator) (s : Outset) (answers : Nat → Sight → Prop) (c : Weave Host Work) (x : Sight) : Prop :=
  (remotePact (some s)).Accord (plan ev) answers c x

variable {s : Outset} {answers : Nat → Sight → Prop} {c c' : Weave Host Work} {x y : Sight}

/-- They do in the beginning, if the thread that all begins with does. -/
theorem loading_begin (hs : h.Still) (hh : s.host = h) {fiber : Fiber Host Work}
    (hfiber : ∀ x, Orderly (some s) x → x.threads h.nextWork = some none → x.state.outcome? h.nextWork = none →
      fiber.DoesLater (remotePact (some s)) (plan ev) h.nextWork true (answers h.nextWork) x) :
    ∃ x, Loading ev s answers (h.rooted fiber) x := by
  have hx : Orderly (some s) ⟨h, fun _ => none, fun _ => none⟩ := hs.orderly fun s' hs' => by
    rw [← Option.some.inj hs', hh]
  have hnone : Loading ev s answers ⟨h, []⟩ ⟨h, fun _ => none, fun _ => none⟩ :=
    { state := rfl
      inv := hx
      distinct := List.nodup_nil
      threads := nofun
      known := fun _ hi => (hi rfl).elim
      stands := nofun
      fits := fun _ ⟨href, t, hl⟩ => (hs.rests href t _ hl).elim }
  exact ⟨_, hnone.joined hx.called hx.fresh.1 rfl (keep_called hx) (fun i _ => own_called hx i) (fun _ hw => hw)
    (hfiber _ hx.called (Function.update_self ..) hx.fresh.2.2)⟩

/-- Asking for a specifier does. -/
theorem loading_call (hs : h.Still) (ev : Evaluator) (id : String) (context : Context) :
    ∃ x, Loading ev (h.outset (h.finalAddress? id context.cwd).toList)
      (Answered (some (h.outset (h.finalAddress? id context.cwd).toList)) id context.cwd) (h.call id context) x :=
  loading_begin hs rfl fun _ hx hcall hnone => asking_keeps hx hcall hnone id context (fun s hs a ha => by
    obtain rfl := Option.some.inj hs
    exact List.mem_append_left _ (Option.mem_toList.2 ha)) fun _ h => h

/-- Loading addresses ahead of time does. -/
theorem loading_preload (hs : h.Still) (ev : Evaluator) (hrefs : List String) :
    ∃ x, Loading ev (h.outset (hrefs.filterMap fun href => h.finalAddress? href none)) (fun _ _ => True)
      (h.rooted (preload hrefs).fiber) x :=
  loading_begin hs rfl fun _ _ hcall _ => preload_keeps hcall hrefs (fun s hs href hhref a ha => by
    obtain rfl := Option.some.inj hs
    exact List.mem_append_left _ (List.mem_filterMap.2 ⟨href, hhref, ha⟩)) fun _ => trivial

/-- They do after any moves. -/
theorem loading_steps (hc : Loading ev s answers c x) (hsteps : Weave.Steps (plan ev) c c') :
    ∃ y, Loading ev s answers c' y ∧ Keep (some s) x y := by
  induction hsteps with
  | refl => exact ⟨x, hc, .refl x⟩
  | tail _ hstep ih =>
    obtain ⟨y, hy, hkeep⟩ := ih
    obtain ⟨t, begun, hm⟩ := hstep
    obtain ⟨z, hz, hacts, -⟩ := hy.moves (plan_keeps _ ev) hm
    exact ⟨z, hz, hkeep.trans hacts.move.keep⟩

/-! ### It comes to an end -/

namespace Sight

variable {k : Option Outset} {me : Nat}

/-- Only calls and loads begin work. -/
theorem Turns.begins (a : Turns k me x y) : y.threads = x.threads ∨ Asks y me := by
  induction a with
  | refl => exact Or.inl rfl
  | @tail z y hxz hzy ih =>
    obtain ⟨hz, a⟩ := hzy
    have hlater (h : Asks z me) : Asks y me := h.imp (a.numbers.threads me _) fun ⟨a', t, hl⟩ => ⟨a', t, a.numbers.loads hl⟩
    rcases ih with he | h
    · exact a.begins.imp (fun h => h.trans he) hlater
    · exact Or.inr (hlater h)

end Sight

/-- Loads and calls may begin work, compiling begins none. -/
def grade : Option Work → Nat
  | none => 1
  | some (.fetching _ _) => 1
  | some _ => 0

open Classical in
/-- The number of addresses that may still be loaded. -/
noncomputable def unloaded (within : List String) (c : Weave Host Work) : Nat :=
  (within.toFinset.filter fun href => ∀ w t, ¬c.Begun w (.fetching href t)).card

/-- A move that begins a load leaves one address less to be loaded; all other work begins no work. -/
theorem unloaded_moves (hc : Loading ev s answers c x) {t : Thread Host Work} {begun : List (Nat × Work)}
    (hm : c.Moves (plan ev) t begun c') : (∃ y, Loading ev s answers c' y) ∧
      unloaded s.within c' ≤ unloaded s.within c ∧
        (unloaded s.within c' < unloaded s.within c ∨ ∀ p ∈ begun, grade (some p.2) < grade t.work) := by
  classical
  obtain ⟨y, hy, hacts, hgrows⟩ := hc.moves (plan_keeps _ ev) hm
  have hkeep := hacts.move.keep
  have hsubset : (s.within.toFinset.filter fun href => ∀ w t, ¬c'.Begun w (.fetching href t)) ⊆
      s.within.toFinset.filter fun href => ∀ w t, ¬c.Begun w (.fetching href t) := by
    refine Finset.monotone_filter_right _ fun href _ hnot w t hw => hnot w t ?_
    exact hy.begun_iff.2 (hkeep.threads w _ (hc.begun_iff.1 hw))
  refine ⟨⟨y, hy⟩, Finset.card_le_card hsubset, ?_⟩
  by_cases hload : ∃ p ∈ begun, ∃ href token, p.2 = .fetching href token
  · obtain ⟨⟨w, work⟩, hp, href, token, rfl⟩ := hload
    obtain ⟨hnew, hw⟩ := hgrows.new _ hp
    have hcalm := hy.inv.calm _ rfl
    refine Or.inl (Finset.card_lt_card ((Finset.ssubset_iff_of_subset hsubset).2 ⟨href, ?_, ?_⟩))
    · refine Finset.mem_filter.2 ⟨List.mem_toFinset.2 (hcalm.within w href token hw), fun w' t' hw' => ?_⟩
      have hold := hc.begun_iff.1 hw'
      obtain rfl := hcalm.once w w' href token t' hw (hkeep.threads w' _ hold)
      cases hnew.symm.trans hold
    · exact fun hmem => (Finset.mem_filter.1 hmem).2 w token (hy.begun_iff.2 hw)
  · refine Or.inr fun p hp => ?_
    have hgrade : grade t.work = 1 := by
      have hme : x.threads t.id = some t.work := hc.threads t hm.mem
      have hchanged : y.threads ≠ x.threads := fun he => by
        obtain ⟨hnew, hw⟩ := hgrows.new p hp
        cases hnew.symm.trans ((congrFun he p.1).symm.trans hw)
      have hme' := hkeep.threads t.id _ hme
      rcases hacts.move.begins.resolve_left hchanged with hnone | ⟨a, t', hl⟩
      · rw [Option.some.inj (hme'.symm.trans hnone)]
        rfl
      · rw [Option.some.inj (hme'.symm.trans hl)]
        rfl
    rw [hgrade]
    cases hwork : p.2 with
    | fetching href token => exact (hload ⟨p, hp, href, token, hwork⟩).elim
    | _ => exact Nat.one_pos

/-- In whatever order threads go on, they come to an end. -/
theorem loading_halts (hc : Loading ev s answers c x) : c.Halts (plan ev) :=
  Weave.halts_of_rank (fun c => ∃ x, Loading ev s answers c x) (unloaded s.within) grade
    (fun _ _ _ _ ⟨_, hx⟩ hm => unloaded_moves hx hm) ⟨x, hc⟩

/-! ### Where it ends -/

/-- What is handed out for an address from a host at rest: its module or failure, or else what comes of loading its page
under a number. -/
def Host.handed (h : Host) (href : String) (token : Nat) : Except Failure (Option Resolved) :=
  match h.entry href with
  | some (.ready module) => .ok (some (Remote.resolved href module))
  | some (.failed e) => .error e
  | _ => (h.loadedPage href token).map fun module => some (Remote.resolved href module)

/-- An address leads to another one, to which something leads that its loaded page requires. -/
def Leads (h : Host) (c : Weave Host Work) (a b : String) : Prop :=
  (∃ w t, c.Begun w (.fetching a t)) ∧ ∃ url ∈ h.pageRequires a, h.finalAddress? url none = some b

/-- Where all threads have ended no entry waits for a load. -/
theorem rests_of_finished (hc : Loading ev s answers c x) (hf : c.Finished) (href : String) (t w : Nat) :
    c.state.entry href ≠ some (.loading t w) := fun hl => by
  obtain ⟨u, hu, hawaits⟩ := hc.fits w ⟨href, t, hc.state ▸ hl⟩
  rw [hf u hu] at hawaits
  exact hawaits

/-- What was loaded is settled with what came of its page, and what it requires is settled too. -/
theorem loaded_of_finished (hc : Loading ev s answers c x) (hf : c.Finished) {w t : Nat} {href : String}
    (hw : c.Begun w (.fetching href t)) : c.state.entry href = some (.ofResult (s.host.loadedPage href t)) ∧
      ∀ url ∈ s.host.pageRequires href, c.state.remote.address? url none = s.host.finalAddress? url none ∧
        ∀ a, s.host.finalAddress? url none = some a → ∃ r, c.state.entry a = some (.ofResult r) := by
  have hload := hc.begun_iff.1 hw
  obtain ⟨u, hu, rfl, hwork⟩ := hw
  have hends := hc.ends hu (hf u hu)
  unfold Thread.Ends at hends
  rw [hwork] at hends
  have htold : Told _ u.id x := hends
  unfold Told at htold
  rw [show x.threads u.id = _ from hload] at htold
  obtain ⟨r, ho, hrequired⟩ := htold
  have hrests := rests_of_finished hc hf
  rw [← hc.state] at hrests ⊢
  refine ⟨?_, fun url hurl => ⟨(hrequired _ rfl url hurl).1, fun a ha => ?_⟩⟩
  · obtain ⟨r', hr', hreports⟩ := hc.inv.reports u.id href t _ hload ho
    cases hr'
    rcases (hc.inv.calm _ rfl).entered u.id href t hload with hl | ⟨r'', hentry, ho'⟩
    · exact (hrests href t u.id hl).elim
    · cases ho.symm.trans ho'
      rw [hentry, hreports.page _ rfl]
  · exact ((hrequired _ rfl url hurl).2 a ha).resolve_right fun ⟨t', w', hl⟩ => hrests a t' w' hl

/-- What an entry says in the end is what is handed out for its address. -/
theorem handed_of_entry {s : Outset} (hx : Orderly (some s) x) {href : String} {r : Except Failure RemoteModule}
    (hr : x.state.entry href = some (.ofResult r)) :
    ∃ token, s.host.handed href token = r.map fun module => some (Remote.resolved href module) := by
  have hcalm := hx.calm s rfl
  by_cases hload : ∃ w t, x.Loads w href t
  · obtain ⟨w, t, hw⟩ := hload
    refine ⟨t, ?_⟩
    rcases hcalm.entered w href t hw with hl | ⟨r', hentry, ho⟩
    · cases r <;> cases hr.symm.trans hl
    · obtain ⟨r'', hr'', hreports⟩ := hx.reports w href t _ hw ho
      cases hr''
      have hsame : r' = r := by cases r <;> cases r' <;> cases hentry.symm.trans hr <;> rfl
      subst hsame
      rw [hreports.page s rfl]
      unfold handed
      rcases hcalm.free w href t hw with hfree | hfree <;> rw [hfree]
  · refine ⟨0, ?_⟩
    rw [hcalm.rest href fun w t hw => hload ⟨w, t, hw⟩] at hr
    unfold handed
    rw [hr]
    cases r <;> rfl

/-- What a call told when all threads have ended. -/
theorem told_of_finished {id : String} {cwd : Option String} (hc : Loading ev s (Answered (some s) id cwd) c x)
    (hf : c.Finished) (hlinks : s.host.settings.enableExternalLinks = true) {n : Nat}
    (hn : ∃ u ∈ c.threads, u.id = n ∧ u.work = none) :
    match s.host.finalAddress? id cwd with
    | none => c.state.outcome? n = some (.resolved (.ok none))
    | some a => ∃ r, c.state.entry a = some (.ofResult r) ∧
        c.state.outcome? n = some (.resolved (r.map fun module => some (Remote.resolved a module))) := by
  obtain ⟨u, hu, rfl, hwork⟩ := hn
  have hends := hc.ends hu (hf u hu)
  unfold Thread.Ends at hends
  rw [hwork] at hends
  obtain ⟨r, ho, hanswer⟩ := hends
  have hanswer := hanswer _ rfl
  rw [← hc.state]
  unfold Answer at hanswer
  cases hfinal : s.host.finalAddress? id cwd with
  | none =>
    rw [hfinal] at hanswer
    exact ho.trans (congrArg (some ∘ Outcome.resolved) hanswer)
  | some a =>
    rw [hfinal] at hanswer
    have hsettled : ∃ r', x.state.entry a = some (.ofResult r') ∧
        r = r'.map fun module => some (Remote.resolved a module) := by
      rcases hanswer with ⟨hno, -⟩ | ⟨-, ⟨module, hr, hentry⟩ | ⟨e, hr, hentry⟩⟩
      · cases hlinks.symm.trans hno
      · exact ⟨.ok module, hentry, hr⟩
      · exact ⟨.error e, hentry, hr⟩
    obtain ⟨r', hentry, rfl⟩ := hsettled
    exact ⟨r', hentry, ho⟩

/-- The thread stays that all began with. -/
theorem root_of_steps {fiber : Fiber Host Work} (hsteps : Weave.Steps (plan ev) (h.rooted fiber) c) :
    ∃ u ∈ c.threads, u.id = h.nextWork ∧ u.work = none := by
  induction hsteps with
  | refl => exact ⟨_, List.mem_singleton.2 rfl, rfl, rfl⟩
  | tail _ hstep ih =>
    obtain ⟨u, hu, hid, hwork⟩ := ih
    obtain ⟨t, begun, hm⟩ := hstep
    obtain ⟨strand, hu'⟩ := hm.stays hu
    exact ⟨_, hu', hid, hwork⟩

/-- A graph of pages is loaded once and to its end: from a host at rest, in whatever order the threads of a call and of the
loads that it begins go on, they come to an end; each address is loaded and asked for at most once; and in the end all
threads have ended, no entry waits for a load, all addresses are settled to which loaded pages lead, and can be found from what the
pages require, and the call has told what is handed out for its own address, whatever came of all others. -/
theorem prefetch_ends (ev : Evaluator) (hs : h.Still) (hlinks : h.settings.enableExternalLinks = true) (id : String)
    (context : Context) :
    (h.call id context).Halts (plan ev) ∧
    ∀ c, Weave.Steps (plan ev) (h.call id context) c →
      (∀ href w w' t t', c.Begun w (.fetching href t) → c.Begun w' (.fetching href t') → w = w') ∧
      (∃ new, c.state.network.requests = new ++ h.network.requests ∧ new.Nodup) ∧
      ((∀ c', ¬c.Step (plan ev) c') →
        c.Finished ∧ (∀ href t w, c.state.entry href ≠ some (.loading t w)) ∧
        (∀ href w t, c.Begun w (.fetching href t) → ∀ url ∈ h.pageRequires href,
          c.state.remote.address? url none = h.finalAddress? url none) ∧
        match h.finalAddress? id context.cwd with
        | none => c.state.outcome? h.nextWork = some (.resolved (.ok none))
        | some a => (∀ b, Relation.ReflTransGen (Leads h c) a b → ∃ r, c.state.entry b = some (.ofResult r)) ∧
            ∃ token, c.state.outcome? h.nextWork = some (.resolved (h.handed a token))) := by
  obtain ⟨x₀, hx₀⟩ := loading_call hs ev id context
  refine ⟨loading_halts hx₀, fun c hsteps => ?_⟩
  obtain ⟨x, hc, -⟩ := loading_steps hx₀ hsteps
  have hcalm := hc.inv.calm _ rfl
  refine ⟨fun href w w' t t' hw hw' => ?_, ?_, fun hstuck => ?_⟩
  · exact hcalm.once w w' href t t' (hc.begun_iff.1 hw) (hc.begun_iff.1 hw')
  · obtain ⟨new, hnew, hnodup, -⟩ := hcalm.requests
    exact ⟨new, hc.state ▸ hnew, hnodup⟩
  · have hf := hc.finished hstuck
    refine ⟨hf, rests_of_finished hc hf, fun href w t hw url hurl => ((loaded_of_finished hc hf hw).2 url hurl).1, ?_⟩
    have htold := told_of_finished hc hf hlinks (root_of_steps hsteps)
    have hsame : (h.outset (h.finalAddress? id context.cwd).toList).host.finalAddress? id context.cwd =
        h.finalAddress? id context.cwd := rfl
    rw [hsame] at htold
    cases hfinal : h.finalAddress? id context.cwd with
    | none =>
      rw [hfinal] at htold
      exact htold
    | some a =>
      rw [hfinal] at htold
      obtain ⟨r, hentry, ho⟩ := htold
      refine ⟨fun b hab => ?_, ?_⟩
      · -- by the steps from page to page
        induction hab with
        | refl => exact ⟨r, hentry⟩
        | tail _ hleads _ =>
          obtain ⟨⟨w, t, hw⟩, url, hurl, hb⟩ := hleads
          exact ((loaded_of_finished hc hf hw).2 url hurl).2 _ hb
      · obtain ⟨token, htoken⟩ := handed_of_entry hc.inv (hc.state ▸ hentry)
        exact ⟨token, ho.trans (congrArg (some ∘ Outcome.resolved) htoken.symm)⟩

/-- Two pages require each other, and one of them a page that is not there. -/
def Host.pageCircle : Parts where
  vault := .memory {}
  settings := { enableExternalLinks := true }
  network :=
    { pages := [("https://a.example/a.js", "require('./b.js')"),
        ("https://a.example/b.js", "require('./a.js'); require('./c.js')")] }

/-- The circle is loaded to its end, and what the call tells is its own page's module. -/
theorem prefetch_ends_circle : ∃ h, Host.build Host.pageCircle = .ok h ∧
    (h.call "https://a.example/a.js" {}).Halts (plan Scan.evaluator) ∧
    ∃ c, Weave.Steps (plan Scan.evaluator) (h.call "https://a.example/a.js" {}) c ∧ c.Finished ∧
      c.state.network.requests = ["https://a.example/c.js", "https://a.example/b.js", "https://a.example/a.js"] ∧
      ∃ token, c.state.outcome? h.nextWork = some (.resolved (h.handed "https://a.example/a.js" token)) := by
  have hrun : (((Host.build Host.pageCircle).toOption.filter fun h => h.settings.enableExternalLinks &&
      h.finalAddress? "https://a.example/a.js" none == some "https://a.example/a.js").bind fun h =>
        ((h.call "https://a.example/a.js" {}).turns? (plan Scan.evaluator) [0, 0, 1, 1, 2, 2, 2, 1, 1, 1, 1, 1, 1, 3, 3, 4,
          4, 4, 3, 3, 3, 3, 3, 3, 3, 3, 5, 5, 3, 3, 3, 3, 3, 1, 1, 1, 0]).filter fun c =>
            c.threads.all (·.strand.isEnded) && c.state.network.requests ==
              ["https://a.example/c.js", "https://a.example/b.js", "https://a.example/a.js"]).isSome = true := by
    decide +kernel
  obtain ⟨c, hc⟩ := Option.isSome_iff_exists.1 hrun
  obtain ⟨h, hh, hc⟩ := Option.bind_eq_some_iff.1 hc
  obtain ⟨hbuild, hcheck⟩ := Option.filter_eq_some_iff.1 hh
  obtain ⟨hturns, htest⟩ := Option.filter_eq_some_iff.1 hc
  obtain ⟨hlinks, hfinal⟩ := Bool.and_eq_true_iff.1 hcheck
  obtain ⟨hended, hrequests⟩ := Bool.and_eq_true_iff.1 htest
  have hb : Host.build Host.pageCircle = .ok h := eq_ok_of_toOption hbuild
  have hsteps := Weave.steps_of_turns? hturns
  have hf : c.Finished := fun t ht => Strand.eq_ended (List.all_eq_true.1 hended t ht)
  obtain ⟨hhalts, hall⟩ := prefetch_ends Scan.evaluator (still_of_build hb) hlinks "https://a.example/a.js" {}
  obtain ⟨-, -, hend⟩ := hall c hsteps
  obtain ⟨-, -, -, htold⟩ := hend (Weave.not_step_of_finished hf)
  have hfinal' : h.finalAddress? "https://a.example/a.js" ({} : Context).cwd = some "https://a.example/a.js" :=
    beq_iff_eq.1 hfinal
  rw [hfinal'] at htold
  exact ⟨h, hb, hhalts, c, hsteps, hf, beq_iff_eq.1 hrequests, htold.2⟩

end ScriptVault

import Mathlib.Data.List.Induction
import Mathlib.Data.String.Basic
import ScriptVault.Proofs.Host.Books

/-!
# Launch — startup modules when a host starts

A host that is started requests the listed modules, takes them up at once and runs each of them.  That is all that is done
with startup modules unless the watcher hears of a listed module: it is told of every module that the main loader evicts,
also of those that are evicted because they were resolved for the first time, or because a name was resolved once more.
-/

namespace ScriptVault

/-! ### Names without repetition -/

namespace Names

theorem ascending_insert {names : Names} (h : names.Pairwise (· < ·)) (name : String) :
    (names.insert name).Pairwise (· < ·) := by
  induction names with
  | nil => exact List.pairwise_singleton _ _
  | cons n rest ih =>
    obtain ⟨hn, hrest⟩ := List.pairwise_cons.1 h
    unfold insert
    split
    · exact h
    · next hne =>
      split
      · next hlt => exact List.pairwise_cons.2 ⟨List.forall_mem_cons.2 ⟨hlt, fun x hx => lt_trans hlt (hn x hx)⟩, h⟩
      · next hle =>
        have hlt : n < name := lt_of_le_of_ne (not_lt.1 hle) hne
        refine List.pairwise_cons.2 ⟨fun x hx => ?_, ih hrest⟩
        obtain rfl | hx := mem_insert.1 hx
        · exact hlt
        · exact hn x hx

theorem nodup_ofList (texts : List String) : (ofList texts).Nodup := by
  have hascending : (ofList texts).Pairwise (· < ·) := by
    unfold ofList
    induction texts using List.reverseRecOn with
    | nil => exact List.Pairwise.nil
    | append_singleton texts text ih =>
      rw [List.foldl_concat]
      exact ascending_insert ih text
  exact hascending.imp fun h => ne_of_lt h

theorem mem_ofList {texts : List String} {x : String} : x ∈ ofList texts ↔ x ∈ texts := by
  simp [ofList, mem_inserts]

end Names

/-! ### What a launch writes down -/

namespace Book

/-- How often a run of a module began. -/
def begins (id : String) : List Entry → Nat
  | [] => 0
  | .began ids :: before => ids.count id + begins id before
  | _ :: before => begins id before

/-- What is written down once the listed modules were taken up and the runs of some of them have ended. -/
def taken (listed ends : List String) : List Entry :=
  ends.map .ended ++ [.began (Names.ofList listed), .requested listed]

section

variable (listed ends : List String) (id : String)

theorem begins_taken : begins id (taken listed ends) = (Names.ofList listed).count id := by
  induction ends with
  | nil => rfl
  | cons i ends ih => exact ih

theorem asked_taken : Asked id (taken listed ends) ↔ id ∈ listed := by
  induction ends with
  | nil => simp [taken, Asked]
  | cons i ends ih => exact ih

theorem apart_taken : Apart (taken listed ends) := by
  induction ends with
  | nil => simp [taken, Apart, running]
  | cons i ends ih => exact ih

end

/-- What is out while a host is launched. -/
inductive Stage where
  /-- A listed module was announced. -/
  | told
  /-- The host starts. -/
  | starts
  /-- A load is to take up what it has requested. -/
  | takes (generation : Nat)
  /-- A module is run. -/
  | runs (id : String)
  deriving DecidableEq

/-- Some modules are listed, and no listed module was announced: they are requested, taken up and run. -/
inductive Launched (listed : List String) : Startup → List Entry → Multiset Stage → Prop
  | fresh : Launched listed {} [] {.starts}
  | asked : Launched listed (Startup.begin {} listed).2 [.requested listed] {.takes 1}
  | run {s : Startup} (ends : List String) {out : Multiset Stage} (hout : ∀ stage ∈ out, ∃ id, stage = .runs id) :
    Launched listed s (taken listed ends) out

namespace Launched

variable {listed : List String} {s : Startup} {entries : List Entry} {others : Multiset Stage}

/-- What is out tells how far a launch has come. -/
theorem cases_out {stage : Stage} (h : Launched listed s entries ({stage} + others)) :
    (stage = .starts ∧ s = {} ∧ entries = [] ∧ others = 0) ∨
    (stage = .takes 1 ∧ s = (Startup.begin {} listed).2 ∧ entries = [.requested listed] ∧ others = 0) ∨
    ∃ id ends, stage = .runs id ∧ entries = taken listed ends ∧ ∀ stage ∈ others, ∃ id, stage = .runs id := by
  have hmem : stage ∈ ({stage} + others : Multiset Stage) := by simp
  generalize hout : ({stage} + others : Multiset Stage) = out at h hmem
  cases h with
  | fresh =>
    obtain rfl := Multiset.mem_singleton.1 hmem
    exact .inl ⟨rfl, rfl, rfl, add_eq_left.1 hout⟩
  | asked =>
    obtain rfl := Multiset.mem_singleton.1 hmem
    exact .inr (.inl ⟨rfl, rfl, rfl, add_eq_left.1 hout⟩)
  | run ends hruns =>
    obtain ⟨id, rfl⟩ := hruns stage hmem
    refine .inr (.inr ⟨id, ends, rfl, rfl, fun other hother => hruns other ?_⟩)
    rw [← hout]
    exact Multiset.mem_add.2 (.inr hother)

/-- Where nothing is out all listed modules were taken up. -/
theorem of_none (h : Launched listed s entries 0) : ∃ ends, entries = taken listed ends := by
  generalize hout : (0 : Multiset Stage) = out at h
  cases h with
  | fresh => simp at hout
  | asked => simp at hout
  | run ends hruns => exact ⟨ends, rfl⟩

theorem begins_le {out : Multiset Stage} (h : Launched listed s entries out) (id : String) : begins id entries ≤ 1 := by
  cases h with
  | fresh => exact Nat.zero_le 1
  | asked => exact Nat.zero_le 1
  | run ends hruns =>
    rw [begins_taken]
    exact List.nodup_iff_count_le_one.1 (Names.nodup_ofList listed) id

end Launched

end Book

/-! ### What a launch does -/

theorem Startup.gone_self (s : Startup) : s.gone s = [] := by
  rw [gone, List.filter_eq_nil_iff]
  intro id hid
  rcases List.mem_append.1 hid with hid | hid <;> simp [hid]

namespace Chronicle

open Host Book

variable {listed : List String}

/-- As long as no listed module was announced a chronicle tells of a launch and of nothing else. -/
def Launches (listed : List String) (s : Chronicle) (out : Multiset Stage) : Prop :=
  s.1.settings.startupModules = listed ∧ (s.1.Unheard → s.1.asked = [] ∧ Launched listed s.1.startup s.2 out)

namespace Launches

variable {s : Chronicle} {startup : Startup} {entries : List Book.Entry} {others out : Multiset Stage}

/-- What is done with the startup modules need only be told where no listed module was announced. -/
theorem change (hs : Launches listed s others)
    (hlaunched : s.1.Unheard → Launched listed s.1.startup s.2 others → Launched listed startup entries out) :
    Launches listed ({ s.1 with startup := startup }, entries) out :=
  ⟨hs.1, fun hnone => ⟨(hs.2 hnone).1, hlaunched hnone (hs.2 hnone).2⟩⟩

/-- Where a listed module was announced anything fits. -/
theorem of_told (hs : Launches listed s ({.told} + others)) :
    Launches listed ({ s.1 with startup := startup }, entries) out := by
  refine hs.change fun _ hlaunched => ?_
  obtain ⟨hno, -⟩ | ⟨hno, -⟩ | ⟨_, _, hno, -⟩ := hlaunched.cases_out <;> cases hno

theorem heard {h h' : Host} (hh : h.Heard h') (entries : List Book.Entry) :
    Conserves (Launches listed) (h, entries) (h', note h h' entries) := by
  rintro out ⟨hlisted, hlaunched⟩
  refine ⟨hh.settings ▸ hlisted, fun hnone => ?_⟩
  obtain ⟨hstartup, hasked⟩ := hh.same hnone
  obtain ⟨htasks, hbefore⟩ := hlaunched (hh.unheard hnone)
  have hnote : note h h' entries = entries := by rw [note, hstartup, Startup.gone_self]
  refine ⟨hasked.trans htasks, ?_⟩
  show Launched listed h'.startup (note h h' entries) out
  rw [hnote, hstartup]
  exact hbefore

end Launches

theorem launch_terms :
    Terms (Launches listed) (fun generation => {.takes generation}) fun id => {.runs id} where
  heard := Launches.heard
  superseded hs hlater := by
    refine hs.change fun _ hlaunched => ?_
    obtain ⟨hno, -⟩ | ⟨hfirst, hstartup, -⟩ | ⟨_, _, hno, -⟩ := hlaunched.cases_out
    · cases hno
    · cases hfirst
      rw [hstartup] at hlater
      exact absurd rfl hlater
    · cases hno
  began hs := by
    refine hs.change fun _ hlaunched => ?_
    obtain ⟨hno, -⟩ | ⟨-, hstartup, hentries, rfl⟩ | ⟨_, _, hno, -⟩ := hlaunched.cases_out
    · cases hno
    · have hpending : (Startup.begin {} listed).2.pending = Names.ofList listed := by
        simp [Startup.begin, Startup.request, Startup.pending, Names.ofList]
      rw [hstartup, hentries, hpending, add_zero]
      refine .run [] fun stage hstage => ?_
      rw [sum_singletons, Multiset.mem_coe, List.mem_map] at hstage
      exact hstage.imp fun id hid => hid.2.symm
    · cases hno
  ended hs := by
    refine hs.change fun _ hlaunched => ?_
    obtain ⟨hno, -⟩ | ⟨hno, -⟩ | ⟨id, ends, hid, hentries, hothers⟩ := hlaunched.cases_out
    · cases hno
    · cases hno
    · cases hid
      rw [hentries]
      exact .run (_ :: ends) hothers

/-- What reloads have out after a listed module was announced. -/
theorem told_terms : Terms (Launches listed) (fun _ => {.told}) fun _ => {.told} where
  heard := Launches.heard
  superseded hs _ := hs.of_told
  began hs := hs.of_told
  ended hs := hs.of_told

/-- What work has out from its begin: loads are asked for by the watcher alone. -/
def owes : Work → Multiset Stage
  | .reloading _ _ => {.told}
  | .starting _ _ => {.told}
  | _ => 0

theorem owes_ordinary {work : Work} (hwork : work.Ordinary) : owes work = 0 := by
  cases work with
  | reloading delay ids => exact hwork.elim
  | starting delay ids => exact hwork.elim
  | _ => rfl

theorem launch_restores {ev : Evaluator} (hev : ev.Solitary) :
    (plan ev).Restores Work.Ordinary (Launches listed) IsCall owes where
  perform id work hcall s := by
    have hload (delay : Nat) (ids : List String) :
        (desk.load delay ids).Trades Work.Ordinary (Launches listed) {.told} fun _ => 0 :=
      trades_load told_terms (fun _ hwork => hwork) delay fun _ _ hs => hs.of_told
    cases work with
    | reloading delay ids =>
      have hrenew : (desk.renew ids).Trades Work.Ordinary (Launches listed) {.told} fun _ => {.told} :=
        Async.trades_step fun _ _ hs => hs.of_told
      exact Async.holds_fiber (Async.trades_bind hrenew fun _ => hload delay ids) s
    | starting delay ids => exact Async.holds_fiber (hload delay ids) s
    | _ => exact absurd trivial hcall
  steady id work hcall := by
    have hwork : work.Ordinary := not_not.1 hcall
    exact ⟨owes_ordinary hwork, steady_ordinary launch_terms (fun _ hwork => hwork) hev id hwork⟩
  free _ hwork := owes_ordinary hwork
  collect s out hs := by
    refine ⟨hs.1, fun hnone => ⟨rfl, ?_⟩⟩
    obtain ⟨hasked, hlaunched⟩ := hs.2 hnone
    show Launched listed s.1.startup s.2 (owed owes s.1.asked + out)
    rwa [hasked, owed_nil_add]

theorem holds_start (s : Chronicle) : Call.start.told.Holds Work.Ordinary (Launches listed) {.starts} s := by
  refine Async.holds_fiber (Async.trades_bind (restores_arrive launch_terms fun _ hwork => hwork) fun _ => ?_) s
  -- nobody comes between the look at the settings and the request
  intro k hk s
  refine ⟨{.takes (s.1.startup.generation + 1)}, fun others hs => hs.change fun _ hlaunched => ?_, fun s' => ?_⟩
  · obtain ⟨-, hstartup, hentries, rfl⟩ | ⟨hno, -⟩ | ⟨_, _, hno, -⟩ := hlaunched.cases_out
    · rw [hstartup, hentries, add_zero]
      show Launched listed (Startup.begin {} s.1.settings.startupModules).2 [.requested s.1.settings.startupModules] _
      rw [hs.1]
      exact .asked
    · cases hno
    · cases hno
  · exact trades_proceed launch_terms (fun _ hwork => hwork) 0 _ _ _ (fun _ s => hk () s) s'

theorem holds_launched {ev : Evaluator} (hev : ev.Solitary) {h : Host} (hstartup : h.startup = {}) (hasked : h.asked = [])
    (id : Nat) {works : List (Nat × Work)} (hworks : ∀ p ∈ works, p.2.Ordinary) :
    (called ev h [(id, .start)] works).Holds Work.Ordinary (Launches h.settings.startupModules) IsCall := by
  have hfresh : Launches h.settings.startupModules (h, []) {.starts} := by
    refine ⟨rfl, fun _ => ⟨hasked, ?_⟩⟩
    show Launched _ h.startup [] _
    rw [hstartup]
    exact .fresh
  let held : List (Thread Chronicle Work × Multiset Stage) := [(⟨id, none, .going Call.start.told⟩, {.starts})]
  have hheld : ∀ p ∈ held, p.1.Holds Work.Ordinary (Launches h.settings.startupModules) IsCall p.2 := by
    refine List.forall_mem_singleton.2 ⟨fun _ => holds_start, fun hno => absurd trivial hno⟩
  have hnothing : owed owes works = 0 := by
    refine List.sum_eq_zero fun m hm => ?_
    obtain ⟨p, hp, rfl⟩ := List.mem_map.1 hm
    exact owes_ordinary (hworks p hp)
  refine Weave.holds_beside (launch_restores hev) hheld ?_
  rw [hnothing]
  simpa [held] using hfresh

end Chronicle

namespace Host

open Book Chronicle

/-- **Startup modules run once unless they are announced.** A host that was not started before is started, beside any
other work that loads no startup modules, and all of it goes on in any order and for any time.  As long as no listed
module is announced no run of a module begins twice; and once the start is over a run of each listed module has begun and
ended, whether or not it failed, and the modules that are requested and those that ran are the listed ones. -/
theorem listed_once {ev : Evaluator} (hev : ev.Solitary) {h : Host} (hstartup : h.startup = {}) (hasked : h.asked = [])
    (id : Nat) {works : List (Nat × Work)} (hworks : ∀ p ∈ works, p.2.Ordinary) :
    (∀ c, Weave.Steps (plan ev) (h.called ev [(id, .start)] works) c →
      ∃ d, Weave.Steps (Chronicle.plan ev) (Chronicle.called ev h [(id, .start)] works) d ∧ d.Erases c) ∧
    ∀ d, Weave.Steps (Chronicle.plan ev) (Chronicle.called ev h [(id, .start)] works) d → d.state.1.Unheard →
      (∀ id, begins id d.state.2 ≤ 1) ∧
      (Idle d → running d.state.2 = [] ∧ ∀ id,
        begins id d.state.2 = (if id ∈ h.settings.startupModules then 1 else 0) ∧
        (id ∈ d.state.1.startup.requested ↔ id ∈ h.settings.startupModules) ∧
        (id ∈ d.state.1.startup.loaded ↔ id ∈ h.settings.startupModules)) := by
  refine ⟨fun c hsteps => exists_chronicle hasked hsteps, fun d hsteps hnone => ?_⟩
  have hlaunch := hsteps.holds (launch_restores hev) (holds_launched hev hstartup hasked id hworks)
  have hbooks := hsteps.holds (Chronicle.plan_restores hev) (holds_called hev hstartup [(id, .start)] works)
  refine ⟨fun id => ?_, fun hidle => ?_⟩
  · obtain ⟨held, -, -, hlaunches⟩ := hlaunch
    exact (hlaunches.2 hnone).2.begins_le id
  have hfits : Chronicle.Fits d.state 0 := hbooks.ended hidle
  have hended : Launches h.settings.startupModules d.state 0 := hlaunch.ended hidle
  obtain ⟨ends, hentries⟩ := (hended.2 hnone).2.of_none
  have hrun := hfits.none_running
  have hsound := hfits.sound (by show Apart d.state.2; rw [hentries]; exact apart_taken ..)
  refine ⟨hrun, fun id => ?_⟩
  have hrequested : id ∈ d.state.1.startup.requested ↔ id ∈ h.settings.startupModules := by
    have hasked := hfits.asked id
    rwa [show d.state.book.entries = d.state.2 from rfl, hentries, asked_taken] at hasked
  refine ⟨?_, hrequested, ?_⟩
  · rw [hentries, begins_taken, (Names.nodup_ofList _).count]
    simp only [Names.mem_ofList]
  · exact ⟨fun hloaded => hrequested.1 (hsound.loaded id hloaded), fun hid => hfits.all_loaded hrun id (hrequested.2 hid)⟩

/-- Two modules that are run at the start, of which one fails. -/
def oneFails : Parts where
  vault := .memory { texts := [("a.js", "export default fn a"), ("b.js", "throw out")] }
  settings := { startupModules := ["b.js", "a.js"] }

/-- The module that fails holds up no other. -/
theorem listed_once_failing : ∃ h d, build oneFails = .ok h ∧
    Weave.Steps (Chronicle.plan Lines.evaluator) (Chronicle.called Lines.evaluator h [(100, .start)] []) d ∧ Idle d ∧
      d.state.1.Unheard ∧ h.settings.startupModules = ["b.js", "a.js"] ∧ d.state.1.heap.count "a" = 1 ∧
      running d.state.2 = [] ∧ ∀ id,
        begins id d.state.2 = (if id ∈ h.settings.startupModules then 1 else 0) ∧
        (id ∈ d.state.1.startup.requested ↔ id ∈ h.settings.startupModules) ∧
        (id ∈ d.state.1.startup.loaded ↔ id ∈ h.settings.startupModules) := by
  have hrun : ((build oneFails).toOption.bind fun h =>
      (Weave.turns? (Chronicle.plan Lines.evaluator) (Chronicle.called Lines.evaluator h [(100, .start)] [])
        [0, 0, 1, 2, 1, 1, 1, 0, 0, 0, 3, 4, 3, 3, 3, 0, 0, 0, 0, 0, 0]).filter fun d =>
        d.isFinished && d.state.1.announced.isEmpty && h.settings.startupModules == ["b.js", "a.js"] &&
          d.state.1.heap.count "a" == 1).isSome = true := by
    decide +kernel
  obtain ⟨d, hd⟩ := Option.isSome_iff_exists.1 hrun
  obtain ⟨h, hb, hd⟩ := Option.bind_eq_some_iff.1 hd
  obtain ⟨hturns, htest⟩ := Option.filter_eq_some_iff.1 hd
  simp only [Bool.and_eq_true, beq_iff_eq, List.isEmpty_iff] at htest
  obtain ⟨⟨⟨hended, hsilent⟩, hlisted⟩, hcount⟩ := htest
  have hb := eq_ok_of_toOption hb
  have hidle : Idle d := fun t ht _ => Weave.finished_of_isFinished hended t ht
  have hnone : d.state.1.Unheard := fun id _ hmem => by
    rw [hsilent] at hmem
    cases hmem
  have hsteps := Weave.steps_of_turns? hturns
  obtain ⟨hstartup, hasked⟩ := unstarted_of_build hb
  have honce := (listed_once Lines.lines_solitary hstartup hasked 100 (List.forall_mem_nil _)).2 d hsteps hnone
  exact ⟨h, d, hb, hsteps, hidle, hnone, hlisted, hcount, honce.2 hidle⟩

end Host

/-! ### Listed modules that are announced -/

namespace Session

/-- A remote module that is run at the start, and perhaps again when it is evicted. -/
def listedPage (again : Bool) (code : String) : Host.Parts where
  vault := .memory {}
  settings :=
    { enableExternalLinks := true
      startupModules := ["https://a.example/m.js"]
      autoReloadStartupModules := again }
  network := { pages := [("https://a.example/m.js", code)] }

/-- Two modules that are run at the start; the second one requires another module by the name under which the first one is
listed. -/
def sharedName : Host.Parts where
  vault := .memory
    { texts := [("b.js", "export default fn b"), ("sub/b.js", ""),
        ("sub/x.js", "export const b = require(\"./b.js\")\nexport default fn x")] }
  settings := { startupModules := ["./b.js", "sub/x.js"], autoReloadStartupModules := false }

/-- A remote module that is listed is requested no longer once it has run, though nobody has changed anything; one that
takes three seconds is run twice, where startup modules run again when they are evicted; and a module of the vault is
requested no longer once another one requires a module by the same name. -/
theorem launch_noticed :
    (∃ s, build Lines.evaluator (listedPage false "export default fn m") = .ok s ∧
      s.start.host.startup.requested = [] ∧ s.start.host.startup.loaded = ["https://a.example/m.js"]) ∧
    (∃ s, build Lines.evaluator (listedPage true "sleep 3000\nexport default fn m") = .ok s ∧
      s.start.host.heap.count "m" = 2) ∧
    ∃ s, build Lines.evaluator sharedName = .ok s ∧
      s.start.host.startup.requested = [] ∧ s.start.host.startup.loaded = ["./b.js", "sub/x.js"] := by
  have hforgotten : ((build Lines.evaluator (listedPage false "export default fn m")).toOption.filter fun s =>
      s.start.host.startup.requested = [] ∧
        s.start.host.startup.loaded = ["https://a.example/m.js"]).isSome = true := by
    decide +kernel
  have htwice : ((build Lines.evaluator (listedPage true "sleep 3000\nexport default fn m")).toOption.filter fun s =>
      s.start.host.heap.count "m" = 2).isSome = true := by
    decide +kernel
  have hrenamed : ((build Lines.evaluator sharedName).toOption.filter fun s =>
      s.start.host.startup.requested = [] ∧
        s.start.host.startup.loaded = ["./b.js", "sub/x.js"]).isSome = true := by
    decide +kernel
  exact ⟨exists_built hforgotten, exists_built htwice, exists_built hrenamed⟩

end Session

end ScriptVault

import ScriptVault.Evaluator.Lines
import ScriptVault.Host.Session
import ScriptVault.Proofs.Evaluator.Lines
import ScriptVault.Proofs.Host.Desk
import ScriptVault.Proofs.Host.Edits
import ScriptVault.Proofs.Host.Exec

/-!
# Books — calls that load, reload and unload startup modules

A chronicle tells which modules ran, and why.  Calls may wait, take each other over and go on in any order, and the books
stay in order, as long as no call comes while modules run that another call has taken up.
-/

namespace ScriptVault

theorem Names.mem_inserts {names : Names} {ids : List String} {x : String} :
    x ∈ ids.foldl Names.insert names ↔ x ∈ ids ∨ x ∈ names := by
  induction ids generalizing names with
  | nil => simp
  | cons id ids ih =>
    rw [List.foldl_cons, ih, Names.mem_insert, List.mem_cons]
    tauto

theorem Names.mem_erases {names : Names} {ids : List String} {x : String} :
    x ∈ ids.foldl Names.erase names ↔ x ∉ ids ∧ x ∈ names := by
  induction ids generalizing names with
  | nil => simp
  | cons id ids ih =>
    rw [List.foldl_cons, ih, Names.mem_erase, List.mem_cons]
    tauto

theorem Startup.mem_pending {s : Startup} {id : String} :
    id ∈ s.pending ↔ id ∈ s.requested ∧ id ∉ s.loaded := by
  simp [pending]

theorem Names.erases_eq (names : Names) (ids : List String) :
    ids.foldl Names.erase names = names.filter fun x => !ids.contains x := by
  induction ids generalizing names with
  | nil => simp
  | cons id ids ih =>
    rw [List.foldl_cons, ih, Names.erase, List.filter_filter]
    refine List.filter_congr fun x _ => ?_
    simp [Bool.and_comm]

/-- Where some modules were unloaded, it can be told which. -/
theorem Startup.unload_gone {s s' : Startup} {ids : List String} (h : s' = (s.unload ids).2) :
    s' = (s.unload (s.gone s')).2 := by
  subst h
  have hgone (x : String) (hx : x ∈ s.requested ∨ x ∈ s.loaded) : x ∈ ids ↔ x ∈ s.gone (s.unload ids).2 := by
    simp only [gone, unload, List.mem_filter, List.mem_append, Bool.and_eq_true, Bool.not_eq_true',
      List.contains_eq_mem, decide_eq_false_iff_not, Names.mem_erases]
    tauto
  have hrequested : ids.foldl Names.erase s.requested = (s.gone (s.unload ids).2).foldl Names.erase s.requested := by
    rw [Names.erases_eq, Names.erases_eq]
    refine List.filter_congr fun x hx => ?_
    simp [hgone x (.inl hx)]
  have hloaded : ids.foldl Names.erase s.loaded = (s.gone (s.unload ids).2).foldl Names.erase s.loaded := by
    rw [Names.erases_eq, Names.erases_eq]
    refine List.filter_congr fun x hx => ?_
    simp [hgone x (.inr hx)]
  show Startup.mk _ _ _ = Startup.mk _ _ _
  rw [hrequested, hloaded]

/-- All of some things, each by itself. -/
theorem sum_singletons {α β : Type} (f : α → β) (xs : List α) :
    (xs.map fun x => ({f x} : Multiset β)).sum = (xs.map f : List β) := by
  induction xs with
  | nil => rfl
  | cons x xs ih =>
    rw [List.map_cons, List.sum_cons, ih]
    rfl

/-! ### What is written down -/

/-- The startup modules, with what was done with them. -/
structure Book where
  /-- The startup modules. -/
  startup : Startup
  /-- What was done, the last first. -/
  entries : List Book.Entry

namespace Book

/-- The modules of which a run began and did not end. -/
def running : List Entry → List String
  | [] => []
  | .began ids :: before => ids ++ running before
  | .ended id :: before => (running before).erase id
  | _ :: before => running before

/-- A module was requested, and not unloaded since. -/
def Asked (id : String) : List Entry → Prop
  | [] => False
  | .requested ids :: before => id ∈ ids ∨ Asked id before
  | .unloaded ids :: before => id ∉ ids ∧ Asked id before
  | _ :: before => Asked id before

/-- A run of a module began, and it was neither reloaded nor unloaded since. -/
def HasRun (id : String) : List Entry → Prop
  | [] => False
  | .began ids :: before => id ∈ ids ∨ HasRun id before
  | .renewed ids :: before => id ∉ ids ∧ HasRun id before
  | .unloaded ids :: before => id ∉ ids ∧ HasRun id before
  | _ :: before => HasRun id before

/-- While modules ran nothing was done but to end their runs. -/
def Apart : List Entry → Prop
  | [] => True
  | .ended _ :: before => Apart before
  | _ :: before => running before = [] ∧ Apart before

/-- Each run that began was asked for, and was the first since the module was last reloaded or unloaded. -/
def Due : List Entry → Prop
  | [] => True
  | .began ids :: before => (∀ id ∈ ids, Asked id before ∧ ¬HasRun id before) ∧ Due before
  | _ :: before => Due before

/-! ### What calls have out -/

/-- What a call has out between two things that it does. -/
inductive Token where
  /-- It let modules run again, and is to load them. -/
  | renewing
  /-- It began a load, which may be the last one. -/
  | waits (generation : Nat)
  /-- It runs a module. -/
  | runs (id : String)
  deriving DecidableEq

/-- What holds of a book as long as nothing comes while modules run. -/
structure Sound (b : Book) : Prop where
  loaded : ∀ id ∈ b.startup.loaded, id ∈ b.startup.requested
  running : ∀ id ∈ running b.entries, id ∈ b.startup.requested
  hasRun : ∀ id, HasRun id b.entries ↔ id ∈ b.startup.loaded ∨ id ∈ Book.running b.entries
  due : Due b.entries

/-- The startup modules are as the book says, and what is to run is run by a call that has it out, or will be taken up
by one that waits. -/
structure Fits (b : Book) (out : Multiset Token) : Prop where
  running : ∀ id, out.count (.runs id) = (running b.entries).count id
  asked : ∀ id, id ∈ b.startup.requested ↔ Asked id b.entries
  claimed : .renewing ∈ out ∨ .waits b.startup.generation ∈ out ∨
    ∀ id ∈ b.startup.pending, id ∈ Book.running b.entries
  sound : Apart b.entries → b.Sound

namespace Fits

variable {b : Book} {m others out : Multiset Token}

/-! ### What each thing that is done keeps -/

theorem requested (hb : b.Fits (m + others)) (hm : ∀ id, m.count (.runs id) = 0) (ids : List String) :
    Fits ⟨(b.startup.begin ids).2, .requested ids :: b.entries⟩
      ({.waits (b.startup.generation + 1)} + others) where
  running id := by
    have := hb.running id
    simpa [Book.running, hm id] using this
  asked id := by
    show id ∈ ids.foldl Names.insert b.startup.requested ↔ id ∈ ids ∨ Asked id b.entries
    rw [Names.mem_inserts, hb.asked]
  claimed := .inr (.inl (Multiset.mem_add.mpr (.inl (Multiset.mem_singleton_self _))))
  sound := by
    rintro ⟨hnone, hapart⟩
    have hs := hb.sound hapart
    refine ⟨fun id hid => ?_, fun id hid => ?_, hs.hasRun, hs.due⟩
    · exact Names.mem_inserts.mpr (.inr (hs.loaded id hid))
    · exact Names.mem_inserts.mpr (.inr (hs.running id hid))

theorem renewed (hb : b.Fits others) (ids : List String) :
    Fits ⟨b.startup.renew ids, .renewed ids :: b.entries⟩ ({.renewing} + others) where
  running id := by simpa [Book.running] using hb.running id
  asked := hb.asked
  claimed := .inl (Multiset.mem_add.mpr (.inl (Multiset.mem_singleton_self _)))
  sound := by
    rintro ⟨hnone, hapart⟩
    have hs := hb.sound hapart
    refine ⟨fun id hid => hs.loaded id (Names.mem_erases.mp hid).2, hs.running, fun id => ?_, hs.due⟩
    show id ∉ ids ∧ HasRun id b.entries ↔ id ∈ ids.foldl Names.erase b.startup.loaded ∨ id ∈ Book.running b.entries
    rw [Names.mem_erases, hs.hasRun, hnone]
    simp

theorem unloaded (hb : b.Fits out) (ids : List String) :
    Fits ⟨(b.startup.unload ids).2, .unloaded ids :: b.entries⟩ out where
  running := hb.running
  asked id := by
    show id ∈ ids.foldl Names.erase b.startup.requested ↔ id ∉ ids ∧ Asked id b.entries
    rw [Names.mem_erases, hb.asked]
  claimed := by
    refine hb.claimed.imp_right (.imp_right fun hclaimed id hid => hclaimed id ?_)
    rw [Startup.mem_pending] at hid ⊢
    obtain ⟨hrequested, hloaded⟩ := hid
    obtain ⟨hid, hrequested⟩ := Names.mem_erases.mp hrequested
    exact ⟨hrequested, fun hmem => hloaded (Names.mem_erases.mpr ⟨hid, hmem⟩)⟩
  sound := by
    rintro ⟨hnone, hapart⟩
    have hs := hb.sound hapart
    refine ⟨fun id hid => ?_, fun id hid => ?_, fun id => ?_, hs.due⟩
    · obtain ⟨hid, hloaded⟩ := Names.mem_erases.mp hid
      exact Names.mem_erases.mpr ⟨hid, hs.loaded id hloaded⟩
    · have hrunning : id ∈ Book.running b.entries := hid
      rw [hnone] at hrunning
      cases hrunning
    · show id ∉ ids ∧ HasRun id b.entries ↔ id ∈ ids.foldl Names.erase b.startup.loaded ∨ id ∈ Book.running b.entries
      rw [Names.mem_erases, hs.hasRun, hnone]
      simp

/-- A load that is not the last one leaves to others what is to run. -/
theorem superseded {generation : Nat} (hb : b.Fits ({.waits generation} + others))
    (hlater : b.startup.generation ≠ generation) : b.Fits others where
  running id := by simpa using hb.running id
  asked := hb.asked
  claimed := by
    have hother : Token.waits b.startup.generation ≠ .waits generation := fun h => hlater (Token.waits.inj h)
    simpa [hother] using hb.claimed
  sound := hb.sound

theorem began {generation : Nat} (hb : b.Fits ({.waits generation} + others)) :
    Fits ⟨b.startup, .began b.startup.pending :: b.entries⟩
      ((b.startup.pending.map fun id => ({.runs id} : Multiset Token)).sum + others) where
  running id := by
    have hcount : ((b.startup.pending.map Token.runs : List Token) : Multiset Token).count (.runs id) =
        b.startup.pending.count id := by
      rw [Multiset.coe_count]
      exact List.count_map_of_injective _ _ (fun _ _ => Token.runs.inj) _
    have hbefore := hb.running id
    rw [Multiset.count_add, sum_singletons, hcount]
    show _ = (b.startup.pending ++ Book.running b.entries).count id
    rw [List.count_append]
    simpa using hbefore
  asked := hb.asked
  claimed := .inr (.inr fun id hid => List.mem_append_left _ hid)
  sound := by
    rintro ⟨hnone, hapart⟩
    have hs := hb.sound hapart
    refine ⟨hs.loaded, fun id hid => ?_, fun id => ?_, fun id hid => ?_, hs.due⟩
    · obtain hid | hid := List.mem_append.mp hid
      · exact (Startup.mem_pending.mp hid).1
      · exact hs.running id hid
    · show id ∈ b.startup.pending ∨ HasRun id b.entries ↔
        id ∈ b.startup.loaded ∨ id ∈ b.startup.pending ++ Book.running b.entries
      rw [hs.hasRun, hnone, List.append_nil]
      simp [or_comm]
    · obtain ⟨hrequested, hloaded⟩ := Startup.mem_pending.mp hid
      refine ⟨(hb.asked id).mp hrequested, fun hrun => ?_⟩
      rw [hs.hasRun, hnone] at hrun
      simp [hloaded] at hrun

theorem ended {id : String} (hb : b.Fits ({.runs id} + others)) :
    Fits ⟨b.startup.ran id, .ended id :: b.entries⟩ others where
  running i := by
    have hbefore := hb.running i
    show _ = ((Book.running b.entries).erase id).count i
    rw [List.count_erase, ← hbefore, Multiset.count_add, Multiset.count_singleton]
    by_cases hi : i = id
    · simp [hi]
    · simp [hi, Ne.symm hi]
  asked := hb.asked
  claimed := by
    have hclaimed := hb.claimed
    simp only [Multiset.singleton_add, Multiset.mem_cons, reduceCtorEq, false_or] at hclaimed
    refine hclaimed.imp_right (.imp_right fun hclaimed i hi => ?_)
    obtain ⟨hrequested, hloaded⟩ := Startup.mem_pending.mp hi
    have hne : i ≠ id := fun h => hloaded (Names.mem_insert.mpr (.inl h))
    refine (List.mem_erase_of_ne hne).mpr (hclaimed i (Startup.mem_pending.mpr ⟨hrequested, fun hmem => ?_⟩))
    exact hloaded (Names.mem_insert.mpr (.inr hmem))
  sound hapart := by
    have hs := hb.sound hapart
    have hrunning : id ∈ Book.running b.entries := by
      rw [← List.count_pos_iff, ← hb.running]
      simp
    refine ⟨fun i hi => ?_, fun i hi => hs.running i (List.mem_of_mem_erase hi), fun i => ?_, hs.due⟩
    · obtain rfl | hi := Names.mem_insert.mp hi
      · exact hs.running i hrunning
      · exact hs.loaded i hi
    · show HasRun i b.entries ↔ i ∈ Names.insert b.startup.loaded id ∨ i ∈ (Book.running b.entries).erase id
      rw [hs.hasRun, Names.mem_insert]
      by_cases hi : i = id
      · simp [hi, hrunning]
      · simp [hi, List.mem_erase_of_ne hi]

/-! #### Where nothing is out -/

theorem none_running (hb : b.Fits 0) : Book.running b.entries = [] := by
  refine List.eq_nil_iff_forall_not_mem.mpr fun id hid => ?_
  have hcount := List.count_pos_iff.mpr hid
  rw [← hb.running id] at hcount
  simp at hcount

theorem all_loaded (hb : b.Fits 0) (hnone : Book.running b.entries = []) :
    ∀ id ∈ b.startup.requested, id ∈ b.startup.loaded := by
  intro id hid
  have hclaimed := hb.claimed
  simp only [Multiset.notMem_zero, false_or, hnone, List.not_mem_nil, imp_false] at hclaimed
  by_contra hloaded
  exact hclaimed id (Startup.mem_pending.mpr ⟨hid, hloaded⟩)

end Fits

theorem fits_empty : Fits ⟨{}, []⟩ 0 where
  running id := rfl
  asked id := by simp [Asked]
  claimed := .inr (.inr fun id hid => by simp [Startup.pending] at hid)
  sound _ := ⟨by simp, by simp [running], by simp [HasRun, running], trivial⟩

end Book

/-! ### What calls give back -/

namespace Chronicle

open Host Book

/-- What is written down of startup modules. -/
def book (s : Chronicle) : Book := ⟨s.1.startup, s.2⟩

/-- What is written down fits what calls have out. -/
def Fits (s : Chronicle) (out : Multiset Token) : Prop := s.book.Fits out

/-- A thread that does what a call asks for. -/
def IsCall : Option Work → Prop
  | none => True
  | some work => ¬work.Ordinary

/-- No call is under way. -/
def Idle (d : Weave Chronicle Work) : Prop := ∀ t ∈ d.threads, IsCall t.work → t.strand = .ended

theorem terms : Terms Fits (fun generation => {.waits generation}) fun id => {.runs id} where
  heard := by
    intro h h' hh entries out hfits
    obtain ⟨ids, hids⟩ := hh.unloads
    have hgone := Startup.unload_gone hids
    unfold note
    generalize h.startup.gone h'.startup = gone at hgone ⊢
    show (Book.mk h'.startup _).Fits out
    rw [hgone]
    cases gone with
    | nil => exact hfits
    | cons id ids => exact Book.Fits.unloaded hfits (id :: ids)
  superseded hs hlater := Book.Fits.superseded hs hlater
  began hs := Book.Fits.began hs
  ended hs := Book.Fits.ended hs

section

variable {may : Work → Prop} (hmay : ∀ work, work.Ordinary → may work)

include hmay

theorem trades_load_fits {m : Multiset Token} (hm : ∀ id, m.count (.runs id) = 0) (delay : Nat) (ids : List String) :
    (desk.load delay ids).Trades may Fits m fun _ => 0 :=
  trades_load terms hmay delay fun _ _ hs => Book.Fits.requested hs hm ids

theorem trades_reload_fits (delay : Nat) (ids : List String) :
    (desk.reload delay ids).Trades may Fits 0 fun _ => 0 := by
  have hrenew : (desk.renew ids).Trades may Fits 0 fun _ => {.renewing} :=
    Async.trades_step fun s others hs => by
      rw [zero_add] at hs
      exact Book.Fits.renewed hs ids
  exact Async.trades_bind hrenew fun _ => trades_load_fits hmay (fun id => by simp) delay ids

theorem holds_told (call : Call) (s : Chronicle) : call.told.Holds may Fits 0 s := by
  cases call with
  | start =>
    refine Async.holds_fiber (Async.restores_bind (restores_arrive terms hmay) fun _ => ?_) s
    refine Async.restores_bind (Async.restores_view _) fun ids => ?_
    exact Async.trades_discard (trades_load_fits hmay (fun _ => rfl) 0 ids)
  | load delay ids => exact Async.holds_fiber (trades_load_fits hmay (fun _ => rfl) delay ids) s
  | reload delay ids => exact Async.holds_fiber (trades_reload_fits hmay delay ids) s
  | unload ids =>
    refine Async.holds_fiber (Async.trades_step fun s others hs => ?_) s
    exact Book.Fits.unloaded hs ids

end

theorem plan_restores {ev : Evaluator} (hev : ev.Solitary) :
    (plan ev).Restores Work.Any Fits IsCall fun _ => 0 where
  perform id work hcall s := by
    have hany : ∀ work, Work.Ordinary work → Work.Any work := fun _ _ => trivial
    cases work with
    | reloading delay ids => exact Async.holds_fiber (trades_reload_fits hany delay ids) s
    | starting delay ids => exact Async.holds_fiber (trades_load_fits hany (fun _ => rfl) delay ids) s
    | _ => exact absurd trivial hcall
  steady id work hcall := by
    refine ⟨rfl, fun s => ?_⟩
    exact steady_ordinary terms (fun _ _ => trivial) hev id (not_not.1 hcall) s
  free _ _ := rfl
  collect s out hs := by
    rw [owed_zero, zero_add]
    exact hs

theorem holds_called {ev : Evaluator} (hev : ev.Solitary) {h : Host} (hstartup : h.startup = {})
    (calls : List (Nat × Call)) (works : List (Nat × Work)) :
    (called ev h calls works).Holds Work.Any Fits IsCall := by
  have hblank : Fits (h, []) 0 := by
    show (Book.mk h.startup []).Fits 0
    rw [hstartup]
    exact Book.fits_empty
  let held : List (Thread Chronicle Work × Multiset Token) :=
    calls.map fun p => (⟨p.1, none, .going p.2.told⟩, 0)
  have hheld : ∀ p ∈ held, p.1.Holds Work.Any Fits IsCall p.2 := by
    intro p hp
    obtain ⟨call, -, rfl⟩ := List.mem_map.1 hp
    exact ⟨fun _ => holds_told (fun _ _ => trivial) call.2, fun hno => absurd trivial hno⟩
  have hnothing : Fits (h, []) ((held.map Prod.snd).sum + owed (fun _ => 0) works) := by
    simpa [held, Function.comp_def] using hblank
  have hbeside := Weave.holds_beside (plan_restores hev) hheld hnothing
  simpa [called, held, Function.comp_def] using hbeside

end Chronicle

namespace Host

open Book Chronicle

/-- In a host that was just built no startup module was requested, and no task waits to be taken up. -/
theorem unstarted_of_build {parts : Parts} {h : Host} (hb : build parts = .ok h) : h.startup = {} ∧ h.asked = [] := by
  obtain ⟨rules, -, rfl⟩ := build_eq hb
  exact ⟨rfl, rfl⟩

/-- **Calls that stay apart from runs keep the books in order.** A host is started and its startup modules are loaded,
reloaded and unloaded by any calls, beside any other work, and all of these go on in any order.  Whatever is done so there
is a chronicle of it.  As long as nothing is done with startup modules while some of them run but to end their runs, the
modules that ran are among those that are requested; each run that began was asked for, and was the first since the
module was last reloaded or unloaded; and whenever no call is under way, each module that is requested has run since
then, and its run has ended. -/
theorem calls_apart {ev : Evaluator} (hev : ev.Solitary) {h : Host} (hstartup : h.startup = {}) (hasked : h.asked = [])
    (calls : List (Nat × Call)) (works : List (Nat × Work)) :
    (∀ c, Weave.Steps (plan ev) (h.called ev calls works) c →
      ∃ d, Weave.Steps (Chronicle.plan ev) (Chronicle.called ev h calls works) d ∧ d.Erases c) ∧
    ∀ d, Weave.Steps (Chronicle.plan ev) (Chronicle.called ev h calls works) d → Apart d.state.2 →
      (∀ id ∈ d.state.1.startup.loaded, id ∈ d.state.1.startup.requested) ∧
      Due d.state.2 ∧
      (Idle d → running d.state.2 = [] ∧
        ∀ id ∈ d.state.1.startup.requested, id ∈ d.state.1.startup.loaded ∧ HasRun id d.state.2) := by
  refine ⟨fun c hsteps => exists_chronicle hasked hsteps, fun d hsteps hapart => ?_⟩
  have hholds := hsteps.holds (Chronicle.plan_restores hev) (holds_called hev hstartup calls works)
  obtain ⟨held, -, -, hfits⟩ := id hholds
  have hsound := hfits.sound hapart
  refine ⟨hsound.loaded, hsound.due, fun hidle => ?_⟩
  have hnothing : Chronicle.Fits d.state 0 := hholds.ended hidle
  have hnone : running d.state.2 = [] := hnothing.none_running
  refine ⟨hnone, fun id hid => ?_⟩
  have hloaded : id ∈ d.state.1.startup.loaded := hnothing.all_loaded hnone id hid
  exact ⟨hloaded, (hsound.hasRun id).mpr (.inl hloaded)⟩

/-- Three modules, two of which are run at the start. -/
def twoListed : Parts where
  vault := .memory
    { texts := [("a.js", "export default fn a"), ("b.js", "export default fn b"), ("c.js", "export default fn c")] }
  settings := { startupModules := ["a.js", "b.js"] }

/-- The host is started; then one module is reloaded, another unloaded, and a third loaded, all before any of them has
waited long enough. -/
def mergedCalls : List (Nat × Call) :=
  [(100, .start), (101, .reload 1 ["a.js"]), (102, .unload ["b.js"]), (103, .load 1 ["c.js"])]

/-- A reload that a later load takes over, and that load. -/
theorem calls_apart_merged : ∃ h d, build twoListed = .ok h ∧
    Weave.Steps (Chronicle.plan Lines.evaluator) (Chronicle.called Lines.evaluator h mergedCalls []) d ∧ Idle d ∧
      d.state.2 = [.ended "c.js", .ended "a.js", .began ["a.js", "c.js"], .unloaded ["b.js"], .requested ["c.js"],
        .requested ["a.js"], .renewed ["a.js"], .ended "b.js", .ended "a.js", .began ["a.js", "b.js"],
        .requested ["a.js", "b.js"]] ∧
      (d.state.1.heap.count "a" = 2 ∧ d.state.1.heap.count "b" = 1 ∧ d.state.1.heap.count "c" = 1) ∧
      Apart d.state.2 ∧ Due d.state.2 ∧
      ∀ id ∈ d.state.1.startup.requested, id ∈ d.state.1.startup.loaded ∧ HasRun id d.state.2 := by
  have hrun : ((build twoListed).toOption.bind fun h =>
      (Weave.turns? (Chronicle.plan Lines.evaluator) (Chronicle.called Lines.evaluator h mergedCalls [])
        [0, 0, 4, 5, 4, 4, 4, 0, 0, 0, 6, 7, 6, 6, 6, 0, 0, 0, 0, 0, 0, 1, 3, 2, 1, 3, 3, 3, 3, 3, 8, 9, 8, 8, 8, 3, 3, 3,
          3, 3, 3]).filter fun d =>
        d.isFinished && d.state.2 == [.ended "c.js", .ended "a.js", .began ["a.js", "c.js"], .unloaded ["b.js"],
          .requested ["c.js"], .requested ["a.js"], .renewed ["a.js"], .ended "b.js", .ended "a.js",
          .began ["a.js", "b.js"], .requested ["a.js", "b.js"]] &&
        decide (d.state.1.heap.count "a" = 2 ∧ d.state.1.heap.count "b" = 1 ∧
          d.state.1.heap.count "c" = 1)).isSome = true := by
    decide +kernel
  obtain ⟨d, hd⟩ := Option.isSome_iff_exists.1 hrun
  obtain ⟨h, hb, hd⟩ := Option.bind_eq_some_iff.1 hd
  obtain ⟨hturns, htest⟩ := Option.filter_eq_some_iff.1 hd
  simp only [Bool.and_eq_true, beq_iff_eq, decide_eq_true_eq] at htest
  obtain ⟨⟨hended, hentries⟩, hcounts⟩ := htest
  have hb := eq_ok_of_toOption hb
  have hidle : Idle d := fun t ht _ => Weave.finished_of_isFinished hended t ht
  have hsteps := Weave.steps_of_turns? hturns
  have hapart : Apart d.state.2 := by
    rw [hentries]
    simp [Apart, running]
  obtain ⟨hstartup, hasked⟩ := unstarted_of_build hb
  obtain ⟨-, hdue, hloaded⟩ := (calls_apart Lines.lines_solitary hstartup hasked mergedCalls []).2 d hsteps hapart
  exact ⟨h, d, hb, hsteps, hidle, hentries, hcounts, hapart, hdue, (hloaded hidle).2⟩

end Host

/-! ### Calls while modules run -/

namespace Session

theorem exists_built {ev : Evaluator} {parts : Host.Parts} {P : Session → Prop} [DecidablePred P]
    (h : ((build ev parts).toOption.filter fun s => P s).isSome = true) : ∃ s, build ev parts = .ok s ∧ P s := by
  obtain ⟨s, hs⟩ := Option.isSome_iff_exists.1 h
  obtain ⟨hb, htest⟩ := Option.filter_eq_some_iff.1 hs
  exact ⟨s, Host.eq_ok_of_toOption hb, of_decide_eq_true htest⟩

/-- Edits a file. -/
def edit (s : Session) (path text : String) : Session :=
  s.adopt (s.vault.write path text).1 (s.vault.write path text).2 false

/-- The nanoseconds of a second. -/
def second : Nat := 1000000000

/-- Two modules, one of which is run at the start. -/
def oneListed : Host.Parts where
  vault := .memory { texts := [("a.js", "export default fn first"), ("b.js", "")] }
  settings := { startupModules := ["a.js"] }

/-- Starts the host and edits the module; when two seconds have passed it runs as it was edited, for some time. -/
def whileRunning (s : Session) (millis : String) : Session :=
  (s.start.edit "a.js" ("sleep " ++ millis ++ "\nexport default fn second")).sleep (2 * second)

/-- The module is unloaded while it runs. -/
def unloadedRunning (s : Session) : Session :=
  ((s.whileRunning "3000").touch fun h => (h.unloadStartup ["a.js"]).2).sleep (5 * second)

/-- Another module is loaded while it runs. -/
def loadedRunning (s : Session) : Session :=
  ((s.whileRunning "3000").startModules false 0 ["b.js"]).2.sleep (5 * second)

/-- The module is edited again while it runs. -/
def editedRunning (s : Session) : Session :=
  ((s.whileRunning "1500").edit "a.js" "export default fn third").sleep (5 * second)

/-- A module that is unloaded while it runs counts as run and is not requested; one that runs while another is loaded is
run twice; and one that is edited while it runs is never run as it was edited. -/
theorem overlapping_calls : ∃ s, build Lines.evaluator oneListed = .ok s ∧
    (s.unloadedRunning.host.startup.requested = [] ∧ s.unloadedRunning.host.startup.loaded = ["a.js"]) ∧
    s.loadedRunning.host.heap.count "second" = 2 ∧
    s.editedRunning.host.heap.count "third" = 0 ∧ s.editedRunning.host.startup.loaded = ["a.js"] ∧
      s.editedRunning.running.tasks.isEmpty := by
  have hrun : ((build Lines.evaluator oneListed).toOption.filter fun s =>
      (s.unloadedRunning.host.startup.requested = [] ∧ s.unloadedRunning.host.startup.loaded = ["a.js"]) ∧
        s.loadedRunning.host.heap.count "second" = 2 ∧
        s.editedRunning.host.heap.count "third" = 0 ∧ s.editedRunning.host.startup.loaded = ["a.js"] ∧
          s.editedRunning.running.tasks.isEmpty).isSome = true := by
    decide +kernel
  exact exists_built hrun

end Session

end ScriptVault

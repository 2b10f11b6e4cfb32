import ScriptVault.Proofs.Host.Languages
import ScriptVault.Proofs.Path.Folding

/-!
# Listed — files that are listed, and what their paths stand for

A host lists the files of its vault under the paths that the vault has them under, which are normalized.  Its resolvers
look at folded paths only.  Both are the same for a path that only goes down: then the first of the file resolvers
answers for the file, as the chain does that keeps nothing.
-/

namespace ScriptVault

open Compile

namespace Path

/-- From the root, a path means what it folds to. -/
theorem fold_inDirectory_root (path : String) : fold (inDirectory "" path) = fold path := by
  unfold fold foldedSegments
  rw [segments_inDirectory]
  rfl

theorem segments_normalize (path : String) : segments (normalize path).toList = segments path.toList := by
  rw [normalize, String.toList_ofList]
  exact segments_ofSegments fun _ => isSegment_of_mem_segments

theorem normalize_normalize (path : String) : normalize (normalize path) = normalize path := by
  rw [normalize, segments_normalize, normalize]

/-- A path that only goes down: no segment of it stays where it is or goes up. -/
def GoesDown (path : String) : Prop := ∀ s ∈ segments path.toList, s ≠ ['.'] ∧ s ≠ ['.', '.']

/-- To fold a path is to normalize it exactly if it only goes down. -/
theorem fold_eq_normalize_iff (path : String) : fold path = normalize path ↔ GoesDown path := by
  constructor
  · intro hsame s hs
    have hfolded : s ∈ foldedSegments path := by
      rw [← segments_fold, hsame, segments_normalize]
      exact hs
    have hname := isName_of_mem_foldedSegments hfolded
    exact ⟨hname.ne_dot, hname.ne_dots⟩
  · intro hdown
    rw [fold, foldedSegments, resolve_of_down hdown, normalize]

end Path

namespace MemoryVault

variable {v : MemoryVault}

/-- The files are kept under normalized paths. -/
def Normal (v : MemoryVault) : Prop := ∀ path, v.text? path ≠ none → Path.normalize path = path

theorem normal_empty : Normal {} := fun _ h => (h rfl).elim

theorem Normal.write (hv : v.Normal) (path text : String) : (v.write path text).2.Normal := by
  intro q hq
  rw [text?_write] at hq
  split at hq
  · next hpath => rw [hpath, Path.normalize_normalize]
  · exact hv q hq

theorem Normal.remove (hv : v.Normal) (path : String) : (v.remove path).2.Normal := by
  intro q hq
  rw [text?_remove] at hq
  split at hq
  · cases hq rfl
  · exact hv q hq

theorem Normal.rename (hv : v.Normal) (source target : String) : (v.rename source target).2.Normal := by
  intro q hq
  rw [text?_rename] at hq
  split at hq
  · exact hv q hq
  split at hq
  · next htarget => rw [htarget, Path.normalize_normalize]
  split at hq
  · cases hq rfl
  · exact hv q hq

/-- Some files that are written one after another are kept under normalized paths. -/
theorem normal_ofFiles (files : List (String × String)) : (ofFiles files).Normal :=
  List.foldlRecOn files _ normal_empty fun _ hv file _ => hv.write file.1 file.2

end MemoryVault

namespace Host

open Async

variable {c : Chains} {rules : Rules} {v : MemoryVault} {h : Host} {ev : Evaluator} {s : Schedule Host Work}
  {path : String} {context : Context}

/-- A host that lends nothing, and looks for files from the working directory first. -/
structure Bare (h : Host) : Prop where
  lends : ∀ id, h.natives.modules.at? id = none
  relative : (h.files.resolver 0).strategy = .relative

/-- Without a working directory, a folded path means itself. -/
theorem Bare.meant (hb : h.Bare) (hfolded : Path.fold path = path) (hcwd : context.cwd = none) :
    h.meantBy? path context 0 = some path := by
  rw [meantBy?, hb.relative, hcwd]
  exact congrArg some ((Path.fold_inDirectory_root path).trans hfolded)

/-- The host after it was asked for a module of its own. -/
def askedNative (h : Host) (id : String) : Host :=
  { h with natives := (h.natives.resolve h.settings.exposeInternalModules id).2 }

theorem Bare.exec_resolveNative (hb : h.Bare) (id : String) :
    (resolveNative id).exec h = some (.ok none, h.askedNative id) := by
  have hnone : (h.natives.resolve h.settings.exposeInternalModules id).1 = none := by
    rw [Natives.resolve, hb.lends]
    exact ite_self _
  exact (Action.exec_modifyGet _ h).trans (by rw [hnone]; rfl)

theorem Sincere.askedNative (hs : h.Sincere c v) (id : String) : (h.askedNative id).Sincere c v :=
  ⟨hs.chain, hs.sound, hs.entries, hs.scripts, hs.modules, hs.numbered⟩

/-- A file that is there is answered for. -/
theorem replies_ne_none {form : Form} {text : String} {r : Except Failure (Option Resolved)} {chain : Chain}
    (htext : rules.textFor v path form = some text)
    (hr : r.map (·.map Resolved.idAndCode) = chainAnswer chain rules v form (some path)) : r ≠ .ok none := by
  rintro rfl
  cases hcode : chain.code form (.ofVersion path text 0) with
  | ok code => rw [chainAnswer_ok htext hcode] at hr; cases hr
  | error e => rw [chainAnswer_error htext hcode] at hr; cases hr

/-! ### At once -/

theorem exec_firstAnswer_none {x : Action (Option Resolved)} {rest : List (Action (Option Resolved))} {h h' : Host}
    (hx : x.exec h = some (.ok none, h')) :
    Action.exec (firstAnswer (x :: rest)) h = Action.exec (firstAnswer rest) h' := by
  refine (Action.exec_bind ..).trans ?_
  rw [hx]
  rfl

theorem exec_firstAnswer_of_ne {x : Action (Option Resolved)} {rest : List (Action (Option Resolved))} {h h' : Host}
    {r : Except Failure (Option Resolved)} (hx : x.exec h = some (r, h')) (hr : r ≠ .ok none) :
    Action.exec (firstAnswer (x :: rest)) h = some (r, h') := by
  refine (Action.exec_bind ..).trans ?_
  rw [hx]
  match r with
  | .ok none => exact absurd rfl hr
  | .ok (some found) => rfl
  | .error e => rfl

/-- At once, the first of the file resolvers answers for a file that is meant and was read ahead. -/
theorem Bare.ends_resolve (hb : h.Bare) (hs : h.Sincere c v) (hm : h.files.snapshot.Mirrors rules v)
    (hpast : c.past = []) (hmeant : h.meantBy? path context 0 = some path) {text : String}
    (htext : rules.textFor v path .script = some text) :
    Action.Ends (resolve path context) h fun r h' =>
      r.map (·.map Resolved.idAndCode) = chainAnswer c.now rules v .script (some path) ∧ h'.asked = h.asked := by
  obtain ⟨r, h', hexec, hserves, -⟩ := ends_resolve_served (hs.askedNative path) hm 0 path context
  have hr := hserves.replies.of_none hpast
  rw [show (h.askedNative path).meantBy? path context 0 = some path from hmeant] at hr
  have hall : (resolve path context).exec h = some (r, h') :=
    (exec_firstAnswer_none (hb.exec_resolveNative path)).trans (exec_firstAnswer_of_ne hexec (replies_ne_none htext hr))
  exact ⟨r, h', hall, hr, asked_of_resolve hall⟩

/-! ### Later -/

/-- Later, the first of the file resolvers answers for a file that is meant. -/
theorem Bare.ends_resolveLater (hb : s.state.Bare) (hrests : Rests s) (hready : s.rootReady = false)
    (hs : s.state.Sincere c v) (hm : s.state.files.snapshot.Mirrors rules v) (hvault : s.state.files.vault = .memory v)
    (hpast : c.past = []) (hmeant : s.state.meantBy? path context 0 = some path) {text : String}
    (htext : rules.textFor v path .module = some text) :
    (resolveLater path context).run.Ends (plan ev) 1 s fun r s' =>
      r.map (·.map Resolved.idAndCode) = chainAnswer c.now rules v .module (some path) ∧ Rests s' := by
  have hnative : (liftM (resolveNative path) : Errand (Option Resolved)).run.Ends (plan ev) 0 s fun r s' =>
      r = .ok none ∧ s' = { s with state := s.state.askedNative path } := by
    refine ends_act (hb.exec_resolveNative path) ⟨rfl, ?_⟩
    rw [adopt_of_none (collect_of_asked (by exact hrests.asked))]
  refine ends_then hnative ?_
  have hrests' : Rests { s with state := s.state.askedNative path } :=
    ⟨hrests.still.withState _, hrests.asked, hrests.drafts⟩
  refine ends_except (m := 1) (n := 0)
    (ends_resolveLater_served hrests' (hs.askedNative path) hready hm hvault 0 path context) ?_ ?_
  · rintro found s' ⟨hserves, hrests'', -⟩
    have hr := hserves.replies.of_none hpast
    rw [show (s.state.askedNative path).meantBy? path context 0 = some path from hmeant] at hr
    cases found with
    | none => exact absurd rfl (replies_ne_none htext hr)
    | some found => exact ends_pure ⟨hr, hrests''⟩
  · rintro e s' ⟨hserves, hrests'', -⟩
    have hr := hserves.replies.of_none hpast
    rw [show (s.state.askedNative path).meantBy? path context 0 = some path from hmeant] at hr
    exact ⟨hr, hrests''⟩

end Host

namespace Session

open Async Host

variable {c : Chains} {rules : Rules} {v : MemoryVault} {s : Session} {path : String} {context : Context}

/-- A session that mirrors a vault resolves the path of a file to what the chain makes of the file. -/
theorem Mirroring.resolve_meant (hs : s.Mirroring c rules v) (hb : s.host.Bare) (hpast : c.past = []) (form : Form)
    (hmeant : s.host.meantBy? path context 0 = some path) {text : String}
    (htext : rules.textFor v path form = some text) :
    (s.resolve form path context).1.map (·.map Resolved.idAndCode) = chainAnswer c.now rules v form (some path) := by
  have hnumber := hs.number
  have hb' : s.host.number.2.Bare := ⟨hb.lends, hb.relative⟩
  have hrests (root : Parked Host Work) : Rests (s.numbered root) := Idle.numbered (s := s) hs.rests root
  cases form with
  | script =>
    obtain ⟨r, h, hexec, hr, hasked⟩ := hb'.ends_resolve hnumber.sincere hnumber.mirrors hpast hmeant htext
    have hasked : h.asked = [] := hasked.trans hs.rests.asked
    obtain ⟨_, rfl, ho⟩ := perform_of_ends (s := s) (P := (· = .resolved r))
      (x := do return .resolved (← Async.act (Host.resolve path context).run)) fun root => by
        refine (ends_bind (m := 0) (n := 0) (P := fun r' s' => r' = r ∧ Dozes s.evaluator s') (ends_act hexec ?_)
          ?_).mono (Nat.zero_le 1) fun _ _ hq => hq
        · rw [adopt_of_none (collect_of_asked hasked)]
          exact ⟨rfl, Makes.Rested.dozes ⟨(hrests root).still.withState h, hasked⟩⟩
        · rintro _ s' ⟨rfl, hd⟩
          exact ends_pure ⟨rfl, hd⟩
    rw [resolve_script, ho]
    exact hr
  | module =>
    obtain ⟨_, ⟨r, rfl, hr⟩, ho⟩ := perform_of_ends (s := s)
      (P := fun o => ∃ r, o = .resolved r ∧
        r.map (·.map Resolved.idAndCode) = chainAnswer c.now rules v .module (some path))
      (x := do return .resolved (← (Host.resolveLater path context).run)) fun root => by
        refine ends_bind (m := 1) (n := 0) (hb'.ends_resolveLater (s := s.numbered root) (hrests root) rfl
          hnumber.sincere hnumber.mirrors hnumber.vault hpast hmeant htext) ?_
        rintro r s' ⟨hr, hrests'⟩
        exact ends_pure ⟨⟨r, rfl, hr⟩, Makes.Rested.dozes ⟨hrests'.still, hrests'.asked⟩⟩
    rw [resolve_module, ho]
    exact hr

/-- A session that mirrors a vault resolves the path of a file that was read ahead to what the chain makes of the
file. -/
theorem Mirroring.resolve_listed (hs : s.Mirroring c rules v) (hb : s.host.Bare) (hpast : c.past = [])
    (hnormal : v.Normal) (form : Form) (hlisted : path ∈ s.host.files.snapshot.paths)
    (hahead : s.host.isReadAhead path) (hdown : Path.GoesDown path) (hcwd : context.cwd = none) :
    ∃ text, v.text? path = some text ∧
      (s.resolve form path context).1.map (·.map Resolved.idAndCode) =
        (c.now.code form (.ofVersion path text 0)).map fun code => some (path, code) := by
  obtain ⟨identity, hget⟩ := Option.ne_none_iff_exists'.1 (Snapshot.mem_paths.1 hlisted)
  obtain ⟨content, hcontent⟩ : ∃ content, identity.content = some content := by
    unfold isReadAhead textAhead? at hahead
    rw [hget] at hahead
    exact Option.isSome_iff_exists.1 hahead
  obtain ⟨text, htext, hdue⟩ := hs.host.mirrors.of_some hget
  have hfolded : Path.fold path = path :=
    ((Path.fold_eq_normalize_iff path).2 hdown).trans (hnormal path (htext ▸ Option.some_ne_none text))
  have hselects : rules.selects path = true := by
    by_contra hno
    rw [hdue, if_neg hno] at hcontent
    cases hcontent
  have hrules : rules.textFor v path form = some text := by
    cases form with
    | script => exact (if_pos hselects).trans htext
    | module => exact htext
  refine ⟨text, htext, (hs.resolve_meant hb hpast form (hb.meant hfolded hcwd) hrules).trans ?_⟩
  unfold chainAnswer
  dsimp only
  rw [hrules]

theorem host_of_build {ev : Evaluator} {parts : Host.Parts} (hbuild : build ev parts = .ok s) :
    Host.build parts = .ok s.host := by
  unfold build at hbuild
  cases hh : Host.build parts with
  | error e => rw [hh] at hbuild; cases hbuild
  | ok h =>
    rw [hh] at hbuild
    exact congrArg Except.ok (Except.ok.inj hbuild ▸ rfl)

/-- A session that is built on a vault in memory, and looks at the files, mirrors the vault. -/
theorem mirroring_of_build {ev : Evaluator} {parts : Host.Parts} (hbuild : build ev parts = .ok s)
    (hvault : parts.vault = .memory v) : ∃ rules, parts.settings.rules = .ok rules ∧
      (s.move .rebuild).Mirroring ⟨s.host.chain, []⟩ rules v := by
  obtain ⟨rules, hrules, hhost⟩ := Host.build_eq (host_of_build hbuild)
  have hsincere : s.host.Sincere ⟨s.host.chain, []⟩ v := by
    rw [hhost]
    refine ⟨rfl, Snapshot.sound_empty rules 0, fun r hr path entry he => ?_, nofun, nofun, nofun⟩
    obtain ⟨strategy, -, rfl⟩ := List.mem_map.1 hr
    cases he
  have hrebuilt := mirroring_rebuild (idle_build hbuild) hsincere (hhost ▸ rfl) (hhost ▸ hvault)
  exact ⟨rules, hrules, (show s.host.files.snapshot.rules = rules from hhost ▸ rfl) ▸ hrebuilt⟩

theorem bare_of_build {ev : Evaluator} {parts : Host.Parts} (hbuild : build ev parts = .ok s)
    (hnatives : parts.natives = []) : (s.move .rebuild).host.Bare := by
  have hidle := idle_build hbuild
  obtain ⟨rules, -, hhost⟩ := Host.build_eq (host_of_build hbuild)
  have hmove : (s.move .rebuild).host = s.host.absorb s.host.files.rebuild :=
    host_absorbed hidle.still hidle.asked (hhost ▸ rfl) fun h => h.files.rebuild
  have hmodules : s.host.natives.modules = [] := by
    have hblank : (parts.blank rules).natives = {} := by rw [Parts.blank, hnatives]; rfl
    rw [hhost]
    exact congrArg Natives.modules hblank
  obtain ⟨_, _, _, _, _, _, -, -, -, he⟩ := absorb_rest s.host s.host.files.rebuild
  refine ⟨fun id => ?_, ?_⟩
  · rw [hmove, he]
    exact congrArg (Table.at? · id) hmodules
  · rw [hmove]
    exact (kept_of_build (host_of_build hbuild)).strategy (n := 0) (by decide)

/-- A file is found under its path, with what the transpilers make of its text when nothing is kept; unless they fail,
and then it fails as they do. -/
def Finds (s : Session) (form : Form) (path : String) (context : Context) (text : String) : Prop :=
  ∀ token : Nat,
    let made := (s.emptied.codeBy form 0 (.ofVersion path text token)).1
    let answer := (s.resolve form path context).1
    (∃ code found, made = .ok (some code) ∧ answer = .ok (some found) ∧ found.id = path ∧ found.code = code) ∨
      ∃ e, made = .error e ∧ answer = .error e

/-- Whatever a host over a vault in memory is built with, if it lends nothing: after it looked at all files, it finds
each that it lists and has read ahead, at once and later and without a working directory, under the path that it lists
the file under, if the path only goes down. -/
theorem listed_files_found {ev : Evaluator} {parts : Host.Parts} (hbuild : build ev parts = .ok s)
    (hvault : parts.vault = .memory v) (hnatives : parts.natives = []) (hnormal : v.Normal)
    (hlisted : path ∈ (s.move .rebuild).host.files.snapshot.paths) (hahead : (s.move .rebuild).host.isReadAhead path)
    (hdown : Path.GoesDown path) (hcwd : context.cwd = none) (form : Form) :
    ∃ text, v.text? path = some text ∧ (s.move .rebuild).Finds form path context text := by
  obtain ⟨rules, -, hs⟩ := mirroring_of_build hbuild hvault
  obtain ⟨text, htext, hanswer⟩ :=
    hs.resolve_listed (bare_of_build hbuild hnatives) rfl hnormal form hlisted hahead hdown hcwd
  refine ⟨text, htext, fun token => ?_⟩
  intro made answer
  have hmade : made = (s.host.chain.code form (.ofVersion path text token)).map some :=
    hs.codeBy_emptied form 0 path text token
  change answer.map _ = _ at hanswer
  rw [code_ofVersion form path text 0 token] at hanswer
  rw [hmade]
  cases hcode : s.host.chain.code form (.ofVersion path text token) with
  | ok code =>
    rw [hcode] at hanswer
    match answer, hanswer with
    | .ok (some found), hanswer =>
      obtain ⟨hid, hfound⟩ := Prod.mk.inj (Option.some.inj (Except.ok.inj hanswer))
      exact .inl ⟨code, found, rfl, rfl, hid, hfound⟩
  | error e =>
    rw [hcode] at hanswer
    match answer, hanswer with
    | .error _, hanswer => exact .inr ⟨e, rfl, congrArg _ (Except.error.inj hanswer)⟩

/-- A host over some files in memory, which are written one after another. -/
def overFiles (files : List (String × String)) : Host.Parts where
  vault := .memory (.ofFiles files)

/-- A file in a directory is found. -/
theorem listed_files_found_directory : ∃ s found,
    build Scan.evaluator (overFiles [("/lib//a.js", "exports.a = 1")]) = .ok s ∧
      "lib/a.js" ∈ (s.move .rebuild).host.files.snapshot.paths ∧ (s.move .rebuild).host.isReadAhead "lib/a.js" ∧
      ((s.move .rebuild).resolve .script "lib/a.js" {}).1 = .ok (some found) ∧ found.id = "lib/a.js" ∧
      found.code = "exports.a = 1" := by
  have hrun : ((build Scan.evaluator (overFiles [("/lib//a.js", "exports.a = 1")])).toOption.filter fun s =>
      decide ("lib/a.js" ∈ (s.move .rebuild).host.files.snapshot.paths) &&
        (s.move .rebuild).host.isReadAhead "lib/a.js" &&
        ((s.move .rebuild).emptied.codeBy .script 0 (.ofVersion "lib/a.js" "exports.a = 1" 0)).1.toOption ==
          some (some "exports.a = 1")).isSome = true := by
    decide +kernel
  obtain ⟨s, hs⟩ := Option.isSome_iff_exists.1 hrun
  obtain ⟨hbuild, htest⟩ := Option.filter_eq_some_iff.1 hs
  simp only [Bool.and_eq_true, decide_eq_true_iff, beq_iff_eq] at htest
  obtain ⟨⟨hlisted, hahead⟩, hmade⟩ := htest
  have hbuild := eq_ok_of_toOption hbuild
  have hdown : Path.GoesDown "lib/a.js" := by
    unfold Path.GoesDown
    decide +kernel
  obtain ⟨text, htext, hfinds⟩ := listed_files_found hbuild rfl rfl (MemoryVault.normal_ofFiles _) hlisted hahead hdown
    (show Context.cwd {} = none from rfl) .script
  obtain rfl : "exports.a = 1" = text := Option.some.inj htext
  have hmade := eq_ok_of_toOption hmade
  obtain ⟨code, found, hcode, hfound, hid, hsame⟩ | ⟨e, he, -⟩ := hfinds 0
  · refine ⟨s, found, hbuild, hlisted, hahead, hfound, hid, ?_⟩
    rw [hsame]
    exact Option.some.inj (Except.ok.inj (hcode.symm.trans hmade))
  · cases he.symm.trans hmade

/-- A file is listed and read ahead under a path that first stays where it is, and it is not found there. -/
theorem listed_files_found_step : ¬ ∀ ev parts v s path context form, build ev parts = .ok s →
    parts.vault = .memory v → parts.natives = [] → v.Normal →
      path ∈ (s.move .rebuild).host.files.snapshot.paths → (s.move .rebuild).host.isReadAhead path →
        context.cwd = none → ∃ text, v.text? path = some text ∧ (s.move .rebuild).Finds form path context text := by
  intro hall
  have hrun : ((build Scan.evaluator (overFiles [("./a.js", "exports.a = 1")])).toOption.filter fun s =>
      decide ("./a.js" ∈ (s.move .rebuild).host.files.snapshot.paths) &&
        (s.move .rebuild).host.isReadAhead "./a.js" &&
        ((s.move .rebuild).resolve .script "./a.js" {}).1.toOption.map (·.isSome) == some false).isSome = true := by
    decide +kernel
  obtain ⟨s, hs⟩ := Option.isSome_iff_exists.1 hrun
  obtain ⟨hbuild, htest⟩ := Option.filter_eq_some_iff.1 hs
  simp only [Bool.and_eq_true, decide_eq_true_iff, beq_iff_eq] at htest
  obtain ⟨⟨hlisted, hahead⟩, hnone⟩ := htest
  obtain ⟨text, -, hfinds⟩ := hall Scan.evaluator _ _ s "./a.js" {} .script (eq_ok_of_toOption hbuild) rfl rfl
    (MemoryVault.normal_ofFiles _) hlisted hahead rfl
  obtain ⟨code, found, -, hfound, -⟩ | ⟨e, -, he⟩ := hfinds 0
  · rw [hfound] at hnone
    cases hnone
  · rw [he] at hnone
    cases hnone

end Session

end ScriptVault

import Mathlib.Data.List.Forall2
import ScriptVault.Proofs.Fresh.Meaning
import ScriptVault.Proofs.Host.Edits
import ScriptVault.Proofs.Host.Pending
import ScriptVault.Proofs.Snapshot.Destination
import ScriptVault.Proofs.Snapshot.Mirror

/-!
# Locality — what specifiers stand for when one file changes

What a specifier stands for depends on which files there are and on the text of the one it finds.  So when one file
changes, an answer changes only where the file was what the specifier meant.
-/

namespace ScriptVault

namespace Snapshot

/-! ### Where links lead -/

/-- One path may be forgotten, and others stay known or unknown. -/
structure Forgets (z : String) (s s' : Snapshot) : Prop where
  /-- The other paths are known as before. -/
  others : ∀ path, path ≠ z → ((s'.get? path).isSome = (s.get? path).isSome)
  /-- The path was known. -/
  known : (s.get? z).isSome
  /-- It is forgotten. -/
  gone : s'.get? z = none

variable {z : String} {s s' : Snapshot}

theorem directHit?_of_forgets (h : Forgets z s s') (path : String) :
    s.directHit? path = some z ∨ s'.directHit? path = s.directHit? path := by
  have isSome (p : String) : p = z ∨ (s'.get? p).isSome = (s.get? p).isSome :=
    (eq_or_ne p z).imp id (h.others p)
  unfold directHit?
  by_cases he : path.isEmpty = true
  · rw [if_pos he, if_pos he]
    exact Or.inr rfl
  · rw [if_neg he, if_neg he]
    rcases isSome path with rfl | hpath
    · exact Or.inl (if_pos h.known)
    · rw [hpath]
      split
      · exact Or.inr rfl
      · rcases isSome (path ++ ".md") with hz | hpath
        · rw [hz]
          exact Or.inl (if_pos h.known)
        · rw [hpath]
          exact Or.inr rfl

/-- Where each of two attempts leads to a path or stays, so does the first of them that leads anywhere. -/
theorem orElse_stays {a a' b b' : Option String} (ha : a = some z ∨ a' = a) (hb : b = some z ∨ b' = b) :
    (a.orElse fun _ => b) = some z ∨ (a'.orElse fun _ => b') = a.orElse fun _ => b := by
  rcases ha with rfl | rfl
  · exact Or.inl rfl
  · cases a' with
    | some p => exact Or.inr rfl
    | none => exact hb

theorem best?_of_forgets (h : Forgets z s s') (f : String → Bool) :
    best? (s.paths.filter f) = some z ∨ best? (s'.paths.filter f) = best? (s.paths.filter f) := by
  refine best?_of_less fun x => ?_
  simp only [List.mem_filter, mem_paths]
  by_cases hx : x = z
  · subst hx
    simp [h.gone]
  · have : s'.get? x ≠ none ↔ s.get? x ≠ none := by
      rw [← Option.isSome_iff_ne_none, ← Option.isSome_iff_ne_none, h.others x hx]
    rw [this]
    tauto

/-- A link that does not lead to the forgotten path leads where it led before. -/
theorem destination?_of_forgets (h : Forgets z s s') (link directory : String) :
    s.destination? link directory = some z ∨ s'.destination? link directory = s.destination? link directory := by
  unfold destination?
  split
  · exact Or.inr rfl
  · exact orElse_stays (orElse_stays (directHit?_of_forgets h _) (directHit?_of_forgets h _)) (best?_of_forgets h _)

/-- Links lead to the same paths where the same paths are known. -/
theorem destination?_congr (h : ∀ path, (s'.get? path).isSome = (s.get? path).isSome) (link directory : String) :
    s'.destination? link directory = s.destination? link directory := by
  have hdirect (path : String) : s'.directHit? path = s.directHit? path := by
    unfold directHit?
    rw [h, h]
  unfold destination?
  simp only [hdirect]
  split
  · rfl
  · congr 1
    funext _
    refine best?_congr fun x => ?_
    simp only [List.mem_filter, mem_paths, ← Option.isSome_iff_ne_none, h]

theorem bind_stays {α : Type} (x : Option α) {f f' : α → Option String} (h : ∀ a, f a = some z ∨ f' a = f a) :
    x.bind f = some z ∨ x.bind f' = x.bind f := by
  cases x with
  | none => exact Or.inr rfl
  | some a => exact h a

theorem path?_of_forgets (h : Forgets z s s') (strategy : Strategy) (id cwd : String) :
    strategy.path? s id cwd = some z ∨ strategy.path? s' id cwd = strategy.path? s id cwd := by
  cases strategy with
  | relative => exact Or.inr rfl
  | absolute => exact Or.inr rfl
  | wikilink => exact bind_stays _ fun link => destination?_of_forgets h _ _
  | markdown => exact bind_stays _ fun link => destination?_of_forgets h _ _

theorem path?_congr (h : ∀ path, (s'.get? path).isSome = (s.get? path).isSome) (strategy : Strategy) (id cwd : String) :
    strategy.path? s' id cwd = strategy.path? s id cwd := by
  have hlink : s'.destination? = s.destination? := by
    funext link directory
    exact destination?_congr h link directory
  cases strategy <;> simp only [Strategy.path?, hlink]

/-! ### Files -/

/-- At most one file changes: it gets another text if it has one, or it goes. -/
structure Edits (z : String) (s s' : Snapshot) : Prop where
  /-- The other files are the same. -/
  others : ∀ path, path ≠ z → s'.view path = s.view path
  /-- A file whose text is known goes or gets another text, and one whose text is not known stays so. -/
  edit : ((s.view z).bind id ≠ none ∧ s'.view z = none) ∨
    ((s'.view z).isSome = (s.view z).isSome ∧ ((s.view z).bind id = none → (s'.view z).bind id = none))

end Snapshot

namespace World

/-- Two worlds differ in the files that are known, and in nothing else. -/
structure Kin (w w' : World) : Prop where
  /-- The settings are the same. -/
  settings : w'.settings = w.settings
  /-- The lent values are the same. -/
  lent : w'.lent = w.lent
  /-- The compiler is the same. -/
  compiler : w'.compiler = w.compiler
  /-- The remote modules are the same. -/
  remote : w'.remote = w.remote

variable {w w' : World} {z : String}

theorem Kin.refl (w : World) : Kin w w := ⟨rfl, rfl, rfl, rfl⟩

theorem Kin.trans {w'' : World} (a : Kin w w') (b : Kin w' w'') : Kin w w'' :=
  ⟨b.settings.trans a.settings, b.lent.trans a.lent, b.compiler.trans a.compiler, b.remote.trans a.remote⟩

theorem Kin.symm (a : Kin w w') : Kin w' w := ⟨a.settings.symm, a.lent.symm, a.compiler.symm, a.remote.symm⟩

theorem Kin.calls (a : Kin w w') : w'.calls = w.calls := by
  funext r
  unfold World.calls World.script
  rw [a.settings]

/-- The code of a source does not depend on the version that it comes from. -/
theorem code_origin (w : World) (source : Source) : w.code source = w.code { source with origin := none } := by
  have hnote : ({ source with origin := none } : Source).isNote = source.isNote := rfl
  unfold code
  rw [Host.compiled_eq, Host.compiled_eq]
  unfold toCompile
  rw [hnote]
  split <;> rfl

/-- The file that a specifier means to a resolver, with its text. -/
def found? (w : World) (strategy : Strategy) (id : String) (cwd : Option String) : Option (String × String) :=
  (strategy.path? w.snapshot id (cwd.getD "")).bind fun path =>
    ((w.snapshot.view path).bind fun content => content).map (path, ·)

theorem fileAnswer_eq (w : World) (strategy : Strategy) (id : String) (cwd : Option String) :
    w.fileAnswer strategy id cwd =
      match w.found? strategy id cwd with
      | none => .ok none
      | some (path, content) =>
        (w.code { content := content, path := some path }).map fun code => some (.ofFile path code true) := by
  unfold fileAnswer file? found? Snapshot.view
  cases strategy.path? w.snapshot id (cwd.getD "") with
  | none => rfl
  | some path =>
    simp only [Option.bind_some]
    cases w.snapshot.get? path with
    | none => rfl
    | some identity =>
      simp only [Option.bind_some, Option.map_some]
      cases identity.content with
      | none => rfl
      | some content =>
        simp only [Option.map_some]
        rw [code_origin]
        rfl

theorem Kin.fileAnswer (a : Kin w w') {strategy : Strategy} {id : String} {cwd : Option String}
    (h : w'.found? strategy id cwd = w.found? strategy id cwd) :
    w'.fileAnswer strategy id cwd = w.fileAnswer strategy id cwd := by
  rw [fileAnswer_eq, fileAnswer_eq, h]
  split
  · rfl
  · rw [code_congr a.settings a.compiler]

/-- Worlds in which the same is known of all files mean the same. -/
theorem Kin.meaning (a : Kin w w') (h : ∀ path, w'.snapshot.view path = w.snapshot.view path) :
    w'.meaning = w.meaning := by
  have hsome (path : String) : (w'.snapshot.get? path).isSome = (w.snapshot.get? path).isSome := by
    rw [Snapshot.isSome_get?, Snapshot.isSome_get?, h]
  have hfile (strategy : Strategy) (id : String) (cwd : Option String) :
      w'.fileAnswer strategy id cwd = w.fileAnswer strategy id cwd := by
    refine a.fileAnswer ?_
    unfold found?
    rw [Snapshot.path?_congr hsome]
    simp only [h]
  have hanswer : w'.answer = w.answer := by
    funext id cwd
    unfold answer lentAnswer
    simp only [hfile, a.lent, a.remote]
  unfold World.meaning
  rw [hanswer, a.calls]

/-! ### Answers -/

/-- The file that changes is what is answered, or something cannot be told. -/
def Hits (z : String) (a : Except Failure (Option Resolved)) : Prop :=
  (∃ e, a = .error e) ∨ ∃ r, a = .ok (some r) ∧ r.InVault ∧ r.id = z

/-- An edit changes what a resolver answers only where the file is what the specifier means to it. -/
theorem Kin.fileAnswer_of_edits (a : Kin w w') (he : w.snapshot.Edits z w'.snapshot) (strategy : Strategy)
    (id : String) (cwd : Option String) :
    w'.fileAnswer strategy id cwd = w.fileAnswer strategy id cwd ∨ Hits z (w.fileAnswer strategy id cwd) := by
  suffices hfound : (∃ content, w.found? strategy id cwd = some (z, content)) ∨
      w'.found? strategy id cwd = w.found? strategy id cwd by
    rcases hfound with ⟨content, hfound⟩ | hfound
    · right
      rw [fileAnswer_eq, hfound]
      dsimp only
      cases w.code { content := content, path := some z } with
      | error e => exact Or.inl ⟨e, rfl⟩
      | ok code => exact Or.inr ⟨_, rfl, ⟨rfl, rfl⟩, rfl⟩
    · exact Or.inl (a.fileAnswer hfound)
  -- where the path is known to both, the file is the one that changes or the same
  have same (hpath : strategy.path? w'.snapshot id (cwd.getD "") = strategy.path? w.snapshot id (cwd.getD ""))
      (hz : (w.snapshot.view z).bind (fun c => c) = none → (w'.snapshot.view z).bind (fun c => c) = none) :
      (∃ content, w.found? strategy id cwd = some (z, content)) ∨
        w'.found? strategy id cwd = w.found? strategy id cwd := by
    unfold found?
    rw [hpath]
    cases strategy.path? w.snapshot id (cwd.getD "") with
    | none => exact Or.inr rfl
    | some path =>
      dsimp only [Option.bind_some]
      by_cases hp : path = z
      · subst hp
        cases hc : (w.snapshot.view path).bind fun c => c with
        | some content => exact Or.inl ⟨content, rfl⟩
        | none => rw [hz hc]; exact Or.inr rfl
      · rw [he.others path hp]
        exact Or.inr rfl
  rcases he.edit with ⟨hknown, hgone⟩ | ⟨hsome, hnone⟩
  · obtain ⟨content, hcontent⟩ := Option.ne_none_iff_exists'.1 hknown
    have hforgets : Snapshot.Forgets z w.snapshot w'.snapshot := by
      refine ⟨fun path hp => ?_, ?_, ?_⟩
      · rw [Snapshot.isSome_get?, Snapshot.isSome_get?, he.others path hp]
      · rw [Snapshot.isSome_get?]
        cases hv : w.snapshot.view z with
        | none => rw [hv] at hcontent; cases hcontent
        | some _ => rfl
      · exact Option.map_eq_none_iff.1 hgone
    rcases Snapshot.path?_of_forgets hforgets strategy id (cwd.getD "") with hpath | hpath
    · left
      refine ⟨content, ?_⟩
      unfold found?
      rw [hpath]
      exact congrArg (Option.map _) hcontent
    · exact same hpath fun h => absurd h hknown
  · refine same (Snapshot.path?_congr (fun path => ?_) strategy id _) hnone
    rw [Snapshot.isSome_get?, Snapshot.isSome_get?]
    by_cases hp : path = z
    · rw [hp, hsome]
    · rw [he.others path hp]

theorem first_of_stays {answers answers' : List (Except Failure (Option Resolved))}
    (h : List.Forall₂ (fun a a' => a' = a ∨ Hits z a) answers answers')
    (hfirst : first answers = .ok none ∨ ∃ t, first answers = .ok (some t) ∧ ¬(t.InVault ∧ t.id = z)) :
    first answers' = first answers := by
  induction h with
  | nil => rfl
  | @cons a a' answers answers' ha _ ih =>
    cases a with
    | error e =>
      rcases hfirst with h | ⟨t, h, -⟩ <;> cases h
    | ok found =>
      cases found with
      | none =>
        have : a' = .ok none := ha.resolve_right (by rintro (⟨_, h⟩ | ⟨_, h, -⟩) <;> cases h)
        subst this
        exact ih hfirst
      | some r =>
        have : a' = .ok (some r) := ha.resolve_right (by
          rintro (⟨_, h⟩ | ⟨_, h, hr⟩)
          · cases h
          · cases h
            rcases hfirst with h | ⟨t, h, hn⟩
            · cases h
            · cases h; exact hn hr)
        subst this
        rfl

/-- An edit changes what a specifier stands for only where that is the file, or cannot be told. -/
theorem Kin.answer_of_edits (a : Kin w w') (he : w.snapshot.Edits z w'.snapshot) {id : String} {cwd : Option String}
    (h : w.answer id cwd = .ok none ∨ ∃ t, w.answer id cwd = .ok (some t) ∧ ¬(t.InVault ∧ t.id = z)) :
    w'.answer id cwd = w.answer id cwd := by
  refine first_of_stays ?_ h
  refine List.Forall₂.cons (Or.inl ?_) (List.rel_append ?_ (List.Forall₂.cons (Or.inl ?_) .nil))
  · rw [lentAnswer, lentAnswer, a.lent]
  · refine List.forall₂_map_left_iff.2 (List.forall₂_map_right_iff.2 (List.forall₂_same.2 fun strategy _ => ?_))
    exact a.fileAnswer_of_edits he strategy id cwd
  · rw [a.remote]

/-- Where no resolver of files knows anything, an edit changes nothing. -/
theorem Kin.answer_of_no_file (a : Kin w w') (he : w.snapshot.Edits z w'.snapshot) {id : String} {cwd : Option String}
    (h : ∀ strategy ∈ Host.strategies, w.fileAnswer strategy id cwd = .ok none) :
    w'.answer id cwd = w.answer id cwd := by
  have hfile : Host.strategies.map (fun s => w'.fileAnswer s id cwd) =
      Host.strategies.map (fun s => w.fileAnswer s id cwd) := by
    refine List.map_congr_left fun strategy hs => (a.fileAnswer_of_edits he strategy id cwd).resolve_right ?_
    rw [h strategy hs]
    rintro (⟨_, h⟩ | ⟨_, h, -⟩) <;> cases h
  unfold answer lentAnswer
  rw [hfile, a.lent, a.remote]

/-- No call of a module fails over a file that cannot be compiled. -/
def Compiles (w : World) : Prop :=
  ∀ r calls (c : Script.Call) e, w.meaning.Knows r → w.calls r = .ok calls → c ∈ calls →
    w.answer c.specifier r.cwd = .error e →
      ∀ strategy ∈ Host.strategies, w.fileAnswer strategy c.specifier r.cwd = .ok none

/-- Calls that have no answer get none by an edit. -/
theorem Kin.unanswered (a : Kin w w') (he : w.snapshot.Edits z w'.snapshot) (hcompiles : w.Compiles) {r : Resolved}
    {calls : List Script.Call} {c : Script.Call} {e : Failure} (hr : w.meaning.Knows r)
    (hcalls : w.calls r = .ok calls) (hc : c ∈ calls) (h : w.meaning.Unanswered r c.specifier e) :
    w'.meaning.Unanswered r c.specifier e := by
  rcases h with ⟨hnone, rfl⟩ | herror
  · exact Or.inl ⟨(a.answer_of_edits he (Or.inl hnone)).trans hnone, rfl⟩
  · exact Or.inr ((a.answer_of_no_file he (hcompiles r calls c e hr hcalls hc herror)).trans herror)

end World

end ScriptVault

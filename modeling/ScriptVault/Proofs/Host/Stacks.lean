import Mathlib.Algebra.Ring.Nat
import Mathlib.Data.List.Basic
import Mathlib.Data.Multiset.AddSub
import Mathlib.Logic.Relation
import ScriptVault.Proofs.Async.Holding
import ScriptVault.Proofs.Host.Loads
import ScriptVault.Proofs.Host.Program

/-!
# Stacks — what is loaded leaves the stacks of loaders as they were

What is done at once leaves all stacks as it found them, whatever comes of it.  Imports that overlap push entries and
take them off in any order, and what they do to the stacks of a loader is what guards do that are made, push entries and
are dropped.  A guard counts what it pushes on the two stacks of a loader, and takes as many entries off again when it is
dropped.  Guards that are dropped in another order than they were made take off entries of each other.  But what was on
the stacks before all of them stays there, since together they take off no more than they pushed.
-/

namespace ScriptVault

/-! ### Guards -/

/-- How many entries a guard has pushed. -/
structure Guard where
  cwds : Nat := 0
  parents : Nat := 0

/-- The stacks of a loader, and the guards that are not dropped yet. -/
structure Guarded where
  context : Context
  guards : List Guard

namespace Guarded

/-- A guard is made, pushes an entry, or is dropped. -/
inductive Step : Guarded → Guarded → Prop
  | make (c : Context) (guards : List Guard) : Step ⟨c, guards⟩ ⟨c, {} :: guards⟩
  | pushCwd (c : Context) (cwd : Option String) (before after : List Guard) (g : Guard) :
    Step ⟨c, before ++ g :: after⟩ ⟨c.pushCwd cwd, before ++ { g with cwds := g.cwds + 1 } :: after⟩
  | pushParent (c : Context) (id : String) (before after : List Guard) (g : Guard) :
    Step ⟨c, before ++ g :: after⟩ ⟨c.pushParent id, before ++ { g with parents := g.parents + 1 } :: after⟩
  | drop (c : Context) (before after : List Guard) (g : Guard) :
    Step ⟨c, before ++ g :: after⟩ ⟨c.pop g.cwds g.parents, before ++ after⟩

/-- Guards are made, push entries and are dropped, in any order. -/
def Steps : Guarded → Guarded → Prop := Relation.ReflTransGen Step

/-- On top of some stacks there are as many entries as the guards have pushed. -/
structure Above (base : Context) (s : Guarded) : Prop where
  cwds : base.cwds <+: s.context.cwds
  parents : base.parents <+: s.context.parents
  cwdsHeight : s.context.cwds.length = base.cwds.length + (s.guards.map Guard.cwds).sum
  parentsHeight : s.context.parents.length = base.parents.length + (s.guards.map Guard.parents).sum

theorem above_self (c : Context) : Above c ⟨c, []⟩ := ⟨List.prefix_rfl, List.prefix_rfl, by simp, by simp⟩

/-- Entries that are taken off from above a prefix leave it alone. -/
theorem prefix_take {α : Type} {base xs : List α} {n rest : Nat} (hbase : base <+: xs)
    (hlength : xs.length = base.length + (n + rest)) : base <+: xs.take (xs.length - n) := by
  have hle : base.length ≤ xs.length - n := by omega
  exact List.prefix_take_iff.2 ⟨hbase, hle⟩

variable {base : Context} {s s' : Guarded}

theorem Step.above (hstep : Step s s') (hs : Above base s) : Above base s' := by
  obtain ⟨hcwds, hparents, hcwdsHeight, hparentsHeight⟩ := hs
  cases hstep with
  | make c guards => exact ⟨hcwds, hparents, by simpa using hcwdsHeight, by simpa using hparentsHeight⟩
  | pushCwd c cwd before after g =>
    refine ⟨hcwds.trans (List.prefix_append _ _), hparents, ?_, by simpa [Context.pushCwd] using hparentsHeight⟩
    simp [Context.pushCwd] at hcwdsHeight ⊢
    omega
  | pushParent c id before after g =>
    refine ⟨hcwds, hparents.trans (List.prefix_append _ _), by simpa [Context.pushParent] using hcwdsHeight, ?_⟩
    simp [Context.pushParent] at hparentsHeight ⊢
    omega
  | drop c before after g =>
    have hcwdsHeight' : c.cwds.length =
        base.cwds.length + (g.cwds + ((before ++ after).map Guard.cwds).sum) := by
      simp at hcwdsHeight ⊢
      omega
    have hparentsHeight' : c.parents.length =
        base.parents.length + (g.parents + ((before ++ after).map Guard.parents).sum) := by
      simp at hparentsHeight ⊢
      omega
    refine ⟨prefix_take hcwds hcwdsHeight', prefix_take hparents hparentsHeight', ?_, ?_⟩
    · simp only [Context.pop, List.length_take]
      omega
    · simp only [Context.pop, List.length_take]
      omega

theorem Steps.above (hsteps : Steps s s') (hs : Above base s) : Above base s' := by
  induction hsteps with
  | refl => exact hs
  | tail _ hstep ih => exact hstep.above ih

/-- Once all guards are dropped the stacks are what they were. -/
theorem Above.restored {c : Context} (hs : Above base ⟨c, []⟩) : c = base := by
  obtain ⟨hcwds, hparents, hcwdsHeight, hparentsHeight⟩ := hs
  have hcwds' := hcwds.eq_of_length (by simpa using hcwdsHeight.symm)
  have hparents' := hparents.eq_of_length (by simpa using hparentsHeight.symm)
  cases c
  cases base
  simp_all

/-! ### What a loader does to guards -/

/-- A loader that pushes entries has made a guard and pushed them for it. -/
theorem steps_enter (loader : Loader) (cwds : List (Option String)) (parents : List String) (guards : List Guard) :
    Steps ⟨loader.context, guards⟩
      ⟨(loader.enter cwds parents).context, ⟨cwds.length, parents.length⟩ :: guards⟩ := by
  have hcwds (c : Context) (g : Guard) : Steps ⟨c, g :: guards⟩
      ⟨cwds.foldl Context.pushCwd c, { g with cwds := g.cwds + cwds.length } :: guards⟩ := by
    induction cwds generalizing c g with
    | nil => exact .refl
    | cons cwd cwds ih =>
      have hstep := Step.pushCwd c cwd [] guards g
      have hrest := ih (c.pushCwd cwd) { g with cwds := g.cwds + 1 }
      rw [Nat.add_assoc, Nat.add_comm 1] at hrest
      exact .head hstep hrest
  have hparents (c : Context) (g : Guard) : Steps ⟨c, g :: guards⟩
      ⟨parents.foldl Context.pushParent c, { g with parents := g.parents + parents.length } :: guards⟩ := by
    induction parents generalizing c g with
    | nil => exact .refl
    | cons id parents ih =>
      have hstep := Step.pushParent c id [] guards g
      have hrest := ih (c.pushParent id) { g with parents := g.parents + 1 }
      rw [Nat.add_assoc, Nat.add_comm 1] at hrest
      exact .head hstep hrest
  have hpushed := (hcwds loader.context {}).trans (hparents _ _)
  rw [Nat.zero_add, Nat.zero_add] at hpushed
  exact .head (.make loader.context guards) hpushed

/-- A loader that takes off as many entries as a guard has pushed drops the guard. -/
theorem step_leave (loader : Loader) (before after : List Guard) (g : Guard) :
    Step ⟨loader.context, before ++ g :: after⟩ ⟨(loader.leave g.cwds g.parents).context, before ++ after⟩ :=
  .drop loader.context before after g

end Guarded

/-! ### What is done at once -/

namespace Host

variable {h h' : Host}

/-- The loaders that there are keep their stacks. -/
def SameStacks (h h' : Host) : Prop :=
  h.loaders.length ≤ h'.loaders.length ∧ ∀ l < h.loaders.length, (h'.loader l).context = (h.loader l).context

instance : IsPreorder Host SameStacks where
  refl h := ⟨Nat.le_refl _, fun _ _ => rfl⟩
  trans a b c hab hbc := by
    refine ⟨Nat.le_trans hab.1 hbc.1, fun l hl => ?_⟩
    rw [hbc.2 l (Nat.lt_of_lt_of_le hl hab.1), hab.2 l hl]

theorem length_onLoader (h : Host) (l : Nat) (f : Loader → Loader) :
    (h.onLoader l f).loaders.length = h.loaders.length := by simp [onLoader]

theorem sameStacks_onLoader (h : Host) (l : Nat) {f : Loader → Loader}
    (hf : ∀ loader, (f loader).context = loader.context) : SameStacks h (h.onLoader l f) := by
  refine ⟨Nat.le_of_eq (length_onLoader h l f).symm, fun m hm => ?_⟩
  by_cases hml : m = l
  · subst hml
    rw [loader_onLoader hm, hf]
  · rw [loader_onLoader_ne hml]

theorem Beside.sameStacks (hb : Beside h h') : SameStacks h h' := by
  refine ⟨by rw [hb.loaders], fun l _ => ?_⟩
  rw [loader, loader, hb.loaders]

theorem sameStacks_evicting (l : Nat) {act : Loader → List String × Loader}
    (hact : ∀ loader, (act loader).2.context = loader.context) (h : Host) : SameStacks h (evicting l act h) :=
  trans_of SameStacks (sameStacks_onLoader h l hact) (beside_evicting l act h).sameStacks

/-- What is done at once beside the stacks keeps them. -/
theorem sameStacks_act (m : Move) (hm : m.Quiet) (h : Host) : SameStacks h (m.act h) := by
  have hfill (l : Nat) (id : String) (slot : ScriptSlot) (h : Host) : SameStacks h (h.fill l id slot) :=
    sameStacks_onLoader h l fun _ => rfl
  have hfillImport (l : Nat) (id : String) (interop : Bool) (slot : Option ImportSlot) (h : Host) :
      SameStacks h (h.fillImport l id interop slot) := sameStacks_onLoader h l fun _ => rfl
  cases m with
  | aside f hf => exact (hf h).sameStacks
  | around l f hf => exact sameStacks_onLoader h l hm
  | add app stream held =>
    refine ⟨by simp [Move.act, addLoader], fun l hl => ?_⟩
    simp [Move.act, addLoader, loader, List.getElem?_append_left hl]
  | claim l resolved =>
    show SameStacks h (claim l resolved h).2
    obtain ⟨_, -, he⟩ | ⟨-, _, he⟩ | ⟨-, he⟩ := claim_cases l resolved h <;> rw [he]
    · exact refl_of SameStacks h
    · exact hfill _ _ _ h
    · exact trans_of SameStacks (Move.beside_newModule h).sameStacks (hfill _ _ _ _)
  | fail l id object e =>
    show SameStacks h (fail l id object e h)
    obtain ⟨-, he⟩ | ⟨-, he⟩ := fail_cases l id object e h <;> rw [he]
    · exact hfill _ _ _ h
    · exact refl_of SameStacks h
  | claimImport l resolved interop =>
    show SameStacks h (claimImport l resolved interop h).2
    obtain ⟨_, -, he⟩ | ⟨-, _, he⟩ | ⟨-, he⟩ := claimImport_cases l resolved interop h <;> rw [he]
    · exact refl_of SameStacks h
    · exact hfillImport _ _ _ _ h
    · exact trans_of SameStacks (Move.beside_number h).sameStacks (hfillImport _ _ _ _ _)
  | forgetImport l id interop work =>
    show SameStacks h (forgetImport l id interop work h)
    obtain ⟨-, he⟩ | ⟨-, he⟩ := forgetImport_cases l id interop work h <;> rw [he]
    · exact hfillImport _ _ _ _ h
    · exact refl_of SameStacks h
  | settle l id resolved context =>
    have hevicting : SameStacks h (evicting l (·.settled id resolved) h) := by
      refine sameStacks_evicting l (fun loader => ?_) h
      obtain ⟨graph, hg⟩ := loader.settled_rest id resolved
      rw [hg]
    show SameStacks h (settle l id resolved context h)
    rw [settle_eq]
    split <;> exact hevicting
  | evict l id => exact sameStacks_evicting l (fun _ => rfl) h
  | clear l => exact sameStacks_evicting l (fun _ => rfl) h

instance : Allows SameStacks where
  quiet := sameStacks_act
  around {h h'} l cwds parents hr := by
    obtain ⟨hlength, hsame⟩ := hr
    rw [length_onLoader] at hlength hsame
    refine ⟨by rwa [length_onLoader], fun m hm => ?_⟩
    by_cases hml : m = l
    · subst hml
      have hentered := hsame m hm
      rw [loader_onLoader hm] at hentered
      rw [loader_onLoader (Nat.lt_of_lt_of_le hm hlength), Loader.leave_context hentered]
    · have hother := hsame m hm
      rw [loader_onLoader_ne hml] at hother
      rw [loader_onLoader_ne hml, hother]

/-! ### Imports that overlap -/

/-- The stacks of a loader are what guards have made of them, of which these are not dropped yet. -/
def Stacked (l : Nat) (base : Context) (h : Host) (out : Multiset Guard) : Prop :=
  l < h.loaders.length ∧
    ∃ guards : List Guard, ↑guards = out ∧ Guarded.Steps ⟨base, []⟩ ⟨(h.loader l).context, guards⟩

variable {l : Nat} {base : Context}

theorem SameStacks.keeps (hs : SameStacks h h') : Conserves (Stacked l base) h h' := by
  rintro out ⟨hl, guards, hout, hsteps⟩
  refine ⟨Nat.lt_of_lt_of_le hl hs.1, guards, hout, ?_⟩
  rwa [hs.2 l hl]

theorem stacked_enter (cwds : List (Option String)) (parents : List String) {out : Multiset Guard}
    (hs : Stacked l base h out) :
    Stacked l base (h.onLoader l (·.enter cwds parents)) ({⟨cwds.length, parents.length⟩} + out) := by
  obtain ⟨hl, guards, rfl, hsteps⟩ := hs
  refine ⟨by rwa [length_onLoader], ⟨cwds.length, parents.length⟩ :: guards, rfl, ?_⟩
  rw [loader_onLoader hl]
  exact hsteps.trans (Guarded.steps_enter (h.loader l) cwds parents guards)

theorem stacked_leave (g : Guard) {out : Multiset Guard} (hs : Stacked l base h ({g} + out)) :
    Stacked l base (h.onLoader l (·.leave g.cwds g.parents)) out := by
  obtain ⟨hl, guards, hguards, hsteps⟩ := hs
  have hg : g ∈ guards := by
    have hmem : g ∈ ({g} + out : Multiset Guard) := by simp
    rwa [← hguards] at hmem
  obtain ⟨before, after, rfl⟩ := List.append_of_mem hg
  refine ⟨by rwa [length_onLoader], before ++ after, ?_, ?_⟩
  · have hcons : g ::ₘ (↑(before ++ after) : Multiset Guard) = g ::ₘ out := by
      rw [← Multiset.singleton_add g out, ← hguards, Multiset.cons_coe, Multiset.coe_eq_coe]
      exact List.perm_middle.symm
    exact (Multiset.cons_inj_right g).1 hcons
  · rw [loader_onLoader hl]
    exact hsteps.tail (Guarded.step_leave (h.loader l) before after g)

theorem restores_composes (m : Multiset Guard) :
    Composes SameStacks fun α (x : Async Host Work α) => x.Restores Work.Any (Stacked l base) m where
  pure := Async.restores_pure
  bind := Async.restores_bind
  view := Async.restores_view
  step hf := Async.restores_step fun h => (hf h).keeps
  offload hjob := Async.restores_offload fun h => (hjob h).keeps
  share id _ := Async.restores_share id trivial
  await := Async.restores_await
  spawn id _ := Async.restores_spawn id trivial
  join := Async.restores_join
  sleep := Async.restores_sleep
  rest := Async.restores_rest
  consult := Async.restores_consult

/-- Whatever is done later drops the guards that it makes. -/
theorem restores_pervades :
    Pervades SameStacks fun α (x : Async Host Work α) => ∀ m, x.Restores Work.Any (Stacked l base) m where
  pure a m := (restores_composes m).pure a
  bind hx hf m := (restores_composes m).bind (hx m) fun a => hf a m
  view f m := (restores_composes m).view f
  step hf m := (restores_composes m).step hf
  offload hjob m := (restores_composes m).offload hjob
  share id work _ m := (restores_composes m).share id work
  await id m := (restores_composes m).await id
  spawn id work _ m := (restores_composes m).spawn id work
  join id limit m := (restores_composes m).join id limit
  sleep nanos m := (restores_composes m).sleep nanos
  rest m := (restores_composes m).rest
  consult m := (restores_composes m).consult
  all hxs m := Async.restores_all fun x hx => hxs x hx 0
  act {α x} hx m := by
    refine Async.restores_act (fun h a h' hr => ?_) (.inr fun h => ?_)
    · obtain ⟨_, _, hr', hsame⟩ := hx h
      cases hr.symm.trans hr'
      exact hsame.keeps
    · obtain ⟨_, _, hr', -⟩ := hx h
      rw [hr']
      rfl
  within k cwds parents x hx m := by
    by_cases hk : k = l
    · subst hk
      exact Async.restores_bracket (fun h out => stacked_enter cwds parents)
        (fun h out => stacked_leave ⟨cwds.length, parents.length⟩) (hx _)
    · -- entries on the stacks of another loader
      have hother (f : Loader → Loader) (h : Host) : Conserves (Stacked l base) h (h.onLoader k f) := by
        rintro out ⟨hl, hstacked⟩
        refine ⟨by rwa [length_onLoader], ?_⟩
        rwa [loader_onLoader_ne (Ne.symm hk)]
      refine Async.restores_bracket (d := 0) (fun h out hs => ?_) (fun h out hs => ?_) (hx _)
      · rw [zero_add]
        exact hother _ h out hs
      · rw [zero_add] at hs
        exact hother _ h out hs

theorem plan_restores {ev : Evaluator} (hev : ev.Nests) :
    (plan ev).Restores Work.Any (Stacked l base) (fun _ => True) fun _ => 0 where
  perform id work _ h := by
    refine Async.holds_fiber ?_ h
    by_cases hwork : ∃ source, work = .evaluating source
    · obtain ⟨source, rfl⟩ := hwork
      have hnests := hev SameStacks inferInstance allows_heap _ fun specifier =>
        obeys_require hev.tame depthLimit source.loader specifier none
      have hcomposes : Composes SameStacks fun α (x : Async Host Work α) => x.Restores Work.Any (Stacked l base) 0 :=
        restores_composes 0
      have hmodule := hnests.2 _ hcomposes
        (fun x hx => Async.restores_act (fun h a h' hr => (hx h a h' hr).keeps) (.inl rfl)) source
      exact Async.restores_bind hmodule fun _ => restores_pervades.change (allows_tell id _) 0
    · exact restores_pervades.perform ev id (fun source he => hwork ⟨source, he⟩) 0
  steady _ _ hno := absurd trivial hno
  free _ _ := rfl
  collect h out hs := by
    rw [owed_zero, zero_add]
    exact (Beside.allowed ⟨rfl, Nat.le_refl _, Nat.le_refl _⟩ : SameStacks h _).keeps out hs

/-- Every load at once leaves the stacks of all loaders as it found them, whatever comes of it and however deep it is
nested.  Guards that are made, push entries and are dropped in any order leave alone what was on the stacks before all of
them, have as many entries on top of it as they have pushed, and leave nothing else once all are dropped.  And whatever
imports and other work overlap, in any order, they are such guards to each loader, with none left once all have ended. -/
theorem stacks_restored {ev : Evaluator} (hev : ev.Nests) :
    (∀ depth l id cwd h r h', (require ev depth l id cwd).exec h = some (r, h') →
      ∀ m < h.loaders.length, (h'.loader m).context = (h.loader m).context) ∧
    (∀ base s, Guarded.Steps ⟨base, []⟩ s →
      base.cwds <+: s.context.cwds ∧ base.parents <+: s.context.parents ∧
      s.context.cwds.length = base.cwds.length + (s.guards.map Guard.cwds).sum ∧
      s.context.parents.length = base.parents.length + (s.guards.map Guard.parents).sum ∧
      (s.guards = [] → s.context = base)) ∧
    (∀ h works c, Weave.Steps (plan ev) ⟨h, Weave.begin (plan ev) works⟩ c → ∀ l < h.loaders.length,
      ∃ guards, Guarded.Steps ⟨(h.loader l).context, []⟩ ⟨(c.state.loader l).context, guards⟩ ∧
        (c.Finished → guards = [])) := by
  refine ⟨?_, ?_, ?_⟩
  · intro depth l id cwd h r h' hr
    exact (obeys_require (R := SameStacks) hev.tame depth l id cwd h r h' hr).2
  · intro base s hsteps
    have habove := hsteps.above (Guarded.above_self base)
    refine ⟨habove.cwds, habove.parents, habove.cwdsHeight, habove.parentsHeight, fun hnone => ?_⟩
    obtain ⟨context, guards⟩ := s
    cases hnone
    exact habove.restored
  · intro h works c hsteps l hl
    have hfirst : Stacked l (h.loader l).context h 0 := ⟨hl, [], rfl, .refl⟩
    have hplan : (plan ev).Restores Work.Any (Stacked l (h.loader l).context) (fun _ => True) fun _ => 0 :=
      plan_restores hev
    have hholds := hsteps.holds hplan (Weave.holds_begin hplan (by rwa [owed_zero]))
    by_cases hended : c.Finished
    · obtain ⟨-, guards, hnone, hguards⟩ := hholds.ended fun t ht _ => hended t ht
      exact ⟨guards, hguards, fun _ => (Multiset.coe_eq_zero guards).1 hnone⟩
    · obtain ⟨held, -, -, -, guards, -, hguards⟩ := hholds
      exact ⟨guards, hguards, fun hf => absurd hf hended⟩

/-- A file loads another one that loads a module there is none of. -/
def unmet : Parts where
  vault := .memory { texts := [("a.js", "require('./lib/b.js')"), ("lib/b.js", "require('missing')")] }

/-- A load that fails two modules deep, for a module that is being evaluated. -/
theorem stacks_restored_unmet :
    ∃ h h₀ e h', build unmet = .ok h ∧
      h₀ = (h.absorb h.files.rebuild).onLoader 0 (·.enter [some "src"] ["src/x.js"]) ∧
      (require Scan.evaluator depthLimit 0 "../a.js" none).exec h₀ = some (.error e, h') ∧
      h'.scripts = 2 ∧ (h₀.loader 0).context = ⟨[some "src"], ["src/x.js"]⟩ ∧
      (h'.loader 0).context = (h₀.loader 0).context := by
  have hrun : ((build unmet).toOption.bind fun h =>
      let h₀ := (h.absorb h.files.rebuild).onLoader 0 (·.enter [some "src"] ["src/x.js"])
      ((require Scan.evaluator depthLimit 0 "../a.js" none).exec h₀).filter fun r =>
        !r.1.isOk && 0 < h₀.loaders.length && r.2.scripts = 2 &&
          (h₀.loader 0).context = ⟨[some "src"], ["src/x.js"]⟩).isSome = true := by
    decide +kernel
  obtain ⟨⟨r, h'⟩, hx⟩ := Option.isSome_iff_exists.1 hrun
  obtain ⟨h, hb, hx⟩ := Option.bind_eq_some_iff.1 hx
  obtain ⟨hexec, htest⟩ := Option.filter_eq_some_iff.1 hx
  simp only [Bool.and_eq_true, decide_eq_true_eq] at htest
  obtain ⟨⟨⟨hfailed, hl⟩, hscripts⟩, hcontext⟩ := htest
  cases r with
  | ok v => cases hfailed
  | error e =>
    have hrestored := (stacks_restored scan_nests).1 _ _ _ _ _ _ _ hexec 0 hl
    exact ⟨h, _, e, h', eq_ok_of_toOption hb, rfl, hexec, hscripts, hcontext, hrestored⟩

end Host

end ScriptVault

import ScriptVault.Proofs.Host.Current
import ScriptVault.Proofs.Host.Outcome

/-!
# Repeat — a module that was loaded is served

What a load leaves in the slot of a module is served when the module is asked for again, and no script is run, as
long as the specifier stands for the module and nothing that was loaded for it evicted it.  A module that is looked
for under a name that stood for another one until then is evicted, even while it is being run; then its slot is empty
after the load, and what it asked for is forgotten.
-/

namespace ScriptVault

theorem Loader.settled_aliased (loader : Loader) (raw : String) (resolved : Resolved) :
    (loader.settled raw resolved).2.graph.aliased = loader.graph.aliased.put raw resolved.id := by
  have hassign : (loader.assign raw resolved.id).2.graph.aliased = loader.graph.aliased.put raw resolved.id := by
    by_cases h : loader.Repoints raw resolved.id
    · rw [assign_eq_of_repoints h]
      obtain ⟨ids, hids⟩ := (loader.graph.assign raw resolved.id).2.exists_evicted_invalidate raw
      dsimp only
      rw [hids, Graph.evicted_aliased, Graph.assign_aliased]
    · rw [assign_eq_of_steady h]
      exact Graph.assign_aliased ..
  unfold settled
  dsimp only
  split
  · exact hassign
  · exact hassign

theorem Loader.depend_aliased (loader : Loader) (context : Context) (raw : String) :
    (loader.depend context raw).graph.aliased = loader.graph.aliased := by
  unfold depend
  split <;> rfl

namespace Host

variable {l : Nat} {h h' : Host} {id : String} {cwd : Option String}

/-- A specifier stands for the module that it was found to mean. -/
theorem find_aliased (hk : h.Kept) (hl : l < h.loaders.length) {resolved : Resolved}
    (hr : (find l id).exec h = some (.ok resolved, h')) :
    (h'.loader l).graph.aliased = (h.loader l).graph.aliased.put id resolved.id := by
  rw [find_loader hk hl hr, Loader.settled_aliased, Loader.depend_aliased]

theorem find_aliased_of_error (hk : h.Kept) (hl : l < h.loaders.length) {e : Failure}
    (hr : (find l id).exec h = some (.error e, h')) :
    (h'.loader l).graph.aliased = (h.loader l).graph.aliased := by
  have same (ha : Asked (depend l (h.contextOf l) id h) h') :
      (h'.loader l).graph.aliased = (h.loader l).graph.aliased := by
    have : h'.loader l = (h.loader l).depend (h.contextOf l) id := by
      rw [loader, ha.loaders]
      exact loader_onLoader hl _
    rw [this, Loader.depend_aliased]
  cases finding_of_exec hk hr with
  | unknown ha _ => exact same ha
  | failed ha _ => exact same ha

theorem fill_aliased (hl : l < h.loaders.length) (i : String) (slot : ScriptSlot) :
    ((h.fill l i slot).loader l).graph.aliased = (h.loader l).graph.aliased := by
  rw [fill, loader_onLoader hl]
  rfl

theorem claim_aliased (hl : l < h.loaders.length) (resolved : Resolved) :
    ((claim l resolved h).2.loader l).graph.aliased = (h.loader l).graph.aliased := by
  unfold claim
  split
  · rfl
  · split
    · exact fill_aliased hl ..
    · exact fill_aliased (h := { h with heap := (newModule h.heap).2 }) hl ..

theorem fail_aliased (hl : l < h.loaders.length) (i : String) (object : Nat) (e : Failure) :
    ((fail l i object e h).loader l).graph.aliased = (h.loader l).graph.aliased := by
  unfold fail
  split
  · split
    · exact fill_aliased hl ..
    · rfl
  · rfl

/-- To look for a module runs no script and makes no object. -/
theorem find_rest (hk : h.Kept) {r : Except Failure Resolved} (hr : (find l id).exec h = some (r, h')) :
    h'.scripts = h.scripts ∧ h'.heap = h.heap := by
  have asked {g : Host} (ha : Asked (depend l (h.contextOf l) id h) g) :
      g.scripts = h.scripts ∧ g.heap = h.heap := by
    obtain ⟨_, _, _, _, rfl⟩ := ha.rest
    exact ⟨rfl, rfl⟩
  cases finding_of_exec hk hr with
  | unknown ha _ => exact asked ha
  | failed ha _ => exact asked ha
  | @settled resolved g ha _ _ =>
    obtain ⟨_, _, _, _, he⟩ := evicting_rest l (·.settled id resolved) g
    have hevict : (evicting l (·.settled id resolved) g).scripts = g.scripts ∧
        (evicting l (·.settled id resolved) g).heap = g.heap := by rw [he]; exact ⟨rfl, rfl⟩
    rw [settle_eq]
    split
    · exact ⟨hevict.1.trans (asked ha).1, hevict.2.trans (asked ha).2⟩
    · exact ⟨hevict.1.trans (asked ha).1, hevict.2.trans (asked ha).2⟩

/-- What a call finds is what the world answers. -/
theorem answer_of_finds (hk : h.Kept) {resolved : Resolved} (hf : Finds l h id cwd resolved h') :
    (h.entered l cwd).world.answer id ((h.entered l cwd).contextOf l).cwd = .ok (some resolved.anew) := by
  cases finding_of_exec ((Loads.entered l cwd h).kept hk) hf with
  | settled _ hanswer _ => exact hanswer

/-- After a load nothing is being run, as before. -/
theorem AtRest.require (h0 : AtRest l h) {depth : Nat} {r : Except Failure Value}
    (hr : (Host.require Scan.evaluator depth l id cwd).exec h = some (r, h')) : AtRest l h' where
  kept := (returns_require depth id cwd h0.kept h0.there hr).kept h0.kept
  there := by rw [(returns_require depth id cwd h0.kept h0.there hr).count]; exact h0.there
  idle := by rw [(returns_require depth id cwd h0.kept h0.there hr).context]; exact h0.idle

/-- A module that was loaded and has its slot is served from it when it is asked for again. -/
theorem require_again (h0 : AtRest l h) {resolved : Resolved} {h₁ : Host} (hf : Finds l h id cwd resolved h₁)
    {depth : Nat} {r : Except Failure Value} (hr : (require Scan.evaluator depth l id cwd).exec h = some (r, h'))
    {slot : ScriptSlot} (hslot : h'.slotOf l resolved.id = some slot)
    (hstands : ¬(h'.loader l).Repoints id resolved.id) (depth' : Nat) :
    ∃ h'', (require Scan.evaluator (depth' + 1) l id cwd).exec h' = some (h'.valueOf slot, h'') ∧
      h''.scripts = h'.scripts := by
  have hback := returns_require depth id cwd h0.kept h0.there hr
  have h0' := h0.require hr
  have hin := Loads.entered l cwd h
  have hin' := Loads.entered l cwd h'
  have hl : l < (h.entered l cwd).loaders.length := by rw [hin.count]; exact h0.there
  have hl' : l < (h'.entered l cwd).loaders.length := by rw [hin'.count]; exact h0'.there
  have hk := hin.kept h0.kept
  have hk' := hin'.kept h0'.kept
  have hworld : (h'.entered l cwd).world = (h.entered l cwd).world := by rw [hin'.world, hback.world, hin.world]
  have hcontext : (h'.entered l cwd).contextOf l = (h.entered l cwd).contextOf l := by
    have := hback.context
    unfold contextOf at this
    unfold contextOf entered
    rw [loader_onLoader h0'.there, loader_onLoader h0.there, Loader.enter_context, Loader.enter_context, this]
  -- the same module is found again, and can be used again
  obtain ⟨found, h₂, hf', hfinding⟩ := ends_find hk' l id
  have hanswer := answer_of_finds h0.kept hf
  rw [← hworld, ← hcontext] at hanswer
  obtain ⟨again, rfl⟩ : ∃ again, found = .ok again := by
    cases hfinding with
    | unknown _ hnone => cases hnone.symm.trans hanswer
    | failed _ herror => cases herror.symm.trans hanswer
    | @settled again => exact ⟨again, rfl⟩
  have hid : again.id = resolved.id := by
    have hagain := answer_of_finds h0'.kept hf'
    have hsame : again.anew = resolved.anew := Option.some.inj (Except.ok.inj (hagain.symm.trans hanswer))
    exact (Resolved.mk.inj hsame).1
  have hcache : again.cache = true := by
    obtain ⟨_, _, hf'', hcurrent⟩ := current_after_find hr
    cases hf.symm.trans hf''
    exact cache_of_find_again hk hf hk' hworld hcontext (hcurrent.trans (StaysCurrent.of_files rfl)) hf'
  have hgraph : ((h'.entered l cwd).loader l).graph = (h'.loader l).graph :=
    graph_onLoader (f := (·.enter (cwd.toList.map some) [])) h0'.there fun _ => rfl
  have hsteady : ¬((h'.entered l cwd).loader l).Repoints id again.id := by
    unfold Loader.Repoints at hstands ⊢
    rwa [hgraph, hid]
  have hslot' : h₂.slotOf l again.id = some slot := by
    rw [find_slotOf_of_steady hk' hl' hf' hsteady hcache, hid, ← hslot]
    exact enter_slotOf ..
  obtain ⟨hscripts, hheap⟩ := find_rest hk' hf'
  refine ⟨h₂.onLoader l (·.leave cwd.toList.length 0), ?_, hscripts⟩
  rw [exec_require, hf', Option.bind_some, Action.andThen_ok, exec_serve_slot (claim_of_slot hslot')]
  have hvalue : h₂.valueOf slot = h'.valueOf slot := by
    cases slot with
    | value v => rfl
    | failed e => rfl
    | module object => exact congrArg (fun heap : Heap => Except.ok (heap.get object (.text "exports"))) hheap
  rw [hvalue]
  rfl

/-! ### What a load leaves -/

/-- No call that is made while a module is loaded finds another module than its specifier stood for, or one that must
not be used again. -/
def Calm (l : Nat) (h : Host) (id : String) (cwd : Option String) : Prop :=
  ∀ running h₁ s d resolved h₂, Pending l h id cwd running h₁ s d → running ≠ [] → Finds l h₁ s d resolved h₂ →
    ¬(h₁.loader l).Repoints s resolved.id ∧ resolved.cache = true

theorem repoints_entered (hl : l < h.loaders.length) (d : Option String) (s i : String) :
    ((h.entered l d).loader l).Repoints s i ↔ (h.loader l).Repoints s i := by
  unfold Loader.Repoints
  rw [entered, graph_onLoader (f := (·.enter (d.toList.map some) [])) hl fun _ => rfl]

/-- Where no specifier is repointed no module is evicted. -/
theorem Calm.neverEvicts (h0 : AtRest l h) (hcalm : Calm l h id cwd) (i : String) : NeverEvicts l h id cwd i := by
  intro running h₁ s d resolved h₂ hp hinner hf hne
  obtain ⟨hnot, hcache⟩ := hcalm _ _ _ _ _ _ hp hinner hf
  have hloads := hp.loads h0.kept h0.there
  have hin := Loads.entered l d h₁
  have hl : l < h₁.loaders.length := by rw [hloads.count]; exact h0.there
  rw [find_slotOf_of_steady (hin.kept (hloads.kept h0.kept)) (by rw [hin.count]; exact hl) hf
    (by rwa [repoints_entered hl]) hcache]
  rwa [entered, enter_slotOf]

/-- Where no specifier is repointed each one stands for what it stood for. -/
theorem Calm.inside (h0 : AtRest l h) (hcalm : Calm l h id cwd) (s i : String) :
    Inside l h id cwd fun g => (g.loader l).graph.aliased.at? s = some i where
  congr g g' hg hs := by rw [hg]; exact hs
  found running g s' d r g' hp hinner hr hs := by
    have hloads := hp.loads h0.kept h0.there
    have hin := Loads.entered l d g
    have hk := hin.kept (hloads.kept h0.kept)
    have hl : l < g.loaders.length := by rw [hloads.count]; exact h0.there
    have hl' : l < (g.entered l d).loaders.length := by rw [hin.count]; exact hl
    cases r with
    | error e => rw [find_aliased_of_error hk hl' hr]; exact hs
    | ok resolved =>
      rw [find_aliased hk hl' hr]
      by_cases he : s' = s
      · subst he
        have hnot := (hcalm _ _ _ _ _ _ hp hinner hr).1
        rw [← repoints_entered hl d] at hnot
        rw [Table.at?_put_same]
        by_contra hne
        exact hnot ⟨i, hs, fun hi => hne (by rw [hi])⟩
      · rwa [Table.at?_put_ne he]
  claimed g resolved x g' hl hc hs := by
    rw [← claim_aliased hl resolved] at hs
    rwa [hc] at hs
  failed g₀ resolved object g' e g hl _ _ hs := by
    rw [fail_aliased hl]
    exact hs

/-- Where no specifier is repointed the one that was loaded stands for its module. -/
theorem Calm.stands (h0 : AtRest l h) (hcalm : Calm l h id cwd) {resolved : Resolved} {h₁ : Host}
    (hf : Finds l h id cwd resolved h₁) {depth : Nat} {r : Except Failure Value}
    (hr : (require Scan.evaluator depth l id cwd).exec h = some (r, h')) :
    ¬(h'.loader l).Repoints id resolved.id := by
  obtain ⟨_, _, hf', hafter⟩ := (hcalm.inside h0 id resolved.id).after_find h0 depth Pending.root hr
  cases hf.symm.trans hf'
  have hin := Loads.entered l cwd h
  have hstands := hafter (by
    rw [find_aliased (hin.kept h0.kept) (by rw [hin.count]; exact h0.there) hf, Table.at?_put_same])
  rintro ⟨i, hi, hne⟩
  exact hne (Option.some.inj (hi.symm.trans hstands))

/-- A load that nothing evicts its module from leaves what came of it in the slot, with all that the module asked for
on record, and the same call again gives the same and runs no script while the specifier stands for the module.  If no
specifier is repointed on the way, all of this is so. -/
theorem require_leaves (h0 : AtRest l h) {resolved : Resolved} {h₁ : Host} (hf : Finds l h id cwd resolved h₁)
    {depth : Nat} {r : Except Failure Value} (hr : (require Scan.evaluator depth l id cwd).exec h = some (r, h')) :
    (NeverEvicts l h id cwd resolved.id →
      (∃ slot, h'.slotOf l resolved.id = some slot ∧ h'.valueOf slot = r) ∧
      (∀ object h₂ s d, Pending l h id cwd [(resolved.id, object)] h₂ s d →
        s ∈ Graph.namesAt (h'.loader l).graph.dependencies resolved.id) ∧
      (h₁.slotOf l resolved.id ≠ none → ∀ s ∈ Graph.namesAt (h.loader l).graph.dependencies resolved.id,
        s ∈ Graph.namesAt (h'.loader l).graph.dependencies resolved.id) ∧
      (¬(h'.loader l).Repoints id resolved.id → ∀ depth', ∃ h'',
        (require Scan.evaluator (depth' + 1) l id cwd).exec h' = some (r, h'') ∧ h''.scripts = h'.scripts)) ∧
    (Calm l h id cwd → NeverEvicts l h id cwd resolved.id ∧ ¬(h'.loader l).Repoints id resolved.id) := by
  refine ⟨fun hstays => ?_, fun hcalm => ⟨hcalm.neverEvicts h0 _, hcalm.stands h0 hf hr⟩⟩
  obtain ⟨slot, asked, hh, hv, hcalls, hbefore⟩ := hstays.outcome h0 hf hr
  refine ⟨⟨slot, hh.slot, hv⟩, fun object h₂ s d hp => hh.recorded s (hcalls object h₂ s d hp),
    fun hne s hs => hh.recorded s (hbefore hne s hs), fun hstands depth' => ?_⟩
  obtain ⟨h'', hagain, hscripts⟩ := require_again h0 hf hr hh.slot hstands depth'
  exact ⟨h'', by rw [hagain, hv], hscripts⟩

/-! ### Two vaults -/

/-- A module is found under a name that stood for no other one, and can be used again. -/
def steadyAt (l : Nat) (h : Host) (id : String) (cwd : Option String) : Bool :=
  match (find l id).exec (h.entered l cwd) with
  | some (.ok resolved, _) => ((h.loader l).graph.aliased.at? id).all (· == resolved.id) && resolved.cache
  | _ => true

theorem steady_of_steadyAt (hs : steadyAt l h id cwd = true) {resolved : Resolved}
    (hf : Finds l h id cwd resolved h') : ¬(h.loader l).Repoints id resolved.id ∧ resolved.cache = true := by
  unfold Finds at hf
  unfold steadyAt at hs
  rw [hf] at hs
  obtain ⟨hstands, hcache⟩ := Bool.and_eq_true_iff.1 hs
  refine ⟨?_, hcache⟩
  rintro ⟨i, hi, hne⟩
  rw [hi] at hstands
  exact hne (by simpa using hstands)

/-- What a call finds, what it gives, and what the same call gives afterwards, each with the host that is left. -/
def twice (depth l : Nat) (h : Host) (id : String) (cwd : Option String) :
    Option ((Resolved × Host) × (Except Failure Value × Host) × (Except Failure Value × Host)) :=
  match (find l id).exec (h.entered l cwd), (require Scan.evaluator depth l id cwd).exec h with
  | some (.ok resolved, h₁), some (r, h₂) =>
    ((require Scan.evaluator depth l id cwd).exec h₂).map fun again => ((resolved, h₁), (r, h₂), again)
  | _, _ => none

theorem of_twice {depth : Nat} {resolved : Resolved} {h₁ h₂ : Host} {r : Except Failure Value}
    {again : Except Failure Value × Host}
    (ht : twice depth l h id cwd = some ((resolved, h₁), (r, h₂), again)) :
    Finds l h id cwd resolved h₁ ∧ (require Scan.evaluator depth l id cwd).exec h = some (r, h₂) ∧
      (require Scan.evaluator depth l id cwd).exec h₂ = some again := by
  unfold twice at ht
  split at ht
  · next hf hr =>
    obtain ⟨x, hx, he⟩ := Option.map_eq_some_iff.1 ht
    cases he
    exact ⟨hf, hr, hx⟩
  · cases ht

/-- A file that loads another one. -/
def linked : Parts where
  vault := .memory { texts := [("main.js", "require('./part.js')"), ("part.js", "")] }

theorem require_leaves_linked :
    ∃ h r h', build linked = .ok h ∧
      (require Scan.evaluator 2 0 "main.js" none).exec (h.absorb h.files.rebuild) = some (r, h') ∧
      (∃ slot, h'.slotOf 0 "main.js" = some slot ∧ h'.valueOf slot = r) ∧
      "./part.js" ∈ Graph.namesAt (h'.loader 0).graph.dependencies "main.js" ∧
      ∃ h'', (require Scan.evaluator 1 0 "main.js" none).exec h' = some (r, h'') ∧ h''.scripts = h'.scripts := by
  have hrun : ((build linked).toOption.bind fun h =>
      let h₀ := h.absorb h.files.rebuild
      (twice 2 0 h₀ "main.js" none).bind fun found =>
        (descend 0 0 h₀ "main.js" none 0).filter fun (p, h₁, s) =>
          0 < h₀.loaders.length && (h₀.contextOf 0).parents.isEmpty && found.1.1.id == "main.js" &&
            p.1 == "main.js" && s == "./part.js" && callsOnce 0 h₀ "main.js" none && steadyAt 0 h₁ s none &&
            (descend 0 0 h₁ s none 0).isNone && callsOnce 0 h₁ s none).isSome = true := by
    decide +kernel
  obtain ⟨⟨⟨i, object⟩, h₁, s₁⟩, hx⟩ := Option.isSome_iff_exists.1 hrun
  obtain ⟨h, hb, hx⟩ := Option.bind_eq_some_iff.1 hx
  obtain ⟨⟨⟨resolved, h₂⟩, ⟨r, h'⟩, again⟩, htwice, hx⟩ := Option.bind_eq_some_iff.1 hx
  obtain ⟨hd, hx⟩ := Option.filter_eq_some_iff.1 hx
  simp only [Bool.and_eq_true, decide_eq_true_iff, List.isEmpty_iff, Option.isNone_iff_eq_none, beq_iff_eq] at hx
  obtain ⟨⟨⟨⟨⟨⟨⟨⟨hl, hidle⟩, hid⟩, hi⟩, hs₁⟩, hone⟩, hsteady⟩, hend⟩, hone₁⟩ := hx
  obtain ⟨hf, hr, -⟩ := of_twice htwice
  have hrest : AtRest 0 (h.absorb h.files.rebuild) := ⟨kept_of_build (eq_ok_of_toOption hb), hl, hidle⟩
  have calls {running h₃ s d} (hp : Pending 0 (h.absorb h.files.rebuild) "main.js" none running h₃ s d) :
      (running = [] ∧ h₃ = h.absorb h.files.rebuild ∧ s = "main.js" ∧ d = none) ∨
        (h₃ = h₁ ∧ s = s₁ ∧ d = none) := by
    induction hp with
    | root => exact Or.inl ⟨rfl, rfl, rfl, rfl⟩
    | nested _ hf hc hcalls hloads ih =>
      rcases ih with ⟨-, rfl, rfl, rfl⟩ | ⟨rfl, rfl, rfl⟩
      · cases (descend_of_callsOnce hone hf hc hcalls hloads).symm.trans hd
        exact Or.inr ⟨rfl, rfl, rfl⟩
      · cases (descend_of_callsOnce hone₁ hf hc hcalls hloads).symm.trans hend
  have hcalm : Calm 0 (h.absorb h.files.rebuild) "main.js" none := by
    intro running h₃ s d found h₄ hp hinner hf'
    rcases calls hp with ⟨hnil, -⟩ | ⟨rfl, rfl, rfl⟩
    · exact absurd hnil hinner
    · exact steady_of_steadyAt hsteady hf'
  obtain ⟨hleaves, hcalm'⟩ := require_leaves hrest hf hr
  obtain ⟨hstays, hstands⟩ := hcalm' hcalm
  obtain ⟨hslot, hasked, -, hagain⟩ := hleaves hstays
  rw [hid] at hslot hasked hagain hstands
  have hcall := Pending.root.descend hd
  rw [hi, hs₁] at hcall
  exact ⟨h, r, h', eq_ok_of_toOption hb, hr, hslot, hasked _ _ _ _ hcall, hagain hstands 0⟩

/-- The file `lib/q.js` names a file beside it as its caller is named. -/
def displaced : Parts where
  vault := .memory { texts := [("lib/q.js", "require('x.js')"), ("lib/x.js", ""), ("x.js", "require('./lib/q.js')")] }

/-- A module that is evicted while it is run leaves nothing, and is run again by the next call. -/
theorem leaves_nothing_displaced :
    ∃ h resolved h₁ v h₂ r h₃, build displaced = .ok h ∧ AtRest 0 (h.absorb h.files.rebuild) ∧
      Finds 0 (h.absorb h.files.rebuild) "x.js" none resolved h₁ ∧
      (require Scan.evaluator 3 0 "x.js" none).exec (h.absorb h.files.rebuild) = some (.ok v, h₂) ∧
      h₂.slotOf 0 resolved.id = none ∧ Graph.namesAt (h₂.loader 0).graph.dependencies resolved.id = [] ∧
      (require Scan.evaluator 3 0 "x.js" none).exec h₂ = some (r, h₃) ∧ h₂.scripts < h₃.scripts := by
  have hrun : ((build displaced).toOption.bind fun h =>
      (twice 3 0 (h.absorb h.files.rebuild) "x.js" none).filter fun (found, (r, h₂), (_, h₃)) =>
        0 < (h.absorb h.files.rebuild).loaders.length &&
          ((h.absorb h.files.rebuild).contextOf 0).parents.isEmpty && r.toOption.isSome &&
          (h₂.slotOf 0 found.1.id).isNone &&
          Graph.namesAt (h₂.loader 0).graph.dependencies found.1.id == [] &&
          h₂.scripts < h₃.scripts).isSome = true := by
    decide +kernel
  obtain ⟨⟨⟨resolved, h₁⟩, ⟨r, h₂⟩, again, h₃⟩, hx⟩ := Option.isSome_iff_exists.1 hrun
  obtain ⟨h, hb, hx⟩ := Option.bind_eq_some_iff.1 hx
  obtain ⟨htwice, hx⟩ := Option.filter_eq_some_iff.1 hx
  simp only [Bool.and_eq_true, decide_eq_true_iff, List.isEmpty_iff, Option.isNone_iff_eq_none, beq_iff_eq] at hx
  obtain ⟨⟨⟨⟨⟨hl, hidle⟩, hok⟩, hslot⟩, hasked⟩, hscripts⟩ := hx
  obtain ⟨hf, hr, hagain⟩ := of_twice htwice
  obtain ⟨v, hv⟩ := Option.isSome_iff_exists.1 hok
  rw [eq_ok_of_toOption hv] at hr
  exact ⟨h, resolved, h₁, v, h₂, again, h₃, eq_ok_of_toOption hb, ⟨kept_of_build (eq_ok_of_toOption hb), hl, hidle⟩,
    hf, hr, hslot, hasked, hagain, hscripts⟩

end Host

end ScriptVault

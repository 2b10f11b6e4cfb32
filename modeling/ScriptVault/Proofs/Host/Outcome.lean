import ScriptVault.Proofs.Host.Reentry

/-!
# Outcome — what a load leaves behind

A module that is run has a slot from then on, and what it asks for is recorded.  Both stay as long as nothing
that is loaded for it evicts it: then the slot holds what came of the run, and the record is whole.
-/

namespace ScriptVault

namespace Loader

variable {loader : Loader} {i : String}

theorem cache_of_slots {slot : ScriptSlot} (h : (loader.slots i).script = some slot) :
    loader.graph.cache.at? i ≠ none := by
  intro hnone
  rw [slots_eq, hnone] at h
  cases h

/-- A module that asks for something has it recorded, and no record gets lost. -/
theorem mem_depend {context : Context} {raw s : String}
    (hs : s ∈ Graph.namesAt loader.graph.dependencies i ∨ s = raw ∧ context.parent = some i) :
    s ∈ Graph.namesAt (loader.depend context raw).graph.dependencies i := by
  unfold depend
  cases hp : context.parent with
  | none =>
    rcases hs with hs | ⟨-, hi⟩
    · exact hs
    · rw [hp] at hi; cases hi
  | some parent =>
    refine Graph.mem_namesAt_addName.2 ?_
    rcases hs with hs | ⟨rfl, hi⟩
    · exact Or.inr hs
    · rw [hp] at hi
      exact Or.inl ⟨(Option.some.inj hi).symm, rfl⟩

/-- Where a specifier is let stand for a module, a module that keeps its slot keeps its record. -/
theorem mem_settled {raw s : String} {resolved : Resolved} {slot : ScriptSlot}
    (hslot : ((loader.settled raw resolved).2.slots i).script = some slot)
    (hs : s ∈ Graph.namesAt loader.graph.dependencies i) :
    s ∈ Graph.namesAt (loader.settled raw resolved).2.graph.dependencies i := by
  have hassign (hcache : (loader.assign raw resolved.id).2.graph.cache.at? i ≠ none) :
      s ∈ Graph.namesAt (loader.assign raw resolved.id).2.graph.dependencies i := by
    have hframe := (loader.graph.assign_frame raw resolved.id).2.1
    by_cases h : loader.Repoints raw resolved.id
    · rw [assign_eq_of_repoints h] at hcache ⊢
      obtain ⟨ids, hids⟩ := (loader.graph.assign raw resolved.id).2.exists_evicted_invalidate raw
      dsimp only at hcache ⊢
      rw [hids, Graph.evicted_cache_at?] at hcache
      rw [hids, Graph.mem_evicted_dependencies, hframe]
      exact ⟨fun hi => hcache (if_pos hi), hs⟩
    · rw [assign_eq_of_steady h]
      dsimp only
      rwa [hframe]
  have hcache := cache_of_slots hslot
  unfold settled at hcache ⊢
  dsimp only at hcache ⊢
  split at hcache
  · next hc => rw [if_pos hc]; exact hassign hcache
  · next hc =>
    rw [if_neg hc]
    refine hassign ?_
    by_cases hi : resolved.id = i
    · subst hi
      exact absurd (Table.at?_erase_same ..) hcache
    · rwa [drop, Table.at?_erase_ne hi] at hcache

end Loader

namespace Host

/-! ### A slot with its record -/

/-- The slot of a module holds something, and some specifiers are recorded as those that it asked for. -/
structure Holds (l : Nat) (i : String) (slot : ScriptSlot) (asked : List String) (h : Host) : Prop where
  /-- This is in the slot. -/
  slot : h.slotOf l i = some slot
  /-- These are recorded. -/
  recorded : ∀ s ∈ asked, s ∈ Graph.namesAt (h.loader l).graph.dependencies i

namespace Holds

variable {l : Nat} {i : String} {slot : ScriptSlot} {asked : List String} {h h' : Host}

/-- Both are told by what the loader knows of modules. -/
theorem congr (hh : Holds l i slot asked h) (hg : (h'.loader l).graph = (h.loader l).graph) :
    Holds l i slot asked h' := by
  refine ⟨?_, fun s hs => hg ▸ hh.recorded s hs⟩
  have hslots : (h'.loader l).slots i = (h.loader l).slots i := by unfold Loader.slots; rw [hg]
  rw [slotOf, hslots]
  exact hh.slot

theorem onLoader (hh : Holds l i slot asked h) (hl : l < h.loaders.length) {f : Loader → Loader}
    (hf : ∀ loader, (f loader).graph = loader.graph) : Holds l i slot asked (h.onLoader l f) :=
  hh.congr (by rw [loader_onLoader hl, hf])

/-- To fill the slot keeps the record. -/
theorem fill (hh : ∀ s ∈ asked, s ∈ Graph.namesAt (h.loader l).graph.dependencies i) (hl : l < h.loaders.length)
    (slot : ScriptSlot) : Holds l i slot asked (h.fill l i slot) where
  slot := by rw [fill_slotOf hl, if_pos rfl]
  recorded s hs := by
    unfold Host.fill
    rw [loader_onLoader hl]
    exact hh s hs

/-- To fill another slot keeps both. -/
theorem fill_ne (hh : Holds l i slot asked h) (hl : l < h.loaders.length) {id : String} (hid : i ≠ id)
    (other : ScriptSlot) : Holds l i slot asked (h.fill l id other) where
  slot := by rw [fill_slotOf hl, if_neg hid]; exact hh.slot
  recorded s hs := by
    unfold Host.fill
    rw [loader_onLoader hl]
    exact hh.recorded s hs

/-- To look for a module keeps both unless it empties the slot; and the innermost module that is being run has it
recorded that it asked. -/
theorem find (hh : Holds l i slot asked h) (hk : h.Kept) (hl : l < h.loaders.length) {id : String}
    {r : Except Failure Resolved} (hr : (Host.find l id).exec h = some (r, h'))
    (hkeeps : ∀ resolved, r = .ok resolved → h'.slotOf l i ≠ none) {asked' : List String}
    (hasked : ∀ s ∈ asked', s ∈ asked ∨ s = id ∧ (h.contextOf l).parent = some i) : Holds l i slot asked' h' := by
  have hdepend (s : String) (hs : s ∈ asked') :
      s ∈ Graph.namesAt ((h.loader l).depend (h.contextOf l) id).graph.dependencies i := by
    refine Loader.mem_depend ?_
    rcases hasked s hs with hs | hs
    · exact Or.inl (hh.recorded s hs)
    · exact Or.inr hs
  cases r with
  | error e =>
    refine ⟨by rw [find_slotOf_of_error hk hl hr]; exact hh.slot, fun s hs => ?_⟩
    have same (ha : Asked (Host.depend l (h.contextOf l) id h) h') :
        h'.loader l = (h.loader l).depend (h.contextOf l) id := by
      rw [loader, ha.loaders]
      exact loader_onLoader hl _
    cases finding_of_exec hk hr with
    | unknown ha _ => rw [same ha]; exact hdepend s hs
    | failed ha _ => rw [same ha]; exact hdepend s hs
  | ok resolved =>
    have hslot : h'.slotOf l i = some slot := by
      rw [← hh.slot]
      exact (find_slotOf hk hl hr i).resolve_left (hkeeps resolved rfl)
    refine ⟨hslot, fun s hs => ?_⟩
    unfold slotOf at hslot
    rw [find_loader hk hl hr] at hslot ⊢
    exact Loader.mem_settled hslot (hdepend s hs)

/-- To serve a module keeps both: its own slot is filled already. -/
theorem claim (hh : Holds l i slot asked h) (hl : l < h.loaders.length) {resolved : Resolved}
    {x : Except Failure Value ⊕ Nat} (hc : Host.claim l resolved h = (x, h')) :
    Holds l i slot asked h' ∧ ∀ object, x = .inr object → resolved.id ≠ i := by
  by_cases hid : resolved.id = i
  · subst hid
    rw [claim_of_slot hh.slot] at hc
    cases hc
    exact ⟨hh, fun _ he => nomatch he⟩
  · refine ⟨?_, fun _ _ => hid⟩
    unfold Host.claim at hc
    split at hc
    · cases hc; exact hh
    · split at hc
      · cases hc
        exact hh.fill_ne hl (Ne.symm hid) _
      · cases hc
        have hmade : Holds l i slot asked { h with heap := (newModule h.heap).2 } := hh.congr rfl
        exact hmade.fill_ne hl (Ne.symm hid) _

/-- The failure of another module keeps both. -/
theorem fail (hh : Holds l i slot asked h) (hl : l < h.loaders.length) {id : String} (hid : id ≠ i) (object : Nat)
    (e : Failure) : Holds l i slot asked (Host.fail l id object e h) := by
  unfold Host.fail
  split
  · split
    · exact hh.fill_ne hl (Ne.symm hid) _
    · exact hh
  · exact hh

theorem entered (hh : Holds l i slot asked h) (hl : l < h.loaders.length) (cwd : Option String) :
    Holds l i slot asked (h.entered l cwd) := hh.onLoader hl fun _ => rfl

theorem opened (hh : Holds l i slot asked h) (hl : l < h.loaders.length) (resolved : Resolved) :
    Holds l i slot asked (h.opened l resolved) :=
  (hh.onLoader hl (f := (·.enter [resolved.cwd] [resolved.id])) fun _ => rfl).congr rfl

theorem closed (hh : Holds l i slot asked h) (hl : l < h.loaders.length) : Holds l i slot asked (h.closed l) :=
  hh.onLoader hl fun _ => rfl

theorem leave (hh : Holds l i slot asked h) (hl : l < h.loaders.length) (cwds parents : Nat) :
    Holds l i slot asked (h.onLoader l (·.leave cwds parents)) := hh.onLoader hl fun _ => rfl

theorem close (hh : Holds l i slot asked h) (object : Nat) : Holds l i slot asked (Host.close object h).2 := by
  refine hh.congr ?_
  unfold Host.close
  split <;> rfl

theorem put (hh : Holds l i slot asked h) (exports : Value) (specifier : String) (v : Value) :
    Holds l i slot asked (h.put exports specifier v) := hh.congr rfl

end Holds

/-! ### What is loaded for a call -/

section

variable {l : Nat} {h₀ : Host} {id₀ : String} {cwd₀ : Option String}

/-- What every call keeps that is made by the modules that are run for a call. -/
structure Inside (l : Nat) (h₀ : Host) (id₀ : String) (cwd₀ : Option String) (Q : Host → Prop) : Prop where
  /-- It is told by what the loader knows of modules. -/
  congr : ∀ h h', (h'.loader l).graph = (h.loader l).graph → Q h → Q h'
  /-- To look for a module keeps it. -/
  found : ∀ running h s d r h', Pending l h₀ id₀ cwd₀ running h s d → running ≠ [] →
    (find l s).exec (h.entered l d) = some (r, h') → Q (h.entered l d) → Q h'
  /-- To look into its slot keeps it. -/
  claimed : ∀ h resolved x h', l < h.loaders.length → claim l resolved h = (x, h') → Q h → Q h'
  /-- The failure of a module that had no slot keeps it. -/
  failed : ∀ h resolved object h' e g, l < g.loaders.length → claim l resolved h = (.inr object, h') → Q h → Q g →
    Q (fail l resolved.id object e g)

theorem graph_onLoader {h : Host} (hl : l < h.loaders.length) {f : Loader → Loader}
    (hf : ∀ loader, (f loader).graph = loader.graph) : ((h.onLoader l f).loader l).graph = (h.loader l).graph := by
  rw [loader_onLoader hl, hf]

theorem graph_opened {h : Host} (hl : l < h.loaders.length) (resolved : Resolved) :
    ((h.opened l resolved).loader l).graph = (h.loader l).graph :=
  graph_onLoader (f := (·.enter [resolved.cwd] [resolved.id])) hl fun _ => rfl

theorem graph_close (object : Nat) (h : Host) : ((close object h).2.loader l).graph = (h.loader l).graph := by
  unfold close
  split <;> rfl

variable {Q : Host → Prop} (h0 : AtRest l h₀) (hq : Inside l h₀ id₀ cwd₀ Q)

include h0 hq

/-- Once a call has found its module, or none, the rest of the call keeps it. -/
theorem Inside.after_find (depth : Nat) {running : List (String × Nat)} {h h' : Host} {s : String} {d : Option String}
    {r : Except Failure Value} (hp : Pending l h₀ id₀ cwd₀ running h s d)
    (hr : (require Scan.evaluator depth l s d).exec h = some (r, h')) :
    ∃ x h₁, (find l s).exec (h.entered l d) = some (x, h₁) ∧ (Q h₁ → Q h') := by
  induction depth generalizing running h h' s d r with
  | zero => cases hr
  | succ depth ih =>
    have hloads := hp.loads h0.kept h0.there
    have hk := hloads.kept h0.kept
    have hl : l < h.loaders.length := by rw [hloads.count]; exact h0.there
    have hin := Loads.entered l d h
    have hl₁ : l < (h.entered l d).loaders.length := by rw [hin.count]; exact hl
    obtain ⟨h₁, hcourse, rfl⟩ := course_of_exec hr
    have back : l < h₁.loaders.length := by
      have := (returns_require (depth + 1) s d hk hl hr).count
      simp only [onLoader, List.length_set] at this
      rw [this]
      exact hl
    have leave : Q h₁ → Q (h₁.onLoader l (·.leave d.toList.length 0)) :=
      hq.congr _ _ (graph_onLoader back fun _ => rfl)
    have there {resolved : Resolved} {h₂ : Host} (hf : Finds l h s d resolved h₂) : l < h₂.loaders.length := by
      rw [(returns_find (hin.kept hk) hl₁ hf).count]; exact hl₁
    have loaded {resolved : Resolved} {h₂ : Host} {object : Nat} {h₃ : Host} {calls : List Script.Call}
        {x : Except Failure Unit} {h₄ : Host} (hf : Finds l h s d resolved h₂)
        (hc : claim l resolved h₂ = (.inr object, h₃)) (hcalls : h₃.world.calls resolved = .ok calls)
        (hloads : (loading depth l object h₃ calls).exec (h₃.opened l resolved) = some (x, h₄)) (hq₂ : Q h₂) :
        l < h₄.loaders.length ∧ Q h₄ := by
      have hopen := Loads.opened l resolved h₃
      have hback := returns_claimed hk hl hf hc
      have hl₃ : l < h₃.loaders.length := by rw [hback.count]; exact hl₁
      have hl₄ : l < (h₃.opened l resolved).loaders.length := by rw [hopen.count]; exact hl₃
      have hopened : Q (h₃.opened l resolved) :=
        hq.congr _ _ (graph_opened hl₃ resolved) (hq.claimed _ _ _ _ (there hf) hc hq₂)
      refine ⟨by rw [(returns_loading (hopen.kept (hback.kept (hin.kept hk))) hl₄ hloads).count]; exact hl₄, ?_⟩
      have nested {before call after h₅ y h₆} (hcalls' : calls = before ++ call :: after)
          (hmid : (loading depth l object h₃ before).exec (h₃.opened l resolved) = some (.ok (), h₅) ∧ Q h₅)
          (hy : (Host.require Scan.evaluator depth l call.specifier none).exec h₅ = some (y, h₆)) : Q h₆ := by
        have hp' := Pending.nested hp hf hc (hcalls' ▸ hcalls) hmid.1
        obtain ⟨z, h₇, hz, hrest⟩ := ih hp' hy
        have hl₅ : l < h₅.loaders.length := by rw [(hp'.loads h0.kept h0.there).count]; exact h0.there
        exact hrest (hq.found _ _ _ _ _ _ hp' (List.cons_ne_nil _ _) hz
          (hq.congr _ _ (graph_onLoader hl₅ fun _ => rfl) hmid.2))
      have put {h₅ : Host} (exports : Value) (s : String) (v : Value) : Q h₅ → Q (h₅.put exports s v) :=
        hq.congr _ _ rfl
      rcases loadAll_walk (fun before h₅ => (loading depth l object h₃ before).exec (h₃.opened l resolved) =
          some (.ok (), h₅) ∧ Q h₅)
        (fun _ _ _ _ _ _ hcalls' hmid hy => ⟨loading_concat hmid.1 hy, put _ _ _ (nested hcalls' hmid hy)⟩)
        ⟨rfl, hopened⟩ hloads with ⟨-, hmid⟩ | ⟨_, _, _, _, _, -, hcalls', hmid, hy⟩
      · exact hmid.2
      · exact nested hcalls' hmid hy
    have closed {h₂ : Host} (hl₂ : l < h₂.loaders.length) (hq₂ : Q h₂) : Q (h₂.closed l) :=
      hq.congr _ _ (graph_onLoader hl₂ fun _ => rfl) hq₂
    have still {h₂ : Host} (hl₂ : l < h₂.loaders.length) : l < (h₂.closed l).loaders.length := by
      simpa [Host.closed, onLoader] using hl₂
    cases hcourse with
    | unfound hx => exact ⟨_, _, hx, leave⟩
    | served hf hc => exact ⟨_, _, hf, fun hq₂ => leave (hq.claimed _ _ _ _ (there hf) hc hq₂)⟩
    | @unreadable resolved h₂ object h₃ e h₄ hf hc _ he =>
      refine ⟨_, _, hf, fun hq₂ => leave ?_⟩
      have hl₃ : l < h₃.loaders.length := by rw [(returns_claimed hk hl hf hc).count]; exact hl₁
      have hl₄ : l < (h₃.opened l resolved).loaders.length := by rw [(Loads.opened l resolved h₃).count]; exact hl₃
      have hq₃ := hq.claimed _ _ _ _ (there hf) hc hq₂
      rcases he with rfl | rfl
      · exact hq.failed _ _ _ _ _ _ hl₃ hc hq₂ hq₃
      · exact hq.failed _ _ _ _ _ _ (still hl₄) hc hq₂
          (closed hl₄ (hq.congr _ _ (graph_opened hl₃ resolved) hq₃))
    | finished hf hc hcalls hloads =>
      refine ⟨_, _, hf, fun hq₂ => leave ?_⟩
      obtain ⟨hl₄, hq₄⟩ := loaded hf hc hcalls hloads hq₂
      exact hq.congr _ _ (graph_close ..) (closed hl₄ hq₄)
    | broken hf hc hcalls hloads =>
      refine ⟨_, _, hf, fun hq₂ => leave ?_⟩
      obtain ⟨hl₄, hq₄⟩ := loaded hf hc hcalls hloads hq₂
      exact hq.failed _ _ _ _ _ _ (still hl₄) hc hq₂ (closed hl₄ hq₄)

/-- A nested call keeps it. -/
theorem Inside.load (depth : Nat) {running : List (String × Nat)} {h h' : Host} {s : String} {d : Option String}
    {r : Except Failure Value} (hp : Pending l h₀ id₀ cwd₀ running h s d) (hinner : running ≠ [])
    (hr : (require Scan.evaluator depth l s d).exec h = some (r, h')) (hh : Q h) : Q h' := by
  obtain ⟨x, h₁, hx, hrest⟩ := hq.after_find h0 depth hp hr
  have hl : l < h.loaders.length := by rw [(hp.loads h0.kept h0.there).count]; exact h0.there
  exact hrest (hq.found _ _ _ _ _ _ hp hinner hx (hq.congr _ _ (graph_onLoader hl fun _ => rfl) hh))

end

/-! ### What is left of a call -/

/-- Nothing that is loaded for a call evicts a module. -/
def NeverEvicts (l : Nat) (h : Host) (id : String) (cwd : Option String) (i : String) : Prop :=
  ∀ running h₁ s d resolved h₂, Pending l h id cwd running h₁ s d → running ≠ [] → Finds l h₁ s d resolved h₂ →
    h₁.slotOf l i ≠ none → h₂.slotOf l i ≠ none

section

variable {l : Nat} {h₀ : Host} {id₀ : String} {cwd₀ : Option String} {i : String} {slot : ScriptSlot}

theorem parent_entered {h : Host} (hl : l < h.loaders.length) (cwd : Option String) :
    ((h.entered l cwd).contextOf l).parent = (h.contextOf l).parent := by
  unfold contextOf entered
  rw [loader_onLoader hl, Loader.enter_context, List.append_nil]
  rfl

theorem parent_opened {h : Host} (hl : l < h.loaders.length) (resolved : Resolved) :
    ((h.opened l resolved).contextOf l).parent = some resolved.id := by
  show ((h.onLoader l (·.enter [resolved.cwd] [resolved.id])).contextOf l).parent = _
  unfold contextOf
  rw [loader_onLoader hl, Loader.enter_context]
  exact List.getLast?_concat

theorem NeverEvicts.inside (h0 : AtRest l h₀) (hstays : NeverEvicts l h₀ id₀ cwd₀ i) (asked : List String) :
    Inside l h₀ id₀ cwd₀ (Holds l i slot asked) where
  congr _ _ hg hh := hh.congr hg
  found running h s d r h' hp hinner hr hh := by
    have hloads := hp.loads h0.kept h0.there
    have hin := Loads.entered l d h
    have hl : l < (h.entered l d).loaders.length := by rw [hin.count, hloads.count]; exact h0.there
    refine hh.find (hin.kept (hloads.kept h0.kept)) hl hr (fun resolved he => ?_) fun _ hs => Or.inl hs
    subst he
    refine hstays _ _ _ _ _ _ hp hinner hr ?_
    rw [← enter_slotOf l h (d.toList.map some) [] i]
    exact hh.slot ▸ Option.some_ne_none _
  claimed h resolved x h' hl hc hh := (hh.claim hl hc).1
  failed h resolved object h' e g hl hc hh hg := by
    by_cases hid : resolved.id = i
    · subst hid
      rw [claim_of_slot hh.slot] at hc
      cases hc
    · exact hg.fail hl hid object e

/-- A nested call of a module that is spared keeps its slot with the record, and adds what it asks for. -/
theorem NeverEvicts.records (h0 : AtRest l h₀) (hstays : NeverEvicts l h₀ id₀ cwd₀ i) (depth : Nat)
    {running : List (String × Nat)} {h h' : Host} {s : String} {d : Option String} {r : Except Failure Value}
    (hp : Pending l h₀ id₀ cwd₀ running h s d) (hinner : running ≠ [])
    (hr : (require Scan.evaluator depth l s d).exec h = some (r, h')) {asked asked' : List String}
    (hasked : ∀ x ∈ asked', x ∈ asked ∨ x = s ∧ (h.contextOf l).parent = some i) (hh : Holds l i slot asked h) :
    Holds l i slot asked' h' := by
  have hinside : Inside l h₀ id₀ cwd₀ (Holds l i slot asked') := hstays.inside h0 asked'
  obtain ⟨x, h₁, hx, hrest⟩ := hinside.after_find h0 depth hp hr
  have hloads := hp.loads h0.kept h0.there
  have hin := Loads.entered l d h
  have hl : l < h.loaders.length := by rw [hloads.count]; exact h0.there
  refine hrest ((hh.entered hl d).find (hin.kept (hloads.kept h0.kept)) (by rwa [hin.count]) hx (fun resolved he => ?_)
    fun y hy => by rw [parent_entered hl]; exact hasked y hy)
  subst he
  exact hstays _ _ _ _ _ _ hp hinner hx (hh.slot ▸ Option.some_ne_none _)

/-- The calls of the module that a call runs are made one after the other. -/
theorem Pending.of_module {resolved : Resolved} {h₁ : Host} (hf : Finds l h₀ id₀ cwd₀ resolved h₁) {object : Nat}
    {h : Host} {s : String} {d : Option String} (hp : Pending l h₀ id₀ cwd₀ [(resolved.id, object)] h s d) :
    ∃ h₂ before call after depth, claim l resolved h₁ = (.inr object, h₂) ∧
      h₂.world.calls resolved = .ok (before ++ call :: after) ∧
      (loading depth l object h₂ before).exec (h₂.opened l resolved) = some (.ok (), h) ∧ s = call.specifier := by
  generalize hrunning : [(resolved.id, object)] = running at hp
  cases hp with
  | root => cases hrunning
  | nested hp hf' hc hcalls hloads =>
    obtain ⟨hopened, rfl⟩ := List.cons.inj hrunning
    obtain ⟨-, rfl⟩ := Prod.mk.inj hopened
    cases hp with
    | root =>
      cases hf.symm.trans hf'
      exact ⟨_, _, _, _, _, hc, hcalls, hloads, rfl⟩

theorem fail_of_module {h : Host} {object : Nat} (hs : h.slotOf l i = some (.module object)) (e : Failure) :
    fail l i object e h = h.fill l i (.failed e) := by
  unfold slotOf at hs
  unfold fail
  rw [hs]
  exact if_pos rfl

theorem valueOf_onLoader (h : Host) (f : Loader → Loader) (slot : ScriptSlot) :
    (h.onLoader l f).valueOf slot = h.valueOf slot := by cases slot <;> rfl

/-- A call that is made after others that succeed is not made after one that fails. -/
theorem loading_before {depth depth' object : Nat} {h₂ h₃ h₄ h₅ h : Host} {before mid : List Script.Call}
    {call : Script.Call} {e : Failure}
    (hdone : (loading depth l object h₂ before).exec h = some (.ok (), h₃))
    (hfails : (require Scan.evaluator depth l call.specifier none).exec h₃ = some (.error e, h₄)) :
    (loading depth' l object h₂ (before ++ call :: mid)).exec h ≠ some (.ok (), h₅) := by
  intro hok
  have hdone' := exec_loading_mono (Nat.le_max_left depth depth') hdone
  have hfails' := exec_require_mono (Nat.le_max_left depth depth') hfails
  have hok' := exec_loading_mono (Nat.le_max_right depth depth') hok
  unfold loading at hdone' hok'
  rw [exec_loadAll_append, hdone'] at hok'
  simp only [Option.bind_some, exec_loadAll_cons, hfails'] at hok'
  cases hok'

variable (h0 : AtRest l h₀) {resolved : Resolved} {h₁ : Host}
  (hf : Finds l h₀ id₀ cwd₀ resolved h₁) (hstays : NeverEvicts l h₀ id₀ cwd₀ resolved.id)

include h0 hf hstays

/-- Once the calls of a module were made, its slot has its object, and each call that was made is recorded. -/
theorem NeverEvicts.ran {object : Nat} {h₂ : Host} (hc : claim l resolved h₁ = (.inr object, h₂))
    {calls : List Script.Call} (hcalls : h₂.world.calls resolved = .ok calls) {depth : Nat} {x : Except Failure Unit}
    {h₃ : Host} (hloads : (loading depth l object h₂ calls).exec (h₂.opened l resolved) = some (x, h₃)) :
    l < h₃.loaders.length ∧ ∃ asked, Holds l resolved.id (.module object) asked h₃ ∧
      ∀ depth' before call after h₄, calls = before ++ call :: after →
        (loading depth' l object h₂ before).exec (h₂.opened l resolved) = some (.ok (), h₄) →
          call.specifier ∈ asked := by
  have hin := Loads.entered l cwd₀ h₀
  have hl₁ : l < h₁.loaders.length := by
    rw [(returns_find (hin.kept h0.kept) (by rw [hin.count]; exact h0.there) hf).count, hin.count]
    exact h0.there
  have hback := returns_claimed h0.kept h0.there hf hc
  have hl₂ : l < h₂.loaders.length := by rw [hback.count, hin.count]; exact h0.there
  have hopen := Loads.opened l resolved h₂
  have hl₃ : l < (h₂.opened l resolved).loaders.length := by rw [hopen.count]; exact hl₂
  have hstart : Holds l resolved.id (.module object) [] (h₂.opened l resolved) := by
    refine Holds.opened ?_ hl₂ resolved
    obtain ⟨-, -, -, rfl⟩ := claim_inr hc
    exact Holds.fill (h := { h₁ with heap := (newModule h₁.heap).2 }) (fun s hs => absurd hs List.not_mem_nil) hl₁ _
  have hkept : (h₂.opened l resolved).Kept := hopen.kept (hback.kept (hin.kept h0.kept))
  refine ⟨by rw [(returns_loading hkept hl₃ hloads).count]; exact hl₃, ?_⟩
  have nested {before call after h₄ y h₅} (hcalls' : calls = before ++ call :: after)
      (hmid : (loading depth l object h₂ before).exec (h₂.opened l resolved) = some (.ok (), h₄) ∧
        Holds l resolved.id (.module object) (before.map Script.Call.specifier) h₄)
      (hy : (Host.require Scan.evaluator depth l call.specifier none).exec h₄ = some (y, h₅)) :
      Holds l resolved.id (.module object) ((before ++ [call]).map Script.Call.specifier) h₅ := by
    refine hstays.records h0 depth (Pending.nested Pending.root hf hc (hcalls' ▸ hcalls) hmid.1) (List.cons_ne_nil _ _)
      hy (fun s hs => ?_) hmid.2
    rw [List.map_append, List.mem_append, List.map_singleton, List.mem_singleton] at hs
    refine hs.imp_right fun hs => ⟨hs, ?_⟩
    rw [(returns_loading hkept hl₃ hmid.1).context, parent_opened hl₂]
  rcases loadAll_walk (fun before h₄ => (loading depth l object h₂ before).exec (h₂.opened l resolved) =
      some (.ok (), h₄) ∧ Holds l resolved.id (.module object) (before.map Script.Call.specifier) h₄)
    (fun _ _ _ _ _ _ hcalls' hmid hy => ⟨loading_concat hmid.1 hy, (nested hcalls' hmid hy).put ..⟩)
    ⟨rfl, hstart⟩ hloads with ⟨-, hmid⟩ | ⟨e, before, call, after, h₄, -, hcalls', hmid, hy⟩
  · exact ⟨_, hmid.2, fun _ before call after _ hsplit _ => List.mem_map_of_mem (by rw [hsplit]; simp)⟩
  · refine ⟨_, nested hcalls' hmid hy, fun depth' before' call' after' h₅ hsplit hdone => List.mem_map_of_mem ?_⟩
    rcases List.append_eq_append_iff.1 (hcalls'.symm.trans hsplit) with ⟨mid, rfl, hrest⟩ | ⟨mid, rfl, hrest⟩
    · cases mid with
      | nil => cases hrest; simp
      | cons c mid =>
        -- the calls before it would go past the one that fails
        obtain ⟨rfl, -⟩ := List.cons.inj hrest
        exact absurd hdone (loading_before hmid.1 hy)
    · cases mid with
      | nil => cases hrest; simp
      | cons c mid =>
        obtain ⟨rfl, -⟩ := List.cons.inj hrest
        simp

omit hstays in
/-- A module that is served without running it has what is served in its slot, and what it asked for before is still
recorded. -/
theorem served_outcome {found : Except Failure Value} {h₂ : Host} (hc : claim l resolved h₁ = (.inl found, h₂)) :
    ∃ slot asked, Holds l resolved.id slot asked h₂ ∧ h₂.valueOf slot = found ∧
      (h₁.slotOf l resolved.id ≠ none →
        ∀ s ∈ Graph.namesAt (h₀.loader l).graph.dependencies resolved.id, s ∈ asked) := by
  have hin := Loads.entered l cwd₀ h₀
  have hl₀ : l < (h₀.entered l cwd₀).loaders.length := by rw [hin.count]; exact h0.there
  have hl₁ : l < h₁.loaders.length := by rw [(returns_find (hin.kept h0.kept) hl₀ hf).count]; exact hl₀
  cases hs : h₁.slotOf l resolved.id with
  | some slot =>
    rw [claim_of_slot hs] at hc
    cases hc
    refine ⟨slot, _, ?_, rfl, fun _ s hs' => hs'⟩
    have hslot : (h₀.entered l cwd₀).slotOf l resolved.id = some slot := by
      rcases find_slotOf (hin.kept h0.kept) hl₀ hf resolved.id with he | he
      · rw [hs] at he; cases he
      · rw [← he]; exact hs
    have hgraph : ((h₀.entered l cwd₀).loader l).graph = (h₀.loader l).graph :=
      graph_onLoader (f := (·.enter (cwd₀.toList.map some) [])) h0.there fun _ => rfl
    have hh : Holds l resolved.id slot (Graph.namesAt (h₀.loader l).graph.dependencies resolved.id)
        (h₀.entered l cwd₀) := ⟨hslot, fun s hs' => by rw [hgraph]; exact hs'⟩
    refine hh.find (hin.kept h0.kept) hl₀ hf (fun _ _ => ?_) fun _ hs' => Or.inl hs'
    rw [hs]
    exact Option.some_ne_none _
  | none =>
    unfold claim at hc
    unfold slotOf at hs
    rw [hs] at hc
    dsimp only at hc
    cases hvalue : resolved.value with
    | none => rw [hvalue] at hc; cases hc
    | some v =>
      rw [hvalue] at hc
      cases hc
      exact ⟨.value v, [], Holds.fill (fun _ hs' => absurd hs' List.not_mem_nil) hl₁ _, rfl,
        fun hne => absurd rfl hne⟩

/-- What a call leaves of the module that it finds: its slot holds what came of it, and whatever the module asked for
is recorded, now or when it was run before. -/
theorem NeverEvicts.outcome {depth : Nat} {r : Except Failure Value} {h' : Host}
    (hr : (require Scan.evaluator depth l id₀ cwd₀).exec h₀ = some (r, h')) :
    ∃ slot asked, Holds l resolved.id slot asked h' ∧ h'.valueOf slot = r ∧
      (∀ object h s d, Pending l h₀ id₀ cwd₀ [(resolved.id, object)] h s d → s ∈ asked) ∧
      (h₁.slotOf l resolved.id ≠ none →
        ∀ s ∈ Graph.namesAt (h₀.loader l).graph.dependencies resolved.id, s ∈ asked) := by
  cases depth with
  | zero => cases hr
  | succ depth =>
  have hin := Loads.entered l cwd₀ h₀
  have hl₀ : l < (h₀.entered l cwd₀).loaders.length := by rw [hin.count]; exact h0.there
  have hl₁ : l < h₁.loaders.length := by rw [(returns_find (hin.kept h0.kept) hl₀ hf).count]; exact hl₀
  obtain ⟨h₄, hcourse, rfl⟩ := course_of_exec hr
  have hl₄ : l < h₄.loaders.length := by
    have := (returns_require (depth + 1) id₀ cwd₀ h0.kept h0.there hr).count
    simp only [onLoader, List.length_set] at this
    rw [this]
    exact h0.there
  suffices left : ∃ slot asked, Holds l resolved.id slot asked h₄ ∧ h₄.valueOf slot = r ∧
      (∀ object h s d, Pending l h₀ id₀ cwd₀ [(resolved.id, object)] h s d → s ∈ asked) ∧
      (h₁.slotOf l resolved.id ≠ none →
        ∀ s ∈ Graph.namesAt (h₀.loader l).graph.dependencies resolved.id, s ∈ asked) by
    obtain ⟨slot, asked, hh, hv, hcalls⟩ := left
    exact ⟨slot, asked, hh.leave hl₄ _ _, by rw [valueOf_onLoader]; exact hv, hcalls⟩
  -- the calls of the module are those of the run that was found
  have made {object : Nat} {h₂ : Host} (hc : claim l resolved h₁ = (.inr object, h₂)) {calls : List Script.Call}
      (hcalls : h₂.world.calls resolved = .ok calls) {asked : List String}
      (hasked : ∀ depth' before call after h₅, calls = before ++ call :: after →
        (loading depth' l object h₂ before).exec (h₂.opened l resolved) = some (.ok (), h₅) →
          call.specifier ∈ asked) (o : Nat) (h : Host) (s : String) (d : Option String)
      (hp : Pending l h₀ id₀ cwd₀ [(resolved.id, o)] h s d) : s ∈ asked := by
    obtain ⟨_, _, _, _, _, hc', hcalls', hdone, rfl⟩ := hp.of_module hf
    cases hc.symm.trans hc'
    exact hasked _ _ _ _ _ (Except.ok.inj (hcalls.symm.trans hcalls')) hdone
  cases hcourse with
  | unfound hx => cases hf.symm.trans hx
  | served hf' hc =>
    cases hf.symm.trans hf'
    obtain ⟨slot, asked, hh, hv, hbefore⟩ := served_outcome h0 hf hc
    refine ⟨slot, asked, hh, hv, fun object h s d hp => ?_, hbefore⟩
    obtain ⟨_, _, _, _, _, hc', -⟩ := hp.of_module hf
    cases hc.symm.trans hc'
  | @unreadable _ _ object h₂ e h₃ hf' hc hcalls he =>
    cases hf.symm.trans hf'
    obtain ⟨hnone, -, -, hfill⟩ := claim_inr hc
    have hl₂ : l < h₂.loaders.length := by rw [(returns_claimed h0.kept h0.there hf hc).count]; exact hl₀
    have hh : Holds l resolved.id (.module object) [] h₂ := by
      rw [hfill]
      exact Holds.fill (h := { h₁ with heap := (newModule h₁.heap).2 }) (fun _ hs => absurd hs List.not_mem_nil) hl₁ _
    have hl₃ : l < h₃.loaders.length := by
      rcases he with rfl | rfl
      · exact hl₂
      · simpa [Host.closed, Host.opened, onLoader] using hl₂
    have hh₃ : Holds l resolved.id (.module object) [] h₃ := by
      rcases he with rfl | rfl
      · exact hh
      · exact (hh.opened hl₂ resolved).closed (by simpa [Host.opened, onLoader] using hl₂)
    rw [fail_of_module hh₃.slot]
    refine ⟨.failed e, [], Holds.fill (fun _ hs => absurd hs List.not_mem_nil) hl₃ _, rfl, fun o h s d hp => ?_,
      fun hne => absurd hnone hne⟩
    obtain ⟨_, _, _, _, _, hc', hcalls', -⟩ := hp.of_module hf
    cases hc.symm.trans hc'
    cases hcalls.symm.trans hcalls'
  | @finished _ _ object h₂ calls h₃ hf' hc hcalls hloads =>
    cases hf.symm.trans hf'
    obtain ⟨hl₃, asked, hh, hasked⟩ := hstays.ran h0 hf hc hcalls hloads
    exact ⟨.module object, asked, (hh.closed hl₃).close object, congrArg Except.ok (close_get object (h₃.closed l)),
      made hc hcalls hasked, fun hne => absurd (claim_inr hc).1 hne⟩
  | @broken _ _ object h₂ calls e h₃ hf' hc hcalls hloads =>
    cases hf.symm.trans hf'
    obtain ⟨hl₃, asked, hh, hasked⟩ := hstays.ran h0 hf hc hcalls hloads
    have hclosed := hh.closed hl₃
    rw [fail_of_module hclosed.slot]
    exact ⟨.failed e, asked, Holds.fill hclosed.recorded (by simpa [Host.closed, onLoader] using hl₃) _, rfl,
      made hc hcalls hasked, fun hne => absurd (claim_inr hc).1 hne⟩

end

end Host

end ScriptVault

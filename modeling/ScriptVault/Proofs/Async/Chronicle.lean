import Mathlib.Data.List.Forall2
import ScriptVault.Proofs.Async.Holding

/-!
# Chronicle — what is written down beside a state

A fiber can be made to write down what it does, in a chronicle that lies beside the state and that no fiber reads.  Leave
out the chronicle, and what is left is the fiber that writes nothing down: it makes the same moves, leaves the same states
and begins the same work.  So whatever order threads go on in, there is a chronicle of what they did.  And what may be
out together can then be told by the chronicle as well.
-/

namespace ScriptVault

variable {σ ω γ α β : Type}

namespace Fiber

/-- A fiber that does what another one does, notes each change in the chronicle, and then goes on. -/
def noting (note : σ → σ → γ → γ) : Fiber σ ω → Fiber (σ × γ) ω → Fiber (σ × γ) ω
  | .done, k => k
  | .look next, k => .look fun s => (next s.1).noting note k
  | .leave state next, k => .look fun s => .leave (state, note s.1 state s.2) (next.noting note k)
  | .share id work next, k => .share id work (next.noting note k)
  | .await id next, k => .await id (next.noting note k)
  | .spawn id work next, k => .spawn id work (next.noting note k)
  | .join id limit next, k => .join id limit fun b => (next b).noting note k
  | .sleep nanos next, k => .sleep nanos (next.noting note k)
  | .rest next, k => .rest (next.noting note k)
  | .consult next, k => .consult (next.noting note k)
  | .offload job next, k => .offload (fun s => (job s.1, note s.1 (job s.1) s.2)) (next.noting note k)
  | .both first second next, k => .both (first.noting note .done) (second.noting note .done) (next.noting note k)

/-- Leave out the chronicle of the first fiber, and the second is left. -/
inductive Erases : Fiber (σ × γ) ω → Fiber σ ω → Prop
  | done : Erases .done .done
  | look {next' : σ × γ → Fiber (σ × γ) ω} {next : σ → Fiber σ ω} :
    (∀ s g, Erases (next' (s, g)) (next s)) → Erases (.look next') (.look next)
  /-- A look that is for the chronicle. -/
  | glance {next' : σ × γ → Fiber (σ × γ) ω} {f : Fiber σ ω} : (∀ s, Erases (next' s) f) → Erases (.look next') f
  | leave {s : σ} {g : γ} {next' : Fiber (σ × γ) ω} {next : Fiber σ ω} :
    Erases next' next → Erases (.leave (s, g) next') (.leave s next)
  /-- A look that is written down. -/
  | note {next' : σ × γ → Fiber (σ × γ) ω} {next : σ → Fiber σ ω} (note : σ × γ → γ) :
    (∀ s g, Erases (next' (s, g)) (next s)) → Erases (.look fun s => .leave (s.1, note s) (next' s)) (.look next)
  | share {next' : Fiber (σ × γ) ω} {next : Fiber σ ω} (id : Nat) (work : ω) :
    Erases next' next → Erases (.share id work next') (.share id work next)
  | await {next' : Fiber (σ × γ) ω} {next : Fiber σ ω} (id : Nat) :
    Erases next' next → Erases (.await id next') (.await id next)
  | spawn {next' : Fiber (σ × γ) ω} {next : Fiber σ ω} (id : Nat) (work : ω) :
    Erases next' next → Erases (.spawn id work next') (.spawn id work next)
  | join {next' : Bool → Fiber (σ × γ) ω} {next : Bool → Fiber σ ω} (id : Nat) (limit : Option Nat) :
    (∀ b, Erases (next' b) (next b)) → Erases (.join id limit next') (.join id limit next)
  | sleep {next' : Fiber (σ × γ) ω} {next : Fiber σ ω} (nanos : Nat) :
    Erases next' next → Erases (.sleep nanos next') (.sleep nanos next)
  | rest {next' : Fiber (σ × γ) ω} {next : Fiber σ ω} : Erases next' next → Erases (.rest next') (.rest next)
  | consult {next' : Fiber (σ × γ) ω} {next : Fiber σ ω} : Erases next' next → Erases (.consult next') (.consult next)
  | offload {job' : σ × γ → σ × γ} {job : σ → σ} {next' : Fiber (σ × γ) ω} {next : Fiber σ ω} :
    (∀ s, (job' s).1 = job s.1) → Erases next' next → Erases (.offload job' next') (.offload job next)
  | both {first' second' next' : Fiber (σ × γ) ω} {first second next : Fiber σ ω} : Erases first' first →
    Erases second' second → Erases next' next → Erases (.both first' second' next') (.both first second next)

/-- To note what a fiber does adds nothing but a chronicle. -/
theorem erases_noting (note : σ → σ → γ → γ) (f : Fiber σ ω) : (f.noting note .done).Erases f := by
  induction f with
  | done => exact .done
  | look next ih => exact .look fun s _ => ih s
  | leave state next ih => exact .glance fun _ => .leave ih
  | share id work next ih => exact .share id work ih
  | await id next ih => exact .await id ih
  | spawn id work next ih => exact .spawn id work ih
  | join id limit next ih => exact .join id limit ih
  | sleep nanos next ih => exact .sleep nanos ih
  | rest next ih => exact .rest ih
  | consult next ih => exact .consult ih
  | offload job next ih => exact .offload (fun _ => rfl) ih
  | both first second next ih₁ ih₂ ih₃ => exact .both ih₁ ih₂ ih₃

end Fiber

/-! ### Computations -/

namespace Async

/-- Leave out the chronicle of the first computation, and the second is left, whatever comes after them. -/
def Erases (x' : Async (σ × γ) ω α) (x : Async σ ω α) : Prop :=
  ∀ k' k, (∀ a, (k' a).Erases (k a)) → (x' k').Erases (x k)

/-- What a computation does, with a note of each change. -/
def noting (note : σ → σ → γ → γ) (x : Async σ ω α) : Async (σ × γ) ω Unit := fun k => x.fiber.noting note (k ())

theorem erases_pure (a : α) : Erases (pure a : Async (σ × γ) ω α) (pure a) := fun _ _ hk => hk a

theorem erases_bind {x' : Async (σ × γ) ω α} {x : Async σ ω α} {f' : α → Async (σ × γ) ω β} {f : α → Async σ ω β}
    (hx : x'.Erases x) (hf : ∀ a, (f' a).Erases (f a)) : Erases (x' >>= f') (x >>= f) :=
  fun k' k hk => hx _ _ fun a => hf a k' k hk

theorem erases_step {f' : σ × γ → α × σ × γ} {f : σ → α × σ}
    (hf : ∀ s g, (f' (s, g)).1 = (f s).1 ∧ (f' (s, g)).2.1 = (f s).2) :
    Erases (step f' : Async (σ × γ) ω α) (step f) := by
  refine fun k' k hk => .look fun s g => ?_
  obtain ⟨hresult, hstate⟩ := hf s g
  rw [← hresult, ← hstate]
  exact .leave (hk _)

theorem erases_view {f' : σ × γ → α} {f : σ → α} (hf : ∀ s g, f' (s, g) = f s) :
    Erases (view f' : Async (σ × γ) ω α) (view f) := by
  refine fun k' k hk => .look fun s g => ?_
  rw [hf]
  exact hk _

/-- A look of which a note is made. -/
theorem erases_note (f : σ → α) (note : σ × γ → γ) :
    Erases (step fun s => (f s.1, (s.1, note s)) : Async (σ × γ) ω α) (view f) :=
  fun _ _ hk => .note note fun _ _ => hk _

theorem erases_sleep (nanos : Nat) : Erases (sleep nanos : Async (σ × γ) ω Unit) (sleep nanos) :=
  fun _ _ hk => .sleep nanos (hk ())

theorem Erases.fiber {x' : Async (σ × γ) ω α} {x : Async σ ω α} (hx : x'.Erases x) : x'.fiber.Erases x.fiber :=
  hx _ _ fun _ => .done

theorem Erases.discard {x' : Async (σ × γ) ω α} {x : Async σ ω α} (hx : x'.Erases x) :
    Erases (discard x') (discard x) := by
  show Erases (x' >>= fun _ => pure ()) (x >>= fun _ => pure ())
  exact erases_bind hx fun _ => erases_pure ()

theorem erases_all {ι : Type} {x' : ι → Async (σ × γ) ω Unit} {x : ι → Async σ ω Unit}
    (hx : ∀ i, (x' i).Erases (x i)) (is : List ι) : Erases (all (is.map x')) (all (is.map x)) := by
  induction is with
  | nil => exact erases_pure ()
  | cons i is ih => exact fun k' k hk => .both (hx i).fiber ih.fiber (hk ())

/-! #### Computations that always go on -/

/-- Whatever comes after it, a computation does the same before. -/
def GoesOn (note : σ → σ → γ → γ) (x : Async σ ω α) : Prop :=
  ∀ (k j : α → Fiber σ ω) (k' : Fiber (σ × γ) ω), (∀ a, ((j a).noting note k').Erases (k a)) →
    ((x j).noting note k').Erases (x k)

variable {note : σ → σ → γ → γ}

theorem GoesOn.erases {x : Async σ ω Unit} (hx : x.GoesOn note) : Erases (x.noting note) x :=
  fun k' k hk => hx k (fun _ => .done) (k' ()) fun _ => hk ()

theorem goesOn_pure (a : α) : GoesOn note (pure a : Async σ ω α) := fun _ _ _ hj => hj a

theorem goesOn_bind {x : Async σ ω α} {f : α → Async σ ω β} (hx : x.GoesOn note) (hf : ∀ a, (f a).GoesOn note) :
    GoesOn note (x >>= f) := fun k j k' hj => hx _ _ k' fun a => hf a k j k' hj

theorem goesOn_view (f : σ → α) : GoesOn note (view f : Async σ ω α) :=
  fun _ _ _ hj => .look fun s _ => hj (f s)

theorem goesOn_step (f : σ → α × σ) : GoesOn note (step f : Async σ ω α) :=
  fun _ _ _ hj => .look fun s _ => .glance fun _ => .leave (hj (f s).1)

theorem goesOn_change (f : σ → σ) : GoesOn note (change f : Async σ ω Unit) := goesOn_step fun s => ((), f s)

theorem goesOn_act {x : StateT σ Option α} (hx : ∀ s, (x s).isSome) : GoesOn note (act x : Async σ ω α) := by
  refine fun k j k' hj => .look fun s g => ?_
  obtain ⟨⟨a, s'⟩, hs⟩ := Option.isSome_iff_exists.1 (hx s)
  simp only [hs]
  exact .glance fun _ => .leave (hj a)

theorem goesOn_offload (job : σ → σ) : GoesOn note (offload job : Async σ ω Unit) :=
  fun _ _ _ hj => .offload (fun _ => rfl) (hj ())

theorem goesOn_share (id : Nat) (work : ω) : GoesOn note (share id work : Async σ ω Unit) :=
  fun _ _ _ hj => .share id work (hj ())

theorem goesOn_await (id : Nat) : GoesOn note (await id : Async σ ω Unit) := fun _ _ _ hj => .await id (hj ())

theorem goesOn_spawn (id : Nat) (work : ω) : GoesOn note (spawn id work : Async σ ω Unit) :=
  fun _ _ _ hj => .spawn id work (hj ())

theorem goesOn_join (id : Nat) (limit : Option Nat) : GoesOn note (join id limit : Async σ ω Bool) :=
  fun _ _ _ hj => .join id limit hj

theorem goesOn_sleep (nanos : Nat) : GoesOn note (sleep nanos : Async σ ω Unit) :=
  fun _ _ _ hj => .sleep nanos (hj ())

theorem goesOn_rest : GoesOn note (rest : Async σ ω Unit) := fun _ _ _ hj => .rest (hj ())

theorem goesOn_consult : GoesOn note (consult : Async σ ω Unit) := fun _ _ _ hj => .consult (hj ())

theorem goesOn_all (xs : List (Async σ ω Unit)) : GoesOn note (all xs) := by
  cases xs with
  | nil => exact goesOn_pure ()
  | cons x xs => exact fun _ _ _ hj => .both (Fiber.erases_noting note _) (Fiber.erases_noting note _) (hj ())

end Async

/-! ### Weaves -/

/-- Leave out the chronicle of the first strand, and the second is left. -/
inductive Strand.Erases : Strand (σ × γ) ω → Strand σ ω → Prop
  | ended : Erases .ended .ended
  | going {f' : Fiber (σ × γ) ω} {f : Fiber σ ω} : f'.Erases f → Erases (.going f') (.going f)
  | awaiting {next' : Fiber (σ × γ) ω} {next : Fiber σ ω} (id : Nat) :
    next'.Erases next → Erases (.awaiting id next') (.awaiting id next)
  | joining {next' : Bool → Fiber (σ × γ) ω} {next : Bool → Fiber σ ω} (id : Nat) (limit : Option Nat) :
    (∀ b, (next' b).Erases (next b)) → Erases (.joining id limit next') (.joining id limit next)
  | working {job' : σ × γ → σ × γ} {job : σ → σ} {next' : Fiber (σ × γ) ω} {next : Fiber σ ω} :
    (∀ s, (job' s).1 = job s.1) → next'.Erases next → Erases (.working job' next') (.working job next)
  | both {first' second' : Strand (σ × γ) ω} {next' : Fiber (σ × γ) ω} {first second : Strand σ ω} {next : Fiber σ ω} :
    Erases first' first → Erases second' second → next'.Erases next →
      Erases (.both first' second' next') (.both first second next)

theorem Strand.Erases.ended_iff {strand' : Strand (σ × γ) ω} {strand : Strand σ ω} (h : strand'.Erases strand) :
    strand' = .ended ↔ strand = .ended := by
  cases h <;> simp

/-- Leave out the chronicle of work that the first plan describes, and what the second describes is left. -/
structure Plan.Erases (plan' : Plan (σ × γ) ω) (plan : Plan σ ω) : Prop where
  perform : ∀ id work, (plan'.perform id work).Erases (plan.perform id work)
  collect : ∀ s g, plan'.collect (s, g) = ((plan.collect s).1, (plan.collect s).2, g)
  /-- Where tasks were taken up there are none to be taken up. -/
  collected : ∀ s, plan.collect (plan.collect s).2 = ([], (plan.collect s).2)

/-- Leave out the chronicle of the first weave, and the second is left. -/
structure Weave.Erases (d : Weave (σ × γ) ω) (c : Weave σ ω) : Prop where
  state : d.state.1 = c.state
  threads : List.Forall₂ (fun t' t => t'.id = t.id ∧ t'.work = t.work ∧ t'.strand.Erases t.strand) d.threads c.threads

section

variable {plan' : Plan (σ × γ) ω} {plan : Plan σ ω} (hplan : plan'.Erases plan)

include hplan

theorem Fiber.Erases.move {f' : Fiber (σ × γ) ω} {f : Fiber σ ω} (hf : f'.Erases f) {s : σ}
    (hs : plan.collect s = ([], s)) (g : γ) :
    ∃ g', (f'.move plan' (s, g)).1.Erases (f.move plan s).1 ∧
      (f'.move plan' (s, g)).2 = (((f.move plan s).2.1, g'), (f.move plan s).2.2) ∧
      plan.collect (f.move plan s).2.1 = ([], (f.move plan s).2.1) := by
  induction hf generalizing s g with
  | done => exact ⟨g, .ended, rfl, hs⟩
  | look _ ih => exact ih s g hs g
  | glance _ ih => exact ih (s, g) hs g
  | @leave state g₁ next' next _ ih =>
    obtain ⟨g', hstrand, hmove, hcollect⟩ := ih (hplan.collected state) g₁
    refine ⟨g', ?_, ?_, hcollect⟩
    · show (next'.move plan' (plan'.collect (state, g₁)).2).1.Erases _
      rw [hplan.collect]
      exact hstrand
    · show ((next'.move plan' (plan'.collect (state, g₁)).2).2.1, (plan'.collect (state, g₁)).1 ++
        (next'.move plan' (plan'.collect (state, g₁)).2).2.2) = _
      rw [hplan.collect, hmove]
      rfl
  | @note next' next note _ ih =>
    obtain ⟨g', hstrand, hmove, hcollect⟩ := ih s g hs (note (s, g))
    refine ⟨g', ?_, ?_, hcollect⟩
    · show ((next' (s, g)).move plan' (plan'.collect (s, note (s, g))).2).1.Erases _
      rw [hplan.collect, hs]
      exact hstrand
    · show (((next' (s, g)).move plan' (plan'.collect (s, note (s, g))).2).2.1,
        (plan'.collect (s, note (s, g))).1 ++ ((next' (s, g)).move plan' (plan'.collect (s, note (s, g))).2).2.2) = _
      rw [hplan.collect, hs]
      exact hmove
  | @share next' next id work _ ih =>
    obtain ⟨g', hstrand, hmove, hcollect⟩ := ih hs g
    refine ⟨g', hstrand, ?_, hcollect⟩
    show ((next'.move plan' (s, g)).2.1, (id, work) :: (next'.move plan' (s, g)).2.2) = _
    rw [hmove]
    rfl
  | await id h => exact ⟨g, .awaiting id h, rfl, hs⟩
  | @spawn next' next id work _ ih =>
    obtain ⟨g', hstrand, hmove, hcollect⟩ := ih hs g
    refine ⟨g', hstrand, ?_, hcollect⟩
    show ((next'.move plan' (s, g)).2.1, (id, work) :: (next'.move plan' (s, g)).2.2) = _
    rw [hmove]
    rfl
  | join id limit h => exact ⟨g, .joining id limit h, rfl, hs⟩
  | sleep nanos h => exact ⟨g, .going h, rfl, hs⟩
  | rest h => exact ⟨g, .going h, rfl, hs⟩
  | consult h => exact ⟨g, .going h, rfl, hs⟩
  | offload hjob h => exact ⟨g, .working hjob h, rfl, hs⟩
  | both h₁ h₂ h₃ => exact ⟨g, .both (.going h₁) (.going h₂) h₃, rfl, hs⟩

/-- Where a strand moves, so does the one with a chronicle. -/
theorem Strand.Moves.noted {past past' : Nat → Prop} (hpast : ∀ id, past id → past' id) {strand strand₁ : Strand σ ω}
    {s s₁ : σ} {begun : List (Nat × ω)} (hm : strand.Moves plan past s strand₁ s₁ begun) {strand' : Strand (σ × γ) ω}
    (hstrand : strand'.Erases strand) (hs : plan.collect s = ([], s)) (g : γ) :
    ∃ strand₁' g₁, strand'.Moves plan' past' (s, g) strand₁' (s₁, g₁) begun ∧ strand₁'.Erases strand₁ ∧
      plan.collect s₁ = ([], s₁) := by
  induction hm generalizing strand' with
  | run fiber s =>
    cases hstrand with
    | @going f' _ hf =>
      obtain ⟨g', hnext, hmove, hcollect⟩ := hf.move hplan hs g
      have hrun : (Strand.going f').Moves plan' past' (s, g) _ _ _ := .run f' (s, g)
      rw [hmove] at hrun
      exact ⟨_, g', hrun, hnext, hcollect⟩
  | wake next s hid =>
    cases hstrand with
    | @awaiting next' _ _ hf =>
      obtain ⟨g', hnext, hmove, hcollect⟩ := hf.move hplan hs g
      have hwake : (Strand.awaiting _ next').Moves plan' past' (s, g) _ _ _ := .wake next' (s, g) (hpast _ hid)
      rw [hmove] at hwake
      exact ⟨_, g', hwake, hnext, hcollect⟩
  | join limit next s hid =>
    cases hstrand with
    | @joining next' _ _ _ hf => exact ⟨_, g, .join limit next' (s, g) (hpast _ hid), .going (hf true), hs⟩
  | miss id limit next s =>
    cases hstrand with
    | @joining next' _ _ _ hf => exact ⟨_, g, .miss id limit next' (s, g), .going (hf false), hs⟩
  | work job next s =>
    cases hstrand with
    | @working job' _ next' _ hjob hf =>
      have hwork : (Strand.working job' next').Moves plan' past' (s, g) _ _ _ := .work job' next' (s, g)
      have hstate : job' (s, g) = (job s, (job' (s, g)).2) := Prod.ext (hjob (s, g)) rfl
      rw [hstate, hplan.collect] at hwork
      exact ⟨_, _, hwork, .going hf, hplan.collected _⟩
  | first second next _ ih =>
    cases hstrand with
    | @both _ second' next' _ _ _ h₁ h₂ h₃ =>
      obtain ⟨_, g₁, hmove, hfirst, hcollect⟩ := ih h₁ hs
      exact ⟨_, g₁, .first second' next' hmove, .both hfirst h₂ h₃, hcollect⟩
  | second first next _ ih =>
    cases hstrand with
    | @both first' _ next' _ _ _ h₁ h₂ h₃ =>
      obtain ⟨_, g₁, hmove, hsecond, hcollect⟩ := ih h₂ hs
      exact ⟨_, g₁, .second first' next' hmove, .both h₁ hsecond h₃, hcollect⟩
  | meet next s =>
    cases hstrand with
    | @both _ _ next' _ _ _ h₁ h₂ h₃ =>
      cases h₁
      cases h₂
      exact ⟨_, g, .meet next' (s, g), .going h₃, hs⟩

namespace Weave

omit hplan in
theorem Erases.over {d : Weave (σ × γ) ω} {c : Weave σ ω} (hd : d.Erases c) {id : Nat} (hover : c.Over id) :
    d.Over id := by
  obtain ⟨t, ht, rfl, hended⟩ := hover
  obtain ⟨i, hi, rfl⟩ := List.getElem_of_mem ht
  have hi' : i < d.threads.length := by rwa [hd.threads.length_eq]
  obtain ⟨hid, -, hstrand⟩ := hd.threads.get hi' hi
  exact ⟨d.threads[i], List.getElem_mem hi', hid, hstrand.ended_iff.2 hended⟩

/-- Where a thread makes a move, so does the one with a chronicle. -/
theorem Step.noted {c c' : Weave σ ω} (hstep : c.Step plan c') {d : Weave (σ × γ) ω} (hd : d.Erases c)
    (hc : plan.collect c.state = ([], c.state)) :
    ∃ d', d.Step plan' d' ∧ d'.Erases c' ∧ plan.collect c'.state = ([], c'.state) := by
  obtain ⟨t, begun, hm⟩ := hstep
  obtain @⟨before, after, _, strand, s', _, hthreads, hmove⟩ := hm
  have hall := hd.threads
  rw [hthreads] at hall
  have hbefore := List.forall₂_take_append _ _ _ hall
  obtain ⟨t', after', ⟨hid, hwork, hstrand⟩, hafter, hdrop⟩ :=
    List.forall₂_cons_right_iff.1 (List.forall₂_drop_append _ _ _ hall)
  obtain ⟨strand', g', hmove', hnext, hcollect⟩ :=
    hmove.noted hplan (fun _ => hd.over) hstrand hc d.state.2
  have hstate : (c.state, d.state.2) = d.state := by rw [← hd.state]
  rw [hstate] at hmove'
  have hd' : d.threads = d.threads.take before.length ++ t' :: after' := by
    rw [← hdrop, List.take_append_drop]
  refine ⟨⟨(s', g'), d.threads.take before.length ++ { t' with strand := strand' } :: (after' ++ begin plan' begun)⟩,
    ⟨t', begun, .move hd' hmove'⟩, ⟨rfl, ?_⟩, hcollect⟩
  refine List.rel_append hbefore (.cons ⟨hid, hwork, hnext⟩ (List.rel_append hafter ?_))
  rw [begin, begin, List.forall₂_map_left_iff, List.forall₂_map_right_iff, List.forall₂_same]
  exact fun p _ => ⟨rfl, rfl, .going (hplan.perform p.1 p.2)⟩

/-- Of whatever threads do there is a chronicle. -/
theorem Steps.noted {c c' : Weave σ ω} (hsteps : c.Steps plan c') {d : Weave (σ × γ) ω} (hd : d.Erases c)
    (hc : plan.collect c.state = ([], c.state)) : ∃ d', d.Steps plan' d' ∧ d'.Erases c' := by
  have hall : ∃ d', d.Steps plan' d' ∧ d'.Erases c' ∧ plan.collect c'.state = ([], c'.state) := by
    induction hsteps with
    | refl => exact ⟨d, .refl, hd, hc⟩
    | tail _ hstep ih =>
      obtain ⟨d₁, hsteps₁, hd₁, hc₁⟩ := ih
      obtain ⟨d₂, hstep₂, hd₂, hc₂⟩ := hstep.noted hplan hd₁ hc₁
      exact ⟨d₂, hsteps₁.tail hstep₂, hd₂, hc₂⟩
  obtain ⟨d', hsteps', hd', -⟩ := hall
  exact ⟨d', hsteps', hd'⟩

end Weave

end

/-! ### What is out -/

section

variable {may : ω → Prop} {R : σ → σ → Prop} {note : σ → σ → γ → γ}

/-- Where each change with its note is allowed, a steady fiber stays steady. -/
theorem Fiber.Steady.noting {R' : σ × γ → σ × γ → Prop} (hnote : ∀ s s', R s s' → ∀ g, R' (s, g) (s', note s s' g))
    {f : Fiber σ ω} {s : σ} (hf : f.Steady may R s) (g : γ) : (f.noting note .done).Steady may R' (s, g) := by
  induction f generalizing s g with
  | done => trivial
  | look next ih => exact ih s hf g
  | leave state next ih => exact ⟨hnote s state hf.1 g, fun s' => ih (hf.2 s'.1) s'.2⟩
  | share id work next ih => exact ⟨hf.1, ih hf.2 g⟩
  | spawn id work next ih => exact ⟨hf.1, ih hf.2 g⟩
  | await id next ih => exact fun s' => ih (hf s'.1) s'.2
  | join id limit next ih => exact fun b s' => ih b (hf b s'.1) s'.2
  | sleep nanos next ih => exact fun s' => ih (hf s'.1) s'.2
  | rest next ih => exact fun s' => ih (hf s'.1) s'.2
  | consult next ih => exact fun s' => ih (hf s'.1) s'.2
  | offload job next ih =>
    exact ⟨fun s' => hnote s'.1 (job s'.1) (hf.1 s'.1) s'.2, fun s' => ih (hf.2 s'.1) s'.2⟩
  | both first second next ih₁ ih₂ ih₃ =>
    exact ⟨fun s' => ih₁ (hf.1 s'.1) s'.2, fun s' => ih₂ (hf.2.1 s'.1) s'.2, fun s' => ih₃ (hf.2.2 s'.1) s'.2⟩

variable {μ : Type} [AddCommMonoid μ] {fits : σ × γ → μ → Prop}
  (hnote : ∀ s s', R s s' → ∀ g, Conserves fits (s, g) (s', note s s' g))

include hnote

/-- Where each change with its note fits whatever is out, what comes after a steady fiber has out what was out before. -/
theorem Fiber.Steady.holds_noting {m : μ} {f : Fiber σ ω} {k : Fiber (σ × γ) ω} {s : σ} (hf : f.Steady may R s)
    (hk : ∀ s, k.Holds may fits m s) (g : γ) : (f.noting note k).Holds may fits m (s, g) := by
  induction f generalizing m k s g with
  | done => exact hk (s, g)
  | look next ih => exact ih s hf hk g
  | leave state next ih =>
    exact ⟨m, fun others => hnote s state hf.1 g _, fun s' => ih (hf.2 s'.1) hk s'.2⟩
  | share id work next ih => exact ⟨hf.1, ih hf.2 hk g⟩
  | spawn id work next ih => exact ⟨hf.1, ih hf.2 hk g⟩
  | await id next ih => exact fun s' => ih (hf s'.1) hk s'.2
  | join id limit next ih => exact fun b s' => ih b (hf b s'.1) hk s'.2
  | sleep nanos next ih => exact fun s' => ih (hf s'.1) hk s'.2
  | rest next ih => exact fun s' => ih (hf s'.1) hk s'.2
  | consult next ih => exact fun s' => ih (hf s'.1) hk s'.2
  | offload job next ih =>
    exact ⟨fun s' => hnote s'.1 (job s'.1) (hf.1 s'.1) s'.2, fun s' => ih (hf.2 s'.1) hk s'.2⟩
  | both first second next ih₁ ih₂ ih₃ =>
    obtain ⟨hfirst, hsecond, hnext⟩ := hf
    have hdone (s : σ × γ) : Fiber.Holds may fits (.done : Fiber (σ × γ) ω) 0 s := rfl
    refine ⟨0, 0, m, by rw [zero_add, zero_add], fun s' => ?_, fun s' => ?_, fun s' => ih₃ (hnext s'.1) hk s'.2⟩
    · exact ih₁ (hfirst s'.1) hdone s'.2
    · exact ih₂ (hsecond s'.1) hdone s'.2

theorem Async.Steady.restores_noting {m : μ} {x : Async σ ω α} (hx : x.Steady may R) :
    (x.noting note).Restores may fits m := fun _ hk s => (hx.fiber s.1).holds_noting hnote (hk ()) s.2

end

end ScriptVault

import Mathlib.Logic.Hydra
import Mathlib.Tactic.Abel
import ScriptVault.Async.Schedule

/-!
# Weave — fibers that go on in any order

A schedule lets fibers go on in one order of many.  Here any thread that can go on may do so next: between two moves of a
fiber, which are where it waits for anything, whatever others do may come first.  What holds of all weaves holds of every
order in which threads that wait for each other, for workers or for somebody outside can be run.
-/

namespace ScriptVault

variable {σ ω : Type}

/-- Where a fiber stands between two of its moves. -/
inductive Strand (σ ω : Type) where
  /-- It has ended. -/
  | ended
  /-- It can go on. -/
  | going (fiber : Fiber σ ω)
  /-- It waits for shared work. -/
  | awaiting (id : Nat) (next : Fiber σ ω)
  /-- It waits for a task, perhaps not for ever. -/
  | joining (id : Nat) (limit : Option Nat) (next : Bool → Fiber σ ω)
  /-- It waits for a worker to do a job. -/
  | working (job : σ → σ) (next : Fiber σ ω)
  /-- It waits for two others. -/
  | both (first second : Strand σ ω) (next : Fiber σ ω)

/-- Where a fiber stands after its next move, what state it leaves, and the work that it has begun. -/
def Fiber.move (plan : Plan σ ω) : Fiber σ ω → σ → Strand σ ω × σ × List (Nat × ω)
  | .done, h => (.ended, h, [])
  | .look next, h => (next h).move plan h
  | .leave h next, _ =>
    let (strand, h', begun) := next.move plan (plan.collect h).2
    (strand, h', (plan.collect h).1 ++ begun)
  | .share id work next, h =>
    let (strand, h', begun) := next.move plan h
    (strand, h', (id, work) :: begun)
  | .await id next, h => (.awaiting id next, h, [])
  | .spawn id work next, h =>
    let (strand, h', begun) := next.move plan h
    (strand, h', (id, work) :: begun)
  | .join id limit next, h => (.joining id limit next, h, [])
  | .sleep _ next, h => (.going next, h, [])
  | .rest next, h => (.going next, h, [])
  | .consult next, h => (.going next, h, [])
  | .offload job next, h => (.working job next, h, [])
  | .both first second next, h => (.both (.going first) (.going second) next, h, [])

/-- What a strand may do next, where `past` tells which work has ended: it comes to stand elsewhere, leaves another
state, and begins some work. -/
inductive Strand.Moves (plan : Plan σ ω) (past : Nat → Prop) :
    Strand σ ω → σ → Strand σ ω → σ → List (Nat × ω) → Prop
  | run (fiber : Fiber σ ω) (h : σ) :
    Moves plan past (.going fiber) h (fiber.move plan h).1 (fiber.move plan h).2.1 (fiber.move plan h).2.2
  | wake {id : Nat} (next : Fiber σ ω) (h : σ) : past id →
    Moves plan past (.awaiting id next) h (next.move plan h).1 (next.move plan h).2.1 (next.move plan h).2.2
  | join {id : Nat} (limit : Option Nat) (next : Bool → Fiber σ ω) (h : σ) : past id →
    Moves plan past (.joining id limit next) h (.going (next true)) h []
  | miss (id limit : Nat) (next : Bool → Fiber σ ω) (h : σ) :
    Moves plan past (.joining id (some limit) next) h (.going (next false)) h []
  | work (job : σ → σ) (next : Fiber σ ω) (h : σ) :
    Moves plan past (.working job next) h (.going next) (plan.collect (job h)).2 (plan.collect (job h)).1
  | first {first first' : Strand σ ω} {h h' : σ} {begun : List (Nat × ω)} (second : Strand σ ω) (next : Fiber σ ω) :
    Moves plan past first h first' h' begun →
      Moves plan past (.both first second next) h (.both first' second next) h' begun
  | second {second second' : Strand σ ω} {h h' : σ} {begun : List (Nat × ω)} (first : Strand σ ω)
    (next : Fiber σ ω) : Moves plan past second h second' h' begun →
      Moves plan past (.both first second next) h (.both first second' next) h' begun
  | meet (next : Fiber σ ω) (h : σ) : Moves plan past (.both .ended .ended next) h (.going next) h []

/-- A strand under a number. -/
structure Thread (σ ω : Type) where
  /-- The number. -/
  id : Nat
  /-- The work that it does, if it was begun as work. -/
  work : Option ω
  /-- Where it stands. -/
  strand : Strand σ ω

/-- All threads, and the state that they share. -/
structure Weave (σ ω : Type) where
  /-- The state. -/
  state : σ
  /-- The threads. -/
  threads : List (Thread σ ω)

namespace Weave

/-- A thread with this number has ended. -/
def Over (c : Weave σ ω) (id : Nat) : Prop := ∃ t ∈ c.threads, t.id = id ∧ t.strand = .ended

/-- Work was begun under a number. -/
def Begun (c : Weave σ ω) (id : Nat) (work : ω) : Prop := ∃ t ∈ c.threads, t.id = id ∧ t.work = some work

/-- The threads of work that is begun. -/
def begin (plan : Plan σ ω) (begun : List (Nat × ω)) : List (Thread σ ω) :=
  begun.map fun (id, work) => ⟨id, some work, .going (plan.perform id work)⟩

/-- One thread makes a move and begins some work. -/
inductive Moves (plan : Plan σ ω) : Weave σ ω → Thread σ ω → List (Nat × ω) → Weave σ ω → Prop
  | move {c : Weave σ ω} {before after : List (Thread σ ω)} {t : Thread σ ω} {strand : Strand σ ω} {h : σ}
    {begun : List (Nat × ω)} : c.threads = before ++ t :: after →
      t.strand.Moves plan c.Over c.state strand h begun →
        Moves plan c t begun ⟨h, before ++ { t with strand := strand } :: (after ++ begin plan begun)⟩

theorem Moves.mem {plan : Plan σ ω} {c c' : Weave σ ω} {t : Thread σ ω} {begun : List (Nat × ω)}
    (hm : c.Moves plan t begun c') : t ∈ c.threads := by
  obtain ⟨hc, -⟩ := hm
  rw [hc]
  exact List.mem_append_right _ List.mem_cons_self

/-- Threads stay, with their numbers and their work. -/
theorem Moves.stays {plan : Plan σ ω} {c c' : Weave σ ω} {t u : Thread σ ω} {begun : List (Nat × ω)}
    (hm : c.Moves plan t begun c') (hu : u ∈ c.threads) : ∃ strand, { u with strand := strand } ∈ c'.threads := by
  obtain @⟨before, after, _, strand, h, _, hc, -⟩ := hm
  rw [hc] at hu
  rcases List.mem_append.1 hu with hu | hu
  · exact ⟨u.strand, List.mem_append_left _ hu⟩
  · rcases List.mem_cons.1 hu with rfl | hu
    · exact ⟨strand, List.mem_append_right _ List.mem_cons_self⟩
    · exact ⟨u.strand, List.mem_append_right _ (List.mem_cons_of_mem _ (List.mem_append_left _ hu))⟩

/-- One thread makes a move. -/
def Step (plan : Plan σ ω) (c c' : Weave σ ω) : Prop := ∃ t begun, c.Moves plan t begun c'

/-- Threads make some moves, one after another. -/
def Steps (plan : Plan σ ω) : Weave σ ω → Weave σ ω → Prop := Relation.ReflTransGen (Step plan)

/-- All threads have ended. -/
def Finished (c : Weave σ ω) : Prop := ∀ t ∈ c.threads, t.strand = .ended

/-- In whatever order threads go on, at some point none can. -/
def Halts (plan : Plan σ ω) (c : Weave σ ω) : Prop := Acc (fun c' c => Step plan c c') c

end Weave

/-! ### Every strand comes to an end -/

/-- A strand stands where it may come to by one move of another. -/
def Strand.Follows (plan : Plan σ ω) (strand' strand : Strand σ ω) : Prop :=
  ∃ past h h' begun, strand.Moves plan past h strand' h' begun

namespace Strand

variable {plan : Plan σ ω}

theorem acc_ended : Acc (Follows plan) .ended :=
  ⟨_, fun _ ⟨_, _, _, _, hm⟩ => nomatch hm⟩

theorem acc_going {fiber : Fiber σ ω} (hf : ∀ h, Acc (Follows plan) (fiber.move plan h).1) :
    Acc (Follows plan) (.going fiber) := by
  refine ⟨_, ?_⟩
  rintro _ ⟨_, _, _, _, hm⟩
  cases hm
  exact hf _

theorem acc_both {first second : Strand σ ω} {next : Fiber σ ω} (h₁ : Acc (Follows plan) first)
    (h₂ : Acc (Follows plan) second) (hnext : Acc (Follows plan) (.going next)) :
    Acc (Follows plan) (.both first second next) := by
  induction h₁ generalizing second with | _ first hfirst ih₁
  induction h₂ with | _ second hsecond ih₂
  refine ⟨_, ?_⟩
  rintro _ ⟨past, h, h', begun, hm⟩
  cases hm with
  | first _ _ hm => exact ih₁ _ ⟨past, h, h', begun, hm⟩ ⟨_, hsecond⟩
  | second _ _ hm => exact ih₂ _ ⟨past, h, h', begun, hm⟩
  | meet => exact hnext

theorem acc_move (fiber : Fiber σ ω) (h : σ) : Acc (Follows plan) (fiber.move plan h).1 := by
  induction fiber generalizing h with
  | done => exact acc_ended
  | look next ih => exact ih h h
  | leave h' next ih => exact ih _
  | share id work next ih => exact ih h
  | spawn id work next ih => exact ih h
  | await id next ih =>
    refine ⟨_, ?_⟩
    rintro _ ⟨_, _, _, _, hm⟩
    cases hm
    exact ih _
  | join id limit next ih =>
    refine ⟨_, ?_⟩
    rintro _ ⟨_, _, _, _, hm⟩
    cases hm with
    | join => exact acc_going (ih true)
    | miss => exact acc_going (ih false)
  | sleep nanos next ih => exact acc_going ih
  | rest next ih => exact acc_going ih
  | consult next ih => exact acc_going ih
  | offload job next ih =>
    refine ⟨_, ?_⟩
    rintro _ ⟨_, _, _, _, hm⟩
    cases hm
    exact acc_going ih
  | both first second next ih₁ ih₂ ih₃ => exact acc_both (acc_going ih₁) (acc_going ih₂) (acc_going ih₃)

/-- No strand moves for ever. -/
theorem wellFounded_follows (plan : Plan σ ω) : WellFounded (Follows plan) := by
  refine ⟨fun strand => ?_⟩
  induction strand with
  | ended => exact acc_ended
  | going fiber => exact acc_going (acc_move fiber)
  | awaiting id next =>
    refine ⟨_, ?_⟩
    rintro _ ⟨_, _, _, _, hm⟩
    cases hm
    exact acc_move _ _
  | joining id limit next =>
    refine ⟨_, ?_⟩
    rintro _ ⟨_, _, _, _, hm⟩
    cases hm with
    | join => exact acc_going (acc_move _)
    | miss => exact acc_going (acc_move _)
  | working job next =>
    refine ⟨_, ?_⟩
    rintro _ ⟨_, _, _, _, hm⟩
    cases hm
    exact acc_going (acc_move _)
  | both first second next ih₁ ih₂ => exact acc_both ih₁ ih₂ (acc_going (acc_move next))

end Strand

namespace Weave

variable {plan : Plan σ ω}

/-- What is left to do: each thread with the grade of its work. -/
def remaining (grade : Option ω → Nat) (c : Weave σ ω) : Multiset (Nat × Strand σ ω) :=
  (c.threads.map fun t => (grade t.work, t.strand) : List (Nat × Strand σ ω))

/-- Where a thread begins only work of lower grades, less remains to be done after its move. -/
theorem remaining_lt {grade : Option ω → Nat} {c c' : Weave σ ω} {t : Thread σ ω} {begun : List (Nat × ω)}
    (hm : c.Moves plan t begun c') (hlow : ∀ p ∈ begun, grade (some p.2) < grade t.work) :
    Relation.CutExpand (Prod.Lex (· < ·) (Strand.Follows plan)) (c'.remaining grade) (c.remaining grade) := by
  obtain @⟨before, after, _, strand, h, _, hc, hmove⟩ := hm
  refine ⟨((grade t.work, strand) :: (begin plan begun).map fun t => (grade t.work, t.strand) :
    List (Nat × Strand σ ω)), (grade t.work, t.strand), ?_, ?_⟩
  · intro a ha
    rcases List.mem_cons.1 (Multiset.mem_coe.1 ha) with rfl | ha
    · exact Prod.Lex.right _ ⟨_, _, _, _, hmove⟩
    · obtain ⟨_, hb, rfl⟩ := List.mem_map.1 ha
      obtain ⟨p, hp, rfl⟩ := List.mem_map.1 hb
      exact Prod.Lex.left _ _ (hlow p hp)
  · unfold remaining
    rw [hc]
    simp only [List.map_append, List.map_cons, ← Multiset.coe_add, ← Multiset.cons_coe, ← Multiset.singleton_add]
    abel

/-- Threads halt in whatever order they go on, where each move that begins work of no lower grade lowers a rank, and
none raises it. -/
theorem halts_of_rank (I : Weave σ ω → Prop) (rank : Weave σ ω → Nat) (grade : Option ω → Nat)
    (hstep : ∀ c t begun c', I c → c.Moves plan t begun c' → I c' ∧ rank c' ≤ rank c ∧
      (rank c' < rank c ∨ ∀ p ∈ begun, grade (some p.2) < grade t.work)) {c : Weave σ ω} (hc : I c) :
    c.Halts plan := by
  have hgraded := WellFounded.prod_lex Nat.lt_wfRel.wf (Strand.wellFounded_follows plan)
  have hlex := WellFounded.prod_lex Nat.lt_wfRel.wf hgraded.cutExpand
  induction hm : (rank c, c.remaining grade) using hlex.induction generalizing c with | _ m ih
  refine ⟨_, ?_⟩
  rintro c' ⟨t, begun, hmove⟩
  obtain ⟨hc', hle, hlt⟩ := hstep c t begun c' hc hmove
  refine ih _ ?_ hc' rfl
  rw [← hm]
  rcases hlt with hlt | hlow
  · exact Prod.Lex.left _ _ hlt
  · rcases Nat.lt_or_eq_of_le hle with hlt | heq
    · exact Prod.Lex.left _ _ hlt
    · rw [heq]
      exact Prod.Lex.right _ (remaining_lt hmove hlow)

end Weave

/-! ### What comes in any order -/

namespace Weave

variable {plan : Plan σ ω}

/-- In whatever order threads go on, they come to where `P` holds. -/
inductive Comes (plan : Plan σ ω) (P : Weave σ ω → Prop) : Weave σ ω → Prop
  | here {c : Weave σ ω} : P c → Comes plan P c
  | next {c c' : Weave σ ω} : Step plan c c' → (∀ c', Step plan c c' → Comes plan P c') → Comes plan P c

/-- Where only the thread can go on that was begun last, they come to where its next move leads. -/
theorem comes_of_move {P : Weave σ ω → Prop} (before : List (Thread σ ω)) {id : Nat} {work : Option ω}
    {fiber : Fiber σ ω} {strand : Strand σ ω} {h h' : σ} {begun : List (Nat × ω)}
    (hmove : fiber.move plan h = (strand, h', begun))
    (hstuck : ∀ u ∈ before, ∀ strand h' begun,
      ¬u.strand.Moves plan (Over ⟨h, before ++ [⟨id, work, .going fiber⟩]⟩) h strand h' begun)
    (hnext : Comes plan P ⟨h', before ++ ⟨id, work, strand⟩ :: begin plan begun⟩) :
    Comes plan P ⟨h, before ++ [⟨id, work, .going fiber⟩]⟩ := by
  have hgoes : (Strand.going fiber).Moves plan (Over ⟨h, before ++ [⟨id, work, .going fiber⟩]⟩) h strand h' begun := by
    have hrun : (Strand.going fiber).Moves plan (Over ⟨h, before ++ [⟨id, work, .going fiber⟩]⟩) h _ _ _ := .run fiber h
    rwa [hmove] at hrun
  refine .next ⟨_, begun, .move rfl hgoes⟩ ?_
  rintro _ ⟨t, begun', hm⟩
  obtain @⟨before', after, _, strand', h'', _, hc, hmove'⟩ := hm
  rcases List.eq_nil_or_concat after with rfl | ⟨init, v, rfl⟩
  · obtain ⟨rfl, ht⟩ := List.append_inj' hc rfl
    obtain rfl := (List.cons.inj ht).1
    cases hmove'
    rwa [hmove]
  · -- a thread that was begun before
    have happend : before ++ [⟨id, work, .going fiber⟩] = (before' ++ t :: init) ++ [v] := by
      rw [show before ++ [⟨id, work, .going fiber⟩] = _ from hc]
      simp
    obtain ⟨rfl, -⟩ := List.append_inj' happend rfl
    exact (hstuck t (by simp) _ _ _ hmove').elim

end Weave

/-! ### Running a weave -/

/-- It has ended. -/
def Strand.isEnded : Strand σ ω → Bool
  | .ended => true
  | _ => false

/-- The next move of a strand, if it can make one; which work has ended is told by a test. -/
def Strand.next? (plan : Plan σ ω) (past : Nat → Bool) : Strand σ ω → σ → Option (Strand σ ω × σ × List (Nat × ω))
  | .ended, _ => none
  | .going fiber, h => some (fiber.move plan h)
  | .awaiting id next, h => if past id then some (next.move plan h) else none
  | .joining id limit next, h =>
    if past id then some (.going (next true), h, []) else limit.map fun _ => (.going (next false), h, [])
  | .working job next, h => some (.going next, (plan.collect (job h)).2, (plan.collect (job h)).1)
  | .both first second next, h =>
    if first.isEnded && second.isEnded then some (.going next, h, [])
    else
      match first.next? plan past h with
      | some (first', h', begun) => some (.both first' second next, h', begun)
      | none => (second.next? plan past h).map fun (second', h', begun) => (.both first second' next, h', begun)

namespace Strand

variable {plan : Plan σ ω} {past : Nat → Bool} {Over : Nat → Prop}

theorem eq_ended {s : Strand σ ω} (h : s.isEnded = true) : s = .ended := by
  cases s with
  | ended => rfl
  | _ => cases h

theorem moves_of_next? (hpast : ∀ id, past id = true → Over id) {s s' : Strand σ ω} {h h' : σ} {begun : List (Nat × ω)}
    (hs : s.next? plan past h = some (s', h', begun)) : s.Moves plan Over h s' h' begun := by
  induction s generalizing s' h' begun with
  | ended => cases hs
  | going fiber =>
    have hmove : fiber.move plan h = (s', h', begun) := Option.some.inj hs
    have hm : (Strand.going fiber).Moves plan Over h _ _ _ := .run fiber h
    rwa [hmove] at hm
  | awaiting id next =>
    unfold next? at hs
    split at hs
    · next ho =>
      have hm : (Strand.awaiting id next).Moves plan Over h _ _ _ := .wake next h (hpast id ho)
      rwa [Option.some.inj hs] at hm
    · cases hs
  | joining id limit next =>
    unfold next? at hs
    split at hs
    · next ho =>
      cases hs
      exact .join limit next h (hpast id ho)
    · cases limit with
      | none => cases hs
      | some limit =>
        cases hs
        exact .miss id limit next h
  | working job next =>
    cases hs
    exact .work job next h
  | both first second next ih₁ ih₂ =>
    unfold next? at hs
    split at hs
    · next he =>
      obtain ⟨h₁, h₂⟩ := Bool.and_eq_true_iff.1 he
      cases hs
      rw [eq_ended h₁, eq_ended h₂]
      exact .meet next h
    · split at hs
      · next hfirst =>
        cases hs
        exact .first second next (ih₁ hfirst)
      · obtain ⟨⟨second', h'', begun'⟩, hsecond, he⟩ := Option.map_eq_some_iff.1 hs
        cases he
        exact .second first next (ih₂ hsecond)

end Strand

namespace Weave

variable {plan : Plan σ ω} {c c' : Weave σ ω}

/-- Tests whether a thread with this number has ended. -/
def isOver (c : Weave σ ω) (id : Nat) : Bool := c.threads.any fun t => t.id == id && t.strand.isEnded

/-- Where all threads have ended none moves. -/
theorem not_step_of_finished (hf : c.Finished) (c' : Weave σ ω) : ¬c.Step plan c' := by
  rintro ⟨t, begun, hm⟩
  have ht := hm.mem
  obtain ⟨-, hmove⟩ := hm
  rw [hf t ht] at hmove
  cases hmove

/-- Tests whether all threads have ended. -/
def isFinished (c : Weave σ ω) : Bool := c.threads.all fun t => t.strand.isEnded

theorem finished_of_isFinished (h : c.isFinished = true) : c.Finished := fun t ht =>
  Strand.eq_ended (List.all_eq_true.1 h t ht)

theorem not_step_of_isFinished (h : c.isFinished = true) (c' : Weave σ ω) : ¬c.Step plan c' :=
  not_step_of_finished (finished_of_isFinished h) c'

/-- What becomes of a weave when the thread at a place makes a move, if it can. -/
def turn? (plan : Plan σ ω) (c : Weave σ ω) (place : Nat) : Option (Weave σ ω) :=
  match c.threads.drop place with
  | [] => none
  | t :: after => (t.strand.next? plan c.isOver c.state).map fun (strand, h, begun) =>
      ⟨h, c.threads.take place ++ { t with strand := strand } :: (after ++ begin plan begun)⟩

theorem over_of_isOver {id : Nat} (h : c.isOver id = true) : c.Over id := by
  obtain ⟨t, ht, he⟩ := List.any_eq_true.1 h
  obtain ⟨hid, hended⟩ := Bool.and_eq_true_iff.1 he
  exact ⟨t, ht, beq_iff_eq.1 hid, Strand.eq_ended hended⟩

theorem step_of_turn? {place : Nat} (h : c.turn? plan place = some c') : c.Step plan c' := by
  unfold turn? at h
  split at h
  · cases h
  · next t after hdrop =>
    obtain ⟨⟨strand, state, begun⟩, hnext, he⟩ := Option.map_eq_some_iff.1 h
    cases he
    have hthreads : c.threads = c.threads.take place ++ t :: after := by rw [← hdrop, List.take_append_drop]
    exact ⟨t, begun, .move hthreads (Strand.moves_of_next? (fun _ => over_of_isOver) hnext)⟩

/-- What becomes of a weave when threads at some places make moves, one after another. -/
def turns? (plan : Plan σ ω) (c : Weave σ ω) : List Nat → Option (Weave σ ω)
  | [] => some c
  | place :: places => (c.turn? plan place).bind fun c' => c'.turns? plan places

theorem steps_of_turns? {places : List Nat} (h : c.turns? plan places = some c') : c.Steps plan c' := by
  induction places generalizing c with
  | nil =>
    cases h
    exact .refl
  | cons place places ih =>
    obtain ⟨c₁, hturn, hrest⟩ := Option.bind_eq_some_iff.1 h
    exact .head (step_of_turn? hturn) (ih hrest)

end Weave

end ScriptVault

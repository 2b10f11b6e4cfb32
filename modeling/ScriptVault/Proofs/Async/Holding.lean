import Mathlib.Algebra.BigOperators.Group.List.Basic
import ScriptVault.Proofs.Async.Steady

/-!
# Holding — what fibers have taken and not yet given back

A fiber may take something from the state that all share and give it back later, and others do the same in between.
Which of them took what a state does not tell: it only fits what all have out together.  A fiber that ends has given
back all that it took, so when all that take something have ended nothing is out.
-/

namespace ScriptVault

variable {σ ω μ α β : Type} [AddCommMonoid μ] {may : ω → Prop} {fits : σ → μ → Prop}

/-- A change that fits whatever is out, before and after. -/
def Conserves (fits : σ → μ → Prop) (s s' : σ) : Prop := ∀ out, fits s out → fits s' out

/-! ### Fibers -/

/-- From a state on, a fiber that has `m` out has nothing out once it ends, and begins only work that it may begin.  At each
point where it waits the state may be any other one: what it takes or gives back then is told by what all have out
together. -/
def Fiber.Holds (may : ω → Prop) (fits : σ → μ → Prop) : Fiber σ ω → μ → σ → Prop
  | .done, m, _ => m = 0
  | .look next, m, s => (next s).Holds may fits m s
  | .leave state next, m, s =>
    ∃ m', (∀ others, fits s (m + others) → fits state (m' + others)) ∧ ∀ s', next.Holds may fits m' s'
  | .share _ work next, m, s => may work ∧ next.Holds may fits m s
  | .await _ next, m, _ => ∀ s', next.Holds may fits m s'
  | .spawn _ work next, m, s => may work ∧ next.Holds may fits m s
  | .join _ _ next, m, _ => ∀ b s', (next b).Holds may fits m s'
  | .sleep _ next, m, _ => ∀ s', next.Holds may fits m s'
  | .rest next, m, _ => ∀ s', next.Holds may fits m s'
  | .consult next, m, _ => ∀ s', next.Holds may fits m s'
  | .offload job next, m, _ => (∀ s, Conserves fits s (job s)) ∧ ∀ s', next.Holds may fits m s'
  | .both first second next, m, _ =>
    ∃ a b c, m = a + b + c ∧ (∀ s', first.Holds may fits a s') ∧ (∀ s', second.Holds may fits b s') ∧
      ∀ s', next.Holds may fits c s'

/-- A computation that begins with `m` out ends with what its result tells, and what comes after it begins in any
state. -/
def Async.Trades (may : ω → Prop) (fits : σ → μ → Prop) (m : μ) (x : Async σ ω α) (m' : α → μ) : Prop :=
  ∀ k, (∀ a s, (k a).Holds may fits (m' a) s) → ∀ s, (x k).Holds may fits m s

/-- A computation that begins with `m` out has `m` out when it ends. -/
def Async.Restores (may : ω → Prop) (fits : σ → μ → Prop) (m : μ) (x : Async σ ω α) : Prop := x.Trades may fits m fun _ => m

namespace Async

variable {m : μ}

/-! #### Trading one thing for another -/

theorem trades_pure (a : α) {m' : α → μ} (hm : m' a = m) : Trades may fits m (pure a : Async σ ω α) m' :=
  fun _ hk => hm ▸ hk a

theorem trades_bind {x : Async σ ω α} {f : α → Async σ ω β} {m₁ : α → μ} {m₂ : β → μ} (hx : x.Trades may fits m m₁)
    (hf : ∀ a, (f a).Trades may fits (m₁ a) m₂) : (x >>= f).Trades may fits m m₂ :=
  fun k hk => hx _ fun a => hf a k hk

theorem trades_discard {x : Async σ ω α} {m' : μ} (hx : x.Trades may fits m fun _ => m') :
    (discard x).Trades may fits m fun _ => m' := by
  show (x >>= fun _ => pure ()).Trades may fits m _
  exact trades_bind hx fun _ => trades_pure () rfl

theorem trades_step {f : σ → α × σ} {m' : α → μ}
    (hf : ∀ s others, fits s (m + others) → fits (f s).2 (m' (f s).1 + others)) :
    Trades may fits m (step f : Async σ ω α) m' := fun _ hk s => ⟨m' (f s).1, hf s, hk _⟩

theorem holds_fiber {x : Async σ ω α} (hx : x.Trades may fits m fun _ => 0) (s : σ) : x.fiber.Holds may fits m s := by
  refine hx _ (fun a s => ?_) s
  rfl

/-- Computations side by side, each of which has something out at its begin. -/
theorem trades_all {ι : Type} {x : ι → Async σ ω Unit} (held : ι → μ) {is : List ι}
    (hx : ∀ i ∈ is, (x i).Trades may fits (held i) fun _ => 0) :
    Trades may fits ((is.map held).sum + m) (all (is.map x)) fun _ => m := by
  induction is generalizing m with
  | nil =>
    refine trades_pure () ?_
    simp
  | cons i is ih =>
    intro k hk s
    have hrest : (all (is.map x)).Trades may fits ((is.map held).sum + 0) fun _ => 0 :=
      ih fun j hj => hx j (List.mem_cons_of_mem _ hj)
    rw [add_zero] at hrest
    refine ⟨held i, (is.map held).sum, m, by simp, ?_, ?_, hk ()⟩
    · exact holds_fiber (hx i List.mem_cons_self)
    · exact holds_fiber hrest

/-! #### Giving back what was taken -/

theorem restores_pure (a : α) : Restores may fits m (pure a : Async σ ω α) := trades_pure a rfl

theorem restores_bind {x : Async σ ω α} {f : α → Async σ ω β} (hx : x.Restores may fits m)
    (hf : ∀ a, (f a).Restores may fits m) : (x >>= f).Restores may fits m := trades_bind hx hf

theorem restores_view (f : σ → α) : Restores may fits m (view f : Async σ ω α) := fun _ hk s => hk (f s) s

theorem restores_step {f : σ → α × σ} (hf : ∀ s, Conserves fits s (f s).2) :
    Restores may fits m (step f : Async σ ω α) := trades_step fun s _ => hf s _

/-- What is done at once may have no answer only where nothing is out. -/
theorem restores_act {x : StateT σ Option α} (hx : ∀ s a s', x s = some (a, s') → Conserves fits s s')
    (hanswer : m = 0 ∨ ∀ s, (x s).isSome) : Restores may fits m (act x : Async σ ω α) := by
  intro k hk s
  simp only [act, Fiber.Holds]
  cases hs : x s with
  | none =>
    have hzero := hanswer.resolve_right fun h => by simpa [hs] using h s
    exact hzero
  | some r => exact ⟨m, fun _ => hx s r.1 r.2 hs _, hk _⟩

theorem restores_offload {job : σ → σ} (hjob : ∀ s, Conserves fits s (job s)) :
    Restores may fits m (offload job : Async σ ω Unit) := fun _ hk _ => ⟨hjob, hk ()⟩

theorem restores_share (id : Nat) {work : ω} (hwork : may work) : Restores may fits m (share id work) :=
  fun _ hk s => ⟨hwork, hk () s⟩

theorem restores_spawn (id : Nat) {work : ω} (hwork : may work) : Restores may fits m (spawn id work) :=
  fun _ hk s => ⟨hwork, hk () s⟩

theorem restores_await (id : Nat) : Restores may fits m (await id : Async σ ω Unit) := fun _ hk _ => hk ()

theorem restores_join (id : Nat) (limit : Option Nat) : Restores may fits m (join id limit : Async σ ω Bool) :=
  fun _ hk _ => hk

theorem restores_sleep (nanos : Nat) : Restores may fits m (sleep nanos : Async σ ω Unit) := fun _ hk _ => hk ()

theorem restores_rest : Restores may fits m (rest : Async σ ω Unit) := fun _ hk _ => hk ()

theorem restores_consult : Restores may fits m (consult : Async σ ω Unit) := fun _ hk _ => hk ()

theorem restores_all {xs : List (Async σ ω Unit)} (hxs : ∀ x ∈ xs, x.Restores may fits 0) :
    Restores may fits m (all xs) := by
  have hall := trades_all (m := m) (fun _ => 0) hxs
  rwa [List.sum_map_zero, zero_add, List.map_id'] at hall

/-- What is taken before a computation and given back after it. -/
theorem restores_bracket {d : μ} {take give : σ → σ} (htake : ∀ s out, fits s out → fits (take s) (d + out))
    (hgive : ∀ s out, fits s (d + out) → fits (give s) out) {x : Async σ ω α} (hx : x.Restores may fits (d + m)) :
    Restores may fits m (do
      change take
      let a ← x
      change give
      return a) := by
  intro k hk s
  refine ⟨d + m, fun others hs => ?_, hx _ fun a s => ⟨m, fun others hs => ?_, hk a⟩⟩
  · rw [add_assoc]
    exact htake s _ hs
  · rw [add_assoc] at hs
    exact hgive s _ hs

end Async

/-! ### Weaves -/

/-- A strand that has `m` out has nothing out once it ends. -/
def Strand.Holds (may : ω → Prop) (fits : σ → μ → Prop) : Strand σ ω → μ → Prop
  | .ended, m => m = 0
  | .going fiber, m => ∀ s, fiber.Holds may fits m s
  | .awaiting _ next, m => ∀ s, next.Holds may fits m s
  | .joining _ _ next, m => ∀ b s, (next b).Holds may fits m s
  | .working job next, m => (∀ s, Conserves fits s (job s)) ∧ ∀ s, next.Holds may fits m s
  | .both first second next, m =>
    ∃ a b c, m = a + b + c ∧ first.Holds may fits a ∧ second.Holds may fits b ∧ ∀ s, next.Holds may fits c s

/-- A thread that takes something has it out; one that takes nothing makes only changes that fit whatever is out. -/
structure Thread.Holds (may : ω → Prop) (fits : σ → μ → Prop) (takes : Option ω → Prop) (t : Thread σ ω) (m : μ) :
    Prop where
  strand : takes t.work → t.strand.Holds may fits m
  steady : ¬takes t.work → m = 0 ∧ t.strand.Steady may (Conserves fits)

/-- What is out at the begin of some work. -/
def owed (owes : ω → μ) (begun : List (Nat × ω)) : μ := (begun.map fun p => owes p.2).sum

/-- Work gives back what it has out from its begin and all that it takes, if it takes anything.  Only tasks that are taken
up may have something out from their begin. -/
structure Plan.Restores (may : ω → Prop) (fits : σ → μ → Prop) (takes : Option ω → Prop) (owes : ω → μ)
    (plan : Plan σ ω) : Prop where
  perform : ∀ id work, takes (some work) → ∀ s, (plan.perform id work).Holds may fits (owes work) s
  steady : ∀ id work, ¬takes (some work) → owes work = 0 ∧ ∀ s, (plan.perform id work).Steady may (Conserves fits) s
  free : ∀ work, may work → owes work = 0
  collect : ∀ s out, fits s out → fits (plan.collect s).2 (owed owes (plan.collect s).1 + out)

/-- Each thread has something out, and all that is out together fits the state. -/
def Weave.Holds (may : ω → Prop) (fits : σ → μ → Prop) (takes : Option ω → Prop) (c : Weave σ ω) : Prop :=
  ∃ held : List (Thread σ ω × μ), c.threads = held.map Prod.fst ∧ (∀ p ∈ held, p.1.Holds may fits takes p.2) ∧
    fits c.state (held.map Prod.snd).sum

section

variable {takes : Option ω → Prop} {owes : ω → μ}

theorem owed_nil_add (out : μ) : owed owes [] + out = out := by simp [owed]

theorem owed_cons (p : Nat × ω) (begun : List (Nat × ω)) : owed owes (p :: begun) = owes p.2 + owed owes begun := by
  simp [owed]

theorem owed_append (begun more : List (Nat × ω)) : owed owes (begun ++ more) = owed owes begun + owed owes more := by
  simp [owed]

@[simp] theorem owed_zero (begun : List (Nat × ω)) : owed (fun _ => (0 : μ)) begun = 0 := by simp [owed]

/-- Where nothing was begun nothing more is out. -/
theorem fits_unbegun {m others : μ} {s : σ} (hs : fits s (m + others)) : fits s (m + (owed owes [] + others)) := by
  rwa [owed_nil_add]

variable {plan : Plan σ ω} (hplan : plan.Restores may fits takes owes)

include hplan

theorem Fiber.holds_move {fiber : Fiber σ ω} {m others : μ} {s : σ} (hf : fiber.Holds may fits m s)
    (hs : fits s (m + others)) :
    ∃ m', (fiber.move plan s).1.Holds may fits m' ∧
      fits (fiber.move plan s).2.1 (m' + (owed owes (fiber.move plan s).2.2 + others)) := by
  induction fiber generalizing m s others with
  | done => exact ⟨m, hf, fits_unbegun hs⟩
  | look next ih => exact ih s hf hs
  | leave state next ih =>
    obtain ⟨m', hleave, hnext⟩ := hf
    have htaken := hplan.collect state _ (hleave others hs)
    rw [add_left_comm] at htaken
    obtain ⟨m'', hstrand, hs'⟩ := ih (hnext _) htaken
    refine ⟨m'', hstrand, ?_⟩
    show fits _ (m'' + (owed owes ((plan.collect state).1 ++ _) + others))
    rwa [owed_append, add_comm (owed owes (plan.collect state).1), add_assoc]
  | share id work next ih =>
    obtain ⟨m', hstrand, hs'⟩ := ih hf.2 hs
    refine ⟨m', hstrand, ?_⟩
    show fits _ (m' + (owed owes ((id, work) :: _) + others))
    rwa [owed_cons, hplan.free work hf.1, zero_add]
  | spawn id work next ih =>
    obtain ⟨m', hstrand, hs'⟩ := ih hf.2 hs
    refine ⟨m', hstrand, ?_⟩
    show fits _ (m' + (owed owes ((id, work) :: _) + others))
    rwa [owed_cons, hplan.free work hf.1, zero_add]
  | await id next ih => exact ⟨m, hf, fits_unbegun hs⟩
  | join id limit next ih => exact ⟨m, hf, fits_unbegun hs⟩
  | sleep nanos next ih => exact ⟨m, hf, fits_unbegun hs⟩
  | rest next ih => exact ⟨m, hf, fits_unbegun hs⟩
  | consult next ih => exact ⟨m, hf, fits_unbegun hs⟩
  | offload job next ih => exact ⟨m, hf, fits_unbegun hs⟩
  | both first second next => exact ⟨m, hf, fits_unbegun hs⟩

theorem Strand.Moves.holds {past : Nat → Prop} {strand strand' : Strand σ ω} {s s' : σ} {begun : List (Nat × ω)}
    (hm : strand.Moves plan past s strand' s' begun) {m others : μ} (hstrand : strand.Holds may fits m)
    (hs : fits s (m + others)) : ∃ m', strand'.Holds may fits m' ∧ fits s' (m' + (owed owes begun + others)) := by
  induction hm generalizing m others with
  | run fiber s => exact Fiber.holds_move hplan (hstrand s) hs
  | wake next s _ => exact Fiber.holds_move hplan (hstrand s) hs
  | join limit next s _ => exact ⟨m, hstrand true, fits_unbegun hs⟩
  | miss id limit next s => exact ⟨m, hstrand false, fits_unbegun hs⟩
  | work job next s =>
    obtain ⟨hjob, hnext⟩ := hstrand
    have htaken := hplan.collect _ _ (hjob s _ hs)
    rw [add_left_comm] at htaken
    exact ⟨m, hnext, htaken⟩
  | @first _ first' h _ begun second next _ ih =>
    obtain ⟨a, b, c, rfl, hfirst, hsecond, hnext⟩ := hstrand
    have hsplit : a + b + c + others = a + (b + c + others) := by abel
    rw [hsplit] at hs
    obtain ⟨a', hfirst', hs'⟩ := ih hfirst hs
    refine ⟨a' + b + c, ⟨a', b, c, rfl, hfirst', hsecond, hnext⟩, ?_⟩
    have hjoin : a' + b + c + (owed owes begun + others) = a' + (owed owes begun + (b + c + others)) := by abel
    rwa [hjoin]
  | @second _ second' h _ begun first next _ ih =>
    obtain ⟨a, b, c, rfl, hfirst, hsecond, hnext⟩ := hstrand
    have hsplit : a + b + c + others = b + (a + c + others) := by abel
    rw [hsplit] at hs
    obtain ⟨b', hsecond', hs'⟩ := ih hsecond hs
    refine ⟨a + b' + c, ⟨a, b', c, rfl, hfirst, hsecond', hnext⟩, ?_⟩
    have hjoin : a + b' + c + (owed owes begun + others) = b' + (owed owes begun + (a + c + others)) := by abel
    rwa [hjoin]
  | meet next s =>
    obtain ⟨a, b, c, rfl, rfl, rfl, hnext⟩ := hstrand
    refine ⟨0 + 0 + c, ?_, fits_unbegun hs⟩
    rw [zero_add, zero_add]
    exact hnext

theorem Fiber.steady_move {fiber : Fiber σ ω} {out : μ} {s : σ} (hf : fiber.Steady may (Conserves fits) s)
    (hs : fits s out) :
    (fiber.move plan s).1.Steady may (Conserves fits) ∧
      fits (fiber.move plan s).2.1 (owed owes (fiber.move plan s).2.2 + out) := by
  have hunbegun {s : σ} {out : μ} (hs : fits s out) : fits s (owed owes [] + out) := by rwa [owed_nil_add]
  induction fiber generalizing s out with
  | done => exact ⟨hf, hunbegun hs⟩
  | look next ih => exact ih s hf hs
  | leave state next ih =>
    obtain ⟨hstrand, hs'⟩ := ih (hf.2 _) (hplan.collect state _ (hf.1 out hs))
    refine ⟨hstrand, ?_⟩
    show fits _ (owed owes ((plan.collect state).1 ++ _) + out)
    rwa [owed_append, add_comm (owed owes (plan.collect state).1), add_assoc]
  | share id work next ih =>
    obtain ⟨hstrand, hs'⟩ := ih hf.2 hs
    refine ⟨hstrand, ?_⟩
    show fits _ (owed owes ((id, work) :: _) + out)
    rwa [owed_cons, hplan.free work hf.1, zero_add]
  | spawn id work next ih =>
    obtain ⟨hstrand, hs'⟩ := ih hf.2 hs
    refine ⟨hstrand, ?_⟩
    show fits _ (owed owes ((id, work) :: _) + out)
    rwa [owed_cons, hplan.free work hf.1, zero_add]
  | await id next ih => exact ⟨hf, hunbegun hs⟩
  | join id limit next ih => exact ⟨hf, hunbegun hs⟩
  | sleep nanos next ih => exact ⟨hf, hunbegun hs⟩
  | rest next ih => exact ⟨hf, hunbegun hs⟩
  | consult next ih => exact ⟨hf, hunbegun hs⟩
  | offload job next ih => exact ⟨hf, hunbegun hs⟩
  | both first second next => exact ⟨hf, hunbegun hs⟩

theorem Strand.Moves.steady {past : Nat → Prop} {strand strand' : Strand σ ω} {s s' : σ} {begun : List (Nat × ω)}
    (hm : strand.Moves plan past s strand' s' begun) {out : μ} (hstrand : strand.Steady may (Conserves fits))
    (hs : fits s out) : strand'.Steady may (Conserves fits) ∧ fits s' (owed owes begun + out) := by
  have hunbegun {s : σ} {out : μ} (hs : fits s out) : fits s (owed owes [] + out) := by rwa [owed_nil_add]
  induction hm with
  | run fiber s => exact Fiber.steady_move hplan (hstrand s) hs
  | wake next s _ => exact Fiber.steady_move hplan (hstrand s) hs
  | join limit next s _ => exact ⟨hstrand true, hunbegun hs⟩
  | miss id limit next s => exact ⟨hstrand false, hunbegun hs⟩
  | work job next s =>
    obtain ⟨hjob, hnext⟩ := hstrand
    exact ⟨hnext, hplan.collect _ _ (hjob s _ hs)⟩
  | first second next _ ih =>
    obtain ⟨hfirst, hsecond, hnext⟩ := hstrand
    obtain ⟨hfirst', hs'⟩ := ih hfirst hs
    exact ⟨⟨hfirst', hsecond, hnext⟩, hs'⟩
  | second first next _ ih =>
    obtain ⟨hfirst, hsecond, hnext⟩ := hstrand
    obtain ⟨hsecond', hs'⟩ := ih hsecond hs
    exact ⟨⟨hfirst, hsecond', hnext⟩, hs'⟩
  | meet next s => exact ⟨hstrand.2.2, hunbegun hs⟩

/-- A move of a thread leads to one that has something out again, be it nothing. -/
theorem Thread.Holds.moved {past : Nat → Prop} {t : Thread σ ω} {strand : Strand σ ω} {s s' : σ}
    {begun : List (Nat × ω)} {m others : μ} (ht : t.Holds may fits takes m)
    (hm : t.strand.Moves plan past s strand s' begun) (hs : fits s (m + others)) :
    ∃ m', Thread.Holds may fits takes { t with strand := strand } m' ∧ fits s' (m' + (owed owes begun + others)) := by
  by_cases htakes : takes t.work
  · obtain ⟨m', hstrand, hs'⟩ := hm.holds hplan (ht.strand htakes) hs
    exact ⟨m', ⟨fun _ => hstrand, fun hno => absurd htakes hno⟩, hs'⟩
  · obtain ⟨rfl, hsteady⟩ := ht.steady htakes
    obtain ⟨hstrand, hs'⟩ := hm.steady hplan hsteady hs
    rw [add_left_comm] at hs'
    exact ⟨0, ⟨fun hyes => absurd hyes htakes, fun _ => ⟨rfl, hstrand⟩⟩, hs'⟩

namespace Weave

variable {c c' : Weave σ ω}

/-- Threads for work that has just begun, with what each has out from its begin. -/
def owing (plan : Plan σ ω) (owes : ω → μ) (begun : List (Nat × ω)) : List (Thread σ ω × μ) :=
  begun.map fun p => (⟨p.1, some p.2, .going (plan.perform p.1 p.2)⟩, owes p.2)

omit [AddCommMonoid μ] hplan in
theorem owing_threads (begun : List (Nat × ω)) : (owing plan owes begun).map Prod.fst = begin plan begun := by
  simp [owing, begin]

omit hplan in
theorem owing_sum (begun : List (Nat × ω)) : ((owing plan owes begun).map Prod.snd).sum = owed owes begun := by
  simp [owing, owed, Function.comp_def]

theorem holds_owing {begun : List (Nat × ω)} : ∀ p ∈ owing plan owes begun, p.1.Holds may fits takes p.2 := by
  intro p hp
  obtain ⟨⟨id, work⟩, -, rfl⟩ := List.mem_map.1 hp
  exact ⟨fun htakes => hplan.perform id work htakes, fun htakes => hplan.steady id work htakes⟩

theorem Step.holds (hstep : c.Step plan c') (hc : c.Holds may fits takes) : c'.Holds may fits takes := by
  obtain ⟨t, begun, hm⟩ := hstep
  obtain @⟨before, after, _, strand, s', _, hthreads, hmove⟩ := hm
  obtain ⟨held, hheld, hholds, hfits⟩ := hc
  rw [hthreads] at hheld
  obtain ⟨first, rest, rfl, rfl, hrest⟩ := List.map_eq_append_iff.1 hheld.symm
  obtain ⟨⟨t, m⟩, last, rfl, rfl, rfl⟩ := List.map_eq_cons_iff.1 hrest
  have hsplit : ((first ++ (t, m) :: last).map Prod.snd).sum =
      m + ((first.map Prod.snd).sum + (last.map Prod.snd).sum) := by
    simp only [List.map_append, List.map_cons, List.sum_append, List.sum_cons]
    abel
  rw [hsplit] at hfits
  have ht := hholds (t, m) (List.mem_append_right _ List.mem_cons_self)
  obtain ⟨m', hthread, hs'⟩ := ht.moved hplan hmove hfits
  refine ⟨first ++ ({ t with strand := strand }, m') :: (last ++ owing plan owes begun), ?_, ?_, ?_⟩
  · simp [owing_threads]
  · refine List.forall_mem_append.2 ⟨fun p hp => hholds p (List.mem_append_left _ hp), ?_⟩
    refine List.forall_mem_cons.2 ⟨hthread, List.forall_mem_append.2 ⟨fun p hp => ?_, holds_owing hplan⟩⟩
    exact hholds p (List.mem_append_right _ (List.mem_cons_of_mem _ hp))
  · have hjoin : ((first ++ ({ t with strand := strand }, m') :: (last ++ owing plan owes begun)).map Prod.snd).sum =
        m' + (owed owes begun + ((first.map Prod.snd).sum + (last.map Prod.snd).sum)) := by
      simp only [List.map_append, List.map_cons, List.sum_append, List.sum_cons, owing_sum]
      abel
    rwa [hjoin]

theorem Steps.holds (hsteps : c.Steps plan c') (hc : c.Holds may fits takes) : c'.Holds may fits takes := by
  induction hsteps with
  | refl => exact hc
  | tail _ hstep ih => exact hstep.holds hplan ih

/-- Work begins beside threads that have something out. -/
theorem holds_beside {s : σ} {held : List (Thread σ ω × μ)} (hheld : ∀ p ∈ held, p.1.Holds may fits takes p.2)
    {begun : List (Nat × ω)} (hs : fits s ((held.map Prod.snd).sum + owed owes begun)) :
    Holds may fits takes ⟨s, held.map Prod.fst ++ begin plan begun⟩ := by
  refine ⟨held ++ owing plan owes begun, ?_, List.forall_mem_append.2 ⟨hheld, holds_owing hplan⟩, ?_⟩
  · simp [owing_threads]
  · simpa [owing_sum] using hs

theorem holds_begin {s : σ} {begun : List (Nat × ω)} (hs : fits s (owed owes begun)) :
    Holds may fits takes ⟨s, begin plan begun⟩ := by
  have hnobody : ∀ p ∈ ([] : List (Thread σ ω × μ)), p.1.Holds may fits takes p.2 := nofun
  exact holds_beside hplan hnobody (by simpa using hs)

omit hplan in
/-- Where all threads have ended that take anything nothing is out. -/
theorem Holds.ended (hc : c.Holds may fits takes) (hended : ∀ t ∈ c.threads, takes t.work → t.strand = .ended) :
    fits c.state 0 := by
  obtain ⟨held, hheld, hholds, hfits⟩ := hc
  have hzero : ∀ m ∈ held.map Prod.snd, m = 0 := by
    intro m hm
    obtain ⟨⟨t, m⟩, hp, rfl⟩ := List.mem_map.1 hm
    have ht : t ∈ c.threads := by rw [hheld]; exact List.mem_map_of_mem hp
    by_cases htakes : takes t.work
    · have hstrand := (hholds (t, m) hp).strand htakes
      rwa [hended t ht htakes] at hstrand
    · exact ((hholds (t, m) hp).steady htakes).1
  rwa [List.sum_eq_zero hzero] at hfits

end Weave

end

end ScriptVault

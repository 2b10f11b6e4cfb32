import Mathlib.Data.List.MinMax
import ScriptVault.Failure
import ScriptVault.Proofs.Async.Weave

/-!
# Pact — threads that keep to what they owe each other

Between two of its moves a thread has to be ready for whatever others do.  A pact says what a thread may do to what all
share, and so what others can count on; beside the state it may keep notes that no fiber sees.  A fiber keeps to a pact
if each change that it makes is one that its thread may make, however others have kept to it where it waited.  Then all
threads of a weave keep to the pact, what each comes to when it ends can be told, and they never wait for each other in
a circle: work is only waited for by work of smaller numbers.
-/

namespace ScriptVault

variable {σ ω γ α β : Type}

/-- What threads share: the state, their numbers, and notes. -/
structure View (σ ω γ : Type) where
  /-- The state. -/
  state : σ
  /-- The threads that were begun, by their numbers: each with its work, if it does any. -/
  threads : Nat → Option (Option ω)
  /-- What is kept beside. -/
  notes : γ

/-- The work of a thread is begun. -/
def View.Works (x : View σ ω γ) (id : Nat) (work : ω) : Prop := x.threads id = some (some work)

/-- In a later view just this work is begun as well. -/
structure View.Grows (x y : View σ ω γ) (begun : List (Nat × ω)) : Prop where
  /-- The work was not begun before, and is now. -/
  new : ∀ p ∈ begun, x.threads p.1 = none ∧ y.Works p.1 p.2
  /-- No other work is begun, and none forgotten. -/
  rest : ∀ i, (∀ p ∈ begun, p.1 ≠ i) → y.threads i = x.threads i
  /-- Each work has a number of its own. -/
  distinct : (begun.map Prod.fst).Nodup

/-- What threads owe each other. -/
structure Pact (σ ω γ : Type) where
  /-- What holds after every change. -/
  inv : View σ ω γ → Prop
  /-- What the thread of a number may do. -/
  move : Nat → View σ ω γ → View σ ω γ → Prop
  /-- What all threads keep. -/
  keep : View σ ω γ → View σ ω γ → Prop
  /-- What is left alone that only the thread of a number may touch. -/
  own : Nat → View σ ω γ → View σ ω γ → Prop
  /-- What is known of work when it is begun. -/
  begun : Nat → ω → View σ ω γ → Prop
  /-- What is known of work that has ended. -/
  told : Nat → View σ ω γ → Prop
  /-- The state is still to hear of work. -/
  opens : σ → Nat → Prop
  move_refl : ∀ i x, move i x x
  move_trans : ∀ {i x y z}, move i x y → move i y z → move i x z
  keep_refl : ∀ x, keep x x
  keep_trans : ∀ {x y z}, keep x y → keep y z → keep x z
  own_refl : ∀ i x, own i x x
  own_trans : ∀ {i x y z}, own i x y → own i y z → own i x z
  keep_threads : ∀ {x y i w}, keep x y → x.threads i = some w → y.threads i = some w
  keep_of_move : ∀ {i x y}, inv x → inv y → move i x y → keep x y
  own_of_move : ∀ {i j x y}, inv x → inv y → move i x y → j ≠ i → own j x y

namespace View

variable {x y z : View σ ω γ} {a b : List (Nat × ω)}

theorem Grows.of_eq (h : y.threads = x.threads) : x.Grows y [] :=
  ⟨nofun, fun _ _ => congrFun h _, List.nodup_nil⟩

theorem Grows.refl (x : View σ ω γ) : x.Grows x [] := .of_eq rfl

theorem Grows.trans (h₁ : x.Grows y a) (h₂ : y.Grows z b) : x.Grows z (a ++ b) := by
  have hdisjoint : ∀ p ∈ a, ∀ q ∈ b, q.1 ≠ p.1 := fun p hp q hq he => by
    have hnone := (h₂.new q hq).1
    have hsome := (h₁.new p hp).2
    rw [← he] at hsome
    exact nomatch hnone.symm.trans hsome
  refine ⟨fun p hp => ?_, fun i hi => ?_, ?_⟩
  · rcases List.mem_append.1 hp with hp | hp
    · exact ⟨(h₁.new p hp).1, (h₂.rest p.1 (hdisjoint p hp)).trans (h₁.new p hp).2⟩
    · refine ⟨?_, (h₂.new p hp).2⟩
      rw [← h₁.rest p.1 fun q hq => (hdisjoint q hq p hp).symm]
      exact (h₂.new p hp).1
  · rw [h₂.rest i fun p hp => hi p (List.mem_append_right a hp), h₁.rest i fun p hp => hi p (List.mem_append_left b hp)]
  · rw [List.map_append]
    refine List.nodup_append.2 ⟨h₁.distinct, h₂.distinct, fun i hi j hj he => ?_⟩
    obtain ⟨p, hp, rfl⟩ := List.mem_map.1 hi
    obtain ⟨q, hq, rfl⟩ := List.mem_map.1 hj
    exact hdisjoint p hp q hq he.symm

end View

/-- A moment in a move of a fiber. -/
structure Moment (σ ω γ : Type) where
  /-- What it sees. -/
  view : View σ ω γ
  /-- The work whose end others see to. -/
  others : Nat → Prop
  /-- Work that counts as begun and is to be begun next. -/
  owed : Option (Nat × ω) := none

namespace Pact

variable (P : Pact σ ω γ) (me : Nat) (main : Bool)

/-- What a thread sees of the moves of others; the parts of a fiber that run side by side own nothing. -/
structure Sees (x y : View σ ω γ) : Prop where
  inv : P.inv y
  keep : P.keep x y
  own : main = true → P.own me x y

/-- What a thread does, or a part of it that runs beside another part. -/
structure Acts (x y : View σ ω γ) : Prop where
  inv : P.inv y
  move : P.move me x y
  own : main = false → P.own me x y

/-- Others see to the end of all that the state is still to hear of, one work apart perhaps. -/
def Fits (x : View σ ω γ) (others : Nat → Prop) (but : Option Nat := none) : Prop :=
  ∀ w, P.opens x.state w → others w ∨ but = some w

variable {P me main} {x y z : View σ ω γ}

theorem Sees.refl (hx : P.inv x) : P.Sees me main x x := ⟨hx, P.keep_refl x, fun _ => P.own_refl me x⟩

theorem Sees.trans (a : P.Sees me main x y) (b : P.Sees me main y z) : P.Sees me main x z :=
  ⟨b.inv, P.keep_trans a.keep b.keep, fun hm => P.own_trans (a.own hm) (b.own hm)⟩

theorem Acts.refl (hx : P.inv x) : P.Acts me main x x := ⟨hx, P.move_refl me x, fun _ => P.own_refl me x⟩

theorem Acts.trans (a : P.Acts me main x y) (b : P.Acts me main y z) : P.Acts me main x z :=
  ⟨b.inv, P.move_trans a.move b.move, fun hm => P.own_trans (a.own hm) (b.own hm)⟩

/-- What one thread does is seen by all others. -/
theorem Acts.sees (hx : P.inv x) (a : P.Acts me main x y) {you : Nat} (h : you ≠ me) (side : Bool) :
    P.Sees you side x y :=
  ⟨a.inv, P.keep_of_move hx a.inv a.move, fun _ => P.own_of_move hx a.inv a.move h⟩

/-- What one part of a thread does is seen by the others. -/
theorem Acts.sees_beside (hx : P.inv x) (a : P.Acts me false x y) : P.Sees me main x y :=
  ⟨a.inv, P.keep_of_move hx a.inv a.move, fun _ => a.own rfl⟩

theorem Acts.beside (a : P.Acts me false x y) : P.Acts me main x y := ⟨a.inv, a.move, fun _ => a.own rfl⟩

theorem Fits.but {others : Nat → Prop} (hf : P.Fits x others) (but : Option Nat) : P.Fits x others but :=
  fun w hw => Or.inl ((hf w hw).resolve_right nofun)

theorem Fits.mono {others others' : Nat → Prop} {but : Option Nat} (hf : P.Fits x others but)
    (h : ∀ w, others w → others' w) : P.Fits x others' but := fun w hw => (hf w hw).imp_left (h w)

end Pact

section

variable (P : Pact σ ω γ) (plan : Plan σ ω) (me : Nat)

/-- From a moment on, a fiber keeps to a pact, and it ends only where `Q` holds from then on. -/
def Fiber.Does : Fiber σ ω → Bool → (View σ ω γ → Prop) → Moment σ ω γ → Prop
  | .done, main, Q, m => m.owed = none ∧ P.Fits m.view m.others ∧ ∀ z, P.Sees me main m.view z → Q z
  | .look next, main, Q, m => (next m.view.state).Does main Q m
  | .leave h next, main, Q, m => plan.collect h = ([], h) ∧ ∃ y new, y.state = h ∧ P.Acts me main m.view y ∧
      m.view.Grows y (Option.toList new) ∧ (new = none ∨ m.owed = none) ∧
        next.Does main Q ⟨y, m.others, new.or m.owed⟩
  | .share id work next, main, Q, m => m.owed = some (id, work) ∧ id ≠ me ∧ P.begun id work m.view ∧
      next.Does main Q { m with owed := none }
  | .await id next, main, Q, m => m.owed = none ∧ (∀ w, m.view.Works me w → me < id) ∧ (∃ w, m.view.Works id w) ∧
      P.Fits m.view m.others (some id) ∧ ∀ z others, P.Sees me main m.view z → P.told id z →
        P.Fits z others (some id) → next.Does main Q ⟨z, others, none⟩
  | .consult next, main, Q, m => m.owed = none ∧ P.Fits m.view m.others ∧
      ∀ z others, P.Sees me main m.view z → P.Fits z others → next.Does main Q ⟨z, others, none⟩
  | .offload job next, main, Q, m => m.owed = none ∧ P.Fits m.view m.others ∧ ∀ z, P.Sees me main m.view z →
      plan.collect (job z.state) = ([], job z.state) ∧ ∃ y, y.state = job z.state ∧ P.Acts me main z y ∧ z.Grows y [] ∧
        (∀ w, P.opens y.state w → P.opens z.state w) ∧
          ∀ u others, P.Sees me main y u → P.Fits u others → next.Does main Q ⟨u, others, none⟩
  | .both first second next, main, Q, m => m.owed = none ∧ P.Fits m.view m.others ∧ ∃ Q₁ Q₂ : View σ ω γ → Prop,
      (∀ z others, P.Sees me false m.view z → P.Fits z others → first.Does false Q₁ ⟨z, others, none⟩) ∧
        (∀ z others, P.Sees me false m.view z → P.Fits z others → second.Does false Q₂ ⟨z, others, none⟩) ∧
          ∀ z others, P.Sees me main m.view z → P.Fits z others → Q₁ z → Q₂ z → next.Does main Q ⟨z, others, none⟩
  | .spawn _ _ _, _, _, _ => False
  | .join _ _ _, _, _, _ => False
  | .sleep _ _, _, _, _ => False
  | .rest _, _, _, _ => False

/-- A fiber goes on so from any moment at which others may leave it. -/
def Fiber.DoesLater (f : Fiber σ ω) (main : Bool) (Q : View σ ω γ → Prop) (x : View σ ω γ) : Prop :=
  ∀ z others, P.Sees me main x z → P.Fits z others → f.Does P plan me main Q ⟨z, others, none⟩

/-- All work that is begun under a pact keeps to it. -/
def Plan.Keeps : Prop := ∀ id work x, P.inv x → P.begun id work x →
  (plan.perform id work).DoesLater P plan id true (P.told id) x

/-- A computation keeps to a pact from a moment on, and ends with results and at moments as `R` says. -/
def Async.Meets (main : Bool) (x : Async σ ω α) (m : Moment σ ω γ) (R : α → Moment σ ω γ → Prop) : Prop :=
  ∀ Q k, (∀ a m', R a m' → (k a).Does P plan me main Q m') → (x k).Does P plan me main Q m

end

namespace Async

variable {P : Pact σ ω γ} {plan : Plan σ ω} {me : Nat} {main : Bool} {m : Moment σ ω γ} {R : α → Moment σ ω γ → Prop}

theorem Meets.mono {x : Async σ ω α} {S : α → Moment σ ω γ → Prop} (hx : x.Meets P plan me main m R)
    (h : ∀ a m', R a m' → S a m') : x.Meets P plan me main m S := fun Q k hk => hx Q k fun a m' ha => hk a m' (h a m' ha)

/-- A computation that keeps to the pact makes a fiber that does. -/
theorem Meets.does {x : Async σ ω α} {Q : View σ ω γ → Prop} (hx : x.Meets P plan me main m fun _ m' =>
    m'.owed = none ∧ P.Fits m'.view m'.others ∧ ∀ z, P.Sees me main m'.view z → Q z) :
    x.fiber.Does P plan me main Q m := hx Q _ fun _ _ h => h

theorem meets_pure {a : α} (h : R a m) : Meets P plan me main (pure a : Async σ ω α) m R := fun _ _ hk => hk a m h

theorem meets_bind {x : Async σ ω α} {f : α → Async σ ω β} {S : β → Moment σ ω γ → Prop}
    (hx : x.Meets P plan me main m R) (hf : ∀ a m', R a m' → (f a).Meets P plan me main m' S) :
    (x >>= f).Meets P plan me main m S := fun Q k hk => hx Q _ fun a m' ha => hf a m' ha Q k hk

theorem meets_view {f : σ → α} (h : R (f m.view.state) m) : Meets P plan me main (view f : Async σ ω α) m R :=
  fun _ _ hk => hk _ m h

theorem meets_step {f : σ → α × σ} (hc : plan.collect (f m.view.state).2 = ([], (f m.view.state).2)) (y : View σ ω γ)
    (new : Option (Nat × ω)) (hy : y.state = (f m.view.state).2) (ha : P.Acts me main m.view y)
    (hg : m.view.Grows y new.toList) (ho : new = none ∨ m.owed = none)
    (h : R (f m.view.state).1 ⟨y, m.others, new.or m.owed⟩) : Meets P plan me main (step f : Async σ ω α) m R :=
  fun _ _ hk => ⟨hc, y, new, hy, ha, hg, ho, hk _ _ h⟩

theorem meets_change {f : σ → σ} {R : Unit → Moment σ ω γ → Prop}
    (hc : plan.collect (f m.view.state) = ([], f m.view.state)) (y : View σ ω γ) (new : Option (Nat × ω))
    (hy : y.state = f m.view.state) (ha : P.Acts me main m.view y) (hg : m.view.Grows y new.toList)
    (ho : new = none ∨ m.owed = none) (h : R () ⟨y, m.others, new.or m.owed⟩) :
    Meets P plan me main (change f : Async σ ω Unit) m R :=
  fun _ _ hk => ⟨hc, y, new, hy, ha, hg, ho, hk _ _ h⟩

theorem meets_share {id : Nat} {work : ω} {R : Unit → Moment σ ω γ → Prop} (ho : m.owed = some (id, work)) (hid : id ≠ me)
    (hb : P.begun id work m.view) (h : R () { m with owed := none }) :
    Meets P plan me main (share id work : Async σ ω Unit) m R := fun _ _ hk => ⟨ho, hid, hb, hk _ _ h⟩

theorem meets_await {id : Nat} {R : Unit → Moment σ ω γ → Prop} (ho : m.owed = none)
    (hid : ∀ w, m.view.Works me w → me < id) (hw : ∃ w, m.view.Works id w) (hf : P.Fits m.view m.others (some id))
    (h : ∀ z others, P.Sees me main m.view z → P.told id z → P.Fits z others (some id) → R () ⟨z, others, none⟩) :
    Meets P plan me main (await id : Async σ ω Unit) m R :=
  fun _ _ hk => ⟨ho, hid, hw, hf, fun z others hz ht hf => hk _ _ (h z others hz ht hf)⟩

theorem meets_consult {R : Unit → Moment σ ω γ → Prop} (ho : m.owed = none) (hf : P.Fits m.view m.others)
    (h : ∀ z others, P.Sees me main m.view z → P.Fits z others → R () ⟨z, others, none⟩) :
    Meets P plan me main (consult : Async σ ω Unit) m R :=
  fun _ _ hk => ⟨ho, hf, fun z others hz hf => hk _ _ (h z others hz hf)⟩

theorem meets_offload {job : σ → σ} {R : Unit → Moment σ ω γ → Prop} (ho : m.owed = none) (hf : P.Fits m.view m.others)
    (hjob : ∀ z, P.Sees me main m.view z → plan.collect (job z.state) = ([], job z.state) ∧
      ∃ y, y.state = job z.state ∧ P.Acts me main z y ∧ z.Grows y [] ∧
        (∀ w, P.opens y.state w → P.opens z.state w) ∧
          ∀ u others, P.Sees me main y u → P.Fits u others → R () ⟨u, others, none⟩) :
    Meets P plan me main (offload job : Async σ ω Unit) m R := by
  refine fun Q k hk => ⟨ho, hf, fun z hz => ?_⟩
  obtain ⟨hc, y, hy, ha, hg, hopens, h⟩ := hjob z hz
  exact ⟨hc, y, hy, ha, hg, hopens, fun u others hu hf => hk _ _ (h u others hu hf)⟩

/-- What may fail goes on only where it has not failed. -/
theorem meets_except {x : ExceptT Failure (Async σ ω) α} {f : α → ExceptT Failure (Async σ ω) β}
    {R : Except Failure α → Moment σ ω γ → Prop} {S : Except Failure β → Moment σ ω γ → Prop}
    (hx : x.run.Meets P plan me main m R) (hok : ∀ a m', R (.ok a) m' → (f a).run.Meets P plan me main m' S)
    (herror : ∀ e m', R (.error e) m' → S (.error e) m') : (x >>= f).run.Meets P plan me main m S := by
  show Meets P plan me main (x.run >>= ExceptT.bindCont f) m S
  refine meets_bind hx fun r m' hr => ?_
  cases r with
  | ok a => exact hok a m' hr
  | error e => exact meets_pure (herror e m' hr)

theorem meets_lift {x : Async σ ω α} {R : Except Failure α → Moment σ ω γ → Prop}
    (hx : x.Meets P plan me main m fun a m' => R (.ok a) m') :
    (ExceptT.lift x : ExceptT Failure (Async σ ω) α).run.Meets P plan me main m R := by
  show Meets P plan me main (Except.ok <$> x) m R
  rw [← bind_pure_comp]
  exact meets_bind hx fun _ _ ha => meets_pure ha

/-- What may fail goes on after what does not. -/
theorem meets_then {x : Async σ ω α} {f : α → ExceptT Failure (Async σ ω) β}
    {S : Except Failure β → Moment σ ω γ → Prop} (hx : x.Meets P plan me main m R)
    (hf : ∀ a m', R a m' → (f a).run.Meets P plan me main m' S) :
    ((ExceptT.lift x : ExceptT Failure (Async σ ω) α) >>= f).run.Meets P plan me main m S :=
  meets_except (R := fun r m' => ∃ a, r = .ok a ∧ R a m') (meets_lift (hx.mono fun a _ ha => ⟨a, rfl, ha⟩))
    (fun _ _ ⟨_, ha, hr⟩ => hf _ _ (Except.ok.inj ha ▸ hr)) fun _ _ ⟨_, ha, _⟩ => nomatch ha

/-- Parts that run side by side, each of which keeps to the pact and ends as `T` says of it, have all ended so in the
end. -/
theorem meets_all {ι : Type} {f : ι → Async σ ω Unit} {T : ι → View σ ω γ → Prop} (l : List ι) (ho : m.owed = none)
    (hinv : P.inv m.view) (hfits : P.Fits m.view m.others) {R : Unit → Moment σ ω γ → Prop}
    (hf : ∀ i ∈ l, ∀ z others, P.Sees me false m.view z → P.Fits z others →
      (f i).Meets P plan me false ⟨z, others, none⟩ fun _ m' =>
        m'.owed = none ∧ P.Fits m'.view m'.others ∧ ∀ y, P.Sees me false m'.view y → T i y)
    (h : ∀ z others, P.Sees me main m.view z → P.Fits z others → (∀ i ∈ l, T i z) → R () ⟨z, others, none⟩) :
    Meets P plan me main (all (l.map f)) m R := by
  induction l generalizing main m R T with
  | nil =>
    obtain ⟨x, others, owed⟩ := m
    obtain rfl : owed = none := ho
    exact meets_pure (h x others (.refl hinv) hfits nofun)
  | cons i l ih =>
    intro Q k hk
    -- what the parts end with is to hold from then on
    let T' (j : ι) (z : View σ ω γ) : Prop := ∀ y, P.Sees me false z y → T j y
    have hlater (j : ι) (x : View σ ω γ) (h : ∀ y, P.Sees me false x y → T j y) (y : View σ ω γ)
        (hy : P.Sees me false x y) : T' j y := fun z hz => h z (hy.trans hz)
    refine ⟨ho, hfits, T' i, fun z => ∀ j ∈ l, T' j z, fun z others hz hfz => ?_, fun z others hz hfz => ?_,
      fun z others hz hfz ht hrest => hk _ _ (h z others hz hfz fun j hj => ?_)⟩
    · exact hf i List.mem_cons_self z others hz hfz _ _ fun _ m' ⟨ho', hf', ht⟩ => ⟨ho', hf', hlater i _ ht⟩
    · refine ih (T := T') (R := fun _ m' => m'.owed = none ∧ P.Fits m'.view m'.others ∧
          ∀ y, P.Sees me false m'.view y → ∀ j ∈ l, T' j y) rfl hz.inv hfz (fun j hj z' others' hz' hfz' => ?_) ?_ _ _
        fun _ m' hm' => hm'
      · refine (hf j (List.mem_cons_of_mem i hj) z' others' (hz.trans hz') hfz').mono fun _ m' hm' => ?_
        exact ⟨hm'.1, hm'.2.1, hlater j _ hm'.2.2⟩
      · exact fun z' others' _ hf' ht => ⟨rfl, hf', fun y hy j hj z hz => ht j hj z (hy.trans hz)⟩
    · rcases List.mem_cons.1 hj with rfl | hj
      · exact ht z (.refl hz.inv)
      · exact hrest j hj z (.refl hz.inv)

end Async

end ScriptVault

import ScriptVault.Proofs.Async.Pact

/-!
# Accord — weaves whose threads keep to a pact

Where each thread keeps to a pact from where it stands, each move of a thread is one that the pact allows it, and
afterwards each thread still keeps to the pact.  So all that a pact says holds of all moves in whatever order they are
made; and where no thread can move any more, all have ended.
-/

namespace ScriptVault

variable {σ ω γ : Type}

/-- Some part of a strand waits for shared work. -/
def Strand.Awaits : Strand σ ω → Nat → Prop
  | .awaiting id _, w => id = w
  | .both first second _, w => first.Awaits w ∨ second.Awaits w
  | _, _ => False

section

variable (P : Pact σ ω γ) (plan : Plan σ ω) (me : Nat)

/-- From where it stands a strand keeps to a pact, and it ends only where `Q` holds from then on. -/
def Strand.Stands : Strand σ ω → Bool → (View σ ω γ → Prop) → View σ ω γ → Prop
  | .ended, main, Q, x => ∀ z, P.Sees me main x z → Q z
  | .going fiber, main, Q, x => fiber.DoesLater P plan me main Q x
  | .awaiting id next, main, Q, x => (∀ w, x.Works me w → me < id) ∧ (∃ w, x.Works id w) ∧
      ∀ z others, P.Sees me main x z → P.told id z → P.Fits z others (some id) →
        next.Does P plan me main Q ⟨z, others, none⟩
  | .joining _ _ _, _, _, _ => False
  | .working job next, main, Q, x => ∀ z, P.Sees me main x z → plan.collect (job z.state) = ([], job z.state) ∧
      ∃ y, y.state = job z.state ∧ P.Acts me main z y ∧ z.Grows y [] ∧
        (∀ w, P.opens y.state w → P.opens z.state w) ∧ next.DoesLater P plan me main Q y
  | .both first second next, main, Q, x => ∃ Q₁ Q₂ : View σ ω γ → Prop, first.Stands false Q₁ x ∧
      second.Stands false Q₂ x ∧ ∀ z others, P.Sees me main x z → P.Fits z others → Q₁ z → Q₂ z →
        next.Does P plan me main Q ⟨z, others, none⟩

end

variable {P : Pact σ ω γ} {plan : Plan σ ω} {me : Nat} {main : Bool} {Q : View σ ω γ → Prop} {x y : View σ ω γ}

/-- What starts a thread for begun work: it keeps to the pact, and ends where the work is told. -/
def Pact.Starts (P : Pact σ ω γ) (plan : Plan σ ω) (y : View σ ω γ) (begun : List (Nat × ω)) : Prop :=
  ∀ p ∈ begun, (Strand.going (plan.perform p.1 p.2)).Stands P plan p.1 true (P.told p.1) y

/-! ### Strands -/

/-- What a strand keeps to does not depend on what others did meanwhile. -/
theorem Strand.Stands.later {s : Strand σ ω} (hs : s.Stands P plan me main Q x) (hxy : P.Sees me main x y)
    (hme : x.threads me ≠ none) :
    s.Stands P plan me main Q y := by
  induction s generalizing main Q with
  | ended => exact fun z hz => hs z (hxy.trans hz)
  | going fiber => exact fun z others hz => hs z others (hxy.trans hz)
  | awaiting id next =>
    obtain ⟨hlt, hid, hrest⟩ := hs
    obtain ⟨v, hv⟩ := Option.ne_none_iff_exists'.1 hme
    refine ⟨fun w hw => hlt w ?_, hid.imp fun w hw => P.keep_threads hxy.keep hw,
      fun z others hz => hrest z others (hxy.trans hz)⟩
    have hv' := P.keep_threads hxy.keep hv
    rw [show y.threads me = some (some w) from hw] at hv'
    exact hv.trans hv'.symm
  | joining id limit next => exact hs
  | working job next => exact fun z hz => hs z (hxy.trans hz)
  | both first second next ih₁ ih₂ =>
    obtain ⟨Q₁, Q₂, h₁, h₂, hrest⟩ := hs
    have hpart : P.Sees me false x y := ⟨hxy.inv, hxy.keep, nofun⟩
    exact ⟨Q₁, Q₂, ih₁ h₁ hpart, ih₂ h₂ hpart, fun z others hz => hrest z others (hxy.trans hz)⟩

/-- What comes of one move of a strand, or of a part of it, that leads to a strand, a state and begun work. -/
structure Pact.Moved (P : Pact σ ω γ) (plan : Plan σ ω) (me : Nat) (main : Bool) (Q : View σ ω γ → Prop)
    (x : View σ ω γ) (others : Nat → Prop) (owed : Option (Nat × ω)) (s : Strand σ ω) (h : σ)
    (begun : List (Nat × ω)) (y : View σ ω γ) (new : List (Nat × ω)) : Prop where
  state : y.state = h
  acts : P.Acts me main x y
  shared : begun = owed.toList ++ new
  grows : x.Grows y new
  apart : ∀ p ∈ begun, p.1 ≠ me
  starts : P.Starts plan y begun
  stands : s.Stands P plan me main Q y
  fits : ∀ w, P.opens y.state w → others w ∨ s.Awaits w

/-- Work that is known to be begun keeps to the pact from then on. -/
theorem Pact.starts_of_begun (hplan : plan.Keeps P) (hx : P.inv x) {id : Nat} {work : ω} (hb : P.begun id work x)
    (hxy : P.Sees id true x y) : P.Starts plan y [(id, work)] := by
  intro p hp
  obtain rfl := List.mem_singleton.1 hp
  exact fun z others hz => hplan id work x hx hb z others (hxy.trans hz)

theorem Fiber.Does.moved (hplan : plan.Keeps P) {fiber : Fiber σ ω} {m : Moment σ ω γ} (hinv : P.inv m.view)
    (hf : fiber.Does P plan me main Q m) :
    ∃ y new, P.Moved plan me main Q m.view m.others m.owed (fiber.move plan m.view.state).1
      (fiber.move plan m.view.state).2.1 (fiber.move plan m.view.state).2.2 y new := by
  induction fiber generalizing m with
  | done =>
    obtain ⟨ho, hfits, hq⟩ := hf
    exact ⟨m.view, [], rfl, .refl hinv, by rw [ho]; rfl, .refl _, nofun, nofun, hq,
      fun w hw => Or.inl ((hfits w hw).resolve_right nofun)⟩
  | look next ih => exact ih _ hinv hf
  | leave h next ih =>
    obtain ⟨hc, y, new, hy, hacts, hgrows, ho, hnext⟩ := hf
    subst hy
    obtain ⟨z, more, hm⟩ := ih hacts.inv hnext
    have hmove : (Fiber.leave y.state next).move plan m.view.state = next.move plan y.state := by
      show (_, _, _) = _
      rw [hc]
      rfl
    rw [hmove]
    refine ⟨z, new.toList ++ more, hm.state, hacts.trans hm.acts, ?_, hgrows.trans hm.grows, hm.apart, hm.starts,
      hm.stands, hm.fits⟩
    rw [hm.shared]
    rcases ho with rfl | ho
    · rfl
    · rw [ho, Option.or_none]
      rfl
  | share id work next ih =>
    obtain ⟨ho, hid, hb, hnext⟩ := hf
    obtain ⟨y, new, hm⟩ := ih (m := { m with owed := none }) hinv hnext
    have hbegun : (next.move plan m.view.state).2.2 = new := hm.shared
    refine ⟨y, new, hm.state, hm.acts, ?_, hm.grows, ?_, ?_, hm.stands, hm.fits⟩
    · rw [ho]
      exact congrArg ((id, work) :: ·) hbegun
    · exact List.forall_mem_cons.2 ⟨hid, hm.apart⟩
    · refine List.forall_mem_cons.2 ⟨?_, hm.starts⟩
      exact Pact.starts_of_begun hplan hinv hb (hm.acts.sees hinv hid true) _ (List.mem_singleton.2 rfl)
  | await id next ih =>
    obtain ⟨ho, hlt, hid, hfits, hnext⟩ := hf
    refine ⟨m.view, [], rfl, .refl hinv, by rw [ho]; rfl, .refl _, nofun, nofun, ⟨hlt, hid, hnext⟩, fun w hw => ?_⟩
    exact (hfits w hw).imp_right fun h => Option.some.inj h
  | consult next ih =>
    obtain ⟨ho, hfits, hnext⟩ := hf
    exact ⟨m.view, [], rfl, .refl hinv, by rw [ho]; rfl, .refl _, nofun, nofun, hnext,
      fun w hw => Or.inl ((hfits w hw).resolve_right nofun)⟩
  | offload job next ih =>
    obtain ⟨ho, hfits, hnext⟩ := hf
    exact ⟨m.view, [], rfl, .refl hinv, by rw [ho]; rfl, .refl _, nofun, nofun, hnext,
      fun w hw => Or.inl ((hfits w hw).resolve_right nofun)⟩
  | both first second next ih₁ ih₂ ih₃ =>
    obtain ⟨ho, hfits, Q₁, Q₂, h₁, h₂, hnext⟩ := hf
    exact ⟨m.view, [], rfl, .refl hinv, by rw [ho]; rfl, .refl _, nofun, nofun, ⟨Q₁, Q₂, h₁, h₂, hnext⟩,
      fun w hw => Or.inl ((hfits w hw).resolve_right nofun)⟩
  | spawn id work next ih => exact hf.elim
  | join id limit next ih => exact hf.elim
  | sleep nanos next ih => exact hf.elim
  | rest next ih => exact hf.elim

/-- A strand that keeps to a pact still does after a move, which is one that the pact allows. -/
theorem Strand.Stands.moved (hplan : plan.Keeps P) {past : Nat → Prop} (hx : P.inv x)
    (hpast : ∀ id w, past id → x.Works id w → P.told id x) (hme : x.threads me ≠ none) {s s' : Strand σ ω} {h : σ} {begun : List (Nat × ω)}
    (hs : s.Stands P plan me main Q x) (hm : s.Moves plan past x.state s' h begun) {others : Nat → Prop}
    (hfits : ∀ w, P.opens x.state w → others w ∨ s.Awaits w) :
    ∃ y, P.Moved plan me main Q x others none s' h begun y begun := by
  generalize hstate : x.state = h₀ at hm
  induction hm generalizing main Q others with
  | run fiber h₀ =>
    subst hstate
    have hfits' : P.Fits x others := fun w hw => Or.inl ((hfits w hw).resolve_right nofun)
    obtain ⟨y, new, hm⟩ := Fiber.Does.moved hplan hx (hs x others (.refl hx) hfits')
    obtain rfl : _ = new := hm.shared
    exact ⟨y, hm⟩
  | @wake id next h₀ hid =>
    subst hstate
    have hfits' : P.Fits x others (some id) := fun w hw => (hfits w hw).imp_right fun h => congrArg some h
    obtain ⟨w, hw⟩ := hs.2.1
    obtain ⟨y, new, hm⟩ := Fiber.Does.moved hplan hx (hs.2.2 x others (.refl hx) (hpast id w hid hw) hfits')
    obtain rfl : _ = new := hm.shared
    exact ⟨y, hm⟩
  | join => exact hs.elim
  | miss => exact hs.elim
  | work job next h₀ =>
    subst hstate
    obtain ⟨hc, y, hy, hacts, hgrows, hopens, hnext⟩ := hs x (.refl hx)
    rw [hc]
    exact ⟨y, hy, hacts, rfl, hgrows, nofun, nofun, hnext,
      fun w hw => Or.inl ((hfits w (hopens w hw)).resolve_right nofun)⟩
  | @first first first' h₀ h begun second next _ ih =>
    obtain ⟨Q₁, Q₂, h₁, h₂, hnext⟩ := hs
    have hfits' (w : Nat) (hw : P.opens x.state w) : (others w ∨ second.Awaits w) ∨ first.Awaits w :=
      (hfits w hw).elim (fun h => Or.inl (Or.inl h)) fun h => h.elim Or.inr fun h => Or.inl (Or.inr h)
    obtain ⟨y, hm⟩ := ih h₁ hfits' hstate
    have hsees : P.Sees me false x y := hm.acts.sees_beside hx
    refine ⟨y, hm.state, hm.acts.beside, rfl, hm.grows, hm.apart, hm.starts, ⟨Q₁, Q₂, hm.stands,
      h₂.later ⟨hsees.inv, hsees.keep, nofun⟩ hme,
      fun z others hz => hnext z others ((hm.acts.sees_beside hx).trans hz)⟩, fun w hw => ?_⟩
    exact (hm.fits w hw).elim (fun h => h.imp_right Or.inr) fun h => Or.inr (Or.inl h)
  | @second second second' h₀ h begun first next _ ih =>
    obtain ⟨Q₁, Q₂, h₁, h₂, hnext⟩ := hs
    have hfits' (w : Nat) (hw : P.opens x.state w) : (others w ∨ first.Awaits w) ∨ second.Awaits w :=
      (hfits w hw).elim (fun h => Or.inl (Or.inl h)) fun h => h.elim (fun h => Or.inl (Or.inr h)) Or.inr
    obtain ⟨y, hm⟩ := ih h₂ hfits' hstate
    have hsees : P.Sees me false x y := hm.acts.sees_beside hx
    refine ⟨y, hm.state, hm.acts.beside, rfl, hm.grows, hm.apart, hm.starts, ⟨Q₁, Q₂,
      h₁.later ⟨hsees.inv, hsees.keep, nofun⟩ hme, hm.stands,
      fun z others hz => hnext z others ((hm.acts.sees_beside hx).trans hz)⟩, fun w hw => ?_⟩
    exact (hm.fits w hw).elim (fun h => h.imp_right Or.inl) fun h => Or.inr (Or.inr h)
  | meet next h₀ =>
    subst hstate
    obtain ⟨Q₁, Q₂, h₁, h₂, hnext⟩ := hs
    refine ⟨x, rfl, .refl hx, rfl, .refl x, nofun, nofun, fun z others hz hf => ?_,
      fun w hw => Or.inl ((hfits w hw).resolve_right fun h => h.elim id id)⟩
    have hpart : P.Sees me false x z := ⟨hz.inv, hz.keep, nofun⟩
    exact hnext z others hz hf (h₁ z hpart) (h₂ z hpart)

/-- A strand that keeps to a pact and cannot move waits for shared work, unless it has ended. -/
theorem Strand.Stands.awaits {past : Nat → Prop} {s : Strand σ ω} (hs : s.Stands P plan me main Q x)
    (hne : s ≠ .ended) (hstuck : ∀ s' h begun, ¬s.Moves plan past x.state s' h begun) :
    ∃ id, ¬past id ∧ (∀ w, x.Works me w → me < id) ∧ ∃ w, x.Works id w := by
  induction s generalizing main Q with
  | ended => exact (hne rfl).elim
  | going fiber => exact (hstuck _ _ _ (.run fiber x.state)).elim
  | awaiting id next => exact ⟨id, fun hid => hstuck _ _ _ (.wake next x.state hid), hs.1, hs.2.1⟩
  | joining id limit next => exact hs.elim
  | working job next => exact (hstuck _ _ _ (.work job next x.state)).elim
  | both first second next ih₁ ih₂ =>
    obtain ⟨Q₁, Q₂, h₁, h₂, -⟩ := hs
    by_cases hfirst : first = .ended
    · by_cases hsecond : second = .ended
      · subst hfirst hsecond
        exact (hstuck _ _ _ (.meet next x.state)).elim
      · exact ih₂ h₂ hsecond fun s' h begun hm => hstuck _ _ _ (.second first next hm)
    · exact ih₁ h₁ hfirst fun s' h begun hm => hstuck _ _ _ (.first second next hm)

/-! ### Weaves -/

/-- What is known where a thread has ended; `answers` says it of threads that are not work. -/
def Thread.Ends (P : Pact σ ω γ) (answers : Nat → View σ ω γ → Prop) (t : Thread σ ω) (x : View σ ω γ) : Prop :=
  match t.work with
  | some _ => P.told t.id x
  | none => answers t.id x

/-- All threads keep to a pact, and what they see is the state and the threads that were begun. -/
structure Pact.Accord (P : Pact σ ω γ) (plan : Plan σ ω) (answers : Nat → View σ ω γ → Prop) (c : Weave σ ω)
    (x : View σ ω γ) : Prop where
  state : x.state = c.state
  inv : P.inv x
  distinct : (c.threads.map Thread.id).Nodup
  threads : ∀ t ∈ c.threads, x.threads t.id = some t.work
  known : ∀ i, x.threads i ≠ none → ∃ t ∈ c.threads, t.id = i
  stands : ∀ t ∈ c.threads, t.strand.Stands P plan t.id true (t.Ends P answers) x
  fits : ∀ w, P.opens x.state w → ∃ t ∈ c.threads, t.strand.Awaits w

namespace Pact.Accord

variable {answers : Nat → View σ ω γ → Prop} {c c' : Weave σ ω}

/-- What threads see to be begun was begun. -/
theorem begun_iff (hc : P.Accord plan answers c x) {id : Nat} {w : ω} : c.Begun id w ↔ x.Works id w := by
  refine ⟨fun ⟨t, ht, hid, hw⟩ => ?_, fun hw => ?_⟩
  · subst hid
    exact (hc.threads t ht).trans (congrArg some hw)
  · obtain ⟨t, ht, rfl⟩ := hc.known id (by rw [show x.threads id = _ from hw]; nofun)
    exact ⟨t, ht, rfl, Option.some.inj ((hc.threads t ht).symm.trans hw)⟩

theorem ends (hc : P.Accord plan answers c x) {t : Thread σ ω} (ht : t ∈ c.threads) (he : t.strand = .ended) :
    t.Ends P answers x := by
  have hs := hc.stands t ht
  rw [he] at hs
  exact hs x (.refl hc.inv)

theorem told (hc : P.Accord plan answers c x) {id : Nat} {w : ω} (ho : c.Over id) (hw : x.Works id w) : P.told id x := by
  obtain ⟨t, ht, rfl, he⟩ := ho
  have hends := hc.ends ht he
  have hwork : t.work = some w := Option.some.inj ((hc.threads t ht).symm.trans hw)
  unfold Thread.Ends at hends
  rwa [hwork] at hends

/-- A move of a thread is one that the pact allows, and the threads still keep to it afterwards. -/
theorem moves (hplan : plan.Keeps P) (hc : P.Accord plan answers c x) {t : Thread σ ω} {begun : List (Nat × ω)}
    (hm : c.Moves plan t begun c') : ∃ y, P.Accord plan answers c' y ∧ P.Acts t.id true x y ∧ x.Grows y begun := by
  obtain @⟨before, after, _, strand, h, _, hthreads, hmove⟩ := hm
  have ht : t ∈ c.threads := by rw [hthreads]; exact List.mem_append_right _ List.mem_cons_self
  have hme : x.threads t.id ≠ none := by rw [hc.threads t ht]; nofun
  have hrest : ∀ u ∈ before ++ after, u ∈ c.threads ∧ u.id ≠ t.id := by
    have hdistinct := hc.distinct
    rw [hthreads, List.map_append, List.map_cons, List.nodup_middle, List.nodup_cons, ← List.map_append] at hdistinct
    intro u hu
    refine ⟨?_, fun he => hdistinct.1 (he ▸ List.mem_map_of_mem hu)⟩
    rw [hthreads]
    rcases List.mem_append.1 hu with hu | hu
    · exact List.mem_append_left _ hu
    · exact List.mem_append_right _ (List.mem_cons_of_mem _ hu)
  have hfits (w : Nat) (hw : P.opens x.state w) :
      (∃ u ∈ before ++ after, u.strand.Awaits w) ∨ t.strand.Awaits w := by
    obtain ⟨u, hu, hawaits⟩ := hc.fits w hw
    rw [hthreads] at hu
    rcases List.mem_append.1 hu with hu | hu
    · exact Or.inl ⟨u, List.mem_append_left _ hu, hawaits⟩
    · rcases List.mem_cons.1 hu with rfl | hu
      · exact Or.inr hawaits
      · exact Or.inl ⟨u, List.mem_append_right _ hu, hawaits⟩
  obtain ⟨y, hy⟩ := (hc.stands t ht).moved hplan hc.inv (fun id w ho hw => hc.told ho hw) hme (hc.state ▸ hmove) hfits
  have hsees {u : Thread σ ω} (hu : u ∈ before ++ after) : P.Sees u.id true x y :=
    hy.acts.sees hc.inv (hrest u hu).2 true
  have hkeep {i : Nat} {w : Option ω} (hw : x.threads i = some w) : y.threads i = some w :=
    P.keep_threads (P.keep_of_move hc.inv hy.acts.inv hy.acts.move) hw
  -- all threads after the move: the others, the one that moved, and those that it has begun
  have hmem {Z : Thread σ ω → Prop} (h₁ : ∀ u ∈ before ++ after, Z u) (h₂ : Z { t with strand := strand })
      (h₃ : ∀ p ∈ begun, Z ⟨p.1, some p.2, .going (plan.perform p.1 p.2)⟩) :
      ∀ u ∈ before ++ { t with strand := strand } :: (after ++ Weave.begin plan begun), Z u := by
    intro u hu
    rcases List.mem_append.1 hu with hu | hu
    · exact h₁ u (List.mem_append_left _ hu)
    · rcases List.mem_cons.1 hu with rfl | hu
      · exact h₂
      · rcases List.mem_append.1 hu with hu | hu
        · exact h₁ u (List.mem_append_right _ hu)
        · obtain ⟨p, hp, rfl⟩ := List.mem_map.1 hu
          exact h₃ p hp
  refine ⟨y, ⟨hy.state, hy.acts.inv, ?_, hmem (fun u hu => ?_) ?_ fun p hp => ?_, fun i hi => ?_,
    hmem (fun u hu => ?_) ?_ fun p hp => ?_, fun w hw => ?_⟩, hy.acts, hy.grows⟩
  · have hids : (before ++ { t with strand := strand } :: (after ++ Weave.begin plan begun)).map Thread.id =
        c.threads.map Thread.id ++ begun.map Prod.fst := by
      simp [hthreads, Weave.begin, Function.comp_def]
    rw [hids]
    refine List.nodup_append.2 ⟨hc.distinct, hy.grows.distinct, fun i hi j hj he => ?_⟩
    obtain ⟨u, hu, rfl⟩ := List.mem_map.1 hi
    obtain ⟨p, hp, rfl⟩ := List.mem_map.1 hj
    have hnone := (hy.grows.new p hp).1
    rw [← he, hc.threads u hu] at hnone
    cases hnone
  · exact hkeep (hc.threads u (hrest u hu).1)
  · exact hkeep (hc.threads t ht)
  · exact (hy.grows.new p hp).2
  · by_cases hp : ∃ p ∈ begun, p.1 = i
    · obtain ⟨p, hp, rfl⟩ := hp
      exact ⟨⟨p.1, some p.2, .going (plan.perform p.1 p.2)⟩, List.mem_append_right _ (List.mem_cons_of_mem _
        (List.mem_append_right _ (List.mem_map.2 ⟨p, hp, rfl⟩))), rfl⟩
    · rw [hy.grows.rest i fun p hp' he => hp ⟨p, hp', he⟩] at hi
      obtain ⟨u, hu, rfl⟩ := hc.known i hi
      rw [hthreads] at hu
      rcases List.mem_append.1 hu with hu | hu
      · exact ⟨u, List.mem_append_left _ hu, rfl⟩
      · rcases List.mem_cons.1 hu with rfl | hu
        · exact ⟨_, List.mem_append_right _ List.mem_cons_self, rfl⟩
        · exact ⟨u, List.mem_append_right _ (List.mem_cons_of_mem _ (List.mem_append_left _ hu)), rfl⟩
  · exact (hc.stands u (hrest u hu).1).later (hsees hu) (by rw [hc.threads u (hrest u hu).1]; nofun)
  · exact hy.stands
  · exact hy.starts p hp
  · rcases hy.fits w hw with ⟨u, hu, hawaits⟩ | hawaits
    · rcases List.mem_append.1 hu with hu | hu
      · exact ⟨u, List.mem_append_left _ hu, hawaits⟩
      · exact ⟨u, List.mem_append_right _ (List.mem_cons_of_mem _ (List.mem_append_left _ hu)), hawaits⟩
    · exact ⟨_, List.mem_append_right _ List.mem_cons_self, hawaits⟩

/-- What is done to the state from outside is no more than what threads see of each other. -/
theorem touched (hc : P.Accord plan answers c x) (hinv : P.inv y) (hthreads : y.threads = x.threads)
    (hkeep : P.keep x y) (hown : ∀ i, P.own i x y) (hopens : ∀ w, P.opens y.state w → P.opens x.state w) :
    P.Accord plan answers { c with state := y.state } y where
  state := rfl
  inv := hinv
  distinct := hc.distinct
  threads t ht := hthreads ▸ hc.threads t ht
  known i hi := hc.known i (hthreads ▸ hi)
  stands t ht := (hc.stands t ht).later ⟨hinv, hkeep, fun _ => hown t.id⟩ (by rw [hc.threads t ht]; nofun)
  fits w hw := hc.fits w (hopens w hw)

/-- A thread may join that is no work. -/
theorem joined (hc : P.Accord plan answers c x) {id : Nat} {fiber : Fiber σ ω} (hinv : P.inv y)
    (hid : x.threads id = none) (hthreads : y.threads = Function.update x.threads id (some none))
    (hkeep : P.keep x y) (hown : ∀ i, i ≠ id → P.own i x y) (hopens : ∀ w, P.opens y.state w → P.opens x.state w)
    (hstands : fiber.DoesLater P plan id true (answers id) y) :
    P.Accord plan answers ⟨y.state, c.threads ++ [⟨id, none, .going fiber⟩]⟩ y := by
  have hother {t : Thread σ ω} (ht : t ∈ c.threads) : t.id ≠ id := fun he => by
    have hsome := hc.threads t ht
    rw [he, hid] at hsome
    cases hsome
  refine ⟨rfl, hinv, ?_, fun t ht => ?_, fun i hi => ?_, fun t ht => ?_, fun w hw => ?_⟩
  · rw [List.map_append]
    refine List.nodup_append.2 ⟨hc.distinct, List.nodup_singleton _, fun i hi j hj he => ?_⟩
    obtain ⟨t, ht, rfl⟩ := List.mem_map.1 hi
    exact hother ht (he.trans (List.mem_singleton.1 hj))
  · rcases List.mem_append.1 ht with ht | ht
    · rw [hthreads, Function.update_of_ne (hother ht)]
      exact hc.threads t ht
    · obtain rfl := List.mem_singleton.1 ht
      rw [hthreads, Function.update_self]
  · by_cases he : i = id
    · exact ⟨_, List.mem_append_right _ (List.mem_singleton.2 rfl), he.symm⟩
    · rw [hthreads, Function.update_of_ne he] at hi
      obtain ⟨t, ht, rfl⟩ := hc.known i hi
      exact ⟨t, List.mem_append_left _ ht, rfl⟩
  · rcases List.mem_append.1 ht with ht | ht
    · exact (hc.stands t ht).later ⟨hinv, hkeep, fun _ => hown t.id (hother ht)⟩ (by rw [hc.threads t ht]; nofun)
    · obtain rfl := List.mem_singleton.1 ht
      exact hstands
  · obtain ⟨t, ht, hawaits⟩ := hc.fits w (hopens w hw)
    exact ⟨t, List.mem_append_left _ ht, hawaits⟩

/-- Where no thread can move, all have ended: among all work that has not, the one with the greatest number would wait
for work with a still greater one. -/
theorem finished (hc : P.Accord plan answers c x) (hstuck : ∀ c', ¬c.Step plan c') : c.Finished := by
  have hblocked : ∀ t ∈ c.threads, t.strand ≠ .ended →
      ∃ u ∈ c.threads, u.strand ≠ .ended ∧ u.work ≠ none ∧ (t.work ≠ none → t.id < u.id) := by
    intro t ht hne
    obtain ⟨before, after, hthreads⟩ := List.append_of_mem ht
    have hstill (s' : Strand σ ω) (h : σ) (begun : List (Nat × ω)) : ¬t.strand.Moves plan c.Over x.state s' h begun :=
      fun hm => hstuck _ ⟨t, begun, .move hthreads (hc.state ▸ hm)⟩
    obtain ⟨id, hid, hlt, w, hw⟩ := (hc.stands t ht).awaits hne hstill
    obtain ⟨u, hu, rfl⟩ := hc.known id (by rw [show x.threads id = _ from hw]; nofun)
    have hwork : u.work = some w := Option.some.inj ((hc.threads u hu).symm.trans hw)
    refine ⟨u, hu, fun he => hid ⟨u, hu, rfl, he⟩, by rw [hwork]; nofun, fun hne => ?_⟩
    obtain ⟨v, hv⟩ := Option.ne_none_iff_exists'.1 hne
    exact hlt v ((hc.threads t ht).trans (congrArg some hv))
  by_contra hnot
  obtain ⟨t, hnot⟩ := not_forall.1 hnot
  obtain ⟨ht, hne⟩ := Classical.not_imp.1 hnot
  obtain ⟨u, hu, hune, huwork, -⟩ := hblocked t ht hne
  -- the work that has not ended, by its greatest number
  have hbound : ∀ n, ∀ u ∈ c.threads, u.strand ≠ .ended → u.work ≠ none →
      (c.threads.map Thread.id).foldr max 0 - u.id = n → False := by
    intro n
    induction n using Nat.strong_induction_on with | _ n ih
    intro u hu hune huwork hn
    obtain ⟨v, hv, hvne, hvwork, hlt⟩ := hblocked u hu hune
    have hle : v.id ≤ (c.threads.map Thread.id).foldr max 0 := List.le_max_of_le' 0 (List.mem_map_of_mem hv) le_rfl
    have := hlt huwork
    exact ih _ (by omega) v hv hvne hvwork rfl
  exact hbound _ u hu hune huwork rfl

end Pact.Accord

end ScriptVault

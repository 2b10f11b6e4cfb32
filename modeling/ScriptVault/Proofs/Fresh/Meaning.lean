import Mathlib.Logic.Relation
import ScriptVault.Proofs.Host.World

/-!
# Meaning — what comes of a module by the files alone

What specifiers stand for and what modules call for decides which modules can be loaded, and why another one
cannot.  Nothing that was loaded before has a part in this.
-/

namespace ScriptVault

/-- What specifiers stand for, and what modules call for. -/
structure Meaning where
  /-- What a specifier stands for, seen from a working directory. -/
  answer : String → Option String → Except Failure (Option Resolved)
  /-- The calls of a module, or why it cannot be run. -/
  calls : Resolved → Except Failure (List Script.Call)

/-- What specifiers stand for in a world. -/
def World.meaning (w : World) : Meaning := ⟨w.answer, w.calls⟩

namespace Meaning

variable (m : Meaning)

/-- Some specifier stands for the module. -/
def Knows (r : Resolved) : Prop := ∃ s cwd, m.answer s cwd = .ok (some r)

/-- Seen from a module, a specifier stands for another one. -/
def Leads (r : Resolved) (s : String) (t : Resolved) : Prop := m.answer s r.cwd = .ok (some t)

/-- A module that is run calls for another one. -/
def CallsFor (r t : Resolved) : Prop :=
  r.value = none ∧ ∃ calls, m.calls r = .ok calls ∧ ∃ c ∈ calls, m.Leads r c.specifier t

/-- The modules that are called for, over any number of others; the module itself among them. -/
def Reaches : Resolved → Resolved → Prop := Relation.ReflTransGen m.CallsFor

/-- A module can be read, and everything that it calls for is known. -/
def Sound (r : Resolved) : Prop :=
  r.value = none → ∃ calls, m.calls r = .ok calls ∧ ∀ c ∈ calls, ∃ t, m.Leads r c.specifier t

/-- A module can be loaded: it is sound, and so is all that it reaches. -/
def Good (r : Resolved) : Prop := ∀ t, m.Reaches r t → m.Sound t

/-- Every known module on a circle of calls can be loaded. -/
def Untangled : Prop := ∀ r, m.Knows r → Relation.TransGen m.CallsFor r r → m.Good r

/-- Modules are told apart by their ids, and whoever calls for such an id is led to the module with this id. -/
structure Plain (ids : String → Prop) : Prop where
  /-- No two modules have one id. -/
  coherent : ∀ r r', m.Knows r → m.Knows r' → r.id = r'.id → r = r'
  /-- The ids of modules are among some ids. -/
  inside : ∀ r, m.Knows r → ids r.id
  /-- A module that calls for one of these ids is led to the module with this id. -/
  named : ∀ r calls c t, m.Knows r → m.calls r = .ok calls → c ∈ calls → m.Leads r c.specifier t →
    ids c.specifier → t.id = c.specifier

/-- Seen from a module, nobody knows what a specifier stands for, or it cannot be told. -/
def Unanswered (r : Resolved) (s : String) (e : Failure) : Prop :=
  (m.answer s r.cwd = .ok none ∧ e = .moduleNotFound s) ∨ m.answer s r.cwd = .error e

/-- A module fails: it cannot be read, or a call of it that was `asked` fails after others that were `done`. -/
inductive Fails (asked done : Resolved → Script.Call → Prop) (link : Resolved → Script.Call → Resolved → Prop) :
    Resolved → Failure → Prop
  /-- It cannot be read. -/
  | unread {r : Resolved} {e : Failure} : r.value = none → m.calls r = .error e → Fails asked done link r e
  /-- It calls for something that stands for no module. -/
  | unanswered {r : Resolved} {before : List Script.Call} {c : Script.Call} {after : List Script.Call}
    {e : Failure} :
    r.value = none → m.calls r = .ok (before ++ c :: after) → (∀ b ∈ before, done r b) → asked r c →
    m.Unanswered r c.specifier e → Fails asked done link r e
  /-- It calls for a module that fails. -/
  | passed {r : Resolved} {before : List Script.Call} {c : Script.Call} {after : List Script.Call} {t : Resolved}
    {e : Failure} :
    r.value = none → m.calls r = .ok (before ++ c :: after) → (∀ b ∈ before, done r b) →
    link r c t → Fails asked done link t e → Fails asked done link r e

/-- Why a module fails: the calls before lead to modules that can be loaded. -/
def Breaks (r : Resolved) (e : Failure) : Prop :=
  m.Fails (fun _ _ => True) (fun r c => ∃ t, m.Leads r c.specifier t ∧ m.Good t)
    (fun r c t => m.Leads r c.specifier t) r e

variable {m}

/-! ### Modules that can be loaded -/

theorem Leads.unique {r t t' : Resolved} {s : String} (h : m.Leads r s t) (h' : m.Leads r s t') : t = t' :=
  Option.some.inj (Except.ok.inj (h.symm.trans h'))

theorem Leads.knows {r t : Resolved} {s : String} (h : m.Leads r s t) : m.Knows t := ⟨s, r.cwd, h⟩

theorem CallsFor.knows {r t : Resolved} (h : m.CallsFor r t) : m.Knows t := by
  obtain ⟨-, _, -, _, -, hl⟩ := h
  exact hl.knows

theorem Good.sound {r : Resolved} (h : m.Good r) : m.Sound r := h r Relation.ReflTransGen.refl

theorem Good.callsFor {r t : Resolved} (h : m.Good r) (ht : m.CallsFor r t) : m.Good t :=
  fun u hu => h u (Relation.ReflTransGen.head ht hu)

theorem Good.leads {r t : Resolved} (h : m.Good r) (hv : r.value = none) {calls : List Script.Call}
    (hcalls : m.calls r = .ok calls) {c : Script.Call} (hc : c ∈ calls) (hl : m.Leads r c.specifier t) : m.Good t :=
  h.callsFor ⟨hv, calls, hcalls, c, hc, hl⟩

theorem good_of_callsFor {r : Resolved} (hs : m.Sound r) (h : ∀ t, m.CallsFor r t → m.Good t) : m.Good r := by
  intro t ht
  rcases Relation.ReflTransGen.cases_head ht with rfl | ⟨u, hu, hut⟩
  · exact hs
  · exact h u hu t hut

/-- A value that stands for itself can be loaded. -/
theorem good_of_value {r : Resolved} (h : r.value ≠ none) : m.Good r :=
  good_of_callsFor (fun hv => absurd hv h) fun _ ht => absurd ht.1 h

/-- In a set of sound modules that leads nowhere else every module can be loaded. -/
theorem good_of_closed (inside : Resolved → Prop) (hs : ∀ r, inside r → m.Sound r)
    (hc : ∀ r t, inside r → m.CallsFor r t → inside t) {r : Resolved} (hr : inside r) : m.Good r := by
  have all : ∀ t, m.Reaches r t → inside t := by
    intro t ht
    induction ht with
    | refl => exact hr
    | tail _ htu ih => exact hc _ _ ih htu
  exact fun t ht => hs t (all t ht)

/-! ### Modules that fail -/

theorem Unanswered.not_leads {r t : Resolved} {s : String} {e : Failure} (h : m.Unanswered r s e) :
    ¬m.Leads r s t := by
  intro ht
  rcases h with ⟨hn, -⟩ | he
  · cases hn.symm.trans ht
  · cases he.symm.trans ht

theorem Unanswered.unique {r : Resolved} {s : String} {e e' : Failure} (h : m.Unanswered r s e)
    (h' : m.Unanswered r s e') : e = e' := by
  rcases h with ⟨hn, rfl⟩ | he <;> rcases h' with ⟨hn', rfl⟩ | he'
  · rfl
  · cases hn.symm.trans he'
  · cases hn'.symm.trans he
  · exact Except.error.inj (he.symm.trans he')

/-- Where a list is split at two places, one of them is before the other. -/
theorem split_cases {α : Type} {before before' after after' : List α} {c c' : α}
    (h : before ++ c :: after = before' ++ c' :: after') :
    (before = before' ∧ c = c') ∨ c ∈ before' ∨ c' ∈ before := by
  induction before generalizing before' with
  | nil =>
    cases before' with
    | nil => cases h; exact Or.inl ⟨rfl, rfl⟩
    | cons d rest => cases h; exact Or.inr (Or.inl (List.mem_cons_self ..))
  | cons d before ih =>
    cases before' with
    | nil => cases h; exact Or.inr (Or.inr (List.mem_cons_self ..))
    | cons d' before' =>
      rw [List.cons_append, List.cons_append, List.cons.injEq] at h
      rcases ih h.2 with ⟨rfl, rfl⟩ | hc | hc
      · exact Or.inl ⟨by rw [h.1], rfl⟩
      · exact Or.inr (Or.inl (List.mem_cons_of_mem _ hc))
      · exact Or.inr (Or.inr (List.mem_cons_of_mem _ hc))

section

variable {asked done : Resolved → Script.Call → Prop} {link : Resolved → Script.Call → Resolved → Prop}

/-- A module with a call that leads to no good module cannot be loaded. -/
theorem not_good_of_call {r : Resolved} (hv : r.value = none) {calls : List Script.Call}
    (hcalls : m.calls r = .ok calls) {c : Script.Call} (hc : c ∈ calls)
    (hbad : ∀ t, m.Leads r c.specifier t → ¬m.Good t) : ¬m.Good r := by
  intro hg
  obtain ⟨calls', hcalls', hall⟩ := hg.sound hv
  cases hcalls.symm.trans hcalls'
  obtain ⟨t, ht⟩ := hall c hc
  exact hbad t ht (hg.leads hv hcalls hc ht)

/-- A module that fails cannot be loaded. -/
theorem Fails.not_good (hlink : ∀ r c t, link r c t → m.Leads r c.specifier t) {r : Resolved} {e : Failure}
    (h : m.Fails asked done link r e) : ¬m.Good r := by
  induction h with
  | unread hv he =>
    intro hg
    obtain ⟨calls, hcalls, -⟩ := hg.sound hv
    cases he.symm.trans hcalls
  | unanswered hv hcalls _ _ hu => exact not_good_of_call hv hcalls (by simp) fun t ht => (hu.not_leads ht).elim
  | passed hv hcalls _ hl _ ih =>
    refine not_good_of_call hv hcalls (List.mem_append_right _ (List.mem_cons_self ..)) fun t ht => ?_
    rwa [ht.unique (hlink _ _ _ hl)]

/-- Failures are carried to another meaning along the modules that stay as they are. -/
theorem Fails.carry {m' : Meaning} {asked' done' : Resolved → Script.Call → Prop}
    {link' : Resolved → Script.Call → Resolved → Prop} (stays : Resolved → Prop)
    (hcalls : ∀ r, stays r → m'.calls r = m.calls r)
    (hasked : ∀ r c, stays r → asked r c → asked' r c)
    (hunanswered : ∀ r calls (c : Script.Call) e, stays r → m.calls r = .ok calls → c ∈ calls → asked r c →
      m.Unanswered r c.specifier e → m'.Unanswered r c.specifier e)
    (hdone : ∀ r b, stays r → done r b → done' r b)
    (hlink : ∀ r c t, stays r → link r c t → stays t ∧ link' r c t) {r : Resolved} {e : Failure}
    (h : m.Fails asked done link r e) (hr : stays r) : m'.Fails asked' done' link' r e := by
  induction h with
  | unread hv he => exact .unread hv ((hcalls _ hr).trans he)
  | unanswered hv hc hb ha hu =>
    exact .unanswered hv ((hcalls _ hr).trans hc) (fun b hm => hdone _ b hr (hb b hm)) (hasked _ _ hr ha)
      (hunanswered _ _ _ _ hr hc (by simp) ha hu)
  | passed hv hc hb hl _ ih =>
    obtain ⟨ht, hl'⟩ := hlink _ _ _ hr hl
    exact .passed hv ((hcalls _ hr).trans hc) (fun b hm => hdone _ b hr (hb b hm)) hl' (ih ht)

/-- A module fails for one reason only, as long as everything that was done can be loaded. -/
theorem Fails.unique (hdone : ∀ r b, done r b → ∃ t, m.Leads r b.specifier t ∧ m.Good t)
    (hlink : ∀ r c t, link r c t → m.Leads r c.specifier t) {r : Resolved} {e e' : Failure}
    (h : m.Fails asked done link r e) (h' : m.Fails asked done link r e') : e = e' := by
  -- the first call that leads to no good module is the one that fails
  have first {r : Resolved} {before before' after after' : List Script.Call} {c c' : Script.Call}
      (hc : m.calls r = .ok (before ++ c :: after)) (hc' : m.calls r = .ok (before' ++ c' :: after'))
      (hb : ∀ b ∈ before, done r b) (hb' : ∀ b ∈ before', done r b)
      (hbad : ∀ t, m.Leads r c.specifier t → ¬m.Good t) (hbad' : ∀ t, m.Leads r c'.specifier t → ¬m.Good t) :
      c = c' := by
    rcases split_cases (Except.ok.inj (hc.symm.trans hc')) with ⟨-, he⟩ | hm | hm
    · exact he
    · obtain ⟨t, ht, hg⟩ := hdone r c (hb' c hm)
      exact (hbad t ht hg).elim
    · obtain ⟨t, ht, hg⟩ := hdone r c' (hb c' hm)
      exact (hbad' t ht hg).elim
  have bad {r t : Resolved} {c : Script.Call} {e : Failure} (hl : link r c t) (hf : m.Fails asked done link t e) :
      ∀ u, m.Leads r c.specifier u → ¬m.Good u := fun u hu => by
    rw [hu.unique (hlink _ _ _ hl)]
    exact hf.not_good hlink
  induction h generalizing e' with
  | unread _ he =>
    cases h' with
    | unread _ he' => exact Except.error.inj (he.symm.trans he')
    | unanswered _ hc' _ _ _ => cases he.symm.trans hc'
    | passed _ hc' _ _ _ => cases he.symm.trans hc'
  | unanswered _ hc hb _ hu =>
    cases h' with
    | unread _ he' => cases he'.symm.trans hc
    | unanswered _ hc' hb' _ hu' =>
      obtain rfl := first hc hc' hb hb' (fun _ ht => (hu.not_leads ht).elim) fun _ ht => (hu'.not_leads ht).elim
      exact hu.unique hu'
    | passed _ hc' hb' hl' hf' =>
      obtain rfl := first hc hc' hb hb' (fun _ ht => (hu.not_leads ht).elim) (bad hl' hf')
      exact (hu.not_leads (hlink _ _ _ hl')).elim
  | passed _ hc hb hl hf ih =>
    cases h' with
    | unread _ he' => cases he'.symm.trans hc
    | unanswered _ hc' hb' _ hu' =>
      obtain rfl := first hc hc' hb hb' (bad hl hf) fun _ ht => (hu'.not_leads ht).elim
      exact (hu'.not_leads (hlink _ _ _ hl)).elim
    | passed _ hc' hb' hl' hf' =>
      obtain rfl := first hc hc' hb hb' (bad hl hf) (bad hl' hf')
      obtain rfl := (hlink _ _ _ hl).unique (hlink _ _ _ hl')
      exact ih hf'

end

theorem Breaks.not_good {r : Resolved} {e : Failure} (h : m.Breaks r e) : ¬m.Good r :=
  Fails.not_good (fun _ _ _ hl => hl) h

/-- A module breaks for one reason only. -/
theorem Breaks.unique {r : Resolved} {e e' : Failure} (h : m.Breaks r e) (h' : m.Breaks r e') : e = e' :=
  Fails.unique (fun _ _ hd => hd) (fun _ _ _ hl => hl) h h'

end Meaning

end ScriptVault

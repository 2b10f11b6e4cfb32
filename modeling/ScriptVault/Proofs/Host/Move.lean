import Mathlib.Order.Defs.Unbundled
import ScriptVault.Host.Import
import ScriptVault.Host.Realm
import ScriptVault.Proofs.Host.Slots
import ScriptVault.Proofs.Value.Growth

/-!
# Move — what a host does to its loaders in one go

Whatever a host does is made of a few moves, and between any two of them others may make theirs.  A move looks
into a slot and fills it, or ends an evaluation, or evicts modules, or leaves all slots alone.
-/

namespace ScriptVault

/-! ### Slots -/

/-- The three slots of a module. -/
inductive Kind where
  /-- It is run as a script. -/
  | script
  /-- It is imported, with or without the bindings of a script. -/
  | imported (interop : Bool)
  deriving DecidableEq

/-- What a slot holds. -/
inductive Held where
  /-- A value that stands for the module as it is. -/
  | value (v : Value)
  /-- An evaluation, by its number. -/
  | run (n : Nat)
  /-- The failure of an evaluation. -/
  | failed (failure : Failure)

/-- What a slot of scripts holds; an evaluation goes by its module object. -/
def ScriptSlot.held : ScriptSlot → Held
  | .value v => .value v
  | .module object => .run object
  | .failed failure => .failed failure

/-- What a slot of imports holds; an evaluation goes by its work. -/
def ImportSlot.held : ImportSlot → Held
  | .value v => .value v
  | .pending work => .run work

/-- What one of three slots holds. -/
def Slots.held (s : Slots) : Kind → Option Held
  | .script => s.script.map ScriptSlot.held
  | .imported interop => (s.imported interop).map ImportSlot.held

@[simp] theorem Slots.held_empty (k : Kind) : ({} : Slots).held k = none := by
  cases k with
  | script => rfl
  | imported interop => cases interop <;> rfl

theorem Slots.held_withImported (s : Slots) (interop : Bool) (slot : Option ImportSlot) (k : Kind) :
    (s.withImported interop slot).held k =
      if k = .imported interop then slot.map ImportSlot.held else s.held k := by
  cases k with
  | script => cases interop <;> rfl
  | imported j => cases interop <;> cases j <;> simp [Slots.held, Slots.imported, Slots.withImported]

theorem Slots.held_withScript (s : Slots) (slot : ScriptSlot) (k : Kind) :
    ({ s with script := some slot } : Slots).held k = if k = .script then some slot.held else s.held k := by
  cases k with
  | script => rfl
  | imported j => cases j <;> simp [Slots.held, Slots.imported]

namespace Host

/-- What a slot of a module holds. -/
def held (h : Host) (l : Nat) (id : String) (k : Kind) : Option Held := ((h.loader l).slots id).held k

/-- Numbers from here on were not given to evaluations of a kind. -/
def bound (h : Host) : Kind → Nat
  | .script => h.heap.records.size
  | .imported _ => h.nextWork

/-- Only what is beside the loaders is changed, and no number is given up. -/
structure Beside (h h' : Host) : Prop where
  /-- The loaders are the same. -/
  loaders : h'.loaders = h.loaders
  /-- No object is given up. -/
  objects : h.heap.records.size ≤ h'.heap.records.size
  /-- No number of work is given up. -/
  works : h.nextWork ≤ h'.nextWork

theorem Beside.refl (h : Host) : Beside h h := ⟨rfl, Nat.le_refl _, Nat.le_refl _⟩

theorem Beside.trans {h h' h'' : Host} (a : Beside h h') (b : Beside h' h'') : Beside h h'' :=
  ⟨b.loaders.trans a.loaders, Nat.le_trans a.objects b.objects, Nat.le_trans a.works b.works⟩

end Host

/-- The loader without its modules, which are told. -/
def Loader.cleared (loader : Loader) : List String × Loader :=
  (loader.graph.clear.1, { loader with graph := loader.graph.clear.2 })

/-! ### Moves -/

/-- What a host does in one go. -/
inductive Move where
  /-- Something beside the loaders. -/
  | aside (f : Host → Host) (hf : ∀ h : Host, h.Beside (f h))
  /-- Something with a loader that leaves its slots alone. -/
  | around (l : Nat) (f : Loader → Loader) (hf : ∀ loader, (f loader).graph.cache = loader.graph.cache)
  /-- Adds a loader. -/
  | add (app : Value) (stream : Nat) (held : Bool)
  /-- Looks into the script slot of a module, and fills it if it is empty. -/
  | claim (l : Nat) (resolved : Resolved)
  /-- Keeps the failure of the evaluation of a script. -/
  | fail (l : Nat) (id : String) (object : Nat) (failure : Failure)
  /-- Looks into a slot of imports of a module, and fills it if it is empty. -/
  | claimImport (l : Nat) (resolved : Resolved) (interop : Bool)
  /-- Forgets an import that took too long. -/
  | forgetImport (l : Nat) (id : String) (interop : Bool) (work : Nat)
  /-- Lets a specifier stand for a module, which may evict others. -/
  | settle (l : Nat) (id : String) (resolved : Resolved) (context : Context)
  /-- Evicts a module and all that was built on it. -/
  | evict (l : Nat) (id : String)
  /-- Evicts all modules. -/
  | clear (l : Nat)

namespace Move

/-- What a move does. -/
def act : Move → Host → Host
  | aside f _, h => f h
  | around l f _, h => h.onLoader l f
  | add app stream held, h => (h.addLoader app stream held).2
  | claim l resolved, h => (Host.claim l resolved h).2
  | fail l id object failure, h => Host.fail l id object failure h
  | claimImport l resolved interop, h => (Host.claimImport l resolved interop h).2
  | forgetImport l id interop work, h => Host.forgetImport l id interop work h
  | settle l id resolved context, h => Host.settle l id resolved context h
  | evict l id, h => Host.evict id h l
  | clear l, h => Host.evicting l Loader.cleared h

/-- The move starts an evaluation for a slot. -/
inductive Starts (l : Nat) (id : String) : Kind → Nat → Move → Host → Prop where
  /-- A module object is made for a script. -/
  | script {resolved : Resolved} {n : Nat} {h : Host} (hid : resolved.id = id)
    (hc : (Host.claim l resolved h).1 = .inr n) : Starts l id .script n (.claim l resolved) h
  /-- Work is numbered for an import. -/
  | imported {resolved : Resolved} {interop : Bool} {n : Nat} {h : Host} (hid : resolved.id = id)
    (hc : (Host.claimImport l resolved interop h).1.2 = some n) :
    Starts l id (.imported interop) n (.claimImport l resolved interop) h

/-- The failure that a move keeps for an evaluation of a script. -/
def failure? (l : Nat) (id : String) (n : Nat) : Move → Option Failure
  | fail l' id' n' e => if l' = l ∧ id' = id ∧ n' = n then some e else none
  | _ => none

/-- The move evicts modules. -/
def evicts : Move → Bool
  | settle .. => true
  | evict .. => true
  | clear .. => true
  | _ => false

end Move

namespace Host

variable {h h' : Host} {l : Nat} {id : String} {k : Kind}

/-! ### Slots after a change -/

theorem Beside.held (hb : Beside h h') (l : Nat) (id : String) (k : Kind) : h'.held l id k = h.held l id k := by
  unfold Host.held loader
  rw [hb.loaders]

theorem Beside.bound (hb : Beside h h') (k : Kind) : h.bound k ≤ h'.bound k := by
  cases k with
  | script => exact hb.objects
  | imported _ => exact hb.works

theorem held_onLoader (hl : l < h.loaders.length) (m : Nat) (f : Loader → Loader) :
    (h.onLoader m f).held l id k = if m = l then ((f (h.loader l)).slots id).held k else h.held l id k := by
  unfold held
  by_cases hm : m = l
  · subst hm
    rw [if_pos rfl, loader_onLoader hl]
  · rw [if_neg hm, loader_onLoader_ne (Ne.symm hm)]

theorem held_fill (hl : l < h.loaders.length) (m : Nat) (i : String) (slot : ScriptSlot) :
    (h.fill m i slot).held l id k =
      if m = l ∧ i = id ∧ k = .script then some slot.held else h.held l id k := by
  unfold fill
  rw [held_onLoader hl]
  by_cases hm : m = l
  · subst hm
    rw [if_pos rfl, Loader.slots_eq, Loader.withSlots]
    by_cases hi : i = id
    · subst hi
      rw [Table.at?_put_same, Option.getD_some, Slots.held_withScript]
      simp [held]
    · rw [Table.at?_put_ne hi, ← Loader.slots_eq]
      simp [hi, held]
  · simp [hm]

theorem held_fillImport (hl : l < h.loaders.length) (m : Nat) (i : String) (interop : Bool)
    (slot : Option ImportSlot) :
    (h.fillImport m i interop slot).held l id k =
      if m = l ∧ i = id ∧ k = .imported interop then slot.map ImportSlot.held else h.held l id k := by
  unfold fillImport
  rw [held_onLoader hl]
  by_cases hm : m = l
  · subst hm
    rw [if_pos rfl, Loader.slots_eq, Loader.withSlots]
    by_cases hi : i = id
    · subst hi
      rw [Table.at?_put_same, Option.getD_some, Slots.held_withImported]
      simp [held]
    · rw [Table.at?_put_ne hi, ← Loader.slots_eq]
      simp [hi, held]
  · simp [hm]

/-- An announcement is beside the loaders. -/
theorem beside_emit (stream : Nat) (h : Host) (id : String) : Beside h (emit stream h id) := by
  unfold emit startupEvicted ask
  dsimp only
  split
  · split
    · exact ⟨rfl, Nat.le_refl _, Nat.le_refl _⟩
    · split
      · exact ⟨rfl, Nat.le_refl _, Nat.le_succ _⟩
      · exact ⟨rfl, Nat.le_refl _, Nat.le_refl _⟩
  · exact ⟨rfl, Nat.le_refl _, Nat.le_refl _⟩

theorem beside_emits (stream : Nat) (ids : List String) (h : Host) : Beside h (ids.foldl (emit stream) h) := by
  induction ids generalizing h with
  | nil => exact Beside.refl h
  | cons id ids ih => exact (beside_emit stream h id).trans (ih _)

/-- To let a loader evict sets that loader, and is beside the loaders otherwise. -/
theorem beside_evicting (m : Nat) (act : Loader → List String × Loader) (h : Host) :
    Beside { h with loaders := h.loaders.set m (act (h.loader m)).2 } (evicting m act h) :=
  beside_emits _ _ _

/-- A slot is emptied or kept by a loader that empties slots or keeps them. -/
theorem held_evicting (hl : l < h.loaders.length) (m : Nat) {act : Loader → List String × Loader}
    (hact : ∀ loader, (act loader).2.slots id = {} ∨ (act loader).2.slots id = loader.slots id) :
    (evicting m act h).held l id k = none ∨ (evicting m act h).held l id k = h.held l id k := by
  rw [(beside_evicting m act h).held]
  show (h.onLoader m fun loader => (act loader).2).held l id k = none ∨
    (h.onLoader m fun loader => (act loader).2).held l id k = h.held l id k
  rw [held_onLoader hl]
  by_cases hm : m = l
  · rw [if_pos hm]
    rcases hact (h.loader l) with he | he
    · left; rw [he, Slots.held_empty]
    · right; rw [he, held]
  · rw [if_neg hm]
    exact Or.inr rfl

/-- A slot of scripts serves what it holds, or a value fills it, or a module object that is to be run. -/
theorem claim_cases (l : Nat) (resolved : Resolved) (h : Host) :
    (∃ slot, h.slotOf l resolved.id = some slot ∧ claim l resolved h = (.inl (h.valueOf slot), h)) ∨
    (h.slotOf l resolved.id = none ∧ ∃ v, claim l resolved h = (.inl (.ok v), h.fill l resolved.id (.value v))) ∨
    (h.slotOf l resolved.id = none ∧
      claim l resolved h = (.inr (newModule h.heap).1,
        { h with heap := (newModule h.heap).2 }.fill l resolved.id (.module (newModule h.heap).1))) := by
  unfold claim slotOf
  cases ((h.loader l).slots resolved.id).script with
  | some slot => exact Or.inl ⟨slot, rfl, rfl⟩
  | none =>
    cases resolved.value with
    | some v => exact Or.inr (Or.inl ⟨rfl, v, rfl⟩)
    | none => exact Or.inr (Or.inr ⟨rfl, rfl⟩)

/-- What a slot of imports holds. -/
def importOf (h : Host) (l : Nat) (id : String) (interop : Bool) : Option ImportSlot :=
  ((h.loader l).slots id).imported interop

/-- A slot of imports serves what it holds, or a value fills it, or work that is to begin. -/
theorem claimImport_cases (l : Nat) (resolved : Resolved) (interop : Bool) (h : Host) :
    (∃ slot, h.importOf l resolved.id interop = some slot ∧ claimImport l resolved interop h = ((slot, none), h)) ∨
    (h.importOf l resolved.id interop = none ∧ ∃ v, claimImport l resolved interop h =
      ((.value v, none), h.fillImport l resolved.id interop (some (.value v)))) ∨
    (h.importOf l resolved.id interop = none ∧ claimImport l resolved interop h =
      ((.pending h.nextWork, some h.nextWork),
        h.number.2.fillImport l resolved.id interop (some (.pending h.nextWork)))) := by
  unfold claimImport importOf
  cases ((h.loader l).slots resolved.id).imported interop with
  | some slot => exact Or.inl ⟨slot, rfl, rfl⟩
  | none =>
    cases resolved.value with
    | some v => exact Or.inr (Or.inl ⟨rfl, v, rfl⟩)
    | none => exact Or.inr (Or.inr ⟨rfl, rfl⟩)

/-- A failure is kept where the slot holds the evaluation that failed, and nowhere else. -/
theorem fail_cases (l : Nat) (id : String) (object : Nat) (e : Failure) (h : Host) :
    (h.slotOf l id = some (.module object) ∧ fail l id object e h = h.fill l id (.failed e)) ∨
    (h.slotOf l id ≠ some (.module object) ∧ fail l id object e h = h) := by
  unfold fail slotOf
  split
  · next current hslot =>
    by_cases hc : current = object
    · rw [if_pos hc, hslot, hc]
      exact Or.inl ⟨rfl, rfl⟩
    · rw [if_neg hc, hslot]
      exact Or.inr ⟨fun he => hc (ScriptSlot.module.inj (Option.some.inj he)), rfl⟩
  · next hslot => exact Or.inr ⟨hslot object, rfl⟩

/-- An import that took too long is forgotten where the slot holds it, and nowhere else. -/
theorem forgetImport_cases (l : Nat) (id : String) (interop : Bool) (work : Nat) (h : Host) :
    (h.importOf l id interop = some (.pending work) ∧
      forgetImport l id interop work h = h.fillImport l id interop none) ∨
    (h.importOf l id interop ≠ some (.pending work) ∧ forgetImport l id interop work h = h) := by
  unfold forgetImport importOf
  split
  · next current hslot =>
    by_cases hc : current = work
    · rw [if_pos hc, hslot, hc]
      exact Or.inl ⟨rfl, rfl⟩
    · rw [if_neg hc, hslot]
      exact Or.inr ⟨fun he => hc (ImportSlot.pending.inj (Option.some.inj he)), rfl⟩
  · next hslot => exact Or.inr ⟨hslot work, rfl⟩

theorem held_script (h : Host) (l : Nat) (id : String) :
    h.held l id .script = (h.slotOf l id).map ScriptSlot.held := rfl

theorem held_imported (h : Host) (l : Nat) (id : String) (interop : Bool) :
    h.held l id (.imported interop) = (h.importOf l id interop).map ImportSlot.held := rfl

end Host

/-! ### What a move can do -/

namespace Move

variable {h : Host} {l : Nat} {id : String} {k : Kind}

/-- What a move does besides filling a slot: no loader and no number is given up. -/
structure Grows (h h' : Host) : Prop where
  /-- No loader is given up. -/
  loaders : h.loaders.length ≤ h'.loaders.length
  /-- No number is given up. -/
  bound : ∀ k, h.bound k ≤ h'.bound k

theorem Grows.refl (h : Host) : Grows h h := ⟨Nat.le_refl _, fun _ => Nat.le_refl _⟩

theorem Grows.beside {h h' h'' : Host} (hg : Grows h h') (hb : h'.Beside h'') : Grows h h'' :=
  ⟨by rw [hb.loaders]; exact hg.loaders, fun k => Nat.le_trans (hg.bound k) (hb.bound k)⟩

theorem grows_loaders (h : Host) (m : Nat) (loader : Loader) :
    Grows h { h with loaders := h.loaders.set m loader } := by
  refine ⟨Nat.le_of_eq List.length_set.symm, fun k => ?_⟩
  cases k <;> exact Nat.le_refl _

theorem grows_evicting (m : Nat) (act : Loader → List String × Loader) (h : Host) :
    Grows h (Host.evicting m act h) := (grows_loaders h m _).beside (Host.beside_evicting m act h)

theorem grows_fill {h h' : Host} (hb : h.Beside h') (l : Nat) (loader : Loader) :
    Grows h { h' with loaders := h'.loaders.set l loader } := by
  have hg := grows_loaders h' l loader
  refine ⟨?_, fun k => Nat.le_trans (hb.bound k) (hg.bound k)⟩
  rw [← hb.loaders]
  exact hg.loaders

theorem beside_newModule (h : Host) : h.Beside { h with heap := (Host.newModule h.heap).2 } :=
  ⟨rfl, Host.newModule_grows h.heap, Nat.le_refl _⟩

theorem beside_number (h : Host) : h.Beside h.number.2 := ⟨rfl, Nat.le_refl _, Nat.le_succ _⟩

/-- No move gives up a loader or a number. -/
theorem grows_act (m : Move) (h : Host) : Grows h (m.act h) := by
  cases m with
  | aside f hf => exact (Grows.refl h).beside (hf h)
  | around l f _ => exact grows_loaders h l _
  | add app stream held =>
    refine ⟨by simp [act, Host.addLoader], fun k => ?_⟩
    cases k with
    | script => exact Nat.le_trans (Heap.ofEntries_grows ..) (Heap.ofEntries_grows ..)
    | imported _ => exact Nat.le_refl _
  | claim l resolved =>
    show Grows h (Host.claim l resolved h).2
    obtain ⟨_, -, he⟩ | ⟨-, _, he⟩ | ⟨-, he⟩ := Host.claim_cases l resolved h <;> rw [he]
    · exact Grows.refl h
    · exact grows_loaders h l _
    · exact grows_fill (beside_newModule h) l _
  | fail l id object e =>
    show Grows h (Host.fail l id object e h)
    obtain ⟨-, he⟩ | ⟨-, he⟩ := Host.fail_cases l id object e h <;> rw [he]
    · exact grows_loaders h l _
    · exact Grows.refl h
  | claimImport l resolved interop =>
    show Grows h (Host.claimImport l resolved interop h).2
    obtain ⟨_, -, he⟩ | ⟨-, _, he⟩ | ⟨-, he⟩ := Host.claimImport_cases l resolved interop h <;> rw [he]
    · exact Grows.refl h
    · exact grows_loaders h l _
    · exact grows_fill (beside_number h) l _
  | forgetImport l id interop work =>
    show Grows h (Host.forgetImport l id interop work h)
    obtain ⟨-, he⟩ | ⟨-, he⟩ := Host.forgetImport_cases l id interop work h <;> rw [he]
    · exact grows_loaders h l _
    · exact Grows.refl h
  | settle l id resolved context =>
    have he := grows_evicting l (·.settled id resolved) h
    show Grows h (Host.settle l id resolved context h)
    rw [Host.settle_eq]
    split
    · exact he.beside ⟨rfl, Nat.le_refl _, Nat.le_refl _⟩
    · exact he
  | evict l id =>
    show Grows h (Host.evict id h l)
    exact grows_evicting l _ h
  | clear l => exact grows_evicting l Loader.cleared h

/-- What a move makes of a slot. -/
inductive Turns (l : Nat) (id : String) (m : Move) (h : Host) : Kind → Option Held → Option Held → Prop where
  /-- It leaves it alone. -/
  | kept (k : Kind) (x : Option Held) : Turns l id m h k x x
  /-- It evicts the module. -/
  | evicted (k : Kind) (x : Option Held) (he : m.evicts = true) : Turns l id m h k x none
  /-- It forgets an import that took too long. -/
  | forgotten (interop : Bool) (n : Nat) (hm : m = .forgetImport l id interop n) :
    Turns l id m h (.imported interop) (some (.run n)) none
  /-- It fills it with a value. -/
  | lent (k : Kind) (v : Value) : Turns l id m h k none (some (.value v))
  /-- It starts an evaluation. -/
  | started (k : Kind) (n : Nat) (hs : m.Starts l id k n h) : Turns l id m h k none (some (.run n))
  /-- It keeps the failure of the evaluation that it holds. -/
  | failed (n : Nat) (e : Failure) (he : m.failure? l id n = some e) :
    Turns l id m h .script (some (.run n)) (some (.failed e))

theorem turns_of_eq {m : Move} {x y : Option Held} (hxy : y = x) : Turns l id m h k x y := by
  subst hxy
  exact .kept k y

theorem turns_evicting (hl : l < h.loaders.length) {m : Move} (hm : m.evicts = true) (n : Nat)
    {act : Loader → List String × Loader}
    (hact : ∀ loader, (act loader).2.slots id = {} ∨ (act loader).2.slots id = loader.slots id) :
    Turns l id m h k (h.held l id k) ((Host.evicting n act h).held l id k) := by
  rcases Host.held_evicting (k := k) hl n hact with he | he
  · rw [he]; exact .evicted k _ hm
  · exact turns_of_eq he

/-- A move keeps a slot, empties it by an eviction or by the timeout of what it holds, fills it where it is empty, or
keeps the failure of the evaluation that it holds. -/
theorem turns_act (hl : l < h.loaders.length) (m : Move) (id : String) (k : Kind) :
    Turns l id m h k (h.held l id k) ((m.act h).held l id k) := by
  cases m with
  | aside f hf => exact turns_of_eq ((hf h).held l id k)
  | around n f hf =>
    refine turns_of_eq ?_
    show (h.onLoader n f).held l id k = _
    rw [Host.held_onLoader hl]
    split
    · rw [Loader.slots_eq, hf]; rfl
    · rfl
  | add app stream held =>
    refine turns_of_eq ?_
    have hloader : (Host.addLoader app stream held h).2.loader l = h.loader l := by
      simp [Host.addLoader, Host.loader, List.getElem?_append_left hl]
    show (((Host.addLoader app stream held h).2.loader l).slots id).held k = _
    rw [hloader]
    rfl
  | claim n resolved =>
    show Turns _ _ _ _ _ _ ((Host.claim n resolved h).2.held l id k)
    obtain ⟨_, -, he⟩ | ⟨hnone, v, he⟩ | ⟨hnone, he⟩ := Host.claim_cases n resolved h
    · rw [he]; exact .kept k _
    · rw [he, Host.held_fill hl]
      split
      · next hc =>
        obtain ⟨rfl, rfl, rfl⟩ := hc
        rw [Host.held_script, hnone]
        exact .lent .script v
      · exact .kept k _
    · have hstarts : (Move.claim n resolved).Starts n resolved.id .script (Host.newModule h.heap).1 h :=
        .script rfl (by rw [he])
      rw [he, Host.held_fill (h := { h with heap := (Host.newModule h.heap).2 }) hl]
      split
      · next hc =>
        obtain ⟨rfl, rfl, rfl⟩ := hc
        rw [Host.held_script, hnone]
        exact .started .script _ hstarts
      · exact .kept k _
  | fail n i object e =>
    show Turns _ _ _ _ _ _ ((Host.fail n i object e h).held l id k)
    obtain ⟨hslot, he⟩ | ⟨-, he⟩ := Host.fail_cases n i object e h
    · rw [he, Host.held_fill hl]
      split
      · next hc =>
        obtain ⟨rfl, rfl, rfl⟩ := hc
        rw [Host.held_script, hslot]
        exact .failed object e (by simp [failure?])
      · exact .kept k _
    · rw [he]; exact .kept k _
  | claimImport n resolved interop =>
    show Turns _ _ _ _ _ _ ((Host.claimImport n resolved interop h).2.held l id k)
    obtain ⟨_, -, he⟩ | ⟨hnone, v, he⟩ | ⟨hnone, he⟩ := Host.claimImport_cases n resolved interop h
    · rw [he]; exact .kept k _
    · rw [he, Host.held_fillImport hl]
      split
      · next hc =>
        obtain ⟨rfl, rfl, rfl⟩ := hc
        rw [Host.held_imported, hnone]
        exact .lent _ v
      · exact .kept k _
    · have hstarts : (Move.claimImport n resolved interop).Starts n resolved.id (.imported interop) h.nextWork h :=
        .imported rfl (by rw [he])
      rw [he, Host.held_fillImport (h := h.number.2) hl]
      split
      · next hc =>
        obtain ⟨rfl, rfl, rfl⟩ := hc
        rw [Host.held_imported, hnone]
        exact .started _ _ hstarts
      · exact .kept k _
  | forgetImport n i interop work =>
    show Turns _ _ _ _ _ _ ((Host.forgetImport n i interop work h).held l id k)
    obtain ⟨hslot, he⟩ | ⟨-, he⟩ := Host.forgetImport_cases n i interop work h
    · rw [he, Host.held_fillImport hl]
      split
      · next hc =>
        obtain ⟨rfl, rfl, rfl⟩ := hc
        rw [Host.held_imported, hslot]
        exact .forgotten interop work rfl
      · exact .kept k _
    · rw [he]; exact .kept k _
  | settle n i resolved context =>
    have he : Turns l id (.settle n i resolved context) h k (h.held l id k)
        ((Host.evicting n (·.settled i resolved) h).held l id k) :=
      turns_evicting hl rfl n fun loader => loader.settled_slots i resolved id
    show Turns _ _ _ _ _ _ ((Host.settle n i resolved context h).held l id k)
    rw [Host.settle_eq]
    split <;> exact he
  | evict n i =>
    refine turns_evicting hl rfl n fun loader => ?_
    rcases loader.graph.invalidate_cache_at? i id with he | he
    · left; exact congrArg (·.getD {}) he
    · right; exact congrArg (·.getD {}) he
  | clear n => exact turns_evicting hl rfl n fun _ => Or.inl rfl

/-- An evaluation starts for a slot that is empty, under a new number that is in the slot then. -/
theorem Starts.held {m : Move} {n : Nat} (hs : m.Starts l id k n h) (hl : l < h.loaders.length) :
    h.held l id k = none ∧ (m.act h).held l id k = some (.run n) ∧ n < (m.act h).bound k ∧ h.bound k ≤ n := by
  cases hs with
  | @script resolved n h hid hc =>
    subst hid
    obtain ⟨_, -, he⟩ | ⟨-, v, he⟩ | ⟨hnone, he⟩ := Host.claim_cases l resolved h
    · rw [he] at hc; cases hc
    · rw [he] at hc; cases hc
    · have hact : (Move.claim l resolved).act h = { h with heap := (Host.newModule h.heap).2 }.fill l resolved.id
          (.module (Host.newModule h.heap).1) := congrArg Prod.snd he
      rw [he] at hc
      obtain rfl := Sum.inr.inj hc
      refine ⟨by rw [Host.held_script, hnone]; rfl, ?_, ?_, ?_⟩
      · rw [hact, Host.held_fill (h := { h with heap := (Host.newModule h.heap).2 }) hl, if_pos ⟨rfl, rfl, rfl⟩]
        rfl
      · rw [hact]
        show (Host.newModule h.heap).1 < (Host.newModule h.heap).2.records.size
        simp [Host.newModule_eq]
      · show h.heap.records.size ≤ (Host.newModule h.heap).1
        simp [Host.newModule_eq]
  | @imported resolved interop n h hid hc =>
    subst hid
    obtain ⟨_, -, he⟩ | ⟨-, v, he⟩ | ⟨hnone, he⟩ := Host.claimImport_cases l resolved interop h
    · rw [he] at hc; cases hc
    · rw [he] at hc; cases hc
    · have hact : (Move.claimImport l resolved interop).act h =
          h.number.2.fillImport l resolved.id interop (some (.pending h.nextWork)) := congrArg Prod.snd he
      rw [he] at hc
      obtain rfl := Option.some.inj hc
      refine ⟨by rw [Host.held_imported, hnone]; rfl, ?_, ?_, Nat.le_refl _⟩
      · rw [hact, Host.held_fillImport (h := h.number.2) hl, if_pos ⟨rfl, rfl, rfl⟩]
        rfl
      · rw [hact]
        exact Nat.lt_succ_self _

end Move

namespace Host

/-- The host after some moves. -/
def after (h : Host) (ms : List Move) : Host := ms.foldl (fun h m => m.act h) h

@[simp] theorem after_nil (h : Host) : h.after [] = h := rfl

@[simp] theorem after_cons (h : Host) (m : Move) (ms : List Move) : h.after (m :: ms) = (m.act h).after ms := rfl

theorem after_append (h : Host) (ms ms' : List Move) : h.after (ms ++ ms') = (h.after ms).after ms' :=
  List.foldl_append ..

/-- A host comes to another one by moves. -/
def Reaches (h h' : Host) : Prop := ∃ ms, h' = h.after ms

instance : IsPreorder Host Reaches where
  refl h := ⟨[], rfl⟩
  trans := by
    rintro h _ _ ⟨ms, rfl⟩ ⟨ms', rfl⟩
    exact ⟨ms ++ ms', (after_append h ms ms').symm⟩

theorem Reaches.act (m : Move) (h : Host) : Reaches h (m.act h) := ⟨[m], rfl⟩

end Host

end ScriptVault

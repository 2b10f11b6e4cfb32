import ScriptVault.Host.Start
import ScriptVault.Proofs.Remote.Turn

/-!
# Deeds — the turns of which loads are made

Each step of a load, and of an errand that asks for a remote module, is a turn that threads may make.
-/

namespace ScriptVault

open Host

variable {k : Option Outset} {me : Nat} {x y : Sight}

namespace Sight

/-! ### Single turns -/

theorem Numbers.of_eq (hnext : y.state.nextWork = x.state.nextWork) (ht : y.threads = x.threads)
    (hn : y.notes = x.notes) : Numbers x y where
  next := Nat.le_of_eq hnext.symm
  threads i v h := by rw [ht]; exact h
  begun i h h' := (h' (by rw [ht]; exact h)).elim
  notes i j h := by rw [hn]; exact h
  held i h h' := (h' (by rw [hn]; exact h)).elim

/-- To note who asked, and to tell listeners, is a turn. -/
theorem turn_aside (k : Option Outset) (me : Nat) (x : Sight) (tracked : Names) (loaders : List Loader)
    (announced : List (Nat × String)) :
    Turn k me x { x with state := { x.state with
      remote := { x.state.remote with tracked := tracked }, loaders := loaders, announced := announced } } :=
  ⟨⟨rfl, rfl, rfl⟩, rfl, rfl, rfl, .of_eq rfl rfl rfl, .same (fun _ => rfl) rfl fun _ _ _ h => h, fun _ => Or.inl rfl,
    fun _ => Or.inl rfl, Or.inl rfl, fun _ => Or.inl rfl, Or.inl rfl⟩

/-- To keep where an address leads is a turn, if the network says so. -/
theorem turn_redirect (k : Option Outset) (me : Nat) (x : Sight) {a target : String}
    (hd : x.state.network.destination a = .ok target)
    (hs : ∀ s, k = some s → s.host.remote.redirects.at? a = none) :
    Turn k me x { x with state := { x.state with
      remote := { x.state.remote with redirects := x.state.remote.redirects.put a target } } } := by
  refine ⟨⟨rfl, rfl, rfl⟩, rfl, rfl, rfl, .of_eq rfl rfl rfl, .same (fun _ => rfl) rfl fun _ _ _ h => h,
    fun _ => Or.inl rfl, fun _ => Or.inl rfl, Or.inl rfl, fun b => ?_, Or.inl rfl⟩
  show Table.at? (x.state.remote.redirects.put a target) b = _ ∨ ∃ target', _ ∧ Table.at? _ b = _ ∧ _
  rw [Table.at?_put]
  split
  · next he => exact Or.inr ⟨target, he ▸ hd, rfl, he ▸ hs⟩
  · exact Or.inl rfl

/-- A number given out, and held by somebody. -/
def numbered (x : Sight) (holder : Nat) : Sight :=
  ⟨x.state.number.2, x.threads, Function.update x.notes x.state.nextWork (some holder)⟩

theorem turn_numbered (hx : Orderly k x) (me holder : Nat) : Turn k me x (x.numbered holder) := by
  have hfresh : x.notes x.state.nextWork = none := by
    by_contra h
    exact Nat.lt_irrefl _ (hx.held _ h)
  refine ⟨⟨rfl, rfl, rfl⟩, rfl, rfl, rfl, ⟨Nat.le_succ _, fun _ _ h => h, fun i h h' => (h' h).elim, fun i j h => ?_,
    fun i h h' => ?_⟩, .same (fun _ => rfl) rfl fun _ _ _ h => h, fun _ => Or.inl rfl, fun _ => Or.inl rfl, Or.inl rfl,
    fun _ => Or.inl rfl, Or.inl rfl⟩
  · have hne : i ≠ x.state.nextWork := fun he => by rw [he, hfresh] at h; cases h
    exact (Function.update_of_ne hne _ _).trans h
  · by_cases he : i = x.state.nextWork
    · subst he
      exact ⟨Nat.le_refl _, Nat.lt_succ_self _⟩
    · exact (h' ((Function.update_of_ne he _ _).trans h)).elim

/-- A number given out to new work. -/
def begun (x : Sight) (work : Work) : Sight :=
  ⟨x.state.number.2, Function.update x.threads x.state.nextWork (some (some work)),
    Function.update x.notes x.state.nextWork (some x.state.nextWork)⟩

/-- An address that is claimed for new work. -/
def claimed (x : Sight) (href : String) : Sight where
  state := { x.state.number.2 with remote := (x.state.remote.beginLoad href x.state.nextWork).2 }
  threads := Function.update x.threads x.state.nextWork (some (some (.fetching href x.state.remote.nextToken)))
  notes := Function.update x.notes x.state.nextWork (some x.state.nextWork)

theorem Orderly.fresh (hx : Orderly k x) : x.threads x.state.nextWork = none ∧ x.notes x.state.nextWork = none ∧
    x.state.outcome? x.state.nextWork = none := by
  refine ⟨?_, ?_, ?_⟩ <;> by_contra h
  · exact Nat.lt_irrefl _ (hx.begun _ h)
  · exact Nat.lt_irrefl _ (hx.held _ h)
  · exact Nat.lt_irrefl _ (hx.told _ h)

/-- Where a number is new, what is entered under it is known before for no other. -/
theorem Orderly.numbers (hx : Orderly k x) (hnext : y.state.nextWork = x.state.nextWork + 1) {work : Work}
    (ht : y.threads = Function.update x.threads x.state.nextWork (some (some work)))
    (hn : y.notes = Function.update x.notes x.state.nextWork (some x.state.nextWork)) : Numbers x y := by
  obtain ⟨hthreads, hnotes, -⟩ := hx.fresh
  refine ⟨by omega, fun i v h => ?_, fun i h h' => ?_, fun i j h => ?_, fun i h h' => ?_⟩
  · rw [ht, Function.update_of_ne fun he => by rw [he, hthreads] at h; cases h]
    exact h
  · by_cases he : i = x.state.nextWork
    · subst he
      exact ⟨Nat.le_refl _, by omega, by rw [hn, Function.update_self]⟩
    · rw [ht, Function.update_of_ne he] at h'
      exact (h' h).elim
  · rw [hn, Function.update_of_ne fun he => by rw [he, hnotes] at h; cases h]
    exact h
  · by_cases he : i = x.state.nextWork
    · omega
    · rw [hn, Function.update_of_ne he] at h'
      exact (h' h).elim

theorem turn_begun (hx : Orderly k x) (hme : Asks x me) (request : Compile.Request) :
    Turn k me x (x.begun (.compiling request)) := by
  refine ⟨⟨rfl, rfl, rfl⟩, rfl, rfl, rfl, hx.numbers rfl rfl rfl, .same (fun _ => rfl) rfl fun w href t hw => ?_,
    fun _ => Or.inl rfl, fun _ => Or.inl rfl, Or.inl rfl, fun _ => Or.inl rfl, Or.inr hme⟩
  by_cases he : w = x.state.nextWork
  · subst he
    cases hw.symm.trans (Function.update_self ..)
  · exact (Function.update_of_ne he ..).symm.trans hw

theorem turn_claimed (hx : Orderly k x) (hme : Asks x me) {href : String} (hf : x.state.Free href)
    (hs : ∀ s, k = some s → href ∈ s.within) : Turn k me x (x.claimed href) := by
  refine ⟨⟨rfl, rfl, rfl⟩, rfl, rfl, rfl, hx.numbers rfl rfl rfl,
    .claimed href x.state.nextWork hf hs hx.fresh.1 (Function.update_self ..)
      (fun i hi => Function.update_of_ne hi ..) (Table.at?_put_same ..) (fun a ha => Table.at?_put_ne (Ne.symm ha) ..) rfl,
    fun _ => Or.inl rfl, fun _ => Or.inl rfl, Or.inl rfl, fun _ => Or.inl rfl, Or.inr hme⟩

/-- To settle an entry with what came of the work that it waits for is a turn. -/
theorem turn_settled (me : Nat) {href : String} {t w : Nat} {r : Except Failure RemoteModule}
    (hl : x.state.entry href = some (.loading t w)) (ho : x.state.outcome? w = some (.remote r)) :
    Turn k me x { x with state := { x.state with remote := { x.state.remote with
      modules := x.state.remote.modules.put href (.ofResult r) } } } :=
  ⟨⟨rfl, rfl, rfl⟩, rfl, rfl, rfl, .of_eq rfl rfl rfl,
    .settled href t w r hl ho (Table.at?_put_same ..) (fun _ ha => Table.at?_put_ne (Ne.symm ha) ..) rfl rfl,
    fun _ => Or.inl rfl, fun _ => Or.inl rfl, Or.inl rfl, fun _ => Or.inl rfl, Or.inl rfl⟩

/-- To ask for the text of its address is a turn of a load. -/
theorem turn_requested {href : String} {t : Nat} (hme : x.Loads me href t)
    (hs : ∀ s, k = some s → x.state.network.requests.count href = s.host.network.requests.count href) :
    Turn k me x { x with state := { x.state with network := (x.state.network.fetch href).2 } } := by
  have hfetch : (x.state.network.fetch href).2 =
      { x.state.network with requests := (x.state.network.fetch href).2.requests } ∧
      ((x.state.network.fetch href).2.requests = x.state.network.requests ∨
        (x.state.network.fetch href).2.requests = href :: x.state.network.requests) := by
    unfold Network.fetch
    split
    · exact ⟨rfl, Or.inl rfl⟩
    · exact ⟨rfl, Or.inr rfl⟩
  exact ⟨⟨rfl, rfl, rfl⟩, rfl, rfl, hfetch.1, .of_eq rfl rfl rfl, .same (fun _ => rfl) rfl fun _ _ _ h => h,
    fun _ => Or.inl rfl, fun _ => Or.inl rfl, hfetch.2.imp_right fun h => ⟨href, t, hme, h, hs⟩,
    fun _ => Or.inl rfl, Or.inl rfl⟩

/-- While it is under way a load may have something kept under its token, or forgotten. -/
theorem turn_kept {href : String} {t : Nat} (hme : x.Loads me href t)
    (hnone : x.state.outcome? me = none) {workshop : Compile.Workshop} (hc : workshop.compiler = x.state.workshop.compiler)
    (hrest : ∀ o, o ≠ .remote t → workshop.scripts.at? o = x.state.workshop.scripts.at? o ∧
      workshop.modules.at? o = x.state.workshop.modules.at? o) :
    Turn k me x { x with state := { x.state with workshop := workshop } } := by
  refine ⟨⟨rfl, rfl, hc⟩, rfl, rfl, rfl, .of_eq rfl rfl rfl, .same (fun _ => rfl) rfl fun _ _ _ h => h, fun t' => ?_,
    fun _ => Or.inl rfl, Or.inl rfl, fun _ => Or.inl rfl, Or.inl rfl⟩
  by_cases ht : t' = t
  · subst ht
    exact Or.inr ⟨⟨href, hme⟩, hnone⟩
  · have := hrest (.remote t') fun he => ht (Origin.remote.inj he)
    exact Or.inl (Prod.ext this.1 this.2)

/-- To tell under a number that it holds is a turn of a thread; of a load what came of it is told. -/
theorem turn_told {n : Nat} {o : Outcome} {workshop : Compile.Workshop} (hn : x.notes n = some me)
    (hnone : x.state.outcome? n = none) (hc : workshop.compiler = x.state.workshop.compiler)
    (hscripts : workshop.scripts = x.state.workshop.scripts) (hmodules : workshop.modules = x.state.workshop.modules)
    (hr : ∀ href t, x.Loads n href t → ¬x.state.Strays t ∧ ∃ r, o = .remote r ∧ Reports k x href t r) :
    Turn k me x { x with state := { x.state with workshop := workshop }.tell n o } := by
  have hsame : { x.state with workshop := workshop }.outcome? n = none := hnone
  refine ⟨⟨rfl, rfl, hc⟩, rfl, rfl, rfl, .of_eq rfl rfl rfl, .same (fun _ => rfl) rfl fun _ _ _ h => h, fun t => Or.inl ?_,
    fun m => ?_, Or.inl rfl, fun _ => Or.inl rfl, Or.inl rfl⟩
  · show (workshop.scripts.at? _, workshop.modules.at? _) = _
    rw [hscripts, hmodules]
    rfl
  · by_cases hm : m = n
    · subst hm
      have htold : ({ x.state with workshop := workshop }.tell m o).outcome? m = some o := Table.at?_put_same ..
      refine Or.inr ⟨hnone, hn, by rw [htold]; nofun, fun href t hw => ?_⟩
      obtain ⟨hstrays, r, rfl, hreports⟩ := hr href t hw
      exact ⟨hstrays, r, htold, hreports⟩
    · exact Or.inl (Table.at?_put_ne (Ne.symm hm) ..)

end Sight

end ScriptVault

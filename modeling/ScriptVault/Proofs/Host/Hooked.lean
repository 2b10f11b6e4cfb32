import ScriptVault.Host.Session
import ScriptVault.Proofs.Host.Edits

/-!
# Hooked — code that runs for notes is well bracketed

A body that runs through a point may install and remove interceptors, give realms other loaders or none, run further
bodies, and break off.  Whatever it does, those who were told before it are told after it, the last one first, and each
working directory that was pushed is taken off again from the loader it was pushed on.
-/

namespace ScriptVault

namespace Hooks

variable {α : Type}

theorem at_register (h : Hooks α) (point : String) (interceptor : α) (other : String) :
    (h.register point interceptor).2.at_ other =
      if other = point then h.at_ point ++ [(h.next, interceptor)] else h.at_ other := by
  by_cases hp : other = point <;> simp [register, at_, Table.at?_put, hp]

theorem at_remove (h : Hooks α) (point : String) (id : Nat) (other : String) :
    (h.remove point id).2.at_ other =
      if other = point then (h.at_ point).filter (·.1 != id) else h.at_ other := by
  unfold remove
  dsimp only
  by_cases hp : other = point
  · subst hp
    split
    · next hnone =>
      rw [if_pos rfl, List.isEmpty_iff.1 hnone]
      simp [at_]
    · simp [at_]
  · split <;> simp [at_, Table.at?_put, Table.at?_erase, hp]

end Hooks

namespace Hooked

/-! ### Bodies -/

/-- What a body does to hooks and realms. -/
inductive Act where
  /-- Installs a new interceptor that follows notes for a realm. -/
  | install (point : String) (realm : Nat)
  /-- Installs an interceptor that there is once more. -/
  | again (point : String) (n : Nat)
  | dispose (point : String) (id : Nat)
  | replace (realm : Nat)
  | tearDown (realm : Nat)
  | create (app : Value)

/-- What comes of it. -/
def Act.act : Act → Host → Host
  | install point realm, h => (Host.interceptCwd point realm h).2
  | again point n, h =>
    if n < h.interceptors.length then { h with hooks := (h.hooks.register point n).2 } else h
  | dispose point id, h => { h with hooks := (h.hooks.remove point id).2 }
  | replace realm, h => h.replaceLoader realm
  | tearDown realm, h => (Host.teardownRealm realm h).2
  | create app, h => (Host.createRealm app h).2

/-- A body, one thing after another. -/
inductive Body where
  | done
  /-- It breaks off. -/
  | panic
  | act (act : Act) (next : Body)
  /-- It runs another body through a point; if that one breaks off so does this one, unless it catches it. -/
  | run (point : String) (note : Option String) (body : Body) (caught : Bool) (next : Body)

/-- Runs a body with a session, and tells whether it came to its end. -/
def Body.play : Body → Session → Bool × Session
  | done, s => (true, s)
  | panic, s => (false, s)
  | act a next, s => next.play (s.touch a.act)
  | run point note body caught next, s =>
    let (ended, s) := Session.hooked id (fun _ s => s) point note body.play s
    if ended || caught then next.play s else (false, s)

/-! ### The log -/

/-- What happens at points. -/
inductive Event where
  /-- A run starts, with the interceptors that are installed at its point. -/
  | opened (point : String) (note : Option String) (installed : List (Nat × Nat))
  /-- An interceptor is told before the body. -/
  | before (n : Nat) (point : String) (note : Option String)
  /-- An interceptor is told after the body. -/
  | after (n : Nat) (point : String) (note : Option String)
  /-- A run is over, and its body came to its end or broke off. -/
  | closed (ended : Bool)
  deriving DecidableEq

/-- A host, and what has happened so far. -/
structure Stage where
  host : Host
  log : List Event

/-- Something happens, and an interceptor is told of it. -/
def Stage.tell (event : Nat → Event) (f : Host → Nat → Host) (s : Stage) (n : Nat) : Stage :=
  ⟨f s.host n, s.log ++ [event n]⟩

/-- Runs a body as with a session, and logs what happens. -/
def Body.exec : Body → Stage → Bool × Stage
  | done, s => (true, s)
  | panic, s => (false, s)
  | act a next, s => next.exec { s with host := a.act s.host }
  | run point note body caught next, s =>
    let opened : Stage := ⟨s.host, s.log ++ [.opened point note (s.host.hooks.at_ point)]⟩
    let (ended, s) := s.host.hooks.run point (Stage.tell (.before · point note) (Host.beforeNote note))
      (Stage.tell (.after · point note) Host.afterNote) body.exec opened
    let closed : Stage := ⟨s.host, s.log ++ [.closed ended]⟩
    if ended || caught then next.exec closed else (false, closed)

/-- Each run tells those who were installed when it started, in the order in which they were installed, before its body,
and in reverse order after it; in between are the runs of the body. -/
inductive Nested : List Event → Prop
  | nil : Nested []
  | run (point : String) (note : Option String) {installed : List (Nat × Nat)} {inner rest : List Event} (ended : Bool) :
    installed.Pairwise (·.1 < ·.1) → Nested inner → Nested rest →
      Nested (.opened point note installed :: installed.map (.before ·.2 point note) ++ inner ++
        installed.reverse.map (.after ·.2 point note) ++ .closed ended :: rest)

theorem foldl_tell (event : Nat → Event) (f : Host → Nat → Host) (ns : List Nat) (s : Stage) :
    ns.foldl (Stage.tell event f) s = ⟨ns.foldl f s.host, s.log ++ ns.map event⟩ := by
  induction ns generalizing s with
  | nil => simp
  | cons n ns ih => simp [ih, Stage.tell]

/-- The stage after a run. -/
theorem exec_run (point : String) (note : Option String) (body : Body) (caught : Bool) (next : Body) (s : Stage) :
    (Body.run point note body caught next).exec s =
      let installed := s.host.hooks.at_ point
      let numbers := installed.map Prod.snd
      let (ended, inner) := body.exec ⟨numbers.foldl (Host.beforeNote note) s.host,
        s.log ++ .opened point note installed :: installed.map (.before ·.2 point note)⟩
      let closed : Stage := ⟨numbers.reverse.foldl Host.afterNote inner.host,
        inner.log ++ installed.reverse.map (.after ·.2 point note) ++ [.closed ended]⟩
      if ended || caught then next.exec closed else (false, closed) := by
  simp only [Body.exec, Hooks.run, foldl_tell]
  simp [Function.comp_def, List.map_reverse]

theorem host_foldl_touch (f : Host → Nat → Host) (ns : List Nat) (s : Session) :
    (ns.foldl (fun s n => s.touch fun h => f h n) s).host = ns.foldl f s.host := by
  induction ns generalizing s with
  | nil => rfl
  | cons n ns ih => exact ih _

/-- A session after a run. -/
theorem play_run (point : String) (note : Option String) (body : Body) (caught : Bool) (next : Body) (s : Session) :
    (Body.run point note body caught next).play s =
      let numbers := (s.host.hooks.at_ point).map Prod.snd
      let (ended, inner) := body.play (numbers.foldl (fun s n => s.touch fun h => h.beforeNote note n) s)
      let closed := numbers.reverse.foldl (fun s n => s.touch fun h => h.afterNote n) inner
      if ended || caught then next.play closed else (false, closed) := rfl

/-- The log is only what is told of what a session does. -/
theorem play_eq_exec (body : Body) (s : Session) (log : List Event) :
    (body.play s).1 = (body.exec ⟨s.host, log⟩).1 ∧ (body.play s).2.host = (body.exec ⟨s.host, log⟩).2.host := by
  induction body generalizing s log with
  | done => exact ⟨rfl, rfl⟩
  | panic => exact ⟨rfl, rfl⟩
  | act a next ih => exact ih (s.touch a.act) log
  | run point note body caught next ihbody ihnext =>
    rw [exec_run, play_run]
    dsimp only
    have hbefore := host_foldl_touch (Host.beforeNote note) ((s.host.hooks.at_ point).map Prod.snd) s
    obtain ⟨hended, hhost⟩ := ihbody
      (((s.host.hooks.at_ point).map Prod.snd).foldl (fun s n => s.touch fun h => h.beforeNote note n) s)
      (log ++ .opened point note (s.host.hooks.at_ point) :: (s.host.hooks.at_ point).map (.before ·.2 point note))
    rw [hbefore] at hended hhost
    have hafter := host_foldl_touch Host.afterNote ((s.host.hooks.at_ point).map Prod.snd).reverse
    rw [hended]
    split
    · rw [← hhost, ← hafter]
      exact ihnext _ _
    · rw [hafter, hhost]
      exact ⟨rfl, rfl⟩

end Hooked

namespace Host

/-! ### Realms and interceptors -/

/-- Realms have loaders that there are, and interceptors are told that there are, in the order in which they came. -/
structure Tidy (h : Host) : Prop where
  realms : ∀ realm l, h.loaderOf? realm = some l → l < h.loaders.length
  known : ∀ point, ∀ x ∈ h.hooks.at_ point, x.2 < h.interceptors.length
  numbered : ∀ point, ∀ x ∈ h.hooks.at_ point, x.1 < h.hooks.next
  ordered : ∀ point, (h.hooks.at_ point).Pairwise (·.1 < ·.1)

/-- All loaders have the stacks that they had, and all interceptors are as they were. -/
structure Framed (h h' : Host) : Prop where
  loaders : h.loaders.length ≤ h'.loaders.length
  contexts : ∀ l, (h'.loader l).context = (h.loader l).context
  interceptors : h.interceptors.length ≤ h'.interceptors.length
  same : ∀ n < h.interceptors.length, h'.interceptors[n]? = h.interceptors[n]?

variable {h h' h'' : Host}

theorem Framed.refl (h : Host) : Framed h h := ⟨Nat.le_refl _, fun _ => rfl, Nat.le_refl _, fun _ _ => rfl⟩

theorem Framed.trans (a : Framed h h') (b : Framed h' h'') : Framed h h'' := by
  refine ⟨Nat.le_trans a.loaders b.loaders, fun l => (b.contexts l).trans (a.contexts l),
    Nat.le_trans a.interceptors b.interceptors, fun n hn => ?_⟩
  rw [b.same n (Nat.lt_of_lt_of_le hn a.interceptors), a.same n hn]

theorem framed_onLoader (h : Host) (l : Nat) {f : Loader → Loader}
    (hf : ∀ loader, (f loader).context = loader.context) : Framed h (h.onLoader l f) := by
  refine ⟨by simp [onLoader], fun m => ?_, Nat.le_refl _, fun _ _ => rfl⟩
  by_cases hml : m = l
  · subst hml
    by_cases hm : m < h.loaders.length
    · rw [loader_onLoader hm, hf]
    · simp [onLoader, loader, hm]
  · rw [loader_onLoader_ne hml]

theorem framed_addLoader (app : Value) (stream : Nat) (held : Bool) (h : Host) :
    Framed h (h.addLoader app stream held).2 := by
  refine ⟨by simp [addLoader], fun l => ?_, Nat.le_refl _, fun _ _ => rfl⟩
  rcases Nat.lt_trichotomy l h.loaders.length with hl | rfl | hl
  · simp [addLoader, loader, List.getElem?_append_left hl]
  · simp [addLoader, loader]
  · have hl' : h.loaders.length ≤ l := Nat.le_of_lt hl
    have hnew : ¬l - h.loaders.length = 0 := by omega
    simp [addLoader, loader, List.getElem?_append_right hl', hl', hnew]

theorem Tidy.mono (ht : h.Tidy) (hrealms : h'.realms = h.realms) (hhooks : h'.hooks = h.hooks)
    (hloaders : h.loaders.length ≤ h'.loaders.length) (hinterceptors : h.interceptors.length ≤ h'.interceptors.length) :
    h'.Tidy := by
  refine ⟨fun realm l hl => ?_, fun point x hx => ?_, fun point x hx => ?_, fun point => ?_⟩
  · rw [loaderOf?, hrealms] at hl
    exact Nat.lt_of_lt_of_le (ht.realms realm l hl) hloaders
  · rw [hhooks] at hx
    exact Nat.lt_of_lt_of_le (ht.known point x hx) hinterceptors
  · rw [hhooks] at hx ⊢
    exact ht.numbered point x hx
  · rw [hhooks]
    exact ht.ordered point

/-- A realm gets a loader that there is. -/
theorem Tidy.put (ht : h.Tidy) (realm : Nat) {l : Nat} (hl : l < h.loaders.length) (next : Nat) :
    { h with realms := h.realms.put realm l, nextRealm := next }.Tidy := by
  refine ⟨fun r m hm => ?_, ht.known, ht.numbered, ht.ordered⟩
  simp only [loaderOf?, Table.at?_put] at hm
  split at hm
  · cases hm
    exact hl
  · exact ht.realms r m hm

theorem Tidy.erase (ht : h.Tidy) (realm : Nat) : { h with realms := h.realms.erase realm }.Tidy := by
  refine ⟨fun r m hm => ?_, ht.known, ht.numbered, ht.ordered⟩
  simp only [loaderOf?, Table.at?_erase] at hm
  split at hm
  · cases hm
  · exact ht.realms r m hm

theorem Tidy.register (ht : h.Tidy) (point : String) {n : Nat} (hn : n < h.interceptors.length) :
    { h with hooks := (h.hooks.register point n).2 }.Tidy := by
  have hnext : (h.hooks.register point n).2.next = h.hooks.next + 1 := rfl
  refine ⟨ht.realms, fun other x hx => ?_, fun other x hx => ?_, fun other => ?_⟩
  · rw [Hooks.at_register] at hx
    split at hx
    · rcases List.mem_append.1 hx with hx | hx
      · exact ht.known point x hx
      · rw [List.mem_singleton.1 hx]
        exact hn
    · exact ht.known other x hx
  · rw [Hooks.at_register] at hx
    show x.1 < h.hooks.next + 1
    split at hx
    · rcases List.mem_append.1 hx with hx | hx
      · exact Nat.lt_succ_of_lt (ht.numbered point x hx)
      · rw [List.mem_singleton.1 hx]
        exact Nat.lt_succ_self _
    · exact Nat.lt_succ_of_lt (ht.numbered other x hx)
  · rw [Hooks.at_register]
    split
    · refine List.pairwise_append.2 ⟨ht.ordered point, List.pairwise_singleton _ _, fun x hx y hy => ?_⟩
      rw [List.mem_singleton.1 hy]
      exact ht.numbered point x hx
    · exact ht.ordered other

theorem Tidy.remove (ht : h.Tidy) (point : String) (id : Nat) :
    { h with hooks := (h.hooks.remove point id).2 }.Tidy := by
  have hmem {other : String} {x : Nat × Nat} (hx : x ∈ (h.hooks.remove point id).2.at_ other) :
      x ∈ h.hooks.at_ other := by
    rw [Hooks.at_remove] at hx
    split at hx
    · next hother =>
      rw [hother]
      exact List.mem_of_mem_filter hx
    · exact hx
  refine ⟨ht.realms, fun other x hx => ht.known other x (hmem hx), fun other x hx => ht.numbered other x (hmem hx),
    fun other => ?_⟩
  rw [Hooks.at_remove]
  split
  · exact (ht.ordered point).filter _
  · exact ht.ordered other

theorem Tidy.release (ht : h.Tidy) (l : Nat) : (h.release l).Tidy :=
  ht.mono rfl rfl (by simp [Host.release, onLoader]) (Nat.le_refl _)

theorem framed_release (h : Host) (l : Nat) : Framed h (h.release l) := by
  refine framed_onLoader h l fun loader => ?_
  split <;> rfl

theorem tidy_addLoader (ht : h.Tidy) (app : Value) (stream : Nat) (held : Bool) :
    (h.addLoader app stream held).2.Tidy :=
  ht.mono rfl rfl (framed_addLoader app stream held h).loaders (Nat.le_refl _)

theorem addLoader_lt (app : Value) (stream : Nat) (held : Bool) (h : Host) :
    (h.addLoader app stream held).1 < (h.addLoader app stream held).2.loaders.length := by
  simp [addLoader]

theorem framed_realms (h : Host) (realms : Table Nat Nat) (next : Nat) :
    Framed h { h with realms := realms, nextRealm := next } :=
  ⟨Nat.le_refl _, fun _ => rfl, Nat.le_refl _, fun _ _ => rfl⟩

theorem framed_hooks (h : Host) (hooks : Hooks Nat) : Framed h { h with hooks := hooks } :=
  ⟨Nat.le_refl _, fun _ => rfl, Nat.le_refl _, fun _ _ => rfl⟩

/-- What a body does to hooks and realms leaves all stacks alone. -/
theorem act_tidy_framed (a : Hooked.Act) (ht : h.Tidy) : (a.act h).Tidy ∧ Framed h (a.act h) := by
  cases a with
  | install point realm =>
    have hmore : Tidy { h with interceptors := h.interceptors ++ [{ realm := realm }] } :=
      ht.mono rfl rfl (Nat.le_refl _) (by simp)
    have hframed : Framed h (interceptCwd point realm h).2 := by
      refine ⟨Nat.le_refl _, fun _ => rfl, by simp [interceptCwd], fun n hn => ?_⟩
      exact List.getElem?_append_left hn
    have hlast : h.interceptors.length < (h.interceptors ++ [({ realm := realm } : Interceptor)]).length := by simp
    exact ⟨hmore.register point hlast, hframed⟩
  | again point n =>
    show (if n < h.interceptors.length then { h with hooks := (h.hooks.register point n).2 } else h).Tidy ∧
      Framed h (if n < h.interceptors.length then { h with hooks := (h.hooks.register point n).2 } else h)
    split
    · next hn => exact ⟨ht.register point hn, framed_hooks h _⟩
    · exact ⟨ht, Framed.refl h⟩
  | dispose point id => exact ⟨ht.remove point id, framed_hooks h _⟩
  | replace realm =>
    show (h.replaceLoader realm).Tidy ∧ Framed h (h.replaceLoader realm)
    unfold replaceLoader
    split
    · exact ⟨ht, Framed.refl h⟩
    · next old _ =>
      have hadded := tidy_addLoader ht (h.loader old).app (h.loader old).stream false
      have hput := hadded.put realm (addLoader_lt _ _ _ h) h.nextRealm
      have hframed := framed_addLoader (h.loader old).app (h.loader old).stream false h
      exact ⟨hput.release old, hframed.trans ((framed_realms _ _ h.nextRealm).trans (framed_release _ old))⟩
  | tearDown realm =>
    show (teardownRealm realm h).2.Tidy ∧ Framed h (teardownRealm realm h).2
    unfold teardownRealm
    split
    · exact ⟨ht, Framed.refl h⟩
    · next l _ =>
      exact ⟨(ht.erase realm).release l, (framed_realms h _ h.nextRealm).trans (framed_release _ l)⟩
  | create app =>
    have hadded := tidy_addLoader ht app h.nextRealm true
    exact ⟨hadded.put _ (addLoader_lt _ _ _ h) _, (framed_addLoader app h.nextRealm true h).trans (framed_realms _ _ _)⟩

/-! ### Telling an interceptor -/

theorem tidy_beforeNote (ht : h.Tidy) (note : Option String) (n : Nat) : (beforeNote note h n).Tidy := by
  unfold beforeNote
  dsimp only
  split
  · exact ht.mono rfl rfl (by simp [onLoader, onInterceptor]) (by simp [onLoader, onInterceptor])
  · exact ht.mono rfl rfl (by simp [onInterceptor]) (by simp [onInterceptor])

theorem tidy_afterNote (ht : h.Tidy) (n : Nat) : (afterNote h n).Tidy := by
  unfold afterNote
  split
  · exact ht
  · dsimp only
    split
    · exact ht.mono rfl rfl (by simp [onLoader, onInterceptor]) (by simp [onLoader, onInterceptor])
    · exact ht.mono rfl rfl (by simp [onInterceptor]) (by simp [onInterceptor])

/-- The loader that an interceptor tells of a note. -/
def tells (h : Host) (i : Interceptor) : Option Nat := h.loaderOf? i.realm

/-- A loader is told of a note, if there is one. -/
def enterNote (l : Option Nat) (note : Option String) (h : Host) : Host :=
  match l with
  | some l => h.onLoader l (·.enter [note.map Path.directory] [])
  | none => h

/-- A loader is told of the end of a note, if there is one. -/
def leaveNote (l : Option Nat) (h : Host) : Host :=
  match l with
  | some l => h.onLoader l (·.leave 1 0)
  | none => h

theorem beforeNote_eq {n : Nat} {i : Interceptor} (hi : h.interceptors[n]? = some i) (note : Option String) :
    beforeNote note h n = enterNote (h.tells i) note
      { h with interceptors := h.interceptors.set n { i with entered := h.tells i :: i.entered } } := by
  unfold beforeNote onInterceptor
  simp only [List.getD_eq_getElem?_getD, hi, Option.getD_some]
  rfl

theorem afterNote_eq {n : Nat} {i : Interceptor} {l : Option Nat}
    (hi : h.interceptors[n]? = some { i with entered := l :: i.entered }) :
    afterNote h n = leaveNote l { h with interceptors := h.interceptors.set n i } := by
  unfold afterNote onInterceptor
  simp only [List.getD_eq_getElem?_getD, hi, Option.getD_some]
  rfl

theorem enterNote_interceptors (l : Option Nat) (note : Option String) (h : Host) :
    (enterNote l note h).interceptors = h.interceptors := by
  cases l <;> rfl

theorem leaveNote_interceptors (l : Option Nat) (h : Host) : (leaveNote l h).interceptors = h.interceptors := by
  cases l <;> rfl

theorem enterNote_length (l : Option Nat) (note : Option String) (h : Host) :
    (enterNote l note h).loaders.length = h.loaders.length := by
  cases l <;> simp [enterNote, onLoader]

theorem leaveNote_length (l : Option Nat) (h : Host) : (leaveNote l h).loaders.length = h.loaders.length := by
  cases l <;> simp [leaveNote, onLoader]

/-- A loader that is told of a note and of its end has its stacks back. -/
theorem contexts_leaveNote {l : Option Nat} (hl : ∀ m, l = some m → m < h.loaders.length) (note : Option String)
    (hlength : h.loaders.length ≤ h'.loaders.length)
    (hcontexts : ∀ m, (h'.loader m).context = ((enterNote l note h).loader m).context) (m : Nat) :
    ((leaveNote l h').loader m).context = (h.loader m).context := by
  cases l with
  | none => exact hcontexts m
  | some l =>
    have hl := hl l rfl
    have hm := hcontexts m
    show ((h'.onLoader l (·.leave 1 0)).loader m).context = _
    rw [enterNote] at hm
    by_cases hml : m = l
    · subst hml
      rw [loader_onLoader hl] at hm
      rw [loader_onLoader (Nat.lt_of_lt_of_le hl hlength)]
      exact Loader.leave_context hm
    · rw [loader_onLoader_ne hml] at hm
      rw [loader_onLoader_ne hml, hm]

/-- An interceptor that is told of a note and of its end has taken off what it pushed, from the loader it pushed it
on, whatever framed things were done in between. -/
theorem framed_note (ht : h.Tidy) (note : Option String) {n : Nat} (hn : n < h.interceptors.length)
    (hf : Framed (beforeNote note h n) h') : Framed h (afterNote h' n) := by
  obtain ⟨i, hi⟩ : ∃ i, h.interceptors[n]? = some i := ⟨_, List.getElem?_eq_getElem hn⟩
  rw [beforeNote_eq hi] at hf
  obtain ⟨hloaders, hcontexts, hlength, hsame⟩ := hf
  simp only [enterNote_interceptors, enterNote_length, List.length_set] at hloaders hlength hsame
  have hpushed : h'.interceptors[n]? = some { i with entered := h.tells i :: i.entered } := by
    rw [hsame n hn, List.getElem?_set_self hn]
  rw [afterNote_eq hpushed]
  refine ⟨?_, ?_, ?_, fun m hm => ?_⟩
  · rw [leaveNote_length]
    exact hloaders
  · intro m
    have htells : ∀ l, h.tells i = some l → l < h.loaders.length := fun l hl => ht.realms i.realm l hl
    have hentered (m : Nat) : (h'.loader m).context = ((enterNote (h.tells i) note h).loader m).context := by
      rw [hcontexts m]
      cases h.tells i <;> rfl
    have hleft := contexts_leaveNote htells note hloaders hentered m
    rw [← hleft]
    cases h.tells i <;> rfl
  · rw [leaveNote_interceptors, List.length_set]
    exact hlength
  · rw [leaveNote_interceptors]
    by_cases hmn : n = m
    · subst hmn
      rw [List.getElem?_set_self (Nat.lt_of_lt_of_le hn hlength), hi]
    · rw [List.getElem?_set_ne hmn, hsame m hm, List.getElem?_set_ne hmn]

/-- So have all interceptors that are told one after another, and of the end in reverse order. -/
theorem framed_notes (note : Option String) (ns : List Nat) {h h' : Host} (ht : h.Tidy)
    (hns : ∀ n ∈ ns, n < h.interceptors.length) (hf : Framed (ns.foldl (beforeNote note) h) h') :
    Framed h (ns.reverse.foldl afterNote h') := by
  induction ns generalizing h with
  | nil => exact hf
  | cons n ns ih =>
    have hn := hns n List.mem_cons_self
    obtain ⟨i, hi⟩ : ∃ i, h.interceptors[n]? = some i := ⟨_, List.getElem?_eq_getElem hn⟩
    have hlength : (beforeNote note h n).interceptors.length = h.interceptors.length := by
      rw [beforeNote_eq hi, enterNote_interceptors, List.length_set]
    have hrest := ih (tidy_beforeNote ht note n)
      (fun m hm => by rw [hlength]; exact hns m (List.mem_cons_of_mem _ hm)) hf
    rw [List.reverse_cons, List.foldl_append]
    exact framed_note ht note hn hrest

theorem tidy_foldl {step : Host → Nat → Host} (hstep : ∀ {h} n, h.Tidy → (step h n).Tidy) (ns : List Nat) (ht : h.Tidy) :
    (ns.foldl step h).Tidy := by
  induction ns generalizing h with
  | nil => exact ht
  | cons n ns ih => exact ih (hstep n ht)

end Host

namespace Hooked

open Host

/-- Between two stages all that was told before was told after, and all stacks and interceptors are as they were. -/
structure Bracketed (s s' : Stage) : Prop where
  tidy : s'.host.Tidy
  framed : Framed s.host s'.host
  log : ∃ events, s'.log = s.log ++ events ∧ Nested events

/-- A run is bracketed if its body is. -/
theorem bracketed_run {point : String} {note : Option String} {s : Stage} {inner : Stage} (ended : Bool)
    (ht : s.host.Tidy)
    (hinner : Bracketed ⟨((s.host.hooks.at_ point).map Prod.snd).foldl (beforeNote note) s.host,
      s.log ++ .opened point note (s.host.hooks.at_ point) :: (s.host.hooks.at_ point).map (.before ·.2 point note)⟩ inner)
    {s' : Stage} (hrest : (((s.host.hooks.at_ point).map Prod.snd).reverse.foldl afterNote inner.host).Tidy →
      Bracketed ⟨((s.host.hooks.at_ point).map Prod.snd).reverse.foldl afterNote inner.host,
        inner.log ++ (s.host.hooks.at_ point).reverse.map (.after ·.2 point note) ++ [.closed ended]⟩ s') :
    Bracketed s s' := by
  have hknown : ∀ n ∈ (s.host.hooks.at_ point).map Prod.snd, n < s.host.interceptors.length := by
    intro n hn
    obtain ⟨x, hx, rfl⟩ := List.mem_map.1 hn
    exact ht.known point x hx
  obtain ⟨htidy, hframed, events, hlog, hnested⟩ := hinner
  have hclosed := framed_notes note _ ht hknown hframed
  have htidy' := tidy_foldl (fun n h => tidy_afterNote h n) ((s.host.hooks.at_ point).map Prod.snd).reverse htidy
  obtain ⟨htidy'', hframed'', rest, hlog', hnested'⟩ := hrest htidy'
  have hlogged := Nested.run point note ended (ht.ordered point) hnested hnested'
  refine ⟨htidy'', hclosed.trans hframed'', _, ?_, hlogged⟩
  rw [hlog', hlog]
  simp

theorem exec_bracketed (body : Body) (s : Stage) (ht : s.host.Tidy) : Bracketed s (body.exec s).2 := by
  have hnone (s : Stage) (ht : s.host.Tidy) : Bracketed s s := ⟨ht, Framed.refl _, [], by simp, .nil⟩
  induction body generalizing s with
  | done => exact hnone s ht
  | panic => exact hnone s ht
  | act a next ih =>
    obtain ⟨htidy, hframed⟩ := act_tidy_framed a ht
    obtain ⟨htidy', hframed', hlog⟩ := ih { s with host := a.act s.host } htidy
    exact ⟨htidy', hframed.trans hframed', hlog⟩
  | run point note body caught next ihbody ihnext =>
    have hbefore := tidy_foldl (fun n h => tidy_beforeNote h note n) ((s.host.hooks.at_ point).map Prod.snd) ht
    have hbody := ihbody ⟨((s.host.hooks.at_ point).map Prod.snd).foldl (beforeNote note) s.host,
      s.log ++ .opened point note (s.host.hooks.at_ point) :: (s.host.hooks.at_ point).map (.before ·.2 point note)⟩ hbefore
    rw [exec_run]
    dsimp only
    generalize body.exec _ = x at hbody ⊢
    obtain ⟨ended, inner⟩ := x
    refine bracketed_run ended ht hbody fun ht₁ => ?_
    dsimp only
    split
    · exact ihnext _ ht₁
    · exact hnone _ ht₁

theorem tidy_build {parts : Parts} {h : Host} (hb : build parts = .ok h) : h.Tidy := by
  have hbare {h : Host} (hrealms : h.realms = []) (hhooks : h.hooks = {}) : h.Tidy := by
    refine ⟨fun realm l hl => ?_, fun point x hx => ?_, fun point x hx => ?_, fun point => ?_⟩
    · rw [loaderOf?, hrealms] at hl
      cases hl
    · rw [hhooks] at hx
      cases hx
    · rw [hhooks] at hx
      cases hx
    · rw [hhooks]
      exact List.Pairwise.nil
  obtain ⟨rules, -, rfl⟩ := build_eq hb
  exact (act_tidy_framed (.create parts.app) (hbare rfl rfl)).1

/-- Whatever bodies run through points, each run has told those who were installed when it started in the order in which
they came, and tells them in reverse order after its body, which may have come to its end or broken off; and all loaders
have the stacks that they had.  So it is from what is built, and after any body again. -/
theorem hooked_bracketed :
    (∀ ev parts s, Session.build ev parts = .ok s → s.host.Tidy) ∧
    ∀ (body : Body) (s : Session), s.host.Tidy → ∃ log,
      body.exec ⟨s.host, []⟩ = ((body.play s).1, ⟨(body.play s).2.host, log⟩) ∧ Nested log ∧
      (body.play s).2.host.Tidy ∧ ∀ l, ((body.play s).2.host.loader l).context = (s.host.loader l).context := by
  refine ⟨fun ev parts s hs => ?_, fun body s ht => ?_⟩
  · unfold Session.build at hs
    cases hb : build parts with
    | error e => rw [hb] at hs; cases hs
    | ok h =>
      rw [hb] at hs
      cases hs
      exact tidy_build hb
  · obtain ⟨hended, hhost⟩ := play_eq_exec body s []
    obtain ⟨htidy, hframed, log, hlog, hnested⟩ := exec_bracketed body ⟨s.host, []⟩ ht
    rw [← hhost] at htidy hframed
    refine ⟨log, ?_, hnested, htidy, hframed.contexts⟩
    rw [hended, hhost, ← List.nil_append log, ← hlog]

/-- While a note is shown its realm gets another loader, one of two interceptors is removed, and what runs inside breaks
off. -/
def unwound : Body :=
  .act (.install "editor" 0) <| .act (.install "editor" 0) <|
    .run "editor" (some "notes/a.md")
      (.act (.replace 0) (.act (.dispose "editor" 1) (.run "editor" (some "b.md") .panic false .done))) true .done

theorem hooked_bracketed_unwound :
    ∃ s, Session.build Scan.evaluator { vault := .memory {} } = .ok s ∧
      unwound.exec ⟨s.host, []⟩ = (true, ⟨(unwound.play s).2.host,
        [.opened "editor" (some "notes/a.md") [(0, 0), (1, 1)], .before 0 "editor" (some "notes/a.md"),
          .before 1 "editor" (some "notes/a.md"), .opened "editor" (some "b.md") [(0, 0)], .before 0 "editor" (some "b.md"),
          .after 0 "editor" (some "b.md"), .closed false, .after 1 "editor" (some "notes/a.md"),
          .after 0 "editor" (some "notes/a.md"), .closed false]⟩) ∧
      ∀ l, ((unwound.play s).2.host.loader l).context = (s.host.loader l).context := by
  have hrun : ((Session.build Scan.evaluator { vault := .memory {} }).toOption.filter fun s =>
      (unwound.play s).1 && (unwound.exec ⟨s.host, []⟩).2.log =
        [.opened "editor" (some "notes/a.md") [(0, 0), (1, 1)], .before 0 "editor" (some "notes/a.md"),
          .before 1 "editor" (some "notes/a.md"), .opened "editor" (some "b.md") [(0, 0)], .before 0 "editor" (some "b.md"),
          .after 0 "editor" (some "b.md"), .closed false, .after 1 "editor" (some "notes/a.md"),
          .after 0 "editor" (some "notes/a.md"), .closed false]).isSome = true := by
    decide +kernel
  obtain ⟨s, hs⟩ := Option.isSome_iff_exists.1 hrun
  obtain ⟨hs, htest⟩ := Option.filter_eq_some_iff.1 hs
  obtain ⟨hended, hlog⟩ := Bool.and_eq_true_iff.1 htest
  have hbuild := eq_ok_of_toOption hs
  obtain ⟨htidy, hbracketed⟩ := hooked_bracketed
  obtain ⟨log, hexec, -, -, hcontexts⟩ := hbracketed unwound s (htidy _ _ s hbuild)
  have hlog := of_decide_eq_true hlog
  rw [hexec] at hlog
  refine ⟨s, hbuild, ?_, hcontexts⟩
  rw [hexec, hended, ← hlog]

end Hooked

end ScriptVault

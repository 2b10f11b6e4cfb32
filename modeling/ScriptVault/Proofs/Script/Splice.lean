import ScriptVault.Proofs.Script.Redirect

/-!
# Splice — what edits do to the bytes of a source

`Spliced` says that each edit's span was replaced by its text and that all other bytes stand where they stood, one
after another; `applyEdits` does that.  `place` tells where a byte outside the spans stands afterwards.
-/

namespace ScriptVault.Script

open Text (byteLength)
open Text.Quoted (encode encodeChar)

/-! ### Splicing -/

/-- `out` is the text with each span replaced and nothing else changed; `pos` is the first byte of the text. -/
inductive Spliced : Nat → List Char → List Edit → List Char → Prop
  | nil {pos : Nat} {s : List Char} : Spliced pos s [] s
  | cons {pos : Nat} {kept old s out : List Char} {edit : Edit} {edits : List Edit}
      (hstart : edit.span.start = pos + byteLength kept)
      (hstop : edit.span.stop = edit.span.start + byteLength old)
      (h : Spliced edit.span.stop s edits out) :
      Spliced pos (kept ++ (old ++ s)) (edit :: edits) (kept ++ (edit.text ++ out))

theorem splitBytes_append (front rest : List Char) :
    splitBytes (byteLength front) (front ++ rest) = (front, rest) := by
  induction front with
  | nil =>
    cases rest with
    | nil => rfl
    | cons c rest =>
      have := c.utf8Size_pos
      simp [splitBytes, this]
  | cons c front ih =>
    rw [List.cons_append, splitBytes, if_neg (by rw [Text.byteLength_cons]; omega),
      Text.byteLength_cons, Nat.add_sub_cancel_left, ih]

/-- Edits are applied as their spans and texts tell. -/
theorem Spliced.applyEdits_eq {pos : Nat} {s out : List Char} {edits : List Edit}
    (h : Spliced pos s edits out) : applyEdits pos s edits = out := by
  induction h with
  | nil => rfl
  | @cons pos kept old s out edit edits hstart hstop h ih =>
    have hkept : edit.span.start - pos = byteLength kept := by omega
    have hold : edit.span.stop - edit.span.start = byteLength old := by omega
    simp only [applyEdits, hkept, hold, splitBytes_append, ih, List.append_assoc]

theorem Spliced.prepend {pos : Nat} {s out : List Char} {edits : List Edit} (front : List Char)
    (h : Spliced (pos + byteLength front) s edits out) : Spliced pos (front ++ s) edits (front ++ out) := by
  cases h with
  | nil => exact .nil
  | @cons _ kept old s out edit edits hstart hstop h =>
    rw [← List.append_assoc, ← List.append_assoc front]
    refine .cons ?_ hstop h
    rw [hstart, Text.byteLength_append, Nat.add_assoc]

theorem Spliced.lexeme {pos : Nat} {s out : List Char} {edits : List Edit} (x : Lexeme)
    (h : Spliced (pos + x.size) s edits out) :
    Spliced pos (x.gap ++ (x.text ++ s)) edits (x.gap ++ (x.text ++ out)) := by
  rw [← List.append_assoc, ← List.append_assoc]
  refine .prepend _ ?_
  rw [Text.byteLength_append]
  exact h

/-- An edit of a lexeme's own characters. -/
theorem Spliced.edit {pos : Nat} {s out : List Char} {edits : List Edit} {x : Lexeme}
    (h : Spliced (pos + x.size) s edits out) (new : List Char) :
    Spliced pos (x.gap ++ (x.text ++ s))
      (⟨⟨pos + byteLength x.gap, pos + x.size⟩, new⟩ :: edits) (x.gap ++ (new ++ out)) := by
  refine @Spliced.cons pos x.gap x.text s out _ edits rfl ?_ h
  simp only [Lexeme.size]
  omega

/-! ### The edits of a rewrite -/

/-- The calls that have targets. -/
def resolved (target? : String → Option String) (calls : List Call) : List (Call × String) :=
  calls.filterMap fun call => (target? call.specifier).map fun target => (call, target)

/-- The edits that send calls to their targets. -/
def editsOf (callee : List Char) (found : List (Call × String)) : List Edit :=
  found.flatMap fun (call, target) => call.edits callee target

/-- The expression `self` with a string between brackets. -/
def calleeText (body : List Char) : List Char :=
  ['s', 'e', 'l', 'f', '[', '\x22'] ++ (body ++ ['\x22', ']'])

section Resolved

variable {target? : String → Option String}

theorem resolved_none {call : Call} (h : target? call.specifier = none) (calls : List Call) :
    resolved target? (call :: calls) = resolved target? calls := by
  simp [resolved, h]

theorem resolved_some {call : Call} {target : String} (h : target? call.specifier = some target)
    (calls : List Call) :
    resolved target? (call :: calls) = (call, target) :: resolved target? calls := by
  simp [resolved, h]

/-- The calls that have targets, of lexemes from a byte on. -/
def resolvedFrom (target? : String → Option String) (pos : Nat) (hidden : Bool) (xs : List Lexeme) :
    List (Call × String) :=
  resolved target? (callsFrom hidden (tokensFrom pos xs))

variable {pos : Nat} {site : CallSite} {xs : List Lexeme}

@[simp] theorem resolvedFrom_nil (hidden : Bool) : resolvedFrom target? pos hidden [] = [] := rfl

theorem resolvedFrom_other {hidden : Bool} {x : Lexeme}
    (hx : hidden = true ∨ ¬BeginsCall (x :: xs)) :
    resolvedFrom target? pos hidden (x :: xs) =
      resolvedFrom target? (pos + x.size) x.kind.hidesCall xs := by
  rw [resolvedFrom, callsFrom_other hx, resolvedFrom]

theorem resolvedFrom_left (h : target? site.specifier = none) :
    resolvedFrom target? pos false (site.lexemes ++ xs) =
      resolvedFrom target? (pos + site.size) false xs := by
  rw [resolvedFrom, callsFrom_site, resolved_none h, resolvedFrom]

theorem resolvedFrom_sent {target : String} (h : target? site.specifier = some target) :
    resolvedFrom target? pos false (site.lexemes ++ xs) =
      (site.call pos, target) :: resolvedFrom target? (pos + site.size) false xs := by
  rw [resolvedFrom, callsFrom_site, resolved_some h, resolvedFrom]

end Resolved

/-- The edits of a rewrite turn the one source into the other. -/
theorem Redirected.spliced {target? : String → Option String} {body : List Char} {hidden : Bool}
    {xs xs' : List Lexeme} (h : Redirected target? body hidden xs xs') (tail : List Char) (pos : Nat) :
    Spliced pos (spell xs tail) (editsOf (calleeText body) (resolvedFrom target? pos hidden xs))
      (spell xs' tail) := by
  induction h generalizing pos with
  | nil => exact .nil
  | @other hidden x xs xs' hx h ih =>
    rw [resolvedFrom_other hx]
    exact (ih (pos + x.size)).lexeme x
  | @left site xs xs' htarget h ih =>
    rw [resolvedFrom_left htarget]
    have hrest := ih (pos + site.size)
    rw [site.add_size] at hrest ⊢
    exact (((hrest.lexeme site.closing).lexeme site.argument).lexeme site.opening).lexeme site.callee
  | @sent site target xs xs' htarget h ih =>
    rw [resolvedFrom_sent htarget]
    have hrest := ih (pos + site.size)
    rw [site.add_size] at hrest ⊢
    have hargument := Spliced.edit (hrest.lexeme site.closing) (encode target.toList)
    have hcallee := Spliced.edit (hargument.lexeme site.opening) (calleeText body)
    have hout : spell (site.redirected body target ++ xs') tail =
        site.callee.gap ++ (calleeText body ++ (site.opening.gap ++ (site.opening.text ++
          (site.argument.gap ++ (encode target.toList ++
            (site.closing.gap ++ (site.closing.text ++ spell xs' tail))))))) := by
      simp [CallSite.redirected, calleeLexemes, stringLexeme, calleeText, encode]
    rw [hout]
    exact hcallee

end ScriptVault.Script

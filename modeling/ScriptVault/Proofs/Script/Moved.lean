import Mathlib.Algebra.Ring.Nat
import ScriptVault.Proofs.Script.Splice

/-!
# Moved — the tokens and the calls of a rewritten source

The kinds of the tokens are those of the old source but for the callees and literals of the calls that were sent
(`Redirected.kinds_eq`), and the calls are those that were left alone, moved by the edits before them
(`Redirected.calls_eq`).
-/

namespace ScriptVault.Script

open Text (byteLength)
open Text.Quoted (encode encodeChar)

/-- The kinds of the four tokens of a callee. -/
def calleeKinds (body : List Char) : List Kind :=
  [.identifier "self", .bracketOpen, .text (String.ofList (unescaped body)), .bracketClose]

/-- The kind of the literal of a target. -/
def literalKind (target : String) : Kind :=
  .text (String.ofList (unescaped (target.toList.flatMap encodeChar)))

/-- The kinds that stand for a token when some calls are sent to their targets. -/
def kindsFor (body : List Char) (found : List (Call × String)) (token : Token) : List Kind :=
  if found.any fun sent => sent.1.callee = token.span then calleeKinds body
  else
    match found.find? fun sent => sent.1.argument = token.span with
    | some sent => [literalKind sent.2]
    | none => [token.kind]

/-- Where a byte outside the spans of some edits stands once they are applied. -/
def place (edits : List Edit) (n : Nat) : Nat :=
  let before := edits.filter fun edit => edit.span.stop ≤ n
  n + (before.map fun edit => byteLength edit.text).sum -
    (before.map fun edit => edit.span.stop - edit.span.start).sum

/-- A span outside those of some edits once they are applied. -/
def Span.moved (edits : List Edit) (span : Span) : Span :=
  ⟨place edits span.start, place edits span.stop⟩

/-- A call outside the spans of some edits once they are applied. -/
def Call.moved (edits : List Edit) (call : Call) : Call :=
  ⟨call.specifier, call.callee.moved edits, call.argument.moved edits⟩

/-! ### The spans of calls stand in order -/

/-- The call stands after a byte, its literal after its callee. -/
structure Call.From (pos : Nat) (call : Call) : Prop where
  pos_le : pos ≤ call.callee.start
  callee_lt : call.callee.start < call.callee.stop
  stop_le : call.callee.stop ≤ call.argument.start
  argument_lt : call.argument.start < call.argument.stop

theorem Call.From.mono {pos pos' : Nat} {call : Call} (h : call.From pos') (hle : pos ≤ pos') :
    call.From pos :=
  ⟨hle.trans h.pos_le, h.callee_lt, h.stop_le, h.argument_lt⟩

/-- Lexemes with characters of their own. -/
def Solid (xs : List Lexeme) : Prop := ∀ x ∈ xs, 0 < byteLength x.text

theorem Solid.tail {x : Lexeme} {xs : List Lexeme} (h : Solid (x :: xs)) : Solid xs :=
  fun y hy => h y (List.mem_cons_of_mem x hy)

theorem Solid.gap_lt {x : Lexeme} {xs : List Lexeme} (h : Solid (x :: xs)) :
    byteLength x.gap < x.size := by
  have := h x (List.mem_cons_self ..)
  simp only [Lexeme.size]
  omega

theorem Solid.sizes {site : CallSite} {xs : List Lexeme} (h : Solid (site.lexemes ++ xs)) :
    Solid xs ∧ byteLength site.callee.gap < site.callee.size ∧
      byteLength site.opening.gap < site.opening.size ∧
      byteLength site.argument.gap < site.argument.size ∧
      byteLength site.closing.gap < site.closing.size :=
  ⟨h.tail.tail.tail.tail, h.gap_lt, h.tail.gap_lt, h.tail.tail.gap_lt, h.tail.tail.tail.gap_lt⟩

section Redirected

variable {target? : String → Option String} {body : List Char} {hidden : Bool} {xs xs' : List Lexeme}

theorem Redirected.from (h : Redirected target? body hidden xs xs') (hxs : Solid xs) (pos : Nat) :
    ∀ found ∈ resolvedFrom target? pos hidden xs, found.1.From pos := by
  induction h generalizing pos with
  | nil => simp
  | @other hidden x xs xs' hx h ih =>
    rw [resolvedFrom_other hx]
    exact fun found hfound => (ih hxs.tail _ found hfound).mono (Nat.le_add_right ..)
  | @left site xs xs' htarget h ih =>
    rw [resolvedFrom_left htarget]
    exact fun found hfound => (ih hxs.sizes.1 _ found hfound).mono (Nat.le_add_right ..)
  | @sent site target xs xs' htarget h ih =>
    rw [resolvedFrom_sent htarget]
    obtain ⟨hxs', hcallee, hopening, hargument, hclosing⟩ := hxs.sizes
    intro found hfound
    rcases List.mem_cons.mp hfound with rfl | hfound
    · constructor <;> simp only [CallSite.call] <;> omega
    · exact (ih hxs' _ found hfound).mono (Nat.le_add_right ..)

/-! ### Kinds -/

theorem kindsFor_cons {found : List (Call × String)} {call : Call} {target : String} {token : Token}
    (hcallee : call.callee.start ≠ token.span.start)
    (hargument : call.argument.start ≠ token.span.start) :
    kindsFor body ((call, target) :: found) token = kindsFor body found token := by
  have h₁ : ¬call.callee = token.span := fun h => hcallee (congrArg Span.start h)
  have h₂ : ¬call.argument = token.span := fun h => hargument (congrArg Span.start h)
  simp only [kindsFor, List.any_cons, List.find?_cons, h₁, h₂, decide_false, Bool.false_or]

theorem kindsFor_before {found : List (Call × String)} {token : Token} {pos : Nat}
    (h : ∀ f ∈ found, f.1.From pos) (htoken : token.span.start < pos) :
    kindsFor body found token = [token.kind] := by
  induction found with
  | nil => rfl
  | cons f found ih =>
    have hf := h f (List.mem_cons_self ..)
    have := hf.pos_le
    have := hf.callee_lt
    have := hf.stop_le
    rw [kindsFor_cons (by omega) (by omega), ih fun f hf => h f (List.mem_cons_of_mem _ hf)]

theorem kindsFor_callee {found : List (Call × String)} {call : Call} {target : String} {token : Token}
    (h : call.callee = token.span) :
    kindsFor body ((call, target) :: found) token = calleeKinds body := by
  simp [kindsFor, h]

theorem kindsFor_argument {found : List (Call × String)} {call : Call} {target : String}
    {token : Token} {pos : Nat} (hfound : ∀ f ∈ found, f.1.From pos) (htoken : token.span.start < pos)
    (hcallee : call.callee.start ≠ token.span.start) (h : call.argument = token.span) :
    kindsFor body ((call, target) :: found) token = [literalKind target] := by
  have hne : ¬call.callee = token.span := fun h => hcallee (congrArg Span.start h)
  have hany : (found.any fun sent => sent.1.callee = token.span) = false := by
    rw [List.any_eq_false]
    intro f hf heq
    have := (hfound f hf).pos_le
    simp only [decide_eq_true_eq] at heq
    rw [heq] at this
    omega
  simp only [kindsFor, List.any_cons, List.find?_cons, hne, h, hany, decide_true, decide_false,
    Bool.false_or, Bool.false_eq_true, if_false]

theorem le_start_of_mem {pos : Nat} {token : Token} (h : token ∈ tokensFrom pos xs) :
    pos ≤ token.span.start := by
  induction xs generalizing pos with
  | nil => cases h
  | cons x xs ih =>
    rcases List.mem_cons.mp h with rfl | h
    · exact Nat.le_add_right ..
    · exact (Nat.le_add_right ..).trans (ih h)

/-- The kinds of the new tokens, one old token after another. -/
theorem Redirected.kinds_eq (h : Redirected target? body hidden xs xs') (hxs : Solid xs) (pos : Nat) :
    xs'.map Lexeme.kind =
      (tokensFrom pos xs).flatMap (kindsFor body (resolvedFrom target? pos hidden xs)) := by
  induction h generalizing pos with
  | nil => rfl
  | @other hidden x xs xs' hx h ih =>
    have hfrom := h.from hxs.tail (pos + x.size)
    have hgap := hxs.gap_lt
    rw [resolvedFrom_other hx, tokensFrom_cons, List.flatMap_cons, kindsFor_before hfrom,
      ← ih hxs.tail]
    · rfl
    · simp only
      omega
  | @left site xs xs' htarget h ih =>
    obtain ⟨hxs', hcallee, hopening, hargument, hclosing⟩ := hxs.sizes
    have hfrom := h.from hxs' (pos + site.size)
    have hsize := site.add_size pos
    rw [resolvedFrom_left htarget]
    simp only [CallSite.lexemes, List.cons_append, List.nil_append, tokensFrom_cons, List.flatMap_cons,
      List.map_cons, ← hsize, ← ih hxs']
    rw [kindsFor_before hfrom, kindsFor_before hfrom, kindsFor_before hfrom, kindsFor_before hfrom]
    · rfl
    all_goals
      simp only
      omega
  | @sent site target xs xs' htarget h ih =>
    obtain ⟨hxs', hcallee, hopening, hargument, hclosing⟩ := hxs.sizes
    have hfrom := h.from hxs' (pos + site.size)
    have hsize := site.add_size pos
    rw [resolvedFrom_sent htarget]
    have hrest : (tokensFrom (pos + site.size) xs).flatMap
        (kindsFor body ((site.call pos, target) :: resolvedFrom target? (pos + site.size) false xs)) =
        xs'.map Lexeme.kind := by
      rw [ih hxs' (pos + site.size)]
      refine List.flatMap_congr fun token htoken => ?_
      have := le_start_of_mem htoken
      exact kindsFor_cons (by simp only [CallSite.call]; omega) (by simp only [CallSite.call]; omega)
    simp only [CallSite.lexemes, List.cons_append, List.nil_append, tokensFrom_cons, List.flatMap_cons,
      ← hsize, hrest]
    rw [kindsFor_callee rfl, kindsFor_cons, kindsFor_before hfrom, kindsFor_argument hfrom _ _ rfl,
      kindsFor_cons, kindsFor_before hfrom]
    · simp [CallSite.redirected, calleeLexemes, stringLexeme, calleeKinds, literalKind]
    all_goals
      simp only [CallSite.call]
      omega

/-! ### Calls -/

/-- Behind some edits, what stood at the one byte stands at the other. -/
structure Shifts (before : List Edit) (pos pos' : Nat) : Prop where
  stop_le : ∀ edit ∈ before, edit.span.stop ≤ pos
  sum_eq : pos' + (before.map fun edit => edit.span.stop - edit.span.start).sum =
    pos + (before.map fun edit => byteLength edit.text).sum

namespace Shifts

variable {before after : List Edit} {pos pos' n : Nat}

theorem nil (pos : Nat) : Shifts [] pos pos := ⟨by simp, rfl⟩

theorem add (h : Shifts before pos pos') (n : Nat) : Shifts before (pos + n) (pos' + n) := by
  refine ⟨fun edit hedit => (h.stop_le edit hedit).trans (Nat.le_add_right ..), ?_⟩
  have := h.sum_eq
  omega

/-- Behind one more edit. -/
theorem concat (h : Shifts before pos pos') (edit : Edit) (hstart : pos ≤ edit.span.start)
    (hstop : edit.span.start ≤ edit.span.stop) :
    Shifts (before ++ [edit]) edit.span.stop (pos' + (edit.span.start - pos) + byteLength edit.text) := by
  have hsum := h.sum_eq
  constructor
  · intro first hfirst
    rcases List.mem_append.1 hfirst with hfirst | hfirst
    · have := h.stop_le first hfirst
      omega
    · rw [List.mem_singleton.1 hfirst]
  · simp only [List.map_append, List.sum_append, List.map_cons, List.map_nil, List.sum_cons, List.sum_nil]
    omega

/-- The place behind some edits and in front of others. -/
theorem place_eq (h : Shifts before pos pos') (hn : pos ≤ n) (hafter : ∀ edit ∈ after, n < edit.span.stop) :
    place (before ++ after) n = pos' + (n - pos) := by
  have hfilter : (before ++ after).filter (fun edit => edit.span.stop ≤ n) = before := by
    rw [List.filter_append, List.filter_eq_self.mpr, List.filter_eq_nil_iff.mpr, List.append_nil]
    · intro edit hedit
      have := hafter edit hedit
      simp only [decide_eq_true_eq]
      omega
    · intro edit hedit
      have := h.stop_le edit hedit
      simp only [decide_eq_true_eq]
      omega
  have hsum := h.sum_eq
  simp only [place, hfilter]
  omega

/-- Where the span of an edit has come to, behind some edits and in front of others. -/
theorem moved_eq (h : Shifts before pos pos') (edit : Edit) (hstart : pos ≤ edit.span.start)
    (hsolid : edit.span.start < edit.span.stop) (hafter : ∀ later ∈ after, edit.span.stop < later.span.stop) :
    edit.span.moved (before ++ edit :: after) =
      ⟨pos' + (edit.span.start - pos), pos' + (edit.span.start - pos) + byteLength edit.text⟩ := by
  have hfront : place (before ++ edit :: after) edit.span.start = pos' + (edit.span.start - pos) :=
    h.place_eq hstart
      (List.forall_mem_cons.2 ⟨hsolid, fun later hlater => hsolid.trans (hafter later hlater)⟩)
  have hback := (h.concat edit hstart hsolid.le).place_eq le_rfl hafter
  rw [← List.append_cons, Nat.sub_self, Nat.add_zero] at hback
  rw [Span.moved, hfront, hback]

end Shifts

theorem editsOf_cons (callee : List Char) (call : Call) (target : String) (found : List (Call × String)) :
    editsOf callee ((call, target) :: found) = call.edits callee target ++ editsOf callee found := rfl

theorem lt_stop_of_mem_editsOf (callee : List Char) {found : List (Call × String)} {pos : Nat}
    (h : ∀ f ∈ found, f.1.From pos) : ∀ edit ∈ editsOf callee found, pos < edit.span.stop := by
  intro edit hedit
  obtain ⟨⟨call, target⟩, hf, hedit⟩ := List.mem_flatMap.mp hedit
  obtain ⟨hpos, hcallee, hstop, hargument⟩ := h _ hf
  simp only at hpos hcallee hstop hargument
  simp only [Call.edits, List.mem_cons, List.not_mem_nil, or_false] at hedit
  rcases hedit with rfl | rfl
  · show pos < call.callee.stop
    omega
  · show pos < call.argument.stop
    omega

/-- The bytes of a call once it is sent to a target. -/
def CallSite.redirectedSize (site : CallSite) (body : List Char) (target : String) : Nat :=
  byteLength site.callee.gap + byteLength (calleeText body) + site.opening.size +
    (byteLength site.argument.gap + byteLength (encode target.toList)) + site.closing.size

/-- Behind a call that was sent. -/
theorem Shifts.sent {before : List Edit} {pos pos' : Nat} (h : Shifts before pos pos') (body : List Char)
    (site : CallSite) (target : String) :
    Shifts (before ++ (site.call pos).edits (calleeText body) target) (pos + site.size)
      (pos' + site.redirectedSize body target) := by
  have hsize := site.add_size pos
  have hsum := h.sum_eq
  constructor
  · intro edit hedit
    rcases List.mem_append.mp hedit with hedit | hedit
    · exact (h.stop_le edit hedit).trans (Nat.le_add_right ..)
    · simp only [Call.edits, List.mem_cons, List.not_mem_nil, or_false] at hedit
      rcases hedit with rfl | rfl <;> simp only [CallSite.call] <;> omega
  · simp only [List.map_append, List.sum_append, Call.edits, List.map_cons, List.map_nil, List.sum_cons,
      List.sum_nil, CallSite.call, CallSite.redirectedSize, Lexeme.size]
    simp only [Lexeme.size] at hsize
    omega

/-- A call that was sent is none any more. -/
theorem callsFrom_redirected (site : CallSite) (target : String) (pos : Nat) :
    callsFrom false (tokensFrom pos (site.redirected body target ++ xs')) =
      callsFrom false (tokensFrom (pos + site.redirectedSize body target) xs') := by
  simp only [CallSite.redirected, calleeLexemes, List.cons_append, List.nil_append, tokensFrom_cons]
  rw [callsFrom_skip (by simp), callsFrom_skip (by simp), callsFrom_skip (by simp [stringLexeme]),
    callsFrom_skip (by simp), callsFrom_skip (by simp [site.opening_kind]),
    callsFrom_skip (by simp [stringLexeme]), callsFrom_skip (by simp [site.closing_kind]),
    site.closing_kind]
  refine congrArg (fun pos => callsFrom false (tokensFrom pos xs')) ?_
  simp only [CallSite.redirectedSize, Lexeme.size, stringLexeme, calleeText, encode,
    Text.byteLength_append, Text.byteLength_cons, Text.byteLength_nil, List.cons_append]
  omega

/-- The calls of the new source are those that were left alone, moved by the edits before them. -/
theorem Redirected.calls_eq (h : Redirected target? body hidden xs xs') (hxs : Solid xs)
    {before : List Edit} {pos pos' : Nat} (hbefore : ∀ edit ∈ before, edit.span.stop ≤ pos)
    (hsum : pos' + (before.map fun edit => edit.span.stop - edit.span.start).sum =
      pos + (before.map fun edit => byteLength edit.text).sum) :
    callsFrom hidden (tokensFrom pos' xs') =
      ((callsFrom hidden (tokensFrom pos xs)).filter fun call => (target? call.specifier).isNone).map
        (Call.moved (before ++ editsOf (calleeText body) (resolvedFrom target? pos hidden xs))) := by
  have hshift : Shifts before pos pos' := ⟨hbefore, hsum⟩
  clear hbefore hsum
  induction h generalizing before pos pos' with
  | nil => rfl
  | @other hidden x xs xs' hx h ih =>
    have hx' : hidden = true ∨ ¬BeginsCall (x :: xs') :=
      hx.imp_right h.not_beginsCall
    rw [callsFrom_other hx, callsFrom_other hx', resolvedFrom_other hx]
    exact ih hxs.tail (hshift.add x.size)
  | @left site xs xs' htarget h ih =>
    obtain ⟨hxs', hcallee, hopening, hargument, hclosing⟩ := hxs.sizes
    have hfrom := h.from hxs' (pos + site.size)
    have hlater := lt_stop_of_mem_editsOf (calleeText body) hfrom
    have hsize := site.add_size pos
    have hcall : (site.call pos).moved
        (before ++ editsOf (calleeText body) (resolvedFrom target? (pos + site.size) false xs)) =
        site.call pos' := by
      have hplace : ∀ n, pos ≤ n → n ≤ pos + site.size →
          place (before ++ editsOf (calleeText body) (resolvedFrom target? (pos + site.size) false xs)) n
            = pos' + (n - pos) := fun n hle hge =>
        hshift.place_eq hle fun edit hedit => hge.trans_lt (hlater edit hedit)
      simp only [Call.moved, Span.moved, CallSite.call, Call.mk.injEq, Span.mk.injEq, true_and]
      refine ⟨⟨?_, ?_⟩, ?_, ?_⟩ <;> rw [hplace _ (by omega) (by omega)] <;> omega
    rw [callsFrom_site, callsFrom_site, resolvedFrom_left htarget, List.filter_cons_of_pos, List.map_cons,
      hcall]
    · exact congrArg _ (ih hxs' (hshift.add site.size))
    · simpa [CallSite.call] using htarget
  | @sent site target xs xs' htarget h ih =>
    rw [callsFrom_site, callsFrom_redirected, resolvedFrom_sent htarget, List.filter_cons_of_neg, editsOf_cons,
      ← List.append_assoc]
    · exact ih hxs.sizes.1 (hshift.sent body site target)
    · simp [CallSite.call, htarget]

end Redirected

end ScriptVault.Script

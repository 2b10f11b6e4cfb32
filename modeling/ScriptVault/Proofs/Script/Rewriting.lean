import ScriptVault.Proofs.Script.ModuleOnly
import ScriptVault.Proofs.Script.Moved

/-!
# Rewriting — a rewritten source has the tokens of the old one

A rewrite reads the old source, and the scanner reads the new one the same but for the callees and literals of
the calls that were sent: `rewrite_preserves_tokens` gathers what follows for the bytes, the tokens, the check and
the calls.
-/

namespace ScriptVault.Script

open Text.Quoted (encode encodeChar)

/-- The callee of a loader is one with a JSON string. -/
theorem loaderExpression_eq (requireName : String) :
    (loaderExpression requireName).toList = calleeText (requireName.toList.flatMap encodeChar) := by
  simp [loaderExpression, Text.Quoted.literal, encode, calleeText]

/-- The new lexemes spell a source that reads as them. -/
theorem ReadsAs.exchanged {source body tail : List Char} {xs xs' : List Lexeme} (hbody : JsonText body)
    (h : ReadsAs source xs tail) (hxs : Exchanged body xs xs') : ReadsAs (spell xs' tail) xs' tail := by
  obtain ⟨rfl, hreads⟩ := h
  obtain ⟨hreads', hlike⟩ := hreads.exchanged hbody hxs
  refine ⟨rfl, ?_⟩
  have hsigns := hlike.after?_isSome (a := '0') (b := 'x') (by decide) (by decide)
  rw [← Option.not_isSome, ← hsigns, Option.not_isSome] at hreads'
  exact hreads'

theorem rewrite_eq {id : String} {source callee out : List Char} {ts : List Token}
    {target? : String → Option String} (htokens : tokens id source = .ok ts)
    (hout : Spliced 0 source (editsOf callee (resolved target? (callsFrom false ts))) out) :
    rewrite id source callee target? =
      .ok ⟨String.ofList out, ((resolved target? (callsFrom false ts)).map Prod.snd).eraseDups⟩ := by
  rw [← hout.applyEdits_eq]
  simp only [rewrite, calls, htokens, Except.map, bind, Except.bind, pure, Except.pure]
  rfl

theorem resolved_moved (target? : String → Option String) (edits : List Edit) (calls : List Call) :
    resolved target?
      ((calls.filter fun call => (target? call.specifier).isNone).map (Call.moved edits)) = [] := by
  refine List.filterMap_eq_nil_iff.mpr fun call hcall => ?_
  obtain ⟨left, hleft, rfl⟩ := List.mem_map.mp hcall
  simpa [Call.moved] using (List.mem_filter.mp hleft).2

/-- Every source whose tokens can be read is rewritten.  Nothing but the spans of the calls that have targets
changes; the new tokens have the old kinds, but for those of a callee and of a literal; the check accepts the one
source exactly if it accepts the other; the calls of the new source are those that were left alone, so that another
rewrite changes nothing. -/
theorem rewrite_preserves_tokens {id : String} {source body : List Char} {ts : List Token}
    (htokens : tokens id source = .ok ts) (hbody : JsonText body) (target? : String → Option String) :
    ∃ out found edits, rewrite id source (calleeText body) target? = .ok out ∧
      calls id source = .ok (callsFrom false ts) ∧
      found = resolved target? (callsFrom false ts) ∧ edits = editsOf (calleeText body) found ∧
      Spliced 0 source edits out.code.toList ∧
      out.requires = (found.map Prod.snd).eraseDups ∧
      (∃ ts', tokens id out.code.toList = .ok ts' ∧
        ts'.map Token.kind = ts.flatMap (kindsFor body found)) ∧
      (check id out.code.toList = .ok () ↔ check id source = .ok ()) ∧
      calls id out.code.toList = .ok (((callsFrom false ts).filter fun call =>
        (target? call.specifier).isNone).map (Call.moved edits)) ∧
      rewrite id out.code.toList (calleeText body) target? = .ok ⟨out.code, []⟩ := by
  obtain ⟨rfl, hkinds⟩ := tokens_ok_iff.mp htokens
  obtain ⟨xs, tail, hreads⟩ := exists_readsAs hkinds
  obtain ⟨xs', hxs⟩ := exists_redirected target? body false xs
  have hsolid : Solid xs := hreads.2.byteLength_text
  have hreads' := hreads.exchanged hbody hxs.exchanged
  have htokens' := hreads'.tokens_eq id
  have hspliced := hxs.spliced tail 0
  rw [hreads.scan_eq] at htokens ⊢
  rw [resolvedFrom, ← hreads.1] at hspliced
  have hcalls : callsFrom false (tokensFrom 0 xs') = _ :=
    hxs.calls_eq hsolid (List.forall_mem_nil _) rfl
  have hout : (String.ofList (spell xs' tail)).toList = spell xs' tail := String.toList_ofList
  refine ⟨_, _, _, rewrite_eq htokens hspliced, ?_, rfl, rfl, ?_⟩
  · simp [calls, htokens, Except.map]
  · simp only [hout]
    refine ⟨hspliced, trivial, ⟨_, htokens', ?_⟩, ?_, ?_, ?_⟩
    · rw [map_kind_tokensFrom]
      exact hxs.kinds_eq hsolid 0
    · rw [check_ok_iff htokens', check_ok_iff htokens]
      exact hxs.firstModuleOnly_iff rfl (by simp) (by simp)
    · rw [calls, htokens', Except.map, hcalls]
      rfl
    · have hnone : Spliced 0 (spell xs' tail) (editsOf (calleeText body)
          (resolved target? (callsFrom false (tokensFrom 0 xs')))) (spell xs' tail) := by
        rw [hcalls, resolved_moved]
        exact .nil
      rw [rewrite_eq htokens' hnone, hcalls, resolved_moved]
      rfl

/-- A call inside a template, a regular expression after a block, and a call without a target. -/
def templateSource : List Char :=
  "if(a)\x7b\x60$\x7brequire('./b')\x7d\x60\x7d/x/;f(require(\"c\"))".toList

/-- The targets of the calls in `templateSource`. -/
def templateTarget? (specifier : String) : Option String :=
  if specifier = "./b" then some "lib/b" else none

theorem rewrite_templateSource :
    (∃ ts, tokens "a" templateSource = .ok ts) ∧ JsonText ("app".toList.flatMap encodeChar) ∧
      ∃ out, rewrite "a" templateSource (loaderExpression "app").toList templateTarget? = .ok out ∧
        out.code =
          "if(a)\x7b\x60$\x7bself[\"app\"](\"lib/b\")\x7d\x60\x7d/x/;f(require(\"c\"))" ∧
        (check "a" out.code.toList = .ok () ↔ check "a" templateSource = .ok ()) ∧
        rewrite "a" out.code.toList (loaderExpression "app").toList templateTarget? =
          .ok ⟨out.code, []⟩ := by
  have htokens : tokens "a" templateSource = .ok (scan templateSource) := rfl
  have hbody : JsonText ("app".toList.flatMap encodeChar) := encode_json _
  obtain ⟨out, -, -, hout, -, -, -, -, -, -, hcheck, -, hagain⟩ :=
    rewrite_preserves_tokens htokens hbody templateTarget?
  rw [loaderExpression_eq]
  refine ⟨⟨_, htokens⟩, hbody, out, hout, ?_, hcheck, hagain⟩
  have hcode : rewrite "a" templateSource (calleeText ("app".toList.flatMap encodeChar)) templateTarget? =
      .ok ⟨"if(a)\x7b\x60$\x7bself[\"app\"](\"lib/b\")\x7d\x60\x7d/x/;f(require(\"c\"))",
        ["lib/b"]⟩ := rfl
  rw [hcode] at hout
  cases hout
  rfl

end ScriptVault.Script

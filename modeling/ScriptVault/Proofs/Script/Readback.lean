import ScriptVault.Proofs.Script.Rewriting

/-!
# Readback — which texts a literal gives back

A literal is one token, whatever the text that it was made of, but the scanner resolves fewer escapes than the
encoding uses: it gives back exactly the texts without rare control characters (`unescaped_encode_iff`).  In a
rewritten source each target's literal stands where its call's literal stood (`Spliced.exists_place`), and there it
is a token of its own (`Redirected.literal_mem`).
-/

namespace ScriptVault.Script

open Text (byteLength)
open Text.Quoted (encode encodeChar)

/-! ### A literal by itself -/

theorem IsHex.le_toNat {c : Char} (h : IsHex c) : 32 ≤ c.toNat := by
  have htoNat : c.toNat = c.val.toNat := rfl
  rcases h with h | ⟨h, -⟩ | ⟨h, -⟩
  · simp only [Char.isDigit, Bool.and_eq_true, decide_eq_true_eq, ge_iff_le, UInt32.le_iff_toNat_le] at h
    have hzero : '0'.val.toNat = 48 := rfl
    omega
  · have hle : 'a'.val.toNat ≤ c.val.toNat := h
    have ha : 'a'.val.toNat = 97 := rfl
    omega
  · have hle : 'A'.val.toNat ≤ c.val.toNat := h
    have ha : 'A'.val.toNat = 65 := rfl
    omega

/-- Whatever stands between the quotes, no rare control character is read. -/
theorem JsonText.readsBack_of_mem {body : List Char} (h : JsonText body) : ∀ c ∈ unescaped body, readsBack c := by
  have hplain {c : Char} (hc : 32 ≤ c.toNat) : readsBack c = true := by simp [readsBack, hc]
  induction h with
  | nil => simp [unescaped]
  | @plain c s hcontrol hquote hback _ ih =>
    have hline : c ≠ '\n' := by
      rintro rfl
      exact absurd hcontrol (by decide)
    rw [unescaped_bare ⟨hline, hquote, hback⟩]
    exact List.forall_mem_cons.2 ⟨hplain hcontrol, ih⟩
  | @escape c s hc _ ih =>
    have hletter : ∀ c ∈ escapeLetters, readsBack (escaped c) := List.all_eq_true.1 (by decide)
    exact List.forall_mem_cons.2 ⟨hletter c hc, ih⟩
  | @unicode a b c d s hdigits _ ih =>
    have hdigit (x : Char) (hx : x ∈ [a, b, c, d]) : readsBack x = true := hplain (hdigits x hx).le_toNat
    rw [unescaped, unescaped_bare (hdigits a (by simp)).bare, unescaped_bare (hdigits b (by simp)).bare,
      unescaped_bare (hdigits c (by simp)).bare, unescaped_bare (hdigits d (by simp)).bare]
    simp only [List.forall_mem_cons]
    exact ⟨by decide, hdigit a (by simp), hdigit b (by simp), hdigit c (by simp), hdigit d (by simp), ih⟩

/-- A text is read back from its literal exactly if it has no rare control character. -/
theorem unescaped_encode_iff {s : List Char} :
    unescaped (s.flatMap encodeChar) = s ↔ ∀ c ∈ s, readsBack c := by
  refine ⟨fun h c hc => ?_, unescaped_encode⟩
  rw [← h] at hc
  exact (encode_json s).readsBack_of_mem c hc

/-- A literal is one token, from its first byte to its last. -/
theorem scan_encode (s : List Char) :
    scan (encode s) =
      [⟨.text (String.ofList (unescaped (s.flatMap encodeChar))), ⟨0, byteLength (encode s)⟩⟩] := by
  have hahead : ahead? true (encode s) = some (encode s) := by
    simp only [ahead?, encode]
    exact skipBlanks_stop (by decide) (by simp) _
  have hreads : ReadsAs (encode s) [stringLexeme [] (s.flatMap encodeChar)] [] := by
    refine ⟨by simp [stringLexeme, encode], .literal (encode_json s) ?_ (.nil rfl)⟩
    simpa [encode] using hahead
  rw [hreads.scan_eq]
  simp [stringLexeme, Lexeme.size, encode]

/-! ### The literals of a rewritten source -/

theorem Spliced.start_le {pos : Nat} {s out : List Char} {edits : List Edit} (h : Spliced pos s edits out) :
    ∀ edit ∈ edits, pos ≤ edit.span.start := by
  induction h with
  | nil => simp
  | @cons pos kept old s out edit edits hstart hstop h ih =>
    intro other hother
    rcases List.mem_cons.1 hother with rfl | hother
    · omega
    · have := ih other hother
      omega

/-- Other texts may be put in the place of the same spans. -/
theorem Spliced.exists_other {pos : Nat} {s out : List Char} {edits edits' : List Edit}
    (h : Spliced pos s edits out) (hspans : edits'.map Edit.span = edits.map Edit.span) :
    ∃ out', Spliced pos s edits' out' := by
  induction h generalizing edits' with
  | nil =>
    obtain rfl : edits' = [] := by simpa using hspans
    exact ⟨_, .nil⟩
  | @cons pos kept old s out edit edits hstart hstop h ih =>
    cases edits' with
    | nil => cases hspans
    | cons edit' edits' =>
      obtain ⟨hspan, hspans⟩ := List.cons.inj hspans
      obtain ⟨out', hout'⟩ := ih hspans
      exact ⟨_, .cons (hspan ▸ hstart) (hspan ▸ hstop) (hspan ▸ hout')⟩

/-- The text of each edit stands where its span has come to. -/
theorem Spliced.exists_place {pos : Nat} {s out : List Char} {edits : List Edit} (h : Spliced pos s edits out)
    (hsolid : ∀ edit ∈ edits, edit.span.start < edit.span.stop) {before : List Edit} {pos' : Nat}
    (hshift : Shifts before pos pos') {edit : Edit} (hedit : edit ∈ edits) :
    ∃ front back, out = front ++ (edit.text ++ back) ∧
      edit.span.moved (before ++ edits) =
        ⟨pos' + byteLength front, pos' + byteLength front + byteLength edit.text⟩ := by
  induction h generalizing before pos' with
  | nil => cases hedit
  | @cons pos kept old s out first edits hstart hstop h ih =>
    have hfirst : pos ≤ first.span.start := by omega
    have hkept : first.span.start - pos = byteLength kept := by omega
    rcases List.mem_cons.1 hedit with rfl | hedit
    · have hlater : ∀ later ∈ edits, edit.span.stop < later.span.stop := fun later hlater =>
        (h.start_le later hlater).trans_lt (hsolid later (List.mem_cons_of_mem edit hlater))
      refine ⟨kept, out, rfl, ?_⟩
      rw [hshift.moved_eq edit hfirst (hsolid edit (List.mem_cons_self ..)) hlater, hkept]
    · have hshift' := hshift.concat first hfirst (hsolid first (List.mem_cons_self ..)).le
      rw [hkept] at hshift'
      obtain ⟨front, back, rfl, hmoved⟩ :=
        ih (fun later hlater => hsolid later (List.mem_cons_of_mem first hlater)) hshift' hedit
      refine ⟨kept ++ (first.text ++ front), back, by simp, ?_⟩
      rw [List.append_cons, hmoved]
      simp only [Text.byteLength_append, Nat.add_assoc]

section Redirected

variable {target? : String → Option String} {body : List Char} {hidden : Bool} {xs xs' : List Lexeme}

/-- The literal of a target is a token where the old literal has come to. -/
theorem Redirected.literal_mem (h : Redirected target? body hidden xs xs') (hxs : Solid xs)
    {before : List Edit} {pos pos' : Nat} (hshift : Shifts before pos pos') {call : Call} {target : String}
    (hsent : (call, target) ∈ resolvedFrom target? pos hidden xs) :
    ⟨literalKind target, call.argument.moved
        (before ++ editsOf (calleeText body) (resolvedFrom target? pos hidden xs))⟩ ∈ tokensFrom pos' xs' := by
  induction h generalizing before pos pos' with
  | nil => cases hsent
  | @other hidden x xs xs' hx h ih =>
    rw [resolvedFrom_other hx] at hsent ⊢
    exact List.mem_cons_of_mem _ (ih hxs.tail (hshift.add x.size) hsent)
  | @left site xs xs' htarget h ih =>
    rw [resolvedFrom_left htarget] at hsent ⊢
    simp only [CallSite.lexemes, List.cons_append, List.nil_append, tokensFrom_cons, ← site.add_size]
    exact List.mem_cons_of_mem _ (List.mem_cons_of_mem _ (List.mem_cons_of_mem _ (List.mem_cons_of_mem _
      (ih hxs.sizes.1 (hshift.add site.size) hsent))))
  | @sent site found xs xs' htarget h ih =>
    obtain ⟨hxs', hcallee, hopening, hargument, hclosing⟩ := hxs.sizes
    have hlater := lt_stop_of_mem_editsOf (calleeText body) (h.from hxs' (pos + site.size))
    have hsize := site.add_size pos
    rw [resolvedFrom_sent htarget] at hsent ⊢
    rw [editsOf_cons, tokensFrom_append]
    rcases List.mem_cons.1 hsent with hsent | hsent
    · obtain ⟨rfl, rfl⟩ := Prod.mk.inj hsent
      have hcall := hshift.concat ⟨(site.call pos).callee, calleeText body⟩
        (by simp only [CallSite.call]; omega) (by simp only [CallSite.call]; omega)
      have hmoved := hcall.moved_eq ⟨(site.call pos).argument, encode target.toList⟩
        (by simp only [CallSite.call]; omega) (by simp only [CallSite.call]; omega)
        fun later hmem => (show (site.call pos).argument.stop ≤ pos + site.size by
          simp only [CallSite.call]; omega).trans_lt (hlater later hmem)
      rw [List.append_assoc, List.singleton_append] at hmoved
      refine List.mem_append_left _ ?_
      rw [Call.edits, List.cons_append, List.singleton_append, hmoved]
      simp only [CallSite.redirected, calleeLexemes, List.cons_append, List.nil_append, tokensFrom_cons]
      refine .tail _ (.tail _ (.tail _ (.tail _ (.tail _ (List.mem_cons.2 (.inl ?_))))))
      simp only [stringLexeme, literalKind, CallSite.call, Lexeme.size, calleeText, encode, Token.mk.injEq,
        Span.mk.injEq, Text.byteLength_append, Text.byteLength_cons, Text.byteLength_nil, List.cons_append, true_and]
      omega
    · have hrest := ih hxs' (hshift.sent body site found) hsent
      rw [List.append_assoc] at hrest
      refine List.mem_append_right _ ?_
      have hbytes : byteLength (spell (site.redirected body found) []) = site.redirectedSize body found := by
        simp only [CallSite.redirected, calleeLexemes, CallSite.redirectedSize, stringLexeme, calleeText, encode,
          Lexeme.size, spell_cons, spell_nil, Text.byteLength_append, Text.byteLength_cons, Text.byteLength_nil,
          List.cons_append, List.nil_append]
        omega
      rw [hbytes]
      exact hrest

end Redirected

/-! ### Rewriting -/

section Rewrite

variable {id : String} {source callee body : List Char} {ts : List Token} {target? : String → Option String}
  {call : Call} {target : String}

theorem mem_resolved {calls : List Call} (hcall : call ∈ calls) (htarget : target? call.specifier = some target) :
    (call, target) ∈ resolved target? calls :=
  List.mem_filterMap.2 ⟨call, hcall, by simp [htarget]⟩

theorem map_span_editsOf (callee callee' : List Char) (found : List (Call × String)) :
    (editsOf callee found).map Edit.span = (editsOf callee' found).map Edit.span := by
  simp only [editsOf, Call.edits, List.map_flatMap, List.map_cons, List.map_nil]

theorem solid_of_mem_editsOf {found : List (Call × String)} {pos : Nat} (h : ∀ f ∈ found, f.1.From pos) :
    ∀ edit ∈ editsOf callee found, edit.span.start < edit.span.stop := by
  intro edit hedit
  obtain ⟨f, hf, hedit⟩ := List.mem_flatMap.1 hedit
  simp only [Call.edits, List.mem_cons, List.not_mem_nil, or_false] at hedit
  rcases hedit with rfl | rfl
  · exact (h f hf).callee_lt
  · exact (h f hf).argument_lt

/-- A source whose tokens can be read is rewritten with any callee, and each target's literal is put in the place
of its call's. -/
theorem exists_rewrite (htokens : tokens id source = .ok ts) (callee : List Char) (target? : String → Option String) :
    ∃ out, rewrite id source callee target? = .ok out ∧
      ∀ call ∈ callsFrom false ts, ∀ target, target? call.specifier = some target →
        ∃ front back, out.code.toList = front ++ (encode target.toList ++ back) ∧
          call.argument.moved (editsOf callee (resolved target? (callsFrom false ts))) =
            ⟨byteLength front, byteLength front + byteLength (encode target.toList)⟩ := by
  obtain ⟨rfl, hkinds⟩ := tokens_ok_iff.mp htokens
  obtain ⟨xs, tail, hreads⟩ := exists_readsAs hkinds
  obtain ⟨xs', hxs⟩ := exists_redirected target? [] false xs
  have hfrom := hxs.from hreads.2.byteLength_text 0
  have hspliced := hxs.spliced tail 0
  rw [resolvedFrom, ← hreads.scan_eq] at hfrom hspliced
  rw [← hreads.1] at hspliced
  obtain ⟨out, hout⟩ := hspliced.exists_other (map_span_editsOf callee (calleeText []) _)
  refine ⟨_, rewrite_eq htokens hout, fun call hcall target htarget => ?_⟩
  have hedit : ⟨call.argument, encode target.toList⟩ ∈ editsOf callee (resolved target? (callsFrom false (scan source))) :=
    List.mem_flatMap.2 ⟨_, mem_resolved hcall htarget, by simp [Call.edits]⟩
  obtain ⟨front, back, hplace, hmoved⟩ := hout.exists_place (solid_of_mem_editsOf hfrom) (.nil 0) hedit
  refine ⟨front, back, by rw [String.toList_ofList, hplace], ?_⟩
  simpa using hmoved

/-- In a source that was rewritten for a loader each target's literal is a token of its own. -/
theorem exists_literal_token (htokens : tokens id source = .ok ts) (hbody : JsonText body) {out : Rewritten}
    (hout : rewrite id source (calleeText body) target? = .ok out) (hcall : call ∈ callsFrom false ts)
    (htarget : target? call.specifier = some target) :
    ∃ ts', tokens id out.code.toList = .ok ts' ∧
      ⟨literalKind target,
        call.argument.moved (editsOf (calleeText body) (resolved target? (callsFrom false ts)))⟩ ∈ ts' := by
  obtain ⟨rfl, hkinds⟩ := tokens_ok_iff.mp htokens
  obtain ⟨xs, tail, hreads⟩ := exists_readsAs hkinds
  obtain ⟨xs', hxs⟩ := exists_redirected target? body false xs
  have hspliced := hxs.spliced tail 0
  have hsent : (call, target) ∈ resolvedFrom target? 0 false xs := by
    rw [resolvedFrom, ← hreads.scan_eq]
    exact mem_resolved hcall htarget
  have hliteral := hxs.literal_mem hreads.2.byteLength_text (.nil 0) hsent
  rw [resolvedFrom, ← hreads.scan_eq] at hspliced hliteral
  rw [← hreads.1] at hspliced
  obtain rfl := Except.ok.inj ((rewrite_eq htokens hspliced).symm.trans hout)
  rw [String.toList_ofList]
  exact ⟨_, (hreads.exchanged hbody hxs.exchanged).tokens_eq id, hliteral⟩

end Rewrite

/-- The literal of a text is one token, from its first byte to its last, and it reads back as the text exactly if
the text has no control character but the ends of lines and the tab.  In a rewritten source the literal of a text
stands where the literal of each call has come to of which the text is the target; rewritten for a loader, it is a
token there, which reads back as the text under the same condition. -/
theorem literals_read_back (s : String) :
    (∃ value, scan (encode s.toList) = [⟨.text value, ⟨0, byteLength (encode s.toList)⟩⟩] ∧
      (value = s ↔ ∀ c ∈ s.toList, readsBack c)) ∧
    ∀ (id : String) (source callee : List Char) (ts : List Token) (target? : String → Option String),
      tokens id source = .ok ts → ∃ out, rewrite id source callee target? = .ok out ∧
        ∀ call ∈ callsFrom false ts, target? call.specifier = some s →
          ∃ span, span = call.argument.moved (editsOf callee (resolved target? (callsFrom false ts))) ∧
            (∃ front back, out.code.toList = front ++ (encode s.toList ++ back) ∧
              span = ⟨byteLength front, byteLength front + byteLength (encode s.toList)⟩) ∧
            ∀ body, JsonText body → callee = calleeText body →
              ∃ ts' value, tokens id out.code.toList = .ok ts' ∧ ⟨.text value, span⟩ ∈ ts' ∧
                (value = s ↔ ∀ c ∈ s.toList, readsBack c) := by
  have hiff : String.ofList (unescaped (s.toList.flatMap encodeChar)) = s ↔ ∀ c ∈ s.toList, readsBack c := by
    rw [← unescaped_encode_iff, ← String.toList_inj, String.toList_ofList]
  refine ⟨⟨_, scan_encode s.toList, hiff⟩, fun id source callee ts target? htokens => ?_⟩
  obtain ⟨out, hout, hplaces⟩ := exists_rewrite htokens callee target?
  refine ⟨out, hout, fun call hcall htarget => ⟨_, rfl, hplaces call hcall s htarget, ?_⟩⟩
  rintro body hbody rfl
  obtain ⟨ts', htokens', hliteral⟩ := exists_literal_token htokens hbody hout hcall htarget
  exact ⟨ts', _, htokens', hliteral, hiff⟩

theorem literals_read_back_template :
    (∃ ts, tokens "a" templateSource = .ok ts) ∧ JsonText ("app".toList.flatMap encodeChar) ∧
      ∃ out ts', rewrite "a" templateSource (loaderExpression "app").toList templateTarget? = .ok out ∧
        tokens "a" out.code.toList = .ok ts' ∧ ⟨.text "lib/b", ⟨21, 28⟩⟩ ∈ ts' := by
  have htokens : tokens "a" templateSource = .ok (scan templateSource) := rfl
  have hbody : JsonText ("app".toList.flatMap encodeChar) := encode_json _
  obtain ⟨out, hout, hcalls⟩ := (literals_read_back "lib/b").2 "a" templateSource
    (calleeText ("app".toList.flatMap encodeChar)) _ templateTarget? htokens
  have hcall : ⟨"./b", ⟨9, 16⟩, ⟨17, 22⟩⟩ ∈ callsFrom false (scan templateSource) := by decide +kernel
  obtain ⟨span, hspan, -, hbodies⟩ := hcalls _ hcall rfl
  obtain ⟨ts', value, htokens', hmem, hvalue⟩ := hbodies _ hbody rfl
  obtain rfl : value = "lib/b" := hvalue.2 (List.all_eq_true.1 rfl)
  rw [loaderExpression_eq]
  refine ⟨⟨_, htokens⟩, hbody, out, ts', hout, htokens', ?_⟩
  rw [hspan] at hmem
  exact hmem

/-- A backspace is encoded by an escape that the scanner takes for a letter. -/
theorem backspace_lost :
    ¬ ∀ s : String, scan (encode s.toList) = [⟨.text s, ⟨0, byteLength (encode s.toList)⟩⟩] := by
  intro hall
  have hread := hall "\x08"
  have hletter : scan (encode "\x08".toList) = [⟨.text "b", ⟨0, 4⟩⟩] := rfl
  rw [hletter] at hread
  simp at hread

end ScriptVault.Script

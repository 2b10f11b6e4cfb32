import ScriptVault.Proofs.Link.Component
import ScriptVault.Proofs.Text.Percent

/-!
# Markdown — links read back

A link is accepted only if it is put together from a display and a target that are written between their brackets, and
then what is in the target decides (`read?_linkText`, `exists_of_read?`).  So a link takes all its bytes and nothing may
stand behind it (`read?_whole`), and a link that was written reads back (`read?_untitled`, `read?_titled`).

A quote in a title is another matter.  A backslash before it is resolved with those of the target, so that the title,
which is looked at after that, has a bare quote in it and is refused (`quotesEscaped_iff`); a quote in a title must be
written with three backslashes (`quotesEscaped_escape`).
-/

namespace ScriptVault.Link

open Text

variable {d d' g g' p p' t t' : List Char}

/-! ### The text of a link -/

/-- A link, of what is written for its display and for its target. -/
def linkText (mark : Bool) (display target : List Char) : List Char :=
  (if mark then ['!'] else []) ++ '[' :: (display ++ ']' :: '(' :: (target ++ [')']))

/-- What stands between the parentheses of a link: a destination, and a title between quotes if there is one. -/
def targetText (path : List Char) : Option (List Char) → List Char
  | none => path
  | some title => path ++ ' ' :: '\x22' :: (title ++ ['\x22'])

/-- The link with a given text, by what is in its display and in its target. -/
def linkOf? (text display target : List Char) : Option Markdown := do
  let (path, title) ← target? target
  let path ← Percent.decode? path
  return ⟨String.ofList display, String.ofList path, String.ofList title, byteLength text⟩

theorem cutMark_linkText (mark : Bool) (display target more : List Char) :
    cutMark (linkText mark display target ++ more) =
      ('[' :: (display ++ ']' :: '(' :: (target ++ ')' :: more)), if mark then '!'.utf8Size else 0) := by
  cases mark <;> simp [linkText, cutMark]

theorem eq_of_cutMark (s : List Char) : ∃ mark : Bool, s = (if mark then ['!'] else []) ++ (cutMark s).1 := by
  unfold cutMark
  split
  · exact ⟨true, rfl⟩
  · exact ⟨false, rfl⟩

/-- A text with something behind it has more bytes. -/
theorem byteLength_eq_append_iff {s more : List Char} : byteLength s = byteLength (s ++ more) ↔ more = [] := by
  cases more with
  | nil => simp
  | cons c more =>
    have hc := c.utf8Size_pos
    simp only [byteLength_append, byteLength_cons, reduceCtorEq, iff_false]
    omega

/-- A link that is put together is the whole text or is not read; what is in its target decides. -/
theorem read?_linkText (hd : Writes '[' ']' 0 d d' 0) (hg : Writes '(' ')' 0 g g' 0) (mark : Bool)
    (more : List Char) :
    Markdown.read? (String.ofList (linkText mark d' g' ++ more)) =
      if more = [] then linkOf? (linkText mark d' g') d g else none := by
  have hdisplay := (takeComponent?_eq_some_iff isPair_square).2 ⟨d', '(' :: (g' ++ ')' :: more), rfl, hd, rfl⟩
  have htarget := (takeComponent?_eq_some_iff isPair_round).2 ⟨g', more, rfl, hg, rfl⟩
  have hrest : fromByte? (byteLength ('[' :: (d' ++ [']']))) ('[' :: (d' ++ ']' :: '(' :: (g' ++ ')' :: more))) =
      some ('(' :: (g' ++ ')' :: more)) := by
    have hsplit := fromByte?_append ('[' :: (d' ++ [']'])) ('(' :: (g' ++ ')' :: more))
    simpa using hsplit
  have hwhole : byteLength ('(' :: (g' ++ [')'])) = byteLength ('(' :: (g' ++ ')' :: more)) ↔ more = [] := by
    have hbehind := @byteLength_eq_append_iff ('(' :: (g' ++ [')'])) more
    simpa using hbehind
  have hsize : (if mark then '!'.utf8Size else 0) + byteLength ('[' :: (d' ++ [']'])) +
      byteLength ('(' :: (g' ++ [')'])) = byteLength (linkText mark d' g') := by
    cases mark <;> simp [linkText] <;> omega
  -- the target is looked for where the display stopped, and must be all that is left there
  rw [Markdown.read?, String.toList_ofList, cutMark_linkText]
  simp only [hdisplay, htarget, hrest, Option.bind_eq_bind, Option.bind_some]
  by_cases hmore : more = []
  · rw [if_pos hmore, guard, if_pos (by simpa using hwhole.2 hmore), hsize]
    rfl
  · rw [if_neg hmore, guard, if_neg (by simpa using fun h => hmore (hwhole.1 h))]
    rfl

/-- Whatever is accepted is put together like a link. -/
theorem exists_of_read? {link : String} {m : Markdown} (h : Markdown.read? link = some m) :
    ∃ mark d d' g g', link.toList = linkText mark d' g' ∧ Writes '[' ']' 0 d d' 0 ∧ Writes '(' ')' 0 g g' 0 := by
  simp only [Markdown.read?, Option.bind_eq_bind, Option.bind_eq_some_iff, Prod.exists] at h
  obtain ⟨d, _, hdisplay, rest, hrest, g, _, htarget, _, hguard, -⟩ := h
  obtain ⟨mark, hmark⟩ := eq_of_cutMark link.toList
  obtain ⟨d', more, hbody, hd, rfl⟩ := (takeComponent?_eq_some_iff isPair_square).1 hdisplay
  rw [hbody] at hrest hmark
  have hmore : rest = more := by
    have hsplit := fromByte?_append ('[' :: (d' ++ [']'])) more
    simp only [List.cons_append, List.append_assoc, List.nil_append] at hsplit
    exact Option.some.inj (hrest.symm.trans hsplit)
  subst hmore
  obtain ⟨g', behind, rfl, hg, rfl⟩ := (takeComponent?_eq_some_iff isPair_round).1 htarget
  have hall : behind = [] := by
    have hbytes : byteLength ('(' :: (g' ++ [')'])) = byteLength ('(' :: (g' ++ ')' :: behind)) := by
      by_contra hne
      rw [guard, if_neg (by simpa using hne)] at hguard
      cases hguard
    apply (@byteLength_eq_append_iff ('(' :: (g' ++ [')'])) behind).1
    simpa using hbytes
  subst hall
  exact ⟨mark, d, d', g, g', hmark, hd, hg⟩

/-- A link that is accepted takes all its bytes, and it is not accepted with anything behind it. -/
theorem read?_whole {link : String} {m : Markdown} (h : Markdown.read? link = some m) :
    m.read = link.utf8ByteSize ∧ ∀ more, (Markdown.read? (link ++ more)).isSome → more = "" := by
  obtain ⟨mark, d, d', g, g', hlink, hd, hg⟩ := exists_of_read? h
  constructor
  · have hread := read?_linkText hd hg mark []
    rw [List.append_nil, ← hlink, String.ofList_toList, h, if_pos rfl] at hread
    simp only [linkOf?, Option.bind_eq_bind] at hread
    obtain ⟨_, -, hread⟩ := Option.bind_eq_some_iff.1 hread.symm
    obtain ⟨_, -, hm⟩ := Option.bind_eq_some_iff.1 hread
    rw [← Option.some.inj hm, byteLength_toList]
  · intro more hmore
    have hread := read?_linkText hd hg mark more.toList
    rw [← hlink, ← String.toList_append, String.ofList_toList] at hread
    by_contra hne
    have hchars : more.toList ≠ [] := by simpa using hne
    rw [hread, if_neg hchars] at hmore
    cases hmore

/-! ### Destinations and titles -/

theorem target?_plain (hp : ' ' ∉ p) : target? p = some (p, []) := by rw [target?, cut?_eq_none hp]

theorem title?_quoted (t : List Char) :
    title? ('\x22' :: (t ++ ['\x22'])) = if quotesEscaped false t then some t else none := by
  simp only [title?, (before?_eq_some_iff (s := t ++ ['\x22'])).2 rfl]

/-- A quoted title is read if the quotes in it are escaped. -/
theorem target?_quoted (hp : ' ' ∉ p) (t : List Char) :
    target? (targetText p (some t)) = if quotesEscaped false t then some (p, t) else none := by
  have hspace : ('\x22' :: (t ++ ['\x22'])).dropWhile (· == ' ') = '\x22' :: (t ++ ['\x22']) := by simp
  rw [target?, targetText, cut?_append hp]
  simp only [hspace, title?_quoted]
  split <;> rfl

/-- No quote can be escaped in a title without backslashes. -/
theorem quotesEscaped_iff (ht : '\\' ∉ t) : quotesEscaped false t = true ↔ '\x22' ∉ t := by
  induction t with
  | nil => simp [quotesEscaped]
  | cons c t ih =>
    simp only [List.mem_cons, not_or] at ht
    have hc : (c == '\\') = false := by simpa using Ne.symm ht.1
    rw [quotesEscaped, hc, Bool.or_false, Bool.and_eq_true, bne_iff_ne, ih ht.2, List.mem_cons, not_or]
    exact and_congr_left' ne_comm

/-- A title with a backslash before each quote has its quotes escaped. -/
theorem quotesEscaped_escape (escaped : Bool) (t : List Char) :
    quotesEscaped escaped (escape (· == '\x22') t) = true := by
  induction t generalizing escaped with
  | nil => rfl
  | cons c t ih =>
    rw [escape_cons]
    split
    · next hc => simp [quotesEscaped, ih]
    · next hc =>
      have hne : c ≠ '\x22' := by simpa using hc
      simp [quotesEscaped, ih, hne]

theorem writes_targetText {title w : List Char} (hp : ∀ c ∈ p, c ∉ ['\\', '(', ')'])
    (hw : Writes '(' ')' 0 title w 0) :
    Writes '(' ')' 0 (targetText p (some title)) (targetText p (some w)) 0 := by
  have hquote : Writes '(' ')' 0 ['\x22'] ['\x22'] 0 := writes_plain (by simp)
  exact (writes_plain hp).append (.plain (by decide) (by decide) (by decide)
    (.plain (by decide) (by decide) (by decide) (hw.append hquote)))

/-! ### Links that were written -/

/-- The characters that mean something in the display of a link. -/
def isDisplaySign (c : Char) : Bool := c == '\\' || c == '[' || c == ']'

theorem writes_display (h : d' = escape isDisplaySign d ∨ Balanced '[' ']' d ∧ d' = escape (· == '\\') d) :
    Writes '[' ']' 0 d d' 0 := by
  rcases h with rfl | ⟨hbalanced, rfl⟩
  · apply writes_escape
    intro c _ hc
    simpa [isDisplaySign, and_assoc] using hc
  · exact hbalanced.writes isPair_square

/-- What is found in the target of a link is read with its display and its destination. -/
theorem read?_of_target {title : Option (List Char)} (hd : Writes '[' ']' 0 d d' 0) (hp : Percent.Encodes p p')
    (hg : Writes '(' ')' 0 g g' 0) (htarget : target? g = title.map fun t => (p', t)) (mark : Bool) :
    Markdown.read? (String.ofList (linkText mark d' g')) =
      title.map fun t =>
        ⟨String.ofList d, String.ofList p, String.ofList t, (String.ofList (linkText mark d' g')).utf8ByteSize⟩ := by
  have hread := read?_linkText hd hg mark []
  rw [List.append_nil, if_pos rfl] at hread
  rw [hread, linkOf?, htarget, utf8ByteSize_ofList]
  cases title with
  | none => rfl
  | some t =>
    simp only [Option.map_some, Option.bind_eq_bind, Option.bind_some, Percent.decode?_of_encodes hp]
    rfl

/-- A link with a destination that was written in a way that nothing in it means something. -/
theorem read?_untitled (hd : Writes '[' ']' 0 d d' 0) (hp : Percent.Encodes p p')
    (hplain : ∀ c ∈ p', c ∉ [' ', '\\', '(', ')']) (mark : Bool) :
    Markdown.read? (String.ofList (linkText mark d' p')) =
      some ⟨String.ofList d, String.ofList p, "", (String.ofList (linkText mark d' p')).utf8ByteSize⟩ := by
  have hspace : ' ' ∉ p' := fun h => by simpa using hplain ' ' h
  have hsigns : ∀ c ∈ p', c ∉ ['\\', '(', ')'] := fun c hc h => hplain c hc (List.mem_cons_of_mem _ h)
  have htarget : target? p' = (some []).map fun t => (p', t) := target?_plain hspace
  exact read?_of_target hd hp (writes_plain hsigns) htarget mark

/-- A link with such a destination and a title is read if the quotes in what the title stands for are escaped. -/
theorem read?_titled (hd : Writes '[' ']' 0 d d' 0) (hp : Percent.Encodes p p')
    (hplain : ∀ c ∈ p', c ∉ [' ', '\\', '(', ')']) (ht : Writes '(' ')' 0 t t' 0) (mark : Bool) :
    Markdown.read? (String.ofList (linkText mark d' (targetText p' (some t')))) =
      if quotesEscaped false t then
        some ⟨String.ofList d, String.ofList p, String.ofList t,
          (String.ofList (linkText mark d' (targetText p' (some t')))).utf8ByteSize⟩
      else none := by
  have hspace : ' ' ∉ p' := fun h => by simpa using hplain ' ' h
  have hsigns : ∀ c ∈ p', c ∉ ['\\', '(', ')'] := fun c hc h => hplain c hc (List.mem_cons_of_mem _ h)
  have htarget : target? (targetText p' (some t)) =
      (if quotesEscaped false t then some t else none).map fun t => (p', t) := by
    rw [target?_quoted hspace]
    split <;> rfl
  rw [read?_of_target hd hp (writes_targetText hsigns ht) htarget]
  split <;> rfl

/-- A link reads back as its display, its destination and its title, and takes all its bytes: with a backslash before
each backslash and bracket of the display, or before its backslashes alone if its brackets are balanced; with the
destination escaped so that no space, backslash or parenthesis is left and each percent sign begins an escape; and with
a title that has no quote, backslash or parenthesis.  No link that is accepted is accepted with anything behind it. -/
theorem markdown_links_read_back :
    (∀ (mark : Bool) (d d' p p' : List Char) (title : Option (List Char)),
      (d' = escape isDisplaySign d ∨ Balanced '[' ']' d ∧ d' = escape (· == '\\') d) →
      Percent.Encodes p p' → (∀ c ∈ p', c ∉ [' ', '\\', '(', ')']) →
      (∀ t ∈ title, ∀ c ∈ t, c ∉ ['\x22', '\\', '(', ')']) →
      ∀ link, link = String.ofList (linkText mark d' (targetText p' title)) →
        Markdown.read? link =
          some ⟨String.ofList d, String.ofList p, String.ofList (title.getD []), link.utf8ByteSize⟩) ∧
    ∀ link m, Markdown.read? link = some m →
      m.read = link.utf8ByteSize ∧ ∀ more, (Markdown.read? (link ++ more)).isSome → more = "" := by
  refine ⟨?_, fun link m => read?_whole⟩
  rintro mark d d' p p' title hdisplay hpath hplain htitle link rfl
  have hd := writes_display hdisplay
  cases title with
  | none => exact read?_untitled hd hpath hplain mark
  | some t =>
    have ht : ∀ c ∈ t, c ∉ ['\x22', '\\', '(', ')'] := htitle t rfl
    have hsigns : ∀ c ∈ t, c ∉ ['\\', '(', ')'] := fun c hc h => ht c hc (List.mem_cons_of_mem _ h)
    have hslash : '\\' ∉ t := fun h => by simpa using ht _ h
    have hquote : '\x22' ∉ t := fun h => by simpa using ht _ h
    have hread := read?_titled hd hpath hplain (writes_plain hsigns) mark
    rwa [if_pos ((quotesEscaped_iff hslash).2 hquote)] at hread

theorem markdown_links_read_back_embedded :
    Balanced '[' ']' "a [b]".toList ∧ Percent.Encodes "c d().js".toList "c%20d%28%29.js".toList ∧
      Markdown.read? "![a [b]](c%20d%28%29.js \"e f\")" = some ⟨"a [b]", "c d().js", "e f", 30⟩ ∧
      Markdown.read? "![a [b]](c%20d%28%29.js \"e f\"))" = none := by
  have hbalanced : Balanced '[' ']' "a [b]".toList := by
    refine ⟨?_, by decide⟩
    intro front hfront
    have hlength : front.length < 6 := Nat.lt_succ_of_le hfront.length_le
    rw [List.prefix_iff_eq_take.1 hfront]
    generalize front.length = n at hlength
    revert n
    decide
  have hpath : Percent.Encodes "c d().js".toList "c%20d%28%29.js".toList := by
    have hencode := @Percent.encodes_encode ['%', ' ', '(', ')'].contains rfl "c d().js".toList
    simp only [Percent.encode, Percent.bytes_eq] at hencode
    exact hencode
  have hread := markdown_links_read_back.1 true "a [b]".toList "a [b]".toList "c d().js".toList
    "c%20d%28%29.js".toList (some "e f".toList) (Or.inr ⟨hbalanced, rfl⟩) hpath (by simp) (by simp)
    "![a [b]](c%20d%28%29.js \"e f\")" (by decide)
  refine ⟨hbalanced, hpath, hread.trans (by decide), ?_⟩
  have hwhole := (markdown_links_read_back.2 _ _ hread).2 ")"
  rw [Option.isSome_iff_ne_none] at hwhole
  by_contra hne
  exact absurd (hwhole hne) (by decide)

/-- A quote in a title: however it is written, bare or after a backslash, the title is refused, and is read only without
quotes.  With three backslashes before each quote it is read, as the title with one before each. -/
theorem quoted_titles_read :
    ∀ d p t : List Char, (∀ c ∈ d, c ∉ ['\\', '[', ']']) → (∀ c ∈ p, c ∉ ['%', ' ', '\\', '(', ')']) →
      (∀ c ∈ t, c ∉ ['\\', '(', ')']) →
      (∀ w, Writes '(' ')' 0 t w 0 → ∀ link, link = String.ofList (linkText false d (targetText p (some w))) →
        Markdown.read? link =
          if '\x22' ∈ t then none
          else some ⟨String.ofList d, String.ofList p, String.ofList t, link.utf8ByteSize⟩) ∧
      ∀ link, link = String.ofList (linkText false d (targetText p
          (some (escape (fun c => c == '\\' || c == '\x22') (escape (· == '\x22') t))))) →
        Markdown.read? link =
          some ⟨String.ofList d, String.ofList p, String.ofList (escape (· == '\x22') t), link.utf8ByteSize⟩ := by
  intro d p t hd hp ht
  have hdisplay : Writes '[' ']' 0 d d 0 := writes_plain hd
  have hpath : Percent.Encodes p p := Percent.encodes_self fun h => by simpa using hp _ h
  have hplain : ∀ c ∈ p, c ∉ [' ', '\\', '(', ')'] := fun c hc h => hp c hc (List.mem_cons_of_mem _ h)
  constructor
  · rintro w hw link rfl
    have hslash : '\\' ∉ t := fun h => by simpa using ht _ h
    simp only [read?_titled hdisplay hpath hplain hw, quotesEscaped_iff hslash, ite_not]
  · rintro link rfl
    have hw : Writes '(' ')' 0 (escape (· == '\x22') t)
        (escape (fun c => c == '\\' || c == '\x22') (escape (· == '\x22') t)) 0 := by
      apply writes_escape
      intro c hc hset
      have hslash : c ≠ '\\' := by
        rintro rfl
        cases hset
      exact ht c ((mem_of_mem_escape hc).resolve_left hslash)
    rw [read?_titled hdisplay hpath hplain hw, if_pos (quotesEscaped_escape ..)]

theorem quoted_titles_read_one :
    (∀ c ∈ "a\"b".toList, c ∉ ['\\', '(', ')']) ∧
      Writes '(' ')' 0 "a\"b".toList "a\\\"b".toList 0 ∧
      Markdown.read? "[d](p \"a\\\"b\")" = none ∧
      Markdown.read? "[d](p \"a\\\\\\\"b\")" = some ⟨"d", "p", "a\\\"b", 15⟩ := by
  have hplain : ∀ c ∈ "a\"b".toList, c ∉ ['\\', '(', ')'] := by simp
  have hwrites : Writes '(' ')' 0 "a\"b".toList "a\\\"b".toList 0 := by
    exact @writes_escape '(' ')' 0 "a\"b".toList (· == '\x22') (by simp)
  have hread := quoted_titles_read "d".toList "p".toList "a\"b".toList (by simp) (by simp) hplain
  have hescaped := hread.1 _ hwrites "[d](p \"a\\\"b\")" (by decide)
  have hthrice := hread.2 "[d](p \"a\\\\\\\"b\")" (by decide)
  exact ⟨hplain, hwrites, hescaped.trans (by decide), hthrice.trans (by decide)⟩

/-- A title with its quotes escaped need not be accepted. -/
theorem escaped_quotes_refused :
    ¬ ∀ d p t : List Char, (∀ c ∈ d, c ∉ ['\\', '[', ']']) → (∀ c ∈ p, c ∉ ['%', ' ', '\\', '(', ')']) →
      (∀ c ∈ t, c ∉ ['\\', '(', ')']) →
      ∃ m, Markdown.read? (String.ofList (linkText false d (targetText p (some (escape (· == '\x22') t))))) =
          some m ∧
        m.display = String.ofList d ∧ m.path = String.ofList p ∧
        (m.title = String.ofList t ∨ m.title = String.ofList (escape (· == '\x22') t)) := by
  intro h
  obtain ⟨m, hm, -⟩ := h ['d'] ['p'] ['\x22'] (by simp) (by simp) (by simp)
  have hread : Markdown.read? (String.ofList (linkText false ['d']
      (targetText ['p'] (some (escape (· == '\x22') ['\x22']))))) = none := by
    decide
  rw [hread] at hm
  cases hm

end ScriptVault.Link

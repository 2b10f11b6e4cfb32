import Mathlib.Data.List.Forall2
import Mathlib.Tactic.Set
import ScriptVault.Proofs.Host.World

/-!
# Resolution — a host answers as its world does

Whatever a host was asked for before, a specifier stands for what its world answers; only whether the module
may be used again is told by what is kept.  To ask changes nothing but what is remembered.
-/

namespace ScriptVault

variable {α β : Type}

/-- An action comes to an end, with a result and a host of a kind. -/
def Action.Ends (x : Action α) (h : Host) (post : Except Failure α → Host → Prop) : Prop :=
  ∃ r h', x.exec h = some (r, h') ∧ post r h'

namespace Action

theorem Ends.mono {x : Action α} {h : Host} {p q : Except Failure α → Host → Prop} (hx : x.Ends h p)
    (hpq : ∀ r h', p r h' → q r h') : x.Ends h q := by
  obtain ⟨r, h', hr, hp⟩ := hx
  exact ⟨r, h', hr, hpq r h' hp⟩

theorem ends_pure {a : α} {h : Host} {p : Except Failure α → Host → Prop} (hp : p (.ok a) h) :
    Ends (pure a) h p := ⟨_, _, rfl, hp⟩

theorem ends_bind {x : Action α} {f : α → Action β} {h : Host} {p : Except Failure β → Host → Prop}
    (hx : x.Ends h fun r h' => match r with
      | .ok a => (f a).Ends h' p
      | .error e => p (.error e) h') : Ends (x >>= f) h p := by
  obtain ⟨r, h', hr, hp⟩ := hx
  cases r with
  | ok a =>
    obtain ⟨r, h'', hr', hp⟩ := hp
    exact ⟨r, h'', by rw [exec_bind, hr]; exact hr', hp⟩
  | error e => exact ⟨_, h', by rw [exec_bind, hr]; rfl, hp⟩

/-- An action goes on after one that succeeds. -/
theorem ends_bind_ok {x : Action α} {f : α → Action β} {h : Host} {p : Except Failure β → Host → Prop}
    {q : α → Host → Prop} (hx : x.Ends h fun r h' => ∃ a, r = .ok a ∧ q a h')
    (hf : ∀ a h', q a h' → (f a).Ends h' p) : Ends (x >>= f) h p := by
  refine ends_bind (hx.mono fun r h' ⟨a, hr, hq⟩ => ?_)
  subst hr
  exact hf a h' hq

theorem ends_withFiles {act : Files → α × Files} {h : Host} {p : Except Failure α → Host → Prop}
    (hp : p (.ok (act h.files).1) { h with files := (act h.files).2 }) :
    Ends (KeepsFiles.withFiles act) h p := ⟨_, _, rfl, hp⟩

end Action

namespace Host

/-! ### Changing a resolver -/

theorem resolver_eq_getElem {f : Files} {n : Nat} (hn : n < f.resolvers.length) :
    f.resolver n = f.resolvers[n] := by
  simp [Files.resolver, hn]

theorem mem_onResolver {f : Files} {n : Nat} {change : FileResolver → FileResolver} {r : FileResolver}
    (hr : r ∈ (f.onResolver n change).resolvers) :
    r ∈ f.resolvers ∨ ∃ r₀ ∈ f.resolvers, r = change r₀ := by
  unfold Files.onResolver at hr
  by_cases hn : n < f.resolvers.length
  · rcases List.mem_or_eq_of_mem_set hr with h | h
    · exact Or.inl h
    · exact Or.inr ⟨f.resolver n, by simp [resolver_eq_getElem hn], h⟩
  · rw [List.set_eq_of_length_le (by omega)] at hr
    exact Or.inl hr

theorem onResolver_mem {f : Files} (n : Nat) (change : FileResolver → FileResolver) {r : FileResolver}
    (hr : r ∈ f.resolvers) :
    r ∈ (f.onResolver n change).resolvers ∨ change r ∈ (f.onResolver n change).resolvers := by
  obtain ⟨i, hi, rfl⟩ := List.mem_iff_getElem.1 hr
  have hi' : i < (f.onResolver n change).resolvers.length := by simpa [Files.onResolver] using hi
  by_cases hn : n = i
  · subst hn
    refine Or.inr (List.mem_iff_getElem.2 ⟨n, hi', ?_⟩)
    simp [Files.onResolver, resolver_eq_getElem hi]
  · exact Or.inl (List.mem_iff_getElem.2 ⟨i, hi', by simp [Files.onResolver, hn]⟩)

/-- A resolver may be changed where it keeps its strategy, what was asked for and only true code. -/
theorem asked_onResolver (h : Host) (n : Nat) (change : FileResolver → FileResolver)
    (hstrategy : ∀ r, (change r).strategy = r.strategy) (htracked : ∀ r, ∀ id ∈ r.tracked, id ∈ (change r).tracked)
    (hentries : h.Kept → ∀ r ∈ h.files.resolvers, ∀ path entry, (change r).entries.at? path = some entry →
      r.entries.at? path = some entry ∨ h.world.EntryTrue path entry) :
    Asked h { h with files := h.files.onResolver n change } where
  rest := ⟨_, _, _, _, rfl⟩
  world := rfl
  ready _ _ := Iff.rfl
  tracked id hid := by
    obtain ⟨r, hr, hid⟩ := hid
    rcases onResolver_mem n change hr with h' | h'
    · exact ⟨r, h', hid⟩
    · exact ⟨_, h', htracked r id hid⟩
  kept hk := by
    refine ⟨?_, hk.sound, fun r hr path entry he => ?_, hk.scripts⟩
    · rw [← hk.row]
      refine List.ext_getElem (by simp [Files.onResolver]) fun i hi _ => ?_
      simp only [Files.onResolver, List.length_map, List.length_set] at hi
      by_cases hn : n = i
      · subst hn
        simp [Files.onResolver, hstrategy, resolver_eq_getElem hi]
      · simp [Files.onResolver, hn]
    · rcases mem_onResolver hr with hr | ⟨r₀, hr₀, rfl⟩
      · exact hk.entries r hr path entry he
      · rcases hentries hk r₀ hr₀ path entry he with he | he
        · exact hk.entries r₀ hr₀ path entry he
        · exact he

/-! ### Making code -/

/-- The workshop may be changed where it keeps its compiler and only true scripts. -/
theorem asked_workshop (h : Host) (workshop : Compile.Workshop)
    (hcompiler : workshop.compiler = h.workshop.compiler)
    (hscripts : h.Kept → ∀ token kept, workshop.scripts.at? (.file token) = some kept →
      h.world.ScriptTrue token kept) :
    Asked h { h with workshop := workshop } := by
  have hworld : { h with workshop := workshop }.world = h.world := by simp [Host.world, hcompiler]
  refine ⟨⟨_, _, _, _, rfl⟩, hworld, fun _ _ => Iff.rfl, fun _ h => h, fun hk => ?_⟩
  refine ⟨hk.row, hk.sound, ?_, ?_⟩
  · rw [hworld]; exact hk.entries
  · rw [hworld]; exact hscripts hk

theorem asked_forget (h : Host) (origin : Origin) : Asked h (h.forget origin) := by
  refine asked_workshop h _ rfl fun hk token kept hkept => hk.scripts token kept ?_
  by_cases ho : origin = .file token
  · subst ho; simp [Compile.Workshop.forget] at hkept
  · rwa [Compile.Workshop.forget, Table.at?_erase_ne ho] at hkept

theorem compile_fst (w : Compile.Workshop) (request : Compile.Request) :
    (w.compile request).1 = (({ compiler := w.compiler } : Compile.Workshop).compile request).1 := by
  unfold Compile.Workshop.compile
  cases w.compiler <;> rfl

theorem compile_snd (w : Compile.Workshop) (request : Compile.Request) :
    (w.compile request).2.compiler = w.compiler ∧ (w.compile request).2.scripts = w.scripts := by
  unfold Compile.Workshop.compile
  cases hc : w.compiler
  · exact ⟨hc, rfl⟩
  · exact ⟨rfl, rfl⟩

theorem compiled_eq (w : World) (source : Source) (given : Option Header) :
    w.compiled source given =
      match Compile.Workshop.request? source given .script with
      | none => .ok none
      | some request => (({ compiler := w.compiler } : Compile.Workshop).compile request).1.map some := by
  unfold World.compiled Compile.Workshop.script
  have : source.origin.bind (Table.at? ([] : Table Origin (Except Failure String))) = none := by
    cases source.origin <;> rfl
  simp only [this]
  cases Compile.Workshop.request? source given .script <;> rfl

theorem toCompile_origin (w : World) (source : Source) : (w.toCompile source).1.origin = source.origin := by
  unfold World.toCompile
  split <;> rfl

theorem exec_scriptOf (source : Source) (given : Option Header) (h : Host) :
    (scriptOf source given).exec h =
      some ((h.workshop.script source given).1, { h with workshop := (h.workshop.script source given).2 }) :=
  rfl

/-- A version of a file is compiled as the world tells. -/
theorem ends_scriptOf {h : Host} (hk : h.Kept) {path content : String} {identity : Identity}
    (hget : h.files.snapshot.get? path = some identity) (hcontent : identity.content = some content)
    (source : Source × Option Header) (hsource : source = h.world.toCompile (World.sourceOf path content identity)) :
    Action.Ends (scriptOf source.1 source.2) h fun r h' =>
      Asked h h' ∧ r = h.world.compiled source.1 source.2 := by
  have horigin : source.1.origin = some (.file identity.token) := by
    rw [hsource, toCompile_origin]; rfl
  refine ⟨_, _, exec_scriptOf .., ?_⟩
  unfold Compile.Workshop.script
  simp only [horigin, Option.bind_some]
  cases hkept : h.workshop.scripts.at? (.file identity.token) with
  | some kept =>
    refine ⟨asked_workshop h _ rfl fun hk => hk.scripts, ?_⟩
    rw [hsource]
    exact ((hk.scripts _ _ hkept).2 path identity content hget hcontent rfl).symm
  | none =>
    cases hrequest : Compile.Workshop.request? source.1 source.2 .script with
    | none => exact ⟨asked_workshop h _ rfl fun hk => hk.scripts, by rw [compiled_eq, hrequest]⟩
    | some request =>
      have hmade : h.world.compiled source.1 source.2 = (h.workshop.compile request).1.map some := by
        rw [compiled_eq, hrequest, compile_fst h.workshop]; rfl
      refine ⟨asked_workshop h _ (compile_snd _ _).1 fun hk token kept hk' => ?_, hmade.symm⟩
      dsimp only at hk'
      rw [(compile_snd _ _).2] at hk'
      by_cases ht : token = identity.token
      · subst ht
        rw [Table.at?_put_same] at hk'
        obtain rfl := Option.some.inj hk'
        refine ⟨hk.sound.token path identity hget, fun p i c hp hc hi => ?_⟩
        obtain rfl := hk.sound.unique p path i identity hp hget hi
        obtain rfl : i = identity := Option.some.inj (hp.symm.trans hget)
        obtain rfl : c = content := Option.some.inj (hc.symm.trans hcontent)
        rw [← hsource, hmade]
      · rw [Table.at?_put_ne (by simpa using Ne.symm ht)] at hk'
        exact hk.scripts token kept hk'

theorem ends_noteTranspiled (h : Host) (n transpiler token : Nat) :
    Action.Ends (Files.noteTranspiled n transpiler (some (.file token))) h fun r h' =>
      r = .ok () ∧ Asked h h' :=
  Action.ends_withFiles ⟨rfl, asked_onResolver h n (·.noteTranspiled transpiler token) (fun _ => rfl)
    (fun _ _ h => h) fun _ _ _ _ _ he => Or.inl he⟩

theorem toCompile_of_isNote {w : World} {source : Source} (h : source.isNote = true) :
    w.toCompile source = ((source.ofNote w.settings).1, some (source.ofNote w.settings).2) := by
  rw [World.toCompile, if_pos h]

theorem toCompile_of_not_isNote {w : World} {source : Source} (h : ¬source.isNote = true) :
    w.toCompile source = (source, none) := by
  rw [World.toCompile, if_neg h]

/-- What came of compiling is the code, or else the code is the text that was to be compiled. -/
theorem code_of_compiled (w : World) (source : Source) (r : Except Failure (Option String))
    (h : r = w.compiled (w.toCompile source).1 (w.toCompile source).2) :
    w.code source = r.map (·.getD (w.toCompile source).1.content) := by
  rw [World.code, h]

/-- The code of a version of a file is what the world tells. -/
theorem ends_code {h : Host} (hk : h.Kept) {path content : String} {identity : Identity} (n : Nat)
    (hget : h.files.snapshot.get? path = some identity) (hcontent : identity.content = some content) :
    Action.Ends (Files.code transpilers n (World.sourceOf path content identity)) h fun r h' =>
      Asked h h' ∧ r = h.world.code (World.sourceOf path content identity) := by
  set source := World.sourceOf path content identity with hsource
  have compiling := ends_scriptOf hk hget hcontent (h.world.toCompile source) rfl
  -- a transpiler that does not pass gives the code, and remembers that it did
  have done (i : Nat) (code : String) {h' : Host} (hasked : Asked h h')
      (hcode : h.world.code source = .ok code) :
      Action.Ends (do
        Files.noteTranspiled n i source.origin
        return code) h' fun r h' => Asked h h' ∧ r = h.world.code source := by
    refine Action.ends_bind ((ends_noteTranspiled h' n i identity.token).mono fun r h'' ⟨he, h2⟩ => ?_)
    subst he
    exact Action.ends_pure ⟨hasked.trans h2, hcode.symm⟩
  show Action.Ends (Files.codeFrom n source 0 [scriptOfNote, fun s => scriptOf s none]) h _
  unfold Files.codeFrom
  refine Action.ends_bind ?_
  by_cases hnote : source.isNote
  · unfold scriptOfNote
    rw [if_pos hnote]
    refine Action.ends_bind ⟨_, _, Action.exec_get h, Action.ends_bind ?_⟩
    have hto := toCompile_of_isNote (w := h.world) hnote
    have code := code_of_compiled h.world source
    rw [hto] at compiling code
    refine compiling.mono fun r h' ⟨hasked, hr⟩ => ?_
    cases r with
    | error e => exact ⟨hasked, by rw [code _ hr]; rfl⟩
    | ok made => exact Action.ends_pure (done 0 _ hasked (by rw [code _ hr]; rfl))
  · unfold scriptOfNote
    rw [if_neg hnote]
    refine Action.ends_pure ?_
    unfold Files.codeFrom
    have hto := toCompile_of_not_isNote (w := h.world) hnote
    have code := code_of_compiled h.world source
    rw [hto] at compiling code
    refine Action.ends_bind (compiling.mono fun r h' ⟨hasked, hr⟩ => ?_)
    cases r with
    | error e => exact ⟨hasked, by rw [code _ hr]; rfl⟩
    | ok made =>
      cases made with
      | some made => exact done 1 _ hasked (by rw [code _ hr]; rfl)
      | none =>
        unfold Files.codeFrom
        exact Action.ends_pure ⟨hasked, by rw [code _ hr]; rfl⟩

/-! ### Files -/

theorem at?_of_at?_erase {κ α : Type} [DecidableEq κ] {t : Table κ α} {key k : κ} {v : α}
    (h : (t.erase key).at? k = some v) : t.at? k = some v := by
  by_cases hk : key = k
  · subst hk; simp at h
  · rwa [Table.at?_erase_ne hk] at h

theorem lookup_tracked (r : FileResolver) (s : Snapshot) (identity : Identity) (form : Compile.Form) :
    (r.lookup s identity form).2.tracked = r.tracked ∧ (r.lookup s identity form).2.strategy = r.strategy := by
  unfold FileResolver.lookup
  split
  · exact ⟨rfl, rfl⟩
  · split
    · exact ⟨rfl, rfl⟩
    · split <;> exact ⟨rfl, rfl⟩

theorem lookup_entries {r : FileResolver} {s : Snapshot} {identity : Identity} {form : Compile.Form}
    {path : String} {entry : Entry} (h : (r.lookup s identity form).2.entries.at? path = some entry) :
    r.entries.at? path = some entry := by
  unfold FileResolver.lookup at h
  split at h
  · exact h
  · split at h
    · exact h
    · split at h
      · exact h
      · exact at?_of_at?_erase h

theorem lookup_code {r : FileResolver} {s : Snapshot} {identity : Identity} {form : Compile.Form}
    {code : String} (h : (r.lookup s identity form).1.1 = some code) :
    ∃ entry, r.entries.at? identity.path = some entry ∧ entry.token = identity.token ∧
      entry.code form = some code := by
  unfold FileResolver.lookup at h
  split at h
  · cases h
  · next entry hentry =>
    split at h
    · cases h
    · next htoken =>
      split at h
      · exact ⟨entry, hentry, by simpa using htoken, h⟩
      · cases h

theorem asked_lookup (h : Host) (n : Nat) (identity : Identity) (form : Compile.Form) :
    Asked h { h with
      files := h.files.onResolver n fun r => (r.lookup h.files.snapshot identity form).2 } :=
  asked_onResolver h n _ (fun r => (lookup_tracked r _ identity form).2)
    (fun r id hid => by rwa [(lookup_tracked r _ identity form).1]) fun _ _ _ _ _ he => Or.inl (lookup_entries he)

theorem asked_track (h : Host) (n : Nat) (id : String) :
    Asked h { h with files := h.files.onResolver n (·.track id) } :=
  asked_onResolver h n (·.track id) (fun _ => rfl)
    (fun _ _ hid => Names.mem_insert.2 (Or.inr hid)) fun _ _ _ _ _ he => Or.inl he

theorem Kept.length {h : Host} (hk : h.Kept) : h.files.resolvers.length = strategies.length := by
  rw [← hk.row, List.length_map]

theorem Kept.resolver_mem {h : Host} (hk : h.Kept) {n : Nat} (hn : n < strategies.length) :
    h.files.resolver n ∈ h.files.resolvers := by
  rw [resolver_eq_getElem (by rw [hk.length]; exact hn)]
  exact List.getElem_mem _

theorem Kept.strategy {h : Host} (hk : h.Kept) {n : Nat} (hn : n < strategies.length) :
    (h.files.resolver n).strategy = strategies[n] := by
  have hlen : n < h.files.resolvers.length := by rw [hk.length]; exact hn
  have hrow : (h.files.resolvers.map (·.strategy))[n]? = some strategies[n] := by
    rw [hk.row, List.getElem?_eq_getElem hn]
  rw [List.getElem?_map, List.getElem?_eq_getElem hlen] at hrow
  rw [resolver_eq_getElem hlen]
  exact Option.some.inj hrow

theorem Kept.tracked_track {h : Host} (hk : h.Kept) {n : Nat} (hn : n < strategies.length) (id : String) :
    Tracked { h with files := h.files.onResolver n (·.track id) } id := by
  have hlen : n < h.files.resolvers.length := by rw [hk.length]; exact hn
  refine ⟨(h.files.resolver n).track id, ?_, Names.mem_insert.2 (Or.inl rfl)⟩
  exact List.mem_iff_getElem.2 ⟨n, by simpa [Files.onResolver] using hlen, by simp [Files.onResolver]⟩

theorem asked_store {h : Host} {path content code : String} {identity : Identity} (n : Nat)
    (hget : h.files.snapshot.get? path = some identity) (hcontent : identity.content = some content)
    (hcode : h.world.code (World.sourceOf path content identity) = .ok code) :
    Asked h { h with files := h.files.onResolver n (·.store identity code .script) } := by
  refine asked_onResolver h n (·.store identity code .script) (fun _ => rfl) (fun _ _ hid => hid)
    fun hk r hr p entry he => ?_
  have hpath := hk.sound.path path identity hget
  by_cases hp : identity.path = p
  · refine Or.inr ?_
    have hput : entry.token = identity.token ∧ entry.script = some code := by
      simp only [FileResolver.store, hp, Table.at?_put_same] at he
      obtain rfl := Option.some.inj he
      refine ⟨?_, rfl⟩
      show Entry.token _ = _
      split
      · split
        · next h => exact h
        · rfl
      · rfl
    refine ⟨by rw [hput.1]; exact hk.sound.token path identity hget, fun i c code' hi hc _ hcode' => ?_⟩
    obtain rfl : p = path := hp ▸ hpath
    obtain rfl : i = identity := Option.some.inj (hi.symm.trans hget)
    obtain rfl : c = content := Option.some.inj (hc.symm.trans hcontent)
    obtain rfl : code' = code := Option.some.inj (hcode'.symm.trans hput.2)
    exact hcode
  · refine Or.inl ?_
    rwa [FileResolver.store, Table.at?_put_ne hp] at he

end Host

/-- A module as it is found by a host that keeps nothing. -/
def Resolved.anew (r : Resolved) : Resolved := { r with cache := true }

namespace Host

theorem ends_track {h : Host} (hk : h.Kept) {n : Nat} (hn : n < strategies.length) (id : String) :
    Action.Ends (Files.track n id) h fun r h' => ∃ a, r = .ok a ∧ Asked h h' ∧ h'.Tracked id :=
  Action.ends_withFiles ⟨(), rfl, asked_track h n id, hk.tracked_track hn id⟩

theorem ends_path? {h : Host} (hk : h.Kept) {n : Nat} (hn : n < strategies.length) (id : String)
    (context : Context) :
    Action.Ends (Files.path? n id context) h fun r h' => ∃ a, r = .ok a ∧
      a = strategies[n].path? h.world.snapshot id (context.cwd.getD "") ∧ h' = h :=
  Action.ends_withFiles ⟨_, rfl, by dsimp only; rw [hk.strategy hn]; rfl, rfl⟩

theorem ends_view {α : Type} (h : Host) (f : Files → α) :
    Action.Ends (Files.view f) h fun r h' => ∃ a, r = .ok a ∧ a = f h.files ∧ h' = h :=
  Action.ends_withFiles ⟨_, rfl, rfl, rfl⟩

theorem ends_lookup (h : Host) (n : Nat) (identity : Identity) (form : Compile.Form) :
    Action.Ends (Files.lookup n identity form) h fun r h' => ∃ a, r = .ok a ∧
      a = ((h.files.resolver n).lookup h.files.snapshot identity form).1 ∧ Asked h h' :=
  Action.ends_withFiles ⟨_, rfl, rfl, asked_lookup h n identity form⟩

theorem ends_forgetToken (h : Host) (n token : Nat) :
    Action.Ends (liftM (Files.forgetToken transpilers n token)) h fun r h' => ∃ a, r = .ok a ∧ Asked h h' := by
  refine ⟨_, _, rfl, (), rfl, ?_⟩
  exact (asked_onResolver h n (·.forgetToken token) (fun _ => rfl) (fun _ _ hid => hid)
    fun _ _ _ _ _ he => Or.inl he).trans (asked_forget _ _)

/-- The module of a version, whose code is made anew and kept. -/
theorem ends_codeAndStore {h : Host} (hk : h.Kept) {path content : String} {identity : Identity} (n : Nat)
    (cache : Bool) (hget : h.files.snapshot.get? path = some identity)
    (hcontent : identity.content = some content) :
    Action.Ends (do
        let code ← Files.code transpilers n (World.sourceOf path content identity)
        Files.change (Files.onResolver n fun x => x.store identity code .script)
        return some (Resolved.ofFile path code cache)) h fun r h' =>
      Asked h h' ∧
        r.map (·.map Resolved.anew) = (h.world.code (World.sourceOf path content identity)).map fun code =>
          some (Resolved.ofFile path code true) := by
  refine Action.ends_bind ((ends_code hk n hget hcontent).mono fun r h1 ⟨h01, hr⟩ => ?_)
  cases r with
  | error e => exact ⟨h01, by rw [← hr]; rfl⟩
  | ok code =>
    refine Action.ends_bind (Action.ends_withFiles ?_)
    refine Action.ends_pure ⟨h01.trans (asked_store n (by rwa [h01.snapshot]) hcontent ?_), ?_⟩
    · rw [h01.world, ← hr]
    · rw [← hr]; rfl

/-- A file resolver answers as the world does. -/
theorem ends_filesResolve {h : Host} (hk : h.Kept) {n : Nat} (hn : n < strategies.length) (id : String)
    (context : Context) :
    Action.Ends (Files.resolve transpilers n id context) h fun r h' =>
      Asked h h' ∧
        (∀ path identity content, h.world.file? strategies[n] id context.cwd = some (path, identity, content) →
          h'.Tracked path) ∧
        r.map (·.map Resolved.anew) = h.world.fileAnswer strategies[n] id context.cwd := by
  unfold Files.resolve World.fileAnswer World.file?
  refine Action.ends_bind_ok (ends_track hk hn id) fun _ h1 ⟨h01, _⟩ => ?_
  have hk1 := h01.kept hk
  refine Action.ends_bind_ok (ends_path? hk1 hn id context) ?_
  rintro path? h1 ⟨hpath, rfl⟩
  rw [h01.world] at hpath
  rw [← hpath]
  cases path? with
  | none => exact Action.ends_pure ⟨h01, by simp, rfl⟩
  | some path =>
    refine Action.ends_bind_ok (ends_view h1 _) ?_
    rintro identity? h1 ⟨hidentity, rfl⟩
    have hget : h.world.snapshot.get? path = identity? := by rw [hidentity, h01.snapshot]; rfl
    simp only [Option.bind_some, hget]
    cases identity? with
    | none => exact Action.ends_pure ⟨h01, by simp, rfl⟩
    | some identity =>
      simp only [Option.bind_some]
      cases hcontent : identity.content with
      | none => exact Action.ends_pure ⟨h01, by simp, rfl⟩
      | some content =>
        refine Action.ends_bind_ok (ends_track hk1 hn path) fun _ h2 ⟨h12, ht2⟩ => ?_
        have h02 := h01.trans h12
        have hk2 := h02.kept hk
        refine Action.ends_bind_ok (ends_lookup h2 n identity .script) ?_
        rintro ⟨kept, stale⟩ h3 ⟨hlookup, h23⟩
        have h03 := h02.trans h23
        have hget' : h.files.snapshot.get? path = some identity := hget
        -- the answer is the same whatever is still kept
        have tracked {h' : Host} (ht : h'.Tracked path) :
            ∀ p i c, some (path, identity, content) = some (p, i, c) → h'.Tracked p := by
          rintro p i c ⟨⟩
          exact ht
        have making (cache : Bool) {h' : Host} (h0 : Asked h h') (ht : h'.Tracked path) :
            Action.Ends (do
                let code ← Files.code transpilers n (World.sourceOf path content identity)
                Files.change (Files.onResolver n fun x => x.store identity code .script)
                return some (Resolved.ofFile path code cache)) h' fun r h'' =>
              Asked h h'' ∧ (∀ p i c, some (path, identity, content) = some (p, i, c) → h''.Tracked p) ∧
                r.map (·.map Resolved.anew) =
                  (h.world.code (World.sourceOf path content identity)).map fun code =>
                    some (Resolved.ofFile path code true) := by
          have hget'' : h'.files.snapshot.get? path = some identity := by rwa [h0.snapshot]
          refine (ends_codeAndStore (h0.kept hk) n cache hget'' hcontent).mono fun r h'' ⟨ha, hr⟩ => ?_
          exact ⟨h0.trans ha, tracked (ha.tracked _ ht), by rw [hr, h0.world]⟩
        cases kept with
        | some code =>
          obtain ⟨entry, hentry, htoken, hcode⟩ := lookup_code (congrArg Prod.fst hlookup.symm)
          rw [(hk2.sound.path path identity (by rwa [h02.snapshot]))] at hentry
          have htrue := (hk2.entries _ (hk2.resolver_mem hn) path entry hentry).2 identity content code
            (by rw [h02.world]; exact hget) hcontent htoken.symm hcode
          rw [h02.world] at htrue
          refine Action.ends_pure ⟨h03, tracked (h23.tracked _ ht2), ?_⟩
          simp only [Option.map_some, htrue]
          rfl
        | none =>
          cases stale with
          | false => exact making true h03 (h23.tracked _ ht2)
          | true =>
            refine Action.ends_bind_ok (ends_forgetToken h3 n identity.token) fun _ h4 h34 => ?_
            exact making false (h03.trans h34) (h34.tracked _ (h23.tracked _ ht2))

/-! ### Lent and remote modules -/

theorem ends_resolveNative (h : Host) (id : String) :
    Action.Ends (resolveNative id) h fun r h' => Asked h h' ∧ r = h.world.lentAnswer id := by
  refine ⟨_, _, Action.exec_modifyGet _ h, ⟨⟨_, _, _, _, rfl⟩, rfl, fun _ _ => Iff.rfl, fun _ h => h, fun hk =>
    ⟨hk.row, hk.sound, hk.entries, hk.scripts⟩⟩, ?_⟩
  show Except.ok (if _ then _ else none) = Except.ok (Option.map _ (if _ then _ else none))
  split <;> rfl

/-- What the network's modules answer does not depend on what they were asked for before. -/
theorem remote_resolve_fst (r : Remote) (allowed : Bool) (id : String) (cwd : Option String) (allowed' : Bool)
    (id' : String) (cwd' : Option String) :
    ((r.resolve allowed id cwd).2.resolve allowed' id' cwd').1 = (r.resolve allowed' id' cwd').1 := by
  have hsame : (r.resolve allowed id cwd).2.redirects = r.redirects ∧
      ((r.resolve allowed id cwd).2.modules = r.modules ∨ ∃ href, r.modules.at? href = none ∧
        (r.resolve allowed id cwd).2.modules = r.modules.put href .awaited) := by
    unfold Remote.resolve
    cases r.address? id cwd with
    | none => exact ⟨rfl, Or.inl rfl⟩
    | some href =>
      dsimp only [Remote.track]
      split
      · exact ⟨rfl, Or.inl rfl⟩
      · split
        · exact ⟨rfl, Or.inl rfl⟩
        · exact ⟨rfl, Or.inl rfl⟩
        · exact ⟨rfl, Or.inl rfl⟩
        · next hnone => exact ⟨rfl, Or.inr ⟨href, hnone, rfl⟩⟩
  generalize (r.resolve allowed id cwd).2 = r' at hsame
  obtain ⟨hredirects, hmodules⟩ := hsame
  have haddress : r'.address? id' cwd' = r.address? id' cwd' := by simp [Remote.address?, hredirects]
  unfold Remote.resolve
  rw [haddress]
  cases r.address? id' cwd' with
  | none => rfl
  | some href' =>
    dsimp only [Remote.track]
    split
    · rfl
    · rcases hmodules with hm | ⟨href, hnone, hm⟩
      · rw [hm]; split <;> simp_all
      · rw [hm]
        by_cases hh : href = href'
        · subst hh; rw [Table.at?_put_same, hnone]
        · rw [Table.at?_put_ne hh]; split <;> simp_all

theorem remote_resolve_ready (r : Remote) (allowed : Bool) (id : String) (cwd : Option String) (href : String)
    (m : RemoteModule) :
    (r.resolve allowed id cwd).2.modules.at? href = some (.ready m) ↔ r.modules.at? href = some (.ready m) := by
  unfold Remote.resolve
  cases r.address? id cwd with
  | none => rfl
  | some href' =>
    dsimp only [Remote.track]
    split
    · rfl
    · split
      · rfl
      · rfl
      · rfl
      · next hnone =>
        by_cases hh : href' = href
        · subst hh; simp [hnone]
        · simp [Table.at?_put_ne hh]

/-- A remote module that is answered is there. -/
theorem ready_of_remote {r : Remote} {allowed : Bool} {id : String} {cwd : Option String} {resolved : Resolved}
    (h : (r.resolve allowed id cwd).1 = .ok (some resolved)) :
    ∃ m, r.modules.at? resolved.id = some (.ready m) ∧ resolved = Remote.resolved resolved.id m := by
  unfold Remote.resolve at h
  cases ha : r.address? id cwd with
  | none => rw [ha] at h; cases h
  | some href =>
    rw [ha] at h
    dsimp only [Remote.track] at h
    split at h
    · cases h
    · split at h
      · next m hm => cases h; exact ⟨m, hm, rfl⟩
      · cases h
      · cases h
      · cases h

theorem exec_resolveRemote (h : Host) (id : String) (context : Context) :
    (resolveRemote id context).exec h =
      some ((h.remote.resolve h.settings.enableExternalLinks id context.cwd).1,
        { h with remote := (h.remote.resolve h.settings.enableExternalLinks id context.cwd).2 }) := rfl

theorem ends_resolveRemote (h : Host) (id : String) (context : Context) :
    Action.Ends (resolveRemote id context) h fun r h' =>
      Asked h h' ∧ r = h.world.remote id context.cwd := by
  refine ⟨_, _, exec_resolveRemote .., ?_, rfl⟩
  have hworld : { h with
      remote := (h.remote.resolve h.settings.enableExternalLinks id context.cwd).2 }.world = h.world := by
    simp only [Host.world, remote_resolve_fst]
  refine ⟨⟨_, _, _, _, rfl⟩, hworld, fun href m => remote_resolve_ready .., fun _ h => h, fun hk => ?_⟩
  refine ⟨hk.row, hk.sound, ?_, ?_⟩
  · rw [hworld]; exact hk.entries
  · rw [hworld]; exact hk.scripts

end Host

/-- The module is a file. -/
def Resolved.InVault (r : Resolved) : Prop := r.value = none ∧ r.compiled = none

namespace Host

/-! ### All resolvers -/

/-- An attempt at a specifier answers like the world, and tracks the file that it finds. -/
def Attempts (x : Action (Option Resolved)) (w : World) (answer : Except Failure (Option Resolved)) : Prop :=
  ∀ h : Host, h.Kept → h.world = w → x.Ends h fun r h' =>
    Asked h h' ∧ r.map (·.map Resolved.anew) = answer ∧
      ∀ resolved, r = .ok (some resolved) → resolved.InVault → h'.Tracked resolved.id

theorem attempts_native (w : World) (id : String) : Attempts (resolveNative id) w (w.lentAnswer id) := by
  intro h _ hw
  subst hw
  refine (ends_resolveNative h id).mono fun r h' ⟨ha, hr⟩ => ⟨ha, ?_, fun resolved hres hin => ?_⟩
  · subst hr
    unfold World.lentAnswer
    cases h.world.lent id <;> rfl
  · subst hr
    unfold World.lentAnswer at hres
    cases hl : h.world.lent id with
    | none => rw [hl] at hres; cases hres
    | some v => rw [hl] at hres; cases hres; cases hin.1

theorem attempts_remote (w : World) (id : String) (context : Context) :
    Attempts (resolveRemote id context) w (w.remote id context.cwd) := by
  intro h _ hw
  subst hw
  refine (ends_resolveRemote h id context).mono fun r h' ⟨ha, hr⟩ => ⟨ha, ?_, fun resolved hres hin => ?_⟩
  · rw [← hr]
    cases hr' : r with
    | error e => rfl
    | ok found =>
      cases found with
      | none => rfl
      | some resolved =>
        obtain ⟨m, -, hm⟩ := ready_of_remote (hr.symm.trans hr')
        rw [hm]; rfl
  · obtain ⟨m, -, hm⟩ := ready_of_remote (hr.symm.trans hres)
    rw [hm] at hin
    cases hin.2

theorem attempts_file (w : World) {n : Nat} (hn : n < strategies.length) (id : String) (context : Context) :
    Attempts (Files.resolve transpilers n id context) w (w.fileAnswer strategies[n] id context.cwd) := by
  intro h hk hw
  subst hw
  refine (ends_filesResolve hk hn id context).mono fun r h' ⟨ha, ht, hr⟩ => ⟨ha, hr, fun resolved hres _ => ?_⟩
  subst hres
  unfold World.fileAnswer at hr
  cases hf : h.world.file? strategies[n] id context.cwd with
  | none => rw [hf] at hr; cases hr
  | some found =>
    obtain ⟨path, identity, content⟩ := found
    rw [hf] at hr
    dsimp only at hr
    cases hc : h.world.code (World.sourceOf path content identity) with
    | error e => rw [hc] at hr; cases hr
    | ok code =>
      rw [hc] at hr
      have hid : resolved.anew.id = path := congrArg Resolved.id (Option.some.inj (Except.ok.inj hr))
      rw [show resolved.id = path from hid]
      exact ht path identity content hf

/-- The first answer of some attempts is the first of the answers of the world. -/
theorem attempts_first {w : World} {attempts : List (Action (Option Resolved))}
    {answers : List (Except Failure (Option Resolved))}
    (hall : List.Forall₂ (fun x a => Attempts x w a) attempts answers) :
    Attempts (firstAnswer attempts) w (World.first answers) := by
  induction hall with
  | nil => exact fun h hk hw => Action.ends_pure ⟨Asked.refl h, rfl, fun _ hres => nomatch hres⟩
  | cons hx _ ih =>
    rename_i x a attempts answers
    intro h hk hw
    refine Action.ends_bind ((hx h hk hw).mono fun r h1 ⟨ha, hr, ht⟩ => ?_)
    subst hr
    cases r with
    | error e => exact ⟨ha, rfl, fun _ hres => nomatch hres⟩
    | ok found =>
      cases found with
      | some resolved => exact Action.ends_pure ⟨ha, rfl, ht⟩
      | none =>
        refine (ih h1 (ha.kept hk) (ha.world.trans hw)).mono fun r h2 ⟨ha2, hr2, ht2⟩ => ?_
        exact ⟨ha.trans ha2, hr2, ht2⟩

/-- The resolvers in the order in which they are asked. -/
def row (id : String) (context : Context) : List (Action (Option Resolved)) :=
  resolveNative id ::
    (List.range strategies.length).map (fun n => Files.resolve transpilers n id context) ++
    [resolveRemote id context]

theorem attempts_row (w : World) (id : String) (context : Context) :
    List.Forall₂ (fun x a => Attempts x w a) (row id context)
      (w.lentAnswer id :: strategies.map (fun s => w.fileAnswer s id context.cwd) ++ [w.remote id context.cwd]) := by
  refine List.Forall₂.cons (attempts_native w id) ?_
  have hfile (n : Nat) (hn : n < strategies.length) := attempts_file w hn id context
  exact List.Forall₂.cons (hfile 0 (by decide)) (List.Forall₂.cons (hfile 1 (by decide))
    (List.Forall₂.cons (hfile 2 (by decide)) (List.Forall₂.cons (hfile 3 (by decide))
      (List.Forall₂.cons (attempts_remote w id context) List.Forall₂.nil))))

/-- What a specifier is resolved to is what the world answers. -/
theorem attempts_resolve (w : World) (id : String) (context : Context) :
    Attempts (resolve id context) w (w.answer id context.cwd) := attempts_first (attempts_row w id context)

end Host

end ScriptVault

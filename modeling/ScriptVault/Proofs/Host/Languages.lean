import Mathlib.Data.List.Infix
import ScriptVault.Compile.Declarations
import ScriptVault.Evaluator.Scan
import ScriptVault.Host.Apply
import ScriptVault.Proofs.Host.Transparent

/-!
# Languages — other languages of code reach the notes

When other languages count as code, each resolver lets go of the notes of which it remembers that code was made, and
the transpilers forget what they made of them.  Of a note that could not be compiled nobody remembers anything: how it
failed is told as long as its version is the same.
-/

namespace ScriptVault

open Compile

/-- A version that was there before something was told of its path does not count any more. -/
theorem Snapshot.Course.previous_gone {s s' : Snapshot} {notices : List Notice} (h : Course s notices s') (hs : s.Sound) :
    ∀ notice ∈ notices, ∀ i, notice.previous = some i → s'.isCurrent i.token = false := by
  induction h with
  | done => nofun
  | @seen s s' s'' vault path identity notice notices hcache hrest ih =>
    obtain ⟨ht, hp, rfl, -, rfl⟩ := cache_ok hcache
    have hone := later_put s path identity ht hp
    intro n hn i hi
    rcases List.mem_cons.1 hn with rfl | hn
    · have hi : s.get? path = some i := hi
      have hlt := hs.token path i hi
      refine hrest.later.retired (hone.sound hs) (Nat.lt_succ_of_lt hlt) (Bool.eq_false_iff.2 fun hcurrent => ?_)
      obtain ⟨q, j, hj, hji⟩ := ((hone.sound hs).current _).1 hcurrent
      rcases hone.same q j hj with hold | hnew
      · obtain rfl := hs.unique q path j i hold hi hji
        have hnow : some identity = some j := (Table.at?_put_same ..).symm.trans hj
        cases hnow
        omega
      · omega
    · exact ih (hone.sound hs) n hn i hi
  | @gone s s'' path previous notices hget hrest ih =>
    have hone := s.later_erase path
    rw [hget] at hone
    intro n hn i hi
    rcases List.mem_cons.1 hn with rfl | hn
    · cases hi
      have hlt := hs.token path previous hget
      refine hrest.later.retired (hone.sound hs) hlt (Bool.eq_false_iff.2 fun hcurrent => ?_)
      obtain ⟨q, j, hj, hji⟩ := ((hone.sound hs).current _).1 hcurrent
      rcases hone.same q j hj with hold | hnew
      · obtain rfl := hs.unique q path j previous hold hget hji
        have hnone : none = some j := (Table.at?_erase_same ..).symm.trans hj
        cases hnone
      · omega
    · exact ih (hone.sound hs) n hn i hi
  | ruled rules hrest ih => exact ih ⟨hs.path, hs.token, hs.unique, hs.current⟩
  | drawn count hrest ih =>
    exact ih ⟨hs.path, fun p i h => Nat.lt_add_right count (hs.token p i h), hs.unique, hs.current⟩

/-- The chains after other languages count as code in notes. -/
def Chains.speaking (c : Chains) (languages : List String) : Chains :=
  ⟨⟨{ c.now.settings with codeBlockLanguages := languages }, c.now.compiler⟩, c.now :: c.past⟩

/-! ### What resolvers let go of -/

/-- A resolver keeps no more than before, and remembers what it keeps of the versions that a snapshot has. -/
structure FileResolver.Lessens (s : Snapshot) (forgotten : List Nat) (r r' : FileResolver) : Prop where
  /-- It goes on to have one row a path. -/
  distinct : r.entries.keys.Nodup → r'.entries.keys.Nodup
  /-- It keeps code of no other versions. -/
  entries : ∀ path entry, r'.entries.at? path = some entry →
    ∃ old, r.entries.at? path = some old ∧ old.token = entry.token
  /-- It remembers the versions of which it keeps code. -/
  current : ∀ path entry identity, r'.entries.at? path = some entry → s.get? path = some identity →
    identity.token = entry.token → r.Remembers entry.token → r'.Remembers entry.token
  /-- What it does not remember is to be forgotten. -/
  remembers : ∀ token, r.Remembers token → token ∈ forgotten ∨ r'.Remembers token

/-- Each of some resolvers keeps no more than before. -/
structure Files.Lessens (s : Snapshot) (forgotten : List Nat) (f f' : Files) : Prop where
  /-- There are as many. -/
  length : f'.resolvers.length = f.resolvers.length
  /-- Each is one that there was. -/
  back : ∀ r' ∈ f'.resolvers, ∃ r ∈ f.resolvers, r.Lessens s forgotten r'
  /-- Each that there was is there. -/
  forth : ∀ r ∈ f.resolvers, ∃ r' ∈ f'.resolvers, r.Lessens s forgotten r'

section Lessens

variable {s : Snapshot} {a b : List Nat} {r r' r'' : FileResolver} {f f' f'' : Files}

theorem FileResolver.Lessens.refl (s : Snapshot) (a : List Nat) (r : FileResolver) : r.Lessens s a r :=
  ⟨id, fun _ entry he => ⟨entry, he, rfl⟩, fun _ _ _ _ _ _ h => h, fun _ => Or.inr⟩

theorem FileResolver.Lessens.mono (h : r.Lessens s a r') (hab : ∀ token ∈ a, token ∈ b) : r.Lessens s b r' :=
  ⟨h.distinct, h.entries, h.current, fun token ht => (h.remembers token ht).imp_left (hab token)⟩

theorem FileResolver.Lessens.trans (h : r.Lessens s a r') (h' : r'.Lessens s b r'') : r.Lessens s (a ++ b) r'' := by
  refine ⟨fun hd => h'.distinct (h.distinct hd), fun path entry he => ?_, fun path entry identity he hi ht hr => ?_,
    fun token ht => ?_⟩
  · obtain ⟨old, hold, hot⟩ := h'.entries path entry he
    obtain ⟨older, holder, hoot⟩ := h.entries path old hold
    exact ⟨older, holder, hoot.trans hot⟩
  · obtain ⟨old, hold, hot⟩ := h'.entries path entry he
    have hmid : r'.Remembers old.token := h.current path old identity hold hi (ht.trans hot.symm) (hot ▸ hr)
    exact h'.current path entry identity he hi ht (hot ▸ hmid)
  · rcases h.remembers token ht with hforgotten | hmid
    · exact Or.inl (List.mem_append_left b hforgotten)
    · exact (h'.remembers token hmid).imp_left (List.mem_append_right a)

theorem Files.Lessens.refl (s : Snapshot) (a : List Nat) (f : Files) : f.Lessens s a f :=
  ⟨rfl, fun r hr => ⟨r, hr, .refl s a r⟩, fun r hr => ⟨r, hr, .refl s a r⟩⟩

theorem Files.Lessens.trans (h : f.Lessens s a f') (h' : f'.Lessens s b f'') : f.Lessens s (a ++ b) f'' := by
  refine ⟨h'.length.trans h.length, fun r'' hr'' => ?_, fun r hr => ?_⟩
  · obtain ⟨r', hr', hl'⟩ := h'.back r'' hr''
    obtain ⟨r, hr, hl⟩ := h.back r' hr'
    exact ⟨r, hr, hl.trans hl'⟩
  · obtain ⟨r', hr', hl⟩ := h.forth r hr
    obtain ⟨r'', hr'', hl'⟩ := h'.forth r' hr'
    exact ⟨r'', hr'', hl.trans hl'⟩

theorem forgotten_foldl (ripples : List Ripple) (ripple : Ripple) :
    (ripples.foldl Ripple.append ripple).forgotten = ripple.forgotten ++ ripples.flatMap Ripple.forgotten := by
  induction ripples generalizing ripple with
  | nil => exact (List.append_nil _).symm
  | cons r ripples ih => rw [List.foldl_cons, ih, Ripple.append, List.flatMap_cons, List.append_assoc]

theorem overall_forgotten (act : FileResolver → Ripple × FileResolver) (f : Files) :
    (f.overall act).1.forgotten = f.resolvers.flatMap fun r => (act r).1.forgotten := by
  show (((f.resolvers.map act).map Prod.fst).foldl Ripple.append {}).forgotten = _
  rw [forgotten_foldl, List.map_map, List.flatMap_map]
  rfl

theorem overall_resolvers (act : FileResolver → Ripple × FileResolver) (f : Files) :
    (f.overall act).2.resolvers = f.resolvers.map fun r => (act r).2 := by
  show (f.resolvers.map act).map Prod.snd = _
  rw [List.map_map]
  rfl

/-- To let each resolver do something after which it keeps no more than before. -/
theorem lessens_overall {act : FileResolver → Ripple × FileResolver}
    (hact : ∀ r : FileResolver, r.Lessens s (act r).1.forgotten (act r).2) (f : Files) :
    f.Lessens s (f.overall act).1.forgotten (f.overall act).2 := by
  have hone (r : FileResolver) (hr : r ∈ f.resolvers) :
      FileResolver.Lessens s (f.overall act).1.forgotten r (act r).2 :=
    (hact r).mono fun token ht => by
      rw [overall_forgotten]
      exact List.mem_flatMap.2 ⟨r, hr, ht⟩
  refine ⟨by rw [overall_resolvers, List.length_map], fun r' hr' => ?_, fun r hr => ⟨_, ?_, hone r hr⟩⟩
  · rw [overall_resolvers] at hr'
    obtain ⟨r, hr, rfl⟩ := List.mem_map.1 hr'
    exact ⟨r, hr, hone r hr⟩
  · rw [overall_resolvers]
    exact List.mem_map_of_mem hr

/-- To let one resolver do something after which it keeps no more than before. -/
theorem lessens_onResolver {n : Nat} (change : FileResolver → FileResolver)
    (hchange : (f.resolver n).Lessens s a (change (f.resolver n))) : f.Lessens s a (f.onResolver n change) := by
  refine ⟨List.length_set .., fun r' hr' => ?_, fun r hr => ?_⟩
  · rcases Host.mem_onResolver_at hr' with hr | ⟨-, hmem, rfl⟩
    · exact ⟨r', hr, .refl s a r'⟩
    · exact ⟨_, hmem, hchange⟩
  · obtain ⟨i, hi, rfl⟩ := List.mem_iff_getElem.1 hr
    have hi' : i < (f.onResolver n change).resolvers.length := by simpa [Files.onResolver] using hi
    refine ⟨(f.onResolver n change).resolvers[i], List.getElem_mem hi', ?_⟩
    by_cases hn : n = i
    · subst hn
      rw [Host.resolver_eq_getElem hi] at hchange
      simpa [Files.onResolver, Host.resolver_eq_getElem hi] using hchange
    · simpa [Files.onResolver, hn] using FileResolver.Lessens.refl s a f.resolvers[i]

theorem forgetTokens_remembers {tokens : List Nat} {token : Nat} (hr : r.Remembers token) (ht : token ∉ tokens)
    (r' : FileResolver) (ht' : r'.transpiled = r.transpiled) : (tokens.foldl FileResolver.forgetToken r').Remembers token := by
  have hr' : r'.Remembers token := by
    unfold FileResolver.Remembers
    rwa [ht']
  clear ht'
  induction tokens generalizing r' with
  | nil => exact hr'
  | cons t tokens ih =>
    rw [List.mem_cons, not_or] at ht
    exact ih ht.2 _ (hr'.forgetToken ht.1)

/-- A resolver lets go of a path, and of versions that no other path has. -/
theorem lessens_forgetting (path : String) {tokens : List Nat}
    (htokens : ∀ p identity, p ≠ path → s.get? p = some identity → identity.token ∉ tokens)
    (he : r'.entries = r.entries.erase path)
    (hr' : ∀ token, r.Remembers token → token ∉ tokens → r'.Remembers token) : r.Lessens s tokens r' := by
  refine ⟨fun hd => ?_, fun p entry hp => ?_, fun p entry identity hp hi ht hr => hr' _ hr ?_, fun token hr => ?_⟩
  · rw [he]
    exact Table.nodup_filter hd _
  · rw [he] at hp
    exact ⟨entry, Host.at?_of_at?_erase hp, rfl⟩
  · rw [← ht]
    refine htokens p identity (fun hpath => ?_) hi
    rw [he, hpath, Table.at?_erase_same] at hp
    cases hp
  · by_cases ht : token ∈ tokens
    · exact Or.inl ht
    · exact Or.inr (hr' token hr ht)

/-- Resolvers that follow notices keep no more than before. -/
theorem lessens_followAll (hs : s.Sound) {notices : List Notice}
    (hgone : ∀ notice ∈ notices, ∀ i, notice.previous = some i → s.isCurrent i.token = false) (f : Files) :
    f.Lessens s (f.followAll notices).1.forgotten (f.followAll notices).2 := by
  induction notices generalizing f with
  | nil => exact .refl s _ f
  | cons notice notices ih =>
    have hone (r : FileResolver) : r.Lessens s (r.follow notice).1.forgotten (r.follow notice).2 := by
      refine lessens_forgetting notice.path (fun p identity _ hp hmem => ?_)
        (Host.resolver_follow r notice).2.1 fun token hr ht => ?_
      · obtain ⟨i, hi, htoken⟩ := Option.map_eq_some_iff.1 (Option.mem_toList.1 hmem)
        have hnone := hgone notice List.mem_cons_self i hi
        rw [htoken, hs.isCurrent hp] at hnone
        cases hnone
      · exact forgetTokens_remembers hr ht { r with entries := r.entries.erase notice.path } rfl
    exact (lessens_overall hone f).trans (ih (fun n hn => hgone n (List.mem_cons_of_mem _ hn)) _)

end Lessens

namespace Host

variable {c : Chains} {v v' : MemoryVault} {rules : Rules} {h h' : Host}

/-- What the transpilers forget is kept no more, and all else is as it was. -/
theorem forgets_exact (tokens : List Nat) (h : Host) :
    ∃ workshop, tokens.foldl (fun h token => h.forget (.file token)) h = { h with workshop := workshop } ∧
      workshop.compiler = h.workshop.compiler ∧
      (∀ token kept, workshop.scripts.at? (.file token) = some kept →
        token ∉ tokens ∧ h.workshop.scripts.at? (.file token) = some kept) ∧
      (∀ token draft, workshop.modules.at? (.file token) = some draft →
        token ∉ tokens ∧ h.workshop.modules.at? (.file token) = some draft) ∧
      ∀ origin draft, workshop.modules.at? origin = some draft → h.workshop.modules.at? origin = some draft := by
  induction tokens generalizing h with
  | nil => exact ⟨_, rfl, rfl, fun _ _ hk => ⟨List.not_mem_nil, hk⟩, fun _ _ hk => ⟨List.not_mem_nil, hk⟩, fun _ _ hd => hd⟩
  | cons t tokens ih =>
    obtain ⟨workshop, he, hcompiler, hscripts, hmodules, hdrafts⟩ := ih (h.forget (.file t))
    have left {α : Type} {rows : Table Origin α} {token : Nat} {x : α}
        (hx : token ∉ tokens ∧ (rows.erase (.file t)).at? (.file token) = some x) :
        token ∉ t :: tokens ∧ rows.at? (.file token) = some x := by
      refine ⟨fun hmem => ?_, sub_erase hx.2⟩
      rcases List.mem_cons.1 hmem with rfl | hmem
      · have hnone := hx.2
        rw [Table.at?_erase_same] at hnone
        cases hnone
      · exact hx.1 hmem
    exact ⟨workshop, he, hcompiler, fun token kept hk => left (hscripts token kept hk),
      fun token draft hd => left (hmodules token draft hd), fun origin draft hd => sub_erase (hdrafts origin draft hd)⟩

/-- A change of the files is absorbed while no startup modules are waited for. -/
theorem absorb_quiet (hw : h.watched = none) (change : Ripple × Files) :
    ∃ workshop loaders announced, h.absorb change =
        { h with files := change.2, workshop := workshop, loaders := loaders, announced := announced } ∧
      workshop.compiler = h.workshop.compiler ∧
      (∀ token kept, workshop.scripts.at? (.file token) = some kept →
        token ∉ change.1.forgotten ∧ h.workshop.scripts.at? (.file token) = some kept) ∧
      (∀ token draft, workshop.modules.at? (.file token) = some draft →
        token ∉ change.1.forgotten ∧ h.workshop.modules.at? (.file token) = some draft) ∧
      ∀ origin draft, workshop.modules.at? origin = some draft → h.workshop.modules.at? origin = some draft := by
  obtain ⟨workshop, he, hrest⟩ := forgets_exact change.1.forgotten { h with files := change.2 }
  obtain ⟨loaders, announced, hannounced⟩ := announces_quiet change.1.announced
    { h with files := change.2, workshop := workshop } (Or.inl hw)
  refine ⟨workshop, loaders, announced, ?_, hrest⟩
  unfold absorb
  rw [he]
  exact hannounced

/-- Notes go on to be remembered when the files change, and resolvers keep no more than before. -/
theorem Noted.absorb (hn : h.Noted v) (hw : h.watched = none) {change : Ripple × Files}
    (hlessens : h.files.Lessens change.2.snapshot change.1.forgotten change.2)
    (hlater : h.files.snapshot.Later change.2.snapshot)
    (hsame : ∀ path identity, change.2.snapshot.get? path = some identity →
      h.files.snapshot.get? path = some identity → v'.text? path = v.text? path) : (h.absorb change).Noted v' := by
  obtain ⟨workshop, loaders, announced, he, -, hscripts, hmodules, -⟩ := absorb_quiet hw change
  rw [he]
  have remembers {token : Nat} (ht : token ∉ change.1.forgotten) (hr : h.Remembers token) :
      ∃ r' ∈ change.2.resolvers, r'.Remembers token := by
    obtain ⟨r, hr, htoken⟩ := hr
    obtain ⟨r', hr', hl⟩ := hlessens.forth r hr
    exact ⟨r', hr', (hl.remembers token htoken).resolve_left ht⟩
  refine ⟨fun r' hr' => ?_, fun r' hr' path entry hentry => ?_, fun token code hk => ?_, fun token draft hd hok => ?_⟩
  · obtain ⟨r, hr, hl⟩ := hlessens.back r' hr'
    exact hl.distinct (hn.distinct r hr)
  · obtain ⟨r, hr, hl⟩ := hlessens.back r' hr'
    obtain ⟨old, hold, htoken⟩ := hl.entries path entry hentry
    have hholds := (htoken ▸ hn.entries r hr path old hold).later hlater hsame
    refine ⟨hholds.1, fun q identity text hget ht htext => ?_⟩
    obtain ⟨hpath, hnote⟩ := hholds.2 q identity text hget ht htext
    cases hpath
    exact ⟨rfl, fun hisNote => hl.current path entry identity hentry hget ht (hnote hisNote)⟩
  · obtain ⟨ht, hk⟩ := hscripts token _ hk
    exact ((hn.scripts token code hk).later hlater hsame).imp fun _ hsource hnote => remembers ht (hsource hnote)
  · obtain ⟨ht, hd⟩ := hmodules token draft hd
    exact ((hn.modules token draft hd hok).later hlater hsame).imp fun _ hsource hnote => remembers ht (hsource hnote)

/-! ### Other languages -/

/-- A resolver lets go of the notes that it remembers, and of nothing else. -/
theorem transpilerChanged_exact (r : FileResolver) (hdistinct : r.entries.keys.Nodup) :
    (∀ token, r.Remembers token → token ∈ (r.transpilerChanged 0).1.forgotten) ∧
      (r.transpilerChanged 0).2.entries.keys.Nodup ∧
      ∀ path entry, (r.transpilerChanged 0).2.entries.at? path = some entry →
        r.entries.at? path = some entry ∧ ¬r.Remembers entry.token := by
  have announces (ids : List String) (r : FileResolver) : (r.announceAll ids).2.entries = r.entries := by
    induction ids generalizing r with
    | nil => rfl
    | cons id ids ih => exact ih (r.announce id).2
  unfold FileResolver.transpilerChanged
  cases ht : r.transpiled.at? 0 with
  | none =>
    have hnone (token : Nat) : ¬r.Remembers token := by
      unfold FileResolver.Remembers
      rw [ht]
      exact List.not_mem_nil
    exact ⟨fun token hr => absurd hr (hnone token), hdistinct, fun path entry he => ⟨he, hnone _⟩⟩
  | some tokens =>
    have hsome (token : Nat) : r.Remembers token ↔ token ∈ tokens := by
      unfold FileResolver.Remembers
      rw [ht]
      rfl
    dsimp only
    rw [announces]
    refine ⟨fun token hr => (hsome token).1 hr, Table.nodup_filter hdistinct _, fun path entry he => ?_⟩
    obtain ⟨he, hfresh⟩ := Table.at?_filter hdistinct he
    refine ⟨he, fun hr => ?_⟩
    have hmem := List.contains_iff_mem.2 ((hsome _).1 hr)
    rw [hmem] at hfresh
    cases hfresh

/-- The settings of a host with other languages of code in notes. -/
def speaking (h : Host) (languages : List String) : Settings := { h.settings with codeBlockLanguages := languages }

/-- A host where other languages count as code in notes. -/
def spoken (h : Host) (languages : List String) : Host := languagesChanged { h with settings := h.speaking languages }

/-- What becomes of a file that is no note does not depend on the languages of code in notes. -/
theorem result_speaking {source : Source} (hnote : ¬source.isNote = true) (form : Form) (settings : Settings)
    (languages : List String) (compiler : Option (Compile.Request → Compile.Outcome)) :
    Chain.result ⟨{ settings with codeBlockLanguages := languages }, compiler⟩ form source =
      Chain.result ⟨settings, compiler⟩ form source := by
  unfold Chain.result
  rw [Chain.toCompile_plain _ hnote, Chain.toCompile_plain _ hnote]
  rfl

/-- When other languages count as code in notes, all that is kept is what the chain makes of the files now, or how they
failed before. -/
theorem mirroring_spoken (hm : h.Mirroring c rules v) (hn : h.Noted v) (languages : List String) :
    (h.spoken languages).Mirroring (c.speaking languages) rules v ∧ (h.spoken languages).Noted v ∧
      ∃ resolvers workshop loaders announced, resolvers.length = h.files.resolvers.length ∧
        (∀ origin draft, workshop.modules.at? origin = some draft → h.workshop.modules.at? origin = some draft) ∧
        h.spoken languages = { h with
          settings := h.speaking languages
          files := { h.files with resolvers := resolvers }
          workshop := workshop
          loaders := loaders
          announced := announced } := by
  set h₀ : Host := { h with settings := h.speaking languages } with hh₀
  set change : Ripple × Files := h.files.transpilerChanged 0 with hchange
  obtain ⟨workshop, loaders, announced, he, hcompiler, hscripts, hmodules, hdrafts⟩ :=
    absorb_quiet (h := h₀) hm.watched change
  have he : h.spoken languages =
      { h₀ with files := change.2, workshop := workshop, loaders := loaders, announced := announced } := he
  have hresolvers : change.2.resolvers = h.files.resolvers.map fun r => (r.transpilerChanged 0).2 :=
    overall_resolvers ..
  have hs := hm.sincere
  -- each note of which something good is kept is remembered, and so let go of
  have hforgotten {token : Nat} (hr : h.Remembers token) : token ∈ change.1.forgotten := by
    obtain ⟨r, hr, htoken⟩ := hr
    rw [hchange, Files.transpilerChanged, overall_forgotten]
    exact List.mem_flatMap.2 ⟨r, hr, (transpilerChanged_exact r (hn.distinct r hr)).1 token htoken⟩
  have hentries {r' : FileResolver} (hr' : r' ∈ change.2.resolvers) : ∃ r ∈ h.files.resolvers,
      r'.entries.keys.Nodup ∧ ∀ path entry, r'.entries.at? path = some entry →
        r.entries.at? path = some entry ∧ ¬r.Remembers entry.token := by
    rw [hresolvers] at hr'
    obtain ⟨r, hr, rfl⟩ := List.mem_map.1 hr'
    exact ⟨r, hr, (transpilerChanged_exact r (hn.distinct r hr)).2⟩
  have hchain (form : Form) {source : Source} (hnote : ¬source.isNote = true) :
      (c.speaking languages).now.result form source = c.now.result form source :=
    result_speaking hnote form c.now.settings languages c.now.compiler
  have hgives (form : Form) {source : Source} {r : Except Failure (Option String)} (hr : c.Gives form source r)
      (hok : source.isNote = true → ∃ e, r = .error e) : (c.speaking languages).Gives form source r := by
    by_cases hnote : source.isNote = true
    · obtain ⟨e, rfl⟩ := hok hnote
      rcases hr with hr | ⟨e', he', old, hold, hfails⟩
      · exact Or.inr ⟨e, rfl, c.now, List.mem_cons_self, hr.symm⟩
      · exact Or.inr ⟨e', he', old, List.mem_cons_of_mem _ hold, hfails⟩
    · rcases hr with hr | ⟨e', he', old, hold, hfails⟩
      · exact Or.inl (hr.trans (hchain form hnote).symm)
      · exact Or.inr ⟨e', he', old, List.mem_cons_of_mem _ hold, hfails⟩
  have hscript {token : Nat} {source : Source} {kept : Except Failure String} (hk : workshop.scripts.at? (.file token) = some kept)
      (hremembers : ∀ code, kept = .ok code → source.isNote = true → h.Remembers token) (hnote : source.isNote = true) :
      ∃ e, kept.map some = .error e := by
    cases kept with
    | error e => exact ⟨e, rfl⟩
    | ok code => exact absurd (hforgotten (hremembers code rfl hnote)) (hscripts token _ hk).1
  have hmodule {token : Nat} {source : Source} {draft : Draft} (hd : workshop.modules.at? (.file token) = some draft)
      (hremembers : (∀ e, h.draftOf draft ≠ .error e) → source.isNote = true → h.Remembers token)
      (hnote : source.isNote = true) : ∃ e, h.draftOf draft = .error e := by
    by_contra hno
    have hok : ∀ e, h.draftOf draft ≠ .error e := fun e hfails => hno ⟨e, hfails⟩
    exact (hmodules token _ hd).1 (hforgotten (hremembers hok hnote))
  have hdraft (draft : Draft) : draftOf { h₀ with
      files := change.2, workshop := workshop, loaders := loaders, announced := announced } draft = h.draftOf draft := by
    cases draft <;> rfl
  rw [he]
  refine ⟨⟨hm.watched, hm.vault, hm.mirrors, ?_, hs.sound, fun r' hr' path entry hentry => ?_, fun token kept hk => ?_,
    fun token draft hd => ?_, fun origin id hid => hs.numbered origin id (hdrafts origin _ hid)⟩,
    ⟨fun r' hr' => ?_, fun r' hr' path entry hentry => ?_, fun token code hk => ?_, fun token draft hd hok => ?_⟩,
    change.2.resolvers, workshop, loaders, announced, ?_, hdrafts, rfl⟩
  · rw [Chains.speaking, ← hs.chain, chain, hcompiler]
    rfl
  · obtain ⟨r, hr, -, hold⟩ := hentries hr'
    obtain ⟨hold, hforgets⟩ := hold path entry hentry
    have hnote := hn.entries r hr path entry hold
    have htrue := hs.entries r hr path entry hold
    refine ⟨htrue.1, fun q identity text hget ht htext form code hcode => ?_⟩
    have hplain : ¬(Source.ofVersion q text entry.token).isNote = true := fun h =>
      hforgets ((hnote.2 q identity text hget ht htext).2 h)
    unfold Chain.code
    rw [hchain form hplain, Chain.toCompile_plain _ hplain, ← Chain.toCompile_plain c.now hplain]
    exact htrue.2 q identity text hget ht htext form code hcode
  · obtain ⟨-, hold⟩ := hscripts token kept hk
    have hgiven := hs.scripts token kept hold
    refine ⟨hgiven.1, fun q identity text hget ht htext => hgives .script (hgiven.2 q identity text hget ht htext) ?_⟩
    exact hscript hk fun code hok => (hn.scripts token code (hok ▸ hold)).2 q identity text hget ht htext
  · obtain ⟨-, hold⟩ := hmodules token draft hd
    have hgiven := hs.modules token draft hold
    refine ⟨hgiven.1, fun q identity text hget ht htext => ?_⟩
    rw [hdraft]
    refine hgives .module (hgiven.2 q identity text hget ht htext) ?_
    exact hmodule hd fun hok => (hn.modules token draft hold hok).2 q identity text hget ht htext
  · obtain ⟨-, -, hdistinct, -⟩ := hentries hr'
    exact hdistinct
  · obtain ⟨r, hr, -, hold⟩ := hentries hr'
    obtain ⟨hold, hforgets⟩ := hold path entry hentry
    exact (hn.entries r hr path entry hold).imp fun _ hsource => ⟨hsource.1, fun hnote => absurd (hsource.2 hnote) hforgets⟩
  · obtain ⟨ht, hold⟩ := hscripts token _ hk
    exact (hn.scripts token code hold).imp fun _ hsource hnote => absurd (hforgotten (hsource hnote)) ht
  · obtain ⟨ht, hold⟩ := hmodules token draft hd
    rw [hdraft] at hok
    exact (hn.modules token draft hold hok).imp fun _ hsource hnote => absurd (hforgotten (hsource hnote)) ht
  · rw [hresolvers, List.length_map]

open Async

variable {ev : Evaluator} {s : Schedule Host Work}

/-- Settings with other languages are refused, or take effect at once. -/
theorem ends_applySettings (hrests : Rests s) (hm : s.state.Mirroring c rules v) (hn : s.state.Noted v)
    (languages : List String) :
    (Host.applySettings (s.state.speaking languages)).run.Ends (plan ev) 0 s fun r t =>
      (∃ e, r = .error e) ∧ t = s ∨ r = .ok () ∧ t.state.settings = s.state.speaking languages ∧
        (t = s ∨ t = { s with state := s.state.spoken languages }) := by
  set new : Settings := s.state.speaking languages with hnew
  unfold Host.applySettings
  refine ends_except (m := 0) (n := 0) (P := fun _ t => t = s) (ends_pure rfl) (fun read t ht => ?_) fun e t ht => ?_
  swap
  · exact Or.inl ⟨⟨e, rfl⟩, ht⟩
  rw [ht]
  obtain ⟨-, -, resolvers, workshop, loaders, announced, -, -, hspoken⟩ := mirroring_spoken hm hn languages
  -- the settings are replaced before anything else
  set h₁ : Host := { s.state with settings := new } with hh₁
  refine ends_then (t := { s with state := h₁ }) (a := s.state.settings) (ends_lift (ends_step ?_)) ?_
  · rw [adopt_of_none (collect_of_asked (by exact hrests.asked))]
    exact ⟨rfl, rfl⟩
  set h₂ : Host := if s.state.settings.codeBlockLanguages = languages then h₁ else s.state.spoken languages with hh₂
  have hsame : h₂.settings = new ∧ h₂.asked = [] ∧ ({ s with state := h₂ } = s ∨ h₂ = s.state.spoken languages) := by
    rw [hh₂]
    split
    · next hlanguages =>
      refine ⟨rfl, hrests.asked, Or.inl ?_⟩
      rw [hh₁, hnew, speaking, ← hlanguages]
    · rw [hspoken]
      exact ⟨rfl, hrests.asked, Or.inr rfl⟩
  obtain ⟨hsettings, hasked, hwhere⟩ := hsame
  have hlocal : applyLocal s.state.settings read h₁ = h₂ := by
    simp [applyLocal, hh₁, hnew, hh₂, speaking, spoken]
  refine ends_then (t := { s with state := h₂ }) (a := ()) (ends_lift (ends_change ?_)) ?_
  · rw [show applyLocal _ read ({ s with state := h₁ } : Schedule Host Work).state = h₂ from hlocal,
      adopt_of_none (collect_of_asked hasked)]
    exact ⟨rfl, rfl⟩
  -- nothing else is different in the settings
  have hremote : applyRemote s.state.settings new = preload [] := by
    have hnone : new.preloadedExternalLinks.filter (!s.state.settings.preloadedExternalLinks.contains ·) = [] :=
      List.filter_eq_nil_iff.2 fun href hmem => by simpa [hnew, speaking] using hmem
    refine Eq.trans (if_pos rfl) ?_
    rw [hnone]
  refine ends_then (t := { s with state := h₂ }) (a := ()) (ends_lift ?_) ?_
  · rw [hremote]
    show Async.Ends (plan ev) 0 (preload []) _ _
    unfold preload
    refine ends_bind (m := 0) (n := 0) (P := fun _ t => t = { s with state := h₂ }) (Async.ends_view rfl) fun enabled t ht => ?_
    rw [ht]
    split <;> exact ends_pure ⟨rfl, rfl⟩
  refine ends_then (t := { s with state := h₂ }) (a := ()) (ends_lift (ends_change ?_)) ?_
  · rw [show applyLoaders s.state.settings new ({ s with state := h₂ } : Schedule Host Work).state = h₂ from if_pos rfl,
      adopt_of_none (collect_of_asked hasked)]
    exact ⟨rfl, rfl⟩
  have hreload : (new.autoReloadStartupModules && !s.state.settings.autoReloadStartupModules) = false :=
    Bool.and_not_self _
  have hstartup : applyStartup s.state.settings new = pure () := by
    have hmodules : ¬s.state.settings.startupModules ≠ new.startupModules := not_not_intro rfl
    unfold applyStartup
    dsimp only
    rw [if_neg hmodules, hreload]
    rfl
  refine ends_lift ?_
  rw [hstartup]
  show Async.Ends (plan ev) 0 (pure ()) _ _
  exact ends_pure (Or.inr ⟨rfl, hsettings, hwhere.imp_right fun h => by rw [h]⟩)

end Host

/-- What can be done with some file resolvers whose settings may change. -/
inductive LanguageMove where
  /-- Something is done with the files. -/
  | file (move : FileMove)
  /-- Other languages count as code in notes. -/
  | languages (languages : List String)

/-- A move asks a resolver that there is, if it asks one. -/
def LanguageMove.Within (count : Nat) : LanguageMove → Prop
  | .file (.resolve _ n _ _) => n < count
  | _ => True

namespace Session

open Async Host

/-- What comes of a move. -/
def turn (s : Session) : LanguageMove → Session
  | .file move => s.move move
  | .languages languages => (s.applySettings { s.host.settings with codeBlockLanguages := languages }).2

/-- What the chain of transpilers makes of a file under some settings, where nothing is kept. -/
def afresh (s : Session) (settings : Settings) (rules : Rules) (form : Form) (n : Nat) :
    Option String → Except Failure (Option (String × String))
  | none => .ok none
  | some path =>
    match rules.textFor s.vault path form with
    | none => .ok none
    | some text =>
      ((s.emptied.touch fun h => { h with settings := settings }).codeBy form n (.ofVersion path text 0)).1.map
        (·.map fun code => (path, code))

/-- A session that mirrors a vault, with so many resolvers, where notes of which code is kept are remembered. -/
structure Following (count : Nat) (c : Chains) (rules : Rules) (v : MemoryVault) (s : Session) : Prop where
  /-- The session mirrors the vault. -/
  mirroring : s.Mirroring c rules v
  /-- The notes are remembered. -/
  noted : s.host.Noted v
  /-- There are so many resolvers. -/
  count : s.host.files.resolvers.length = count

variable {count : Nat} {c : Chains} {rules : Rules} {v v' : MemoryVault} {s : Session}

theorem Following.afresh (hs : s.Following count c rules v) (settings : Settings) (form : Form) (n : Nat)
    (path? : Option String) :
    s.afresh settings rules form n path? = chainAnswer ⟨settings, c.now.compiler⟩ rules v form path? := by
  cases path? with
  | none => rfl
  | some path =>
    unfold Session.afresh chainAnswer
    dsimp only
    rw [hs.mirroring.vault_eq]
    cases rules.textFor v path form with
    | none => rfl
    | some text =>
      dsimp only
      set fresh : Session := s.emptied.touch fun h => { h with settings := settings } with hfresh
      have hidle : fresh.Idle := ⟨hs.mirroring.rests.still.withState _, hs.mirroring.rests.asked, nofun⟩
      have hchain : fresh.host.chain = ⟨settings, c.now.compiler⟩ := by
        rw [← hs.mirroring.host.sincere.chain]
        rfl
      rw [codeBy_of_empty hidle rfl rfl, hchain]
      cases Chain.code _ form (.ofVersion path text 0) <;> rfl

/-! ### Doing something with the files -/

/-- The host after a change of the files was absorbed, where nothing runs. -/
theorem host_absorbed (hstill : s.running.Still) (hasked : s.host.asked = []) (hw : s.host.watched = none)
    (change : Host → Ripple × Files) :
    (s.change fun h => h.absorb (change h)).host = s.host.absorb (change s.host) := by
  obtain ⟨workshop, loaders, announced, he, -⟩ := absorb_quiet hw (change s.host)
  rw [change_of_still hstill _ (by rw [he]; exact hasked)]
  rfl

/-- A session follows when its host absorbed a change of the files. -/
theorem following_absorbed {s' : Session} {h : Host} (hn : h.Noted v) (hw : h.watched = none)
    (hcount : h.files.resolvers.length = count) (change : Ripple × Files) (hs' : s'.Mirroring c rules v')
    (hhost : s'.host = h.absorb change)
    (hlessens : h.files.Lessens change.2.snapshot change.1.forgotten change.2)
    (hlater : h.files.snapshot.Later change.2.snapshot)
    (hsame : ∀ path identity, change.2.snapshot.get? path = some identity →
      h.files.snapshot.get? path = some identity → v'.text? path = v.text? path) : s'.Following count c rules v' := by
  refine ⟨hs', ?_, ?_⟩
  · rw [hhost]
    exact hn.absorb hw hlessens hlater hsame
  · rw [hhost, absorb_files, hlessens.length, hcount]

/-- Resolvers keep no more than before when a snapshot is adopted with the notices that led to it. -/
theorem lessens_adopt {f : Files} {next : List Notice × Snapshot} (hs : f.snapshot.Sound)
    (hcourse : Snapshot.Course f.snapshot next.1 next.2) :
    f.Lessens (f.adopt next).2.snapshot (f.adopt next).1.forgotten (f.adopt next).2 := by
  rw [(adopt_rest f next).1]
  have h := lessens_followAll (hcourse.later.sound hs) (hcourse.previous_gone hs) { f with snapshot := next.2 }
  exact ⟨h.length, h.back, h.forth⟩

/-- A session that follows goes on to follow when it absorbs a change of the files. -/
theorem Following.change (hs : s.Following count c rules v) (change : Host → Ripple × Files)
    (hs' : (s.change fun h => h.absorb (change h)).Mirroring c rules v')
    (hlessens : s.host.files.Lessens (change s.host).2.snapshot (change s.host).1.forgotten (change s.host).2)
    (hlater : s.host.files.snapshot.Later (change s.host).2.snapshot)
    (hsame : ∀ path identity, (change s.host).2.snapshot.get? path = some identity →
      s.host.files.snapshot.get? path = some identity → v'.text? path = v.text? path) :
    (s.change fun h => h.absorb (change h)).Following count c rules v' := by
  have hhost := host_absorbed hs.mirroring.rests.still hs.mirroring.rests.asked hs.mirroring.host.watched change
  exact following_absorbed hs.noted hs.mirroring.host.watched hs.count _ hs' hhost hlessens hlater hsame

/-- A change of the vault is followed. -/
theorem Following.adopt (hs : s.Following count c rules v) {step : Change × MemoryVault}
    (htouched : ∀ path, MemoryVault.Touched path v step) :
    (s.adopt step.1 step.2 false).Following count c rules step.2 := by
  have hmirroring := hs.mirroring.adopt htouched
  unfold Session.adopt at hmirroring ⊢
  rw [if_neg Bool.false_ne_true] at hmirroring ⊢
  set h : Host := { s.host with files := { s.host.files with vault := .memory step.2 } } with hh
  have hn : h.Noted v := ⟨hs.noted.distinct, hs.noted.entries, hs.noted.scripts, hs.noted.modules⟩
  have hsnapshot : (h.files.follow step.1).2.snapshot = (s.host.files.snapshot.follow (.memory step.2) step.1).2 :=
    (adopt_rest h.files _).1
  have hcourse := s.host.files.snapshot.course_follow (.memory step.2) step.1
  have hsound := hs.mirroring.host.sincere.sound
  have hhost := host_absorbed (s := s.touch fun _ => h) (hs.mirroring.rests.still.withState h) hs.mirroring.rests.asked
    hs.mirroring.host.watched fun h => h.files.follow step.1
  refine following_absorbed hn hs.mirroring.host.watched hs.count _ hmirroring hhost
    (lessens_adopt (f := h.files) hsound hcourse) (hsnapshot ▸ hcourse.later) fun path identity hnew hold => ?_
  have hnew : (h.files.follow step.1).2.snapshot.get? path = some identity := hnew
  rw [hsnapshot] at hnew
  exact Snapshot.text?_of_follow hsound (htouched path) hnew hold

theorem Following.rebuild (hs : s.Following count c rules v) :
    (s.change fun h => h.absorb h.files.rebuild).Following count c rules v := by
  have hcourse := s.host.files.snapshot.course_rebuild s.host.files.vault
  refine hs.change (fun h => h.files.rebuild) hs.mirroring.rebuild
    (lessens_adopt hs.mirroring.host.sincere.sound hcourse) ?_ fun _ _ _ _ => rfl
  have hsnapshot := (adopt_rest s.host.files (s.host.files.snapshot.rebuild s.host.files.vault)).1
  exact hsnapshot.symm ▸ hcourse.later

/-- One resolver forgets some of what it keeps. -/
theorem Following.lessen (hs : s.Following count c rules v) (n : Nat)
    (act : Files → FileResolver → Ripple × FileResolver)
    (hact : ∀ f r path entry, (act f r).2.entries.at? path = some entry → r.entries.at? path = some entry)
    (hlessens : (s.host.files.resolver n).Lessens s.host.files.snapshot
      (act s.host.files (s.host.files.resolver n)).1.forgotten (act s.host.files (s.host.files.resolver n)).2) :
    (s.touch fun h => h.absorb (h.files.withResolver n act)).Following count c rules v :=
  following_absorbed hs.noted hs.mirroring.host.watched hs.count (s.host.files.withResolver n act)
    (hs.mirroring.lessen n act hact) rfl (lessens_onResolver (fun r => (act s.host.files r).2) hlessens)
    (Snapshot.Later.refl _) fun _ _ _ _ => rfl

/-- Whatever is done with the files, the session goes on to follow. -/
theorem Following.move (hs : s.Following count c rules v) (m : FileMove) (hm : (LanguageMove.file m).Within count) :
    ∃ v', (s.move m).Following count c rules v' := by
  have hvault := hs.mirroring.vault_eq
  have hsound := hs.mirroring.host.sincere.sound
  cases m with
  | write path text =>
    unfold Session.move
    rw [hvault]
    exact ⟨_, hs.adopt (v.touched_write path text)⟩
  | remove path =>
    unfold Session.move
    rw [hvault]
    exact ⟨_, hs.adopt (v.touched_remove path)⟩
  | rename source target =>
    unfold Session.move
    rw [hvault]
    exact ⟨_, hs.adopt (v.touched_rename source target)⟩
  | rebuild => exact ⟨v, hs.rebuild⟩
  | resolve form n id context =>
    obtain ⟨-, -, hmirroring, hlength, hnoted⟩ := hs.mirroring.resolveBy form n id context
    exact ⟨v, hmirroring, hnoted (hs.count ▸ hm) hs.noted, hlength.trans hs.count⟩
  | depend n parent dependency =>
    have a : Recalls c v s.host (s.move (.depend n parent dependency)).host := by
      refine recalls_onResolver s.host n (fun r => (s.host.files.snapshot.get? dependency).elim r
        fun identity => r.depend parent identity.token) (fun r => ?_) fun path entry he => Or.inl ?_
      · cases s.host.files.snapshot.get? dependency with
        | none => exact FileResolver.retains_of_same rfl rfl
        | some identity =>
          refine ⟨fun _ hr => hr, fun hr => ?_⟩
          exact Table.nodup_update hr parent fun entry =>
            { entry with dependencies := entry.dependencies.insert identity.token }
      · revert he
        cases s.host.files.snapshot.get? dependency with
        | none => exact fun he => ⟨entry, he, rfl, rfl⟩
        | some identity => exact depend_code
    exact ⟨v, hs.mirroring.depend n parent dependency, a.noted hs.mirroring.host.sincere hs.noted,
      a.length.trans hs.count⟩
  | forget n id =>
    have hentries (f : Files) (r : FileResolver) : (r.invalidate f.snapshot id).2.entries = r.entries.erase id :=
      (forgetToken_entries ..).1
    refine ⟨v, hs.lessen n (fun f r => (⟨[], (r.invalidate f.snapshot id).1⟩, (r.invalidate f.snapshot id).2))
      (fun f r path entry he => ?_) ?_⟩
    · exact at?_of_at?_erase (hentries f r ▸ he)
    · refine lessens_forgetting id (fun p identity hp hget hmem => ?_) (hentries ..) fun token hr ht =>
        forgetTokens_remembers hr ht _ rfl
      obtain ⟨i, hi, htoken⟩ := Option.map_eq_some_iff.1 (Option.mem_toList.1 hmem)
      exact hp (hsound.unique p id identity i hget hi htoken.symm)
  | forgetAll n =>
    refine ⟨v, hs.lessen n (fun _ r => (⟨[], r.invalidateAll.1⟩, r.invalidateAll.2)) (fun _ _ _ _ he => nomatch he) ?_⟩
    refine ⟨fun _ => List.nodup_nil, nofun, nofun, fun token hr => Or.inl ?_⟩
    refine List.mem_eraseDups.2 (List.mem_append_right _ ?_)
    unfold FileResolver.Remembers at hr
    cases ht : (s.host.files.resolver n).transpiled.at? 0 with
    | none =>
      rw [ht] at hr
      cases hr
    | some tokens =>
      rw [ht] at hr
      obtain ⟨row, hrow, rfl⟩ := List.mem_map.1 (Table.mem_values_of_at? ht)
      exact List.mem_flatMap.2 ⟨row, hrow, hr⟩

/-! ### Other languages -/

/-- Other languages count as code in notes, unless the settings are refused, and the session goes on to follow. -/
theorem Following.languages (hs : s.Following count c rules v) (languages : List String) :
    ((s.applySettings (s.host.speaking languages)).1 = .ok () →
      (s.turn (.languages languages)).host.settings = s.host.speaking languages) ∧
    ∃ c', (s.turn (.languages languages)).Following count c' rules v ∧ c'.now.compiler = c.now.compiler ∧
      ∀ old ∈ c'.past, old = c.now ∨ old ∈ c.past := by
  have hm : s.host.number.2.Mirroring c rules v := hs.mirroring.number
  have hn : s.host.number.2.Noted v := ⟨hs.noted.distinct, hs.noted.entries, hs.noted.scripts, hs.noted.modules⟩
  obtain ⟨hspoken, hnoted, resolvers, workshop, loaders, announced, hlength, hdrafts, he⟩ :=
    mirroring_spoken hm hn languages
  have hrests (root : Parked Host Work) : Rests (s.numbered root) := Idle.numbered (s := s) hs.mirroring.rests root
  have hrests' (root : Parked Host Work) : Rests { s.numbered root with state := s.host.number.2.spoken languages } := by
    rw [he]
    exact ⟨(hrests root).still.withState _, (hrests root).asked, fun origin id hid =>
      (hrests root).drafts origin id (hdrafts origin _ hid)⟩
  obtain ⟨o, t, ⟨hsettings, ht⟩, hrests, hperform⟩ := perform_of_rests s (P := fun o t =>
    ((Outcome.asFlag (some o)).map (fun _ => ()) = .ok () → t.state.settings = s.host.speaking languages) ∧
      (t.state = s.host.number.2 ∨ t.state = s.host.number.2.spoken languages)) (x := do
      return .flag ((← (Host.applySettings (s.host.speaking languages)).run).map fun _ => true)) fun root => by
    refine (ends_bind (m := 0) (n := 0) (ends_applySettings (hrests root) hm hn languages) fun r t ht =>
      ends_pure ?_).mono (Nat.zero_le 1) fun _ _ h => h
    rcases ht with ⟨⟨e, rfl⟩, rfl⟩ | ⟨-, hsettings, rfl | rfl⟩
    · exact ⟨⟨nofun, Or.inl rfl⟩, hrests root⟩
    · exact ⟨⟨fun _ => hsettings, Or.inl rfl⟩, hrests root⟩
    · exact ⟨⟨fun _ => hsettings, Or.inr rfl⟩, hrests' root⟩
  have hturn : s.turn (.languages languages) = told s.evaluator t s.host.nextWork o := congrArg Prod.snd hperform
  have hnumbered := hs.mirroring.host.sincere.numbered
  rw [hturn]
  constructor
  · intro hok
    refine hsettings ?_
    rw [← hok]
    exact congrArg (fun r => (Outcome.asFlag r.1).map fun _ => ()) hperform.symm
  rcases ht with ht | ht
  · obtain ⟨hmirroring, htold⟩ := mirroring_told hrests (ht ▸ hm) (n := s.host.nextWork) (fun origin id hid =>
      Nat.ne_of_lt (hnumbered origin id (by rw [ht] at hid; exact hid))) s.evaluator o
    refine ⟨c, ⟨hmirroring, htold (ht ▸ hn), ?_⟩, rfl, fun old hold => Or.inr hold⟩
    show t.state.files.resolvers.length = count
    rw [ht]
    exact hs.count
  · obtain ⟨hmirroring, htold⟩ := mirroring_told hrests (ht ▸ hspoken) (n := s.host.nextWork) (fun origin id hid =>
      Nat.ne_of_lt (hnumbered origin id (by rw [ht, he] at hid; exact hdrafts origin _ hid))) s.evaluator o
    refine ⟨c.speaking languages, ⟨hmirroring, htold (ht ▸ hnoted), ?_⟩, rfl, fun old hold => List.mem_cons.1 hold⟩
    show t.state.files.resolvers.length = count
    rw [ht, he]
    exact hlength.trans hs.count

/-- Whatever is done, the session goes on to follow. -/
theorem Following.turn (hs : s.Following count c rules v) (m : LanguageMove) (hm : m.Within count) :
    ∃ c' v', (s.turn m).Following count c' rules v' ∧ c'.now.compiler = c.now.compiler ∧
      ∀ old ∈ c'.past, old = c.now ∨ old ∈ c.past := by
  cases m with
  | file m =>
    obtain ⟨v', hs'⟩ := hs.move m hm
    exact ⟨c, v', hs', rfl, fun old hold => Or.inr hold⟩
  | languages languages =>
    obtain ⟨-, c', hs', hrest⟩ := hs.languages languages
    exact ⟨c', v, hs', hrest⟩

/-- After whatever was done, all that is kept is what the chain makes of the files, or how they failed under settings
that were in force before. -/
theorem following_run {start : Session} {compiler : Option (Compile.Request → Compile.Outcome)}
    (hstart : ∃ c v, start.Following count c rules v ∧ c.now.compiler = compiler ∧ c.past = [])
    (moves : List LanguageMove) (hmoves : ∀ m ∈ moves, m.Within count) :
    ∃ c v, (moves.foldl turn start).Following count c rules v ∧ c.now.compiler = compiler ∧
      ∀ old ∈ c.past, ∃ earlier, earlier <+: moves ∧ old = ⟨(earlier.foldl turn start).host.settings, compiler⟩ := by
  induction moves using List.reverseRecOn with
  | nil =>
    obtain ⟨c, v, hs, hcompiler, hpast⟩ := hstart
    exact ⟨c, v, hs, hcompiler, fun old hold => absurd hold (by rw [hpast]; exact List.not_mem_nil)⟩
  | append_singleton moves m ih =>
    obtain ⟨c, v, hs, hcompiler, hpast⟩ := ih fun m hm => hmoves m (List.mem_append_left _ hm)
    obtain ⟨c', v', hs', hsame, hpast'⟩ := hs.turn m (hmoves m (List.mem_append_right _ List.mem_cons_self))
    rw [List.foldl_concat]
    refine ⟨c', v', hs', hsame.trans hcompiler, fun old hold => ?_⟩
    rcases hpast' old hold with rfl | hold
    · refine ⟨moves, List.prefix_append moves [m], ?_⟩
      rw [← hcompiler, ← hs.mirroring.host.sincere.chain]
      rfl
    · obtain ⟨earlier, hbefore, hchain⟩ := hpast old hold
      exact ⟨earlier, hbefore.trans (List.prefix_append moves [m]), hchain⟩

theorem following_overMemory (ev : Evaluator) (settings : Settings) (rules : Rules)
    (compiler : Option (Compile.Request → Compile.Outcome)) (strategies : List Strategy) (v : MemoryVault) :
    Following strategies.length ⟨⟨settings, compiler⟩, []⟩ rules v
      (overMemory ev settings rules compiler strategies v) := by
  have hmirroring := mirroring_overMemory ev settings rules compiler strategies v
  rw [overMemory_eq] at hmirroring ⊢
  have hrests := rests_unread ev settings rules compiler strategies v
  have hresolver := @entries_unread ev settings rules compiler strategies v
  set s := unread ev settings rules compiler strategies v with hs
  have hnoted : s.host.Noted v := by
    refine ⟨fun r hr => ?_, fun r hr path entry he => ?_, nofun, nofun⟩
    · rw [hresolver hr]
      exact List.nodup_nil
    · rw [hresolver hr] at he
      cases he
  have hcourse := s.host.files.snapshot.course_rebuild s.host.files.vault
  have hsnapshot := (adopt_rest s.host.files (s.host.files.snapshot.rebuild s.host.files.vault)).1
  exact following_absorbed hnoted rfl (List.length_map ..) _ hmirroring
    (host_absorbed hrests.still hrests.asked rfl fun h => h.files.rebuild)
    (lessens_adopt (Snapshot.sound_empty rules 0) hcourse) (hsnapshot.symm ▸ hcourse.later) fun _ _ _ _ => rfl

/-- After whatever was done with file resolvers over a vault in memory, while the languages of code in notes changed:
a resolver that is asked for a specifier tells what the chain of transpilers tells under the settings that are in force
for the text that the file has, when nothing is kept; if that is how the text fails whenever it failed under settings
that were in force before. -/
theorem languages_take_effect (ev : Evaluator) (settings : Settings) (rules : Rules)
    (compiler : Option (Compile.Request → Compile.Outcome)) (strategies : List Strategy) (vault : MemoryVault)
    (moves : List LanguageMove) (hmoves : ∀ m ∈ moves, m.Within strategies.length) (form : Form) (n : Nat)
    (id : String) (context : Context) :
    let start := overMemory ev settings rules compiler strategies vault
    let s := moves.foldl turn start
    let asked := s.host.meantBy? id context n
    (∀ earlier e, earlier <+: moves →
      s.afresh (earlier.foldl turn start).host.settings rules form n asked = .error e →
        s.afresh s.host.settings rules form n asked = .error e) →
    (s.resolveBy form n id context).1.map (·.map Resolved.idAndCode) = s.afresh s.host.settings rules form n asked := by
  intro start s asked hsteady
  obtain ⟨c, v, hs, hcompiler, hpast⟩ := following_run
    ⟨_, _, following_overMemory ev settings rules compiler strategies vault, rfl, rfl⟩ moves hmoves
  have hnow : (⟨s.host.settings, c.now.compiler⟩ : Chain) = c.now := by
    rw [← hs.mirroring.host.sincere.chain]
    rfl
  rw [hs.afresh, hnow]
  rcases (hs.mirroring.resolveBy form n id context).1.replies with hanswer | ⟨e, hanswer, old, hold, hfails⟩
  · exact hanswer
  · obtain ⟨earlier, hbefore, rfl⟩ := hpast old hold
    have hfailed := hsteady earlier e hbefore (by rw [hs.afresh, hcompiler]; exact hfails)
    rw [hs.afresh, hnow] at hfailed
    exact hanswer.trans hfailed.symm

/-- A resolver over one note in TypeScript, which is read ahead. -/
def overNote (text : String) : Session :=
  overMemory Scan.evaluator {} ((Rules.read ["+n.ts.md"]).toOption.getD []) (some Declarations.compile) [.relative]
    { texts := [("n.ts.md", text)] }

/-- The note is resolved either way, and then no language counts as code any more. -/
def muted : List LanguageMove :=
  [.file (.resolve .script 0 "n.ts.md" {}), .file (.resolve .module 0 "n.ts.md" {}), .languages []]

/-- A note that was compiled is compiled anew. -/
theorem languages_take_effect_muted :
    let start := overNote "```js\nlet x = 1\n```"
    let s := muted.foldl turn start
    (start.resolveBy .script 0 "n.ts.md" {}).1.toOption.join.map (·.code) = some "// ```js\nlet x = 1\n// ```" ∧
    s.host.settings.codeBlockLanguages = [] ∧
    (s.resolveBy .script 0 "n.ts.md" {}).1.map (·.map Resolved.idAndCode) =
      .ok (some ("n.ts.md", "// ```js\n// let x = 1\n// ```")) := by
  intro start s
  set rules : Rules := (Rules.read ["+n.ts.md"]).toOption.getD [] with hrules
  have hasked : s.host.meantBy? "n.ts.md" {} 0 = some "n.ts.md" := by decide +kernel
  have hnow : (s.afresh s.host.settings rules .script 0 (some "n.ts.md")).toOption =
      some (some ("n.ts.md", "// ```js\n// let x = 1\n// ```")) := by decide +kernel
  -- the text could be compiled whatever the languages were
  have hcompiles : muted.inits.all (fun earlier =>
      (s.afresh (earlier.foldl turn start).host.settings rules .script 0 (some "n.ts.md")).isOk) = true := by
    decide +kernel
  have hsteady (earlier : List LanguageMove) (e : Failure) (hbefore : earlier <+: muted)
      (hfails : s.afresh (earlier.foldl turn start).host.settings rules .script 0
        (s.host.meantBy? "n.ts.md" {} 0) = .error e) :
      s.afresh s.host.settings rules .script 0 (s.host.meantBy? "n.ts.md" {} 0) = .error e := by
    have hok := List.all_eq_true.1 hcompiles earlier ((List.mem_inits _ _).2 hbefore)
    rw [hasked] at hfails
    rw [hfails] at hok
    cases hok
  have h := languages_take_effect Scan.evaluator {} rules (some Declarations.compile) [.relative]
    { texts := [("n.ts.md", "```js\nlet x = 1\n```")] } muted (by simp [muted, LanguageMove.Within]) .script 0
    "n.ts.md" {} hsteady
  refine ⟨by decide +kernel, by decide +kernel, h.trans ?_⟩
  show s.afresh s.host.settings rules .script 0 (s.host.meantBy? "n.ts.md" {} 0) = _
  rw [hasked]
  exact eq_ok_of_toOption hnow

/-- How a source could not be compiled. -/
def diagnostics? {α : Type} : Except Failure α → Option String
  | .error (.transpile diagnostics) => some diagnostics
  | _ => none

theorem eq_error_of_diagnostics? {α : Type} {r : Except Failure α} {diagnostics : String}
    (h : diagnostics? r = some diagnostics) : r = .error (.transpile diagnostics) := by
  unfold diagnostics? at h
  split at h
  · rw [Option.some.inj h]
  · cases h

/-- A note that could not be compiled is not compiled anew: it fails as it failed under the languages of before. -/
theorem failure_outlives_languages :
    let s := muted.foldl turn (overNote "```js\nTYPE ERROR\n```")
    s.host.settings.codeBlockLanguages = [] ∧ ∀ form,
      (s.resolveBy form 0 "n.ts.md" {}).1.map (·.map Resolved.idAndCode) =
          .error (.transpile "error TS2322: TYPE ERROR") ∧
      s.afresh s.host.settings ((Rules.read ["+n.ts.md"]).toOption.getD []) form 0 (s.host.meantBy? "n.ts.md" {} 0) =
          .error (.transpile "error TS2322: // TYPE ERROR") := by
  refine ⟨by decide +kernel, fun form => ?_⟩
  cases form <;> exact ⟨eq_error_of_diagnostics? (by decide +kernel), eq_error_of_diagnostics? (by decide +kernel)⟩

end Session

end ScriptVault

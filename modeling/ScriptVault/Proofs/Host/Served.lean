import ScriptVault.Proofs.Host.Agreement
import ScriptVault.Proofs.Host.Basis
import ScriptVault.Proofs.Snapshot.Convergence

/-!
# Served — a file is answered for as the chain does

Where what is kept is true, and a snapshot mirrors the vault, a resolver answers for the file that it means with what
the chain of transpilers makes of its text; and what is kept is true again.
-/

namespace ScriptVault

open Compile

namespace Snapshot

variable {s : Snapshot} {rules : Rules} {v : MemoryVault} {path : String}

/-- A path that is not known is no file. -/
theorem Mirrors.of_none (h : s.Mirrors rules v) (hget : s.get? path = none) : v.text? path = none := by
  have hview := h.view path
  rw [Snapshot.view, hget] at hview
  exact Option.map_eq_none_iff.1 hview.symm

/-- A path that is known is a file, with its text where the rules ask for it. -/
theorem Mirrors.of_some (h : s.Mirrors rules v) {identity : Identity} (hget : s.get? path = some identity) :
    ∃ text, v.text? path = some text ∧ identity.content = if rules.selects path then some text else none := by
  have hview := h.view path
  rw [Snapshot.view, hget] at hview
  obtain ⟨text, htext, hcontent⟩ := Option.map_eq_some_iff.1 hview.symm
  exact ⟨text, htext, hcontent.symm⟩

/-- Where a version is known before and after a change is followed, the change left the file alone. -/
theorem text?_of_follow (hs : s.Sound) {step : Change × MemoryVault} (htouched : MemoryVault.Touched path v step)
    {identity : Identity} (hnew : (s.follow (.memory step.2) step.1).2.get? path = some identity)
    (hold : s.get? path = some identity) : step.2.text? path = v.text? path := by
  rcases htouched with ⟨hsame, -⟩ | ⟨hthere, hshows⟩ | ⟨-, htakes⟩
  · exact hsame
  · -- whoever looks at the path gives it a version of its own
    have hlook {s : Snapshot} {p : String} {i : Identity} (hp : step.2.text? p ≠ none)
        (hget : (s.look (.memory step.2) p).2.get? p = some i) : i.token = s.nextToken := by
      obtain ⟨text, htext⟩ := Option.ne_none_iff_exists'.1 hp
      unfold look at hget
      rw [if_pos (show (Vault.memory step.2).isFile p = true from MemoryVault.isFile_iff.2 hp)] at hget
      have hread : (Vault.memory step.2).read p = .ok text := MemoryVault.read_of_text? htext
      unfold tryCache at hget
      cases hcache : s.cache (.memory step.2) p with
      | error e =>
        unfold cache at hcache
        rw [hread] at hcache
        split at hcache <;> cases hcache
      | ok done =>
        obtain ⟨identity, notice, s'⟩ := done
        obtain ⟨htoken, -, -, -, rfl⟩ := cache_ok hcache
        rw [hcache] at hget
        have hget : (s.entries.put p identity).at? p = some i := hget
        rw [Table.at?_put_same] at hget
        exact Option.some.inj hget ▸ htoken
    have hlt := hs.token path identity hold
    have hge : s.nextToken ≤ identity.token := by
      cases hstep : step.1 with
      | created p | modified p =>
        rw [hstep] at hshows hnew
        cases hshows
        exact Nat.le_of_eq (hlook hthere hnew).symm
      | deleted p =>
        rw [hstep] at hshows
        exact hshows.elim
      | renamed source target =>
        rw [hstep] at hshows hnew
        cases hshows
        exact Nat.le_trans (s.course_uncache source).later.next (Nat.le_of_eq (hlook hthere hnew).symm)
    omega
  · have hview := s.view_follow_takes step.2 htakes
    rw [view, hnew] at hview
    cases hview

/-- A snapshot that mirrors a vault mirrors it again when a change was followed. -/
theorem Mirrors.follow (h : s.Mirrors rules v) {step : Change × MemoryVault}
    (htouched : ∀ path, MemoryVault.Touched path v step) :
    (s.follow (.memory step.2) step.1).2.Mirrors rules step.2 := by
  have hrules : (s.follow (.memory step.2) step.1).2.rules = rules := (s.rules_follow step.2 step.1).trans h.ruled
  refine ⟨hrules, fun path => ?_⟩
  rcases htouched path with ⟨hsame, htakes⟩ | ⟨hthere, hshows⟩ | ⟨hgone, htakes⟩
  · by_cases hfile : step.2.text? path = none
    · rw [hfile]
      exact s.view_follow_unknown step.1 hfile ((h.view path).trans (by rw [← hsame, hfile]; rfl))
    · by_cases hshows : step.1.Shows path
      · exact (s.view_follow_shows hshows hfile).trans (by rw [due, h.ruled])
      · exact (s.view_follow_other step.2 hshows fun ht => hfile (hsame.trans (htakes ht))).trans (hsame ▸ h.view path)
  · exact (s.view_follow_shows hshows hthere).trans (by rw [due, h.ruled])
  · rw [hgone]
    exact s.view_follow_takes step.2 htakes

end Snapshot

/-- The text that a file is loaded from in one of the two forms: at once, only what the rules ask for is at hand. -/
def Rules.textFor (rules : Rules) (v : MemoryVault) (path : String) : Form → Option String
  | .script => if rules.selects path then v.text? path else none
  | .module => v.text? path

/-- The id and the code of a module. -/
def Resolved.idAndCode (r : Resolved) : String × String := (r.id, r.code)

namespace Host

open Async

section Answers

variable {c : Chain} {v : MemoryVault} {rules : Rules} {form : Form} {path text : String}

/-- What the chain makes of the file that a resolver means. -/
def chainAnswer (c : Chain) (rules : Rules) (v : MemoryVault) (form : Form) :
    Option String → Except Failure (Option (String × String))
  | none => .ok none
  | some path =>
    match rules.textFor v path form with
    | none => .ok none
    | some text => (c.code form (.ofVersion path text 0)).map fun code => some (path, code)

/-- The code of a file does not depend on the version. -/
theorem code_ofVersion (form : Form) (path text : String) (t t' : Nat) :
    c.code form (.ofVersion path text t) = c.code form (.ofVersion path text t') := by
  have hnote : (Source.ofVersion path text t).isNote = (Source.ofVersion path text t').isNote := rfl
  unfold Chain.code Chain.result
  by_cases h : (Source.ofVersion path text t).isNote = true
  · rw [c.toCompile_note h, c.toCompile_note (hnote ▸ h)]
    rfl
  · rw [c.toCompile_plain h, c.toCompile_plain (hnote ▸ h)]
    rfl

theorem chainAnswer_none (ht : rules.textFor v path form = none) : chainAnswer c rules v form (some path) = .ok none := by
  unfold chainAnswer
  dsimp only
  rw [ht]

theorem chainAnswer_ok {code : String} {token : Nat} (ht : rules.textFor v path form = some text)
    (hcode : c.code form (.ofVersion path text token) = .ok code) :
    chainAnswer c rules v form (some path) = .ok (some (path, code)) := by
  unfold chainAnswer
  dsimp only
  rw [ht]
  dsimp only
  rw [code_ofVersion form path text 0 token, hcode]
  rfl

theorem chainAnswer_error {token : Nat} {e : Failure} (ht : rules.textFor v path form = some text)
    (hcode : c.code form (.ofVersion path text token) = .error e) :
    chainAnswer c rules v form (some path) = .error e := by
  unfold chainAnswer
  dsimp only
  rw [ht]
  dsimp only
  rw [code_ofVersion form path text 0 token, hcode]
  rfl

/-- What a resolver may answer for the file that it means: what the chain makes of it, or how a chain failed that was
before. -/
def Replies (c : Chains) (rules : Rules) (v : MemoryVault) (form : Form) (path? : Option String)
    (answer : Except Failure (Option (String × String))) : Prop :=
  answer = chainAnswer c.now rules v form path? ∨
    ∃ e, answer = .error e ∧ ∃ old ∈ c.past, chainAnswer old rules v form path? = .error e

/-- Where no chain was before, a resolver answers what the chain makes of the file that it means. -/
theorem Replies.of_none {c : Chains} {path? : Option String} {answer : Except Failure (Option (String × String))}
    (h : Replies c rules v form path? answer) (hpast : c.past = []) : answer = chainAnswer c.now rules v form path? := by
  rcases h with h | ⟨e, -, old, hold, -⟩
  · exact h
  · rw [hpast] at hold
    cases hold

theorem replies_failed {c : Chains} {token : Nat} {e : Failure} (ht : rules.textFor v path form = some text)
    (hpast : ∃ old ∈ c.past, old.result form (.ofVersion path text token) = .error e) :
    Replies c rules v form (some path) (.error e) := by
  obtain ⟨old, hold, hfails⟩ := hpast
  have hcode : old.code form (.ofVersion path text token) = .error e := by
    unfold Chain.code
    rw [hfails]
    rfl
  exact Or.inr ⟨e, rfl, old, hold, chainAnswer_error ht hcode⟩

end Answers

variable {c : Chains} {v : MemoryVault} {rules : Rules} {n : Nat} {h h' : Host} {ev : Evaluator}
  {s : Schedule Host Work}

/-- A resolver was asked for a file. -/
structure Stocked (n : Nat) (c : Chains) (v : MemoryVault) (h h' : Host) : Prop where
  /-- Only the resolvers, the transpilers and the workers remember it. -/
  rest : ∃ resolvers workshop outcomes nextWork, h' = { h with
    files := { h.files with resolvers := resolvers }
    workshop := workshop
    outcomes := outcomes
    nextWork := nextWork }
  /-- Numbers are given out in order. -/
  next : h.nextWork ≤ h'.nextWork
  /-- Modules that are new have new numbers. -/
  drafts : ∀ origin id, h'.workshop.modules.at? origin = some (.pending id) →
    h.workshop.modules.at? origin = some (.pending id) ∨ h.nextWork ≤ id
  /-- What is kept is true. -/
  sincere : h'.Sincere c v
  /-- There are as many resolvers. -/
  length : h'.files.resolvers.length = h.files.resolvers.length
  /-- Notes go on to be remembered, if there is such a resolver. -/
  noted : n < h.files.resolvers.length → h.Noted v → h'.Noted v

theorem Stocked.of_recalls (hs : h.Sincere c v) (a : Recalls c v h h') : Stocked n c v h h' := by
  obtain ⟨_, _, hrest⟩ := a.rest
  exact ⟨⟨_, _, _, _, hrest⟩, Nat.le_of_eq (hrest ▸ rfl), fun o id hd => Or.inl (a.drafts o _ hd), a.sincere hs,
    a.length, fun _ => a.noted hs⟩

theorem Stocked.trans {h'' : Host} (a : Stocked n c v h h') (b : Stocked n c v h' h'') : Stocked n c v h h'' := by
  refine ⟨?_, Nat.le_trans a.next b.next, fun o id hd => ?_, b.sincere, b.length.trans a.length,
    fun hlt hn => b.noted (a.length ▸ hlt) (a.noted hlt hn)⟩
  · obtain ⟨_, _, _, _, rfl⟩ := a.rest
    obtain ⟨_, _, _, _, rfl⟩ := b.rest
    exact ⟨_, _, _, _, rfl⟩
  · exact (b.drafts o id hd).elim (a.drafts o id) fun h => Or.inr (Nat.le_trans a.next h)

theorem Stocked.coded (hs : h.Sincere c v) {path text : String} {identity : Identity} {form : Form}
    (hget : h.files.snapshot.get? path = some identity) (htext : v.text? path = some text)
    (a : Coded n form (.ofVersion path text identity.token) h h') : Stocked n c v h h' := by
  have hsincere := hs.coded hget htext a
  have hnoted : n < h.files.resolvers.length → h.Noted v → h'.Noted v := fun hlt hn => hn.coded hs hlt hget htext a
  obtain ⟨h₁, hmade, hrecalls⟩ := a.recalls
  have hlength : h'.files.resolvers.length = h.files.resolvers.length :=
    (hrecalls c v).length.trans (congrArg (fun f : Files => f.resolvers.length) hmade.files)
  have hdrafts := (hrecalls c v).drafts
  have hnext := hmade.next
  have hmodules := hmade.modules
  obtain ⟨_, _, _, rfl⟩ := hmade.rest
  obtain ⟨_, _, hrest⟩ := (hrecalls c v).rest
  refine ⟨⟨_, _, _, _, hrest⟩, by rw [hrest]; exact hnext, fun o id hd => ?_, hsincere, hlength, hnoted⟩
  exact (hmodules o _ (hdrafts o _ hd)).imp_right fun h => h.2.2.2 id rfl

theorem Stocked.files (a : Stocked n c v h h') : h'.files.snapshot = h.files.snapshot ∧ h'.files.vault = h.files.vault := by
  obtain ⟨_, _, _, _, rfl⟩ := a.rest
  exact ⟨rfl, rfl⟩

/-- Code that a resolver has at hand is what the chain makes of the file. -/
theorem Sincere.lookup (hs : h.Sincere c v) {n : Nat} {path text code : String} {identity : Identity} {form : Form}
    (hget : h.files.snapshot.get? path = some identity) (htext : v.text? path = some text)
    (hcode : ((h.files.resolver n).lookup h.files.snapshot identity form).1.1 = some code) :
    c.now.code form (.ofVersion path text identity.token) = .ok code := by
  obtain ⟨entry, hentry, htoken, hcode⟩ := lookup_code hcode
  have htrue := (hs.entries _ (Files.resolver_mem hentry) _ entry hentry).2 path identity text hget htoken.symm htext
  rw [htoken] at htrue
  exact htrue form code hcode

theorem recalls_track (h : Host) (n : Nat) (id : String) :
    Recalls c v h { h with files := h.files.onResolver n (·.track id) } :=
  recalls_lessening h n (·.track id) (fun _ => FileResolver.retains_of_same rfl rfl) fun _ _ _ he => he

theorem recalls_lookup (h : Host) (n : Nat) (identity : Identity) (form : Form) :
    Recalls c v h { h with files := h.files.onResolver n fun r => (r.lookup h.files.snapshot identity form).2 } := by
  refine recalls_lessening h n _ (fun r => ?_) fun _ _ _ he => lookup_entries he
  have hsame := FileResolver.retains_of_same (r := r) rfl rfl
  unfold FileResolver.lookup
  split
  · exact hsame
  · split
    · exact hsame
    · split
      · exact hsame
      · exact ⟨fun _ hr => hr, fun hr => Table.nodup_filter hr _⟩

/-- What a resolver tells for the file that it means, and what the code rests on that it keeps then. -/
structure Serves (n : Nat) (c : Chains) (rules : Rules) (v : MemoryVault) (form : Form) (path? : Option String) (h : Host)
    (r : Except Failure (Option Resolved)) (h' : Host) : Prop where
  /-- It answers as the chain does. -/
  replies : Replies c rules v form path? (r.map (·.map Resolved.idAndCode))
  /-- It looks at what it keeps of the file, if there is one. -/
  accounts : r = .ok none ∧ h'.files.basis? = h.files.basis? ∨ ∃ path text identity, path? = some path ∧
    h.files.snapshot.get? path = some identity ∧ v.text? path = some text ∧
      Accounts n form path text identity.token h r h'

theorem serves_nothing {path? : Option String} {id : String} (hreplies : chainAnswer c.now rules v form path? = .ok none) :
    Serves n c rules v form path? h (.ok none) { h with files := h.files.onResolver n (·.track id) } :=
  ⟨Or.inl hreplies.symm, Or.inl ⟨rfl, h.files.basis?_onResolver n fun _ => rfl⟩⟩

/-- Neither the number that the question had nor what else was told matters. -/
theorem Serves.told {path? : Option String} {r : Except Failure (Option Resolved)}
    (a : Serves n c rules v form path? h.number.2 r h') (outcomes : Table Nat ScriptVault.Outcome) :
    Serves n c rules v form path? h r { h' with outcomes := outcomes } := by
  refine ⟨a.replies, a.accounts.imp_right ?_⟩
  rintro ⟨path, text, identity, hmeant, hget, htext, b⟩
  exact ⟨path, text, identity, hmeant, hget, htext, b.answered, b.cache, b.elsewhere, b.basis, b.calls⟩

/-! ### At once -/

/-- A file is answered for at once; nothing is begun to be made. -/
def ServedAtOnce (n : Nat) (c : Chains) (v : MemoryVault) (h : Host)
    (tells : Except Failure (Option Resolved) → Host → Prop) (r : Except Failure (Option Resolved)) (h' : Host) : Prop :=
  tells r h' ∧ Stocked n c v h h' ∧
    (∀ origin draft, h'.workshop.modules.at? origin = some draft → h.workshop.modules.at? origin = some draft) ∧
    h'.outcomes = h.outcomes

theorem Recalls.outcomes (a : Recalls c v h h') : h'.outcomes = h.outcomes := by
  obtain ⟨_, _, rfl⟩ := a.rest
  rfl

theorem Recalls.files (a : Recalls c v h h') :
    h'.files.snapshot = h.files.snapshot ∧ h'.files.vault = h.files.vault := by
  obtain ⟨_, _, rfl⟩ := a.rest
  exact ⟨rfl, rfl⟩

variable {r : Except Failure (Option Resolved)} {tells tells' : Except Failure (Option Resolved) → Host → Prop}

theorem servedAtOnce_of_recalls (hs : h.Sincere c v) (a : Recalls c v h h') (hr : tells r h') :
    ServedAtOnce n c v h tells r h' :=
  ⟨hr, .of_recalls hs a, a.drafts, a.outcomes⟩

theorem ServedAtOnce.after {h₀ : Host} (hr : ServedAtOnce n c v h tells r h') (hs : h₀.Sincere c v)
    (a : Recalls c v h₀ h) (htells : tells r h' → tells' r h') : ServedAtOnce n c v h₀ tells' r h' := by
  obtain ⟨hr, hserved, hdrafts, houtcomes⟩ := hr
  exact ⟨htells hr, (Stocked.of_recalls hs a).trans hserved, fun o d hd => a.drafts o d (hdrafts o d hd),
    houtcomes.trans a.outcomes⟩

/-- The code of a file that was read ahead is made anew, and kept. -/
theorem ends_scriptAnew (hs : h.Sincere c v) (n : Nat) (cache : Bool) {path text : String} {identity : Identity}
    (hget : h.files.snapshot.get? path = some identity) (htext : v.text? path = some text)
    (ht : rules.textFor v path .script = some text) :
    Action.Ends (do
        let code ← Files.code transpilers n (.ofVersion path text identity.token)
        Files.change (Files.onResolver n fun x => x.store identity code .script)
        return some (Resolved.ofFile path code cache)) h
      (ServedAtOnce n c v h fun r h' => Replies c rules v .script (some path) (r.map (·.map Resolved.idAndCode)) ∧
        Remade n .script path text identity.token cache h r h') := by
  by_cases hfailed : ∃ e, h.workshop.scripts.at? (.file identity.token) = some (.error e) ∧
      ∃ old ∈ c.past, old.result .script (.ofVersion path text identity.token) = .error e
  · obtain ⟨e, hk, hpast⟩ := hfailed
    refine Action.ends_bind ((ends_code_script_failed hk n path text).mono ?_)
    rintro _ _ ⟨rfl, rfl⟩
    exact servedAtOnce_of_recalls hs (Recalls.refl _)
      ⟨replies_failed ht hpast, remade_refused .script (congrArg Option.isSome hk)⟩
  have hkept (kept : Except Failure String)
      (hk : h.workshop.scripts.at? (.file identity.token) = some kept) :
      h.chain.result .script (.ofVersion path text identity.token) = kept.map some := by
    rw [hs.chain]
    rcases (hs.scripts _ _ hk).2 path identity text hget rfl htext with hr | ⟨e, hr, hpast⟩
    · exact hr.symm
    · cases kept with
      | error _ => exact absurd ⟨_, hk, Except.error.inj hr ▸ hpast⟩ hfailed
      | ok _ => cases hr
  refine Action.ends_bind ((ends_code_script h n path text identity.token hkept).mono
    fun r h₁ ⟨hr, hcoded, hmodules, houtcomes⟩ => ?_)
  have hserved : Stocked n c v h h₁ := .coded hs hget htext hcoded
  cases r with
  | error e =>
    rw [hs.chain] at hr
    exact ⟨⟨Or.inl (chainAnswer_error ht hr.symm).symm, remade_failed hcoded⟩, hserved, fun o d hd => hmodules ▸ hd,
      houtcomes⟩
  | ok code =>
    obtain ⟨made, hmade⟩ := h.chain.result_of_code hr.symm
    have hremembers (hlt : n < h₁.files.resolvers.length) := hcoded.remembers hmade (hserved.length ▸ hlt)
    rw [hs.chain] at hr
    have hget₁ : h₁.files.snapshot.get? path = some identity := by
      rw [hserved.files.1]
      exact hget
    have b : Recalls c v h₁ { h₁ with files := h₁.files.onResolver n (·.store identity code .script) } :=
      recalls_store h₁ n hget₁ htext hr.symm hremembers
    refine Action.ends_bind (Action.ends_withFiles (Action.ends_pure ?_))
    exact ⟨⟨Or.inl (chainAnswer_ok ht hr.symm).symm,
      remade_kept hget₁ (hs.sound.path path identity hget) hserved.length hcoded code⟩,
      hserved.trans (.of_recalls hserved.sincere b), fun o d hd => hmodules ▸ b.drafts o d hd, houtcomes⟩

/-- How a resolver answers at once for a version of a file that was read ahead. -/
def resolveText (n : Nat) (path text : String) (identity : Identity) : Action (Option Resolved) := do
  Files.track n path
  let (kept, stale) ← Files.lookup n identity .script
  match kept with
  | some code => return some (.ofFile path code true)
  | none =>
    if stale then (Files.forgetToken transpilers n identity.token : StateT Host Option Unit)
    let code ← Files.code transpilers n (.ofVersion path text identity.token)
    Files.change (Files.onResolver n (·.store identity code .script))
    return some (.ofFile path code !stale)

theorem ends_resolveText (hs : h.Sincere c v) (n : Nat) {path text : String} {identity : Identity}
    (hget : h.files.snapshot.get? path = some identity) (htext : v.text? path = some text)
    (ht : rules.textFor v path .script = some text) :
    Action.Ends (resolveText n path text identity) h
      (ServedAtOnce n c v h fun r h' => Replies c rules v .script (some path) (r.map (·.map Resolved.idAndCode)) ∧
        Accounts n .script path text identity.token h r h') := by
  have hpath := hs.sound.path path identity hget
  refine Action.ends_bind (Action.ends_withFiles ?_)
  have a₁ := recalls_track (c := c) (v := v) h n path
  set h₁ : Host := { h with files := h.files.onResolver n (·.track path) } with hh₁
  set h₂ : Host := { h₁ with
    files := h₁.files.onResolver n fun r => (r.lookup h₁.files.snapshot identity .script).2 } with hh₂
  have hget₁ : h₁.files.snapshot.get? path = some identity := hget
  have hstale := h₁.files.lookup_isStale n hget₁ hpath .script
  have hfound (code : String) := accounts_found h₁ n .script text code hget₁ hpath
  have hlooked (code : String)
      (hcode : ((h₁.files.resolver n).lookup h₁.files.snapshot identity .script).1.1 = some code) :
      c.now.code .script (.ofVersion path text identity.token) = .ok code :=
    (a₁.sincere hs).lookup hget₁ htext hcode
  have hfree : h₁.files.isStale n path = true → (h₂.files.resolver n).entries.at? path = none := fun hdrops =>
    hpath ▸ Files.entry_of_stale (hstale.trans hdrops)
  have hlookup : Action.Ends (Files.lookup n identity .script) h₁ fun r h' =>
      ∃ a, r = .ok a ∧ a = ((h₁.files.resolver n).lookup h₁.files.snapshot identity .script).1 ∧ h' = h₂ :=
    Action.ends_withFiles ⟨_, rfl, rfl, rfl⟩
  refine Action.ends_bind_ok hlookup ?_
  rintro ⟨kept, stale⟩ _ ⟨hl, rfl⟩
  rw [← hl] at hstale hlooked hfound
  have a₂ := a₁.trans (recalls_lookup h₁ n identity .script)
  cases kept with
  | some code =>
    refine Action.ends_pure ?_
    exact servedAtOnce_of_recalls hs a₂ ⟨Or.inl (chainAnswer_ok ht (hlooked code rfl)).symm,
      (hfound code rfl).after_track⟩
  | none =>
    cases stale with
    | false =>
      refine (ends_scriptAnew (a₂.sincere hs) n true hget htext ht).mono fun r h' hr => hr.after hs a₂ ?_
      rintro ⟨hreplies, hremade⟩
      refine ⟨hreplies, Accounts.after_track ((looked_lookup hget₁ hpath .script hstale.symm).accounts ?_)⟩
      rwa [← hstale]
    | true =>
      have a₃ := a₂.trans (recalls_forgetToken h₂ n hget htext (hfree hstale.symm))
      refine Action.ends_bind ⟨.ok (), _, rfl, (ends_scriptAnew (a₃.sincere hs) n false (a₃.files.1 ▸ hget) htext
        ht).mono fun r h' hr => hr.after hs a₃ ?_⟩
      rintro ⟨hreplies, hremade⟩
      refine ⟨hreplies, Accounts.after_track ((looked_forget hget₁ hpath .script hh₂).accounts ?_)⟩
      rwa [← hstale]

/-- At once, a resolver answers for the file that it means as the chain does, if the file was read ahead. -/
theorem ends_resolve_served (hs : h.Sincere c v) (hm : h.files.snapshot.Mirrors rules v) (n : Nat) (id : String)
    (context : Context) :
    Action.Ends (Files.resolve transpilers n id context) h
      (ServedAtOnce n c v h (Serves n c rules v .script (h.meantBy? id context n) h)) := by
  unfold Files.resolve
  refine Action.ends_bind (Action.ends_withFiles (Action.ends_bind (Action.ends_withFiles ?_)))
  have a := recalls_track (c := c) (v := v) h n id
  have hmeant := (unmoved_track h n id).meantBy? id context n
  set h₁ : Host := { h with files := h.files.onResolver n (·.track id) } with hh₁
  rw [← hmeant]
  dsimp only
  rw [path?_eq_meantBy?]
  cases h₁.meantBy? id context n with
  | none => exact Action.ends_pure (servedAtOnce_of_recalls hs a (serves_nothing rfl))
  | some path =>
    refine Action.ends_bind (Action.ends_withFiles ?_)
    dsimp only
    rw [a.files.1]
    cases hget : h.files.snapshot.get? path with
    | none =>
      have ht : rules.textFor v path .script = none := by
        unfold Rules.textFor
        rw [hm.of_none hget, ite_self]
      exact Action.ends_pure (servedAtOnce_of_recalls hs a (serves_nothing (chainAnswer_none ht)))
    | some identity =>
      obtain ⟨text, htext, hcontent⟩ := hm.of_some hget
      dsimp only
      by_cases hselects : rules.selects path = true
      · rw [if_pos hselects] at hcontent
        have ht : rules.textFor v path .script = some text := by
          unfold Rules.textFor
          rw [if_pos hselects, htext]
        rw [hcontent]
        refine (ends_resolveText (a.sincere hs) n (a.files.1 ▸ hget) htext ht).mono fun r h' hr => hr.after hs a ?_
        rintro ⟨hreplies, haccounts⟩
        exact ⟨hreplies, Or.inr ⟨path, text, identity, rfl, hget, htext, haccounts.after_track⟩⟩
      · rw [if_neg hselects] at hcontent
        have ht : rules.textFor v path .script = none := if_neg hselects
        rw [hcontent]
        exact Action.ends_pure (servedAtOnce_of_recalls hs a (serves_nothing (chainAnswer_none ht)))

/-! ### Later -/

/-- A file is answered for while nothing else runs. -/
def ServedLater (n : Nat) (c : Chains) (v : MemoryVault) (h : Host)
    (tells : Except Failure (Option Resolved) → Host → Prop) (r : Except Failure (Option Resolved))
    (s : Schedule Host Work) : Prop := tells r s.state ∧ Rests s ∧ Stocked n c v h s.state

theorem servedLater_of_recalls (hrests : Rests s) (hs : s.state.Sincere c v) (a : Recalls c v s.state h)
    (hr : tells r h) : ServedLater n c v s.state tells r { s with state := h } :=
  ⟨hr, hrests.recalls a, .of_recalls hs a⟩

theorem ServedLater.after (hs : s.state.Sincere c v) (a : Recalls c v s.state h) {s' : Schedule Host Work}
    (hr : ServedLater n c v h tells r s') (htells : tells r s'.state → tells' r s'.state) :
    ServedLater n c v s.state tells' r s' := ⟨htells hr.1, hr.2.1, (Stocked.of_recalls hs a).trans hr.2.2⟩

/-- The module of a file is made anew, and kept. -/
theorem ends_moduleAnew (hrests : Rests s) (hs : s.state.Sincere c v) (hready : s.rootReady = false)
    (hm : s.state.files.snapshot.Mirrors rules v) (hvault : s.state.files.vault = .memory v) (n : Nat) (cache : Bool)
    {path text : String} {identity : Identity} (hget : s.state.files.snapshot.get? path = some identity)
    (htext : v.text? path = some text) :
    (makeVersion n path identity cache).run.Ends (plan ev) 1 s
      (ServedLater n c v s.state fun r h' => Replies c rules v .module (some path) (r.map (·.map Resolved.idAndCode)) ∧
        Remade n .module path text identity.token cache s.state r h') := by
  have ht : rules.textFor v path .module = some text := htext
  -- the text is at hand or can be read
  have hread : identity.content.elim (s.state.files.vault.read path) .ok = .ok text := by
    obtain ⟨text', htext', hcontent⟩ := hm.of_some hget
    obtain rfl := Option.some.inj (htext.symm.trans htext')
    rw [hcontent]
    by_cases hselects : rules.selects path = true
    · rw [if_pos hselects]
      rfl
    · rw [if_neg hselects, hvault]
      exact MemoryVault.read_of_text? htext
  unfold makeVersion
  refine ends_then (ends_viewLater _ hrests.asked) ?_
  rw [hread]
  by_cases hfailed : ∃ draft e, s.state.workshop.modules.at? (.file identity.token) = some draft ∧
      s.state.draftOf draft = .error e ∧
      ∃ old ∈ c.past, old.result .module (.ofVersion path text identity.token) = .error e
  · obtain ⟨draft, e, hd, he, hpast⟩ := hfailed
    refine ends_except (m := 0) (n := 1) (ends_code_module_failed hrests hd he n path text) ?_ ?_
    · rintro _ _ ⟨h, -⟩
      cases h
    · rintro _ _ ⟨h, rfl⟩
      cases h
      exact servedLater_of_recalls hrests hs (Recalls.refl _)
        ⟨replies_failed ht hpast, remade_refused .module (congrArg Option.isSome hd)⟩
  have hkept (draft : Draft) (hd : s.state.workshop.modules.at? (.file identity.token) = some draft) :
      s.state.draftOf draft = s.state.chain.result .module (.ofVersion path text identity.token) := by
    rw [hs.chain]
    rcases (hs.modules _ _ hd).2 path identity text hget rfl htext with hr | ⟨e, hr, hpast⟩
    · exact hr
    · exact absurd ⟨draft, e, hd, hr, hpast⟩ hfailed
  refine ends_except (m := 1) (n := 0) (ends_code_module hrests hs.numbered hready n path text identity.token hkept)
    ?_ ?_
  · rintro code s₁ ⟨hr, hrests₁, hcoded⟩
    have hserved : Stocked n c v s.state s₁.state := .coded hs hget htext hcoded
    have hget₁ : s₁.state.files.snapshot.get? path = some identity := hserved.files.1 ▸ hget
    obtain ⟨made, hmade⟩ := s.state.chain.result_of_code hr.symm
    have hremembers (hlt : n < s₁.state.files.resolvers.length) := hcoded.remembers hmade (hserved.length ▸ hlt)
    have hr : c.now.code .module (.ofVersion path text identity.token) = .ok code := hs.chain ▸ hr.symm
    have b : Recalls c v s₁.state { s₁.state with
        files := s₁.state.files.onResolver n (·.store identity code .module) } :=
      recalls_store _ n hget₁ htext hr hremembers
    refine ends_then (ends_viewLater _ hrests₁.asked) ?_
    rw [if_pos (hserved.sincere.sound.isCurrent hget₁)]
    refine ends_then (ends_filesLater _ hrests₁.asked) (ends_pure ?_)
    exact ⟨⟨Or.inl (chainAnswer_ok ht hr).symm,
      remade_kept hget₁ (hs.sound.path path identity hget) hserved.length hcoded code⟩, hrests₁.recalls b,
      hserved.trans (.of_recalls hserved.sincere b)⟩
  · rintro e s₁ ⟨hr, hrests₁, hcoded⟩
    have hr : c.now.code .module (.ofVersion path text identity.token) = .error e := hs.chain ▸ hr.symm
    exact ⟨⟨Or.inl (chainAnswer_error ht hr).symm, remade_failed hcoded⟩, hrests₁, .coded hs hget htext hcoded⟩

/-- While nothing else runs, a resolver answers for a version of a file as the chain does. -/
theorem ends_resolveVersion_served (hrests : Rests s) (hs : s.state.Sincere c v) (hready : s.rootReady = false)
    (hm : s.state.files.snapshot.Mirrors rules v) (hvault : s.state.files.vault = .memory v) (n : Nat)
    {path text : String} {identity : Identity} (hget : s.state.files.snapshot.get? path = some identity)
    (htext : v.text? path = some text) :
    (Files.resolveVersion transpilersLater n path identity).run.Ends (plan ev) 1 s
      (ServedLater n c v s.state fun r h' => Replies c rules v .module (some path) (r.map (·.map Resolved.idAndCode)) ∧
        Accounts n .module path text identity.token s.state r h') := by
  have hpath := hs.sound.path path identity hget
  unfold Files.resolveVersion
  refine ends_then (ends_trackLater n path hrests.asked) ?_
  have a₁ := recalls_track (c := c) (v := v) s.state n path
  set h₁ : Host := { s.state with files := s.state.files.onResolver n (·.track path) } with hh₁
  refine ends_then (ends_lookupLater n identity .module (hrests.recalls a₁).asked) ?_
  have a₂ := a₁.trans (recalls_lookup h₁ n identity .module)
  set h₂ : Host := { h₁ with
    files := h₁.files.onResolver n fun r => (r.lookup h₁.files.snapshot identity .module).2 } with hh₂
  have hget₁ : h₁.files.snapshot.get? path = some identity := hget
  have hstale := h₁.files.lookup_isStale n hget₁ hpath .module
  have hfound (code : String) := accounts_found h₁ n .module text code hget₁ hpath
  have hlooked (code : String)
      (hcode : ((h₁.files.resolver n).lookup h₁.files.snapshot identity .module).1.1 = some code) :
      c.now.code .module (.ofVersion path text identity.token) = .ok code :=
    (a₁.sincere hs).lookup hget₁ htext hcode
  have hfree : h₁.files.isStale n path = true → (h₂.files.resolver n).entries.at? path = none := fun hdrops =>
    hpath ▸ Files.entry_of_stale (hstale.trans hdrops)
  revert hlooked hstale hfound
  rcases ((h₁.files.resolver n).lookup h₁.files.snapshot identity .module).1 with ⟨kept, stale⟩
  intro hstale hfound hlooked
  cases kept with
  | some code =>
    have hanswer : chainAnswer c.now rules v .module (some path) = .ok (some (path, code)) :=
      chainAnswer_ok htext (hlooked code rfl)
    exact ends_pure (servedLater_of_recalls hrests hs a₂ ⟨Or.inl hanswer.symm, (hfound code rfl).after_track⟩)
  | none =>
    cases stale with
    | false =>
      refine (ends_moduleAnew (hrests.recalls a₂) (a₂.sincere hs) hready hm hvault n true hget htext).mono
        (Nat.le_refl 1) fun r s' hr => hr.after hs a₂ ?_
      rintro ⟨hreplies, hremade⟩
      refine ⟨hreplies, Accounts.after_track ((looked_lookup hget₁ hpath .module hstale.symm).accounts ?_)⟩
      rwa [← hstale]
    | true =>
      have a₃ := a₂.trans (recalls_forgetToken h₂ n (a₂.files.1 ▸ hget) htext (hfree hstale.symm))
      refine ends_then (ends_forgetTokenLater n identity.token (hrests.recalls a₂).asked)
        ((ends_moduleAnew (hrests.recalls a₃) (a₃.sincere hs) hready hm hvault n false hget htext).mono
          (Nat.le_refl 1) fun r s' hr => hr.after hs a₃ ?_)
      rintro ⟨hreplies, hremade⟩
      refine ⟨hreplies, Accounts.after_track ((looked_forget hget₁ hpath .module hh₂).accounts ?_)⟩
      rwa [← hstale]

/-- While nothing else runs, a resolver answers for the file that it means as the chain does. -/
theorem ends_resolveLater_served (hrests : Rests s) (hs : s.state.Sincere c v) (hready : s.rootReady = false)
    (hm : s.state.files.snapshot.Mirrors rules v) (hvault : s.state.files.vault = .memory v) (n : Nat) (id : String)
    (context : Context) :
    (Files.resolveLater transpilersLater n id context).run.Ends (plan ev) 1 s
      (ServedLater n c v s.state (Serves n c rules v .module (s.state.meantBy? id context n) s.state)) := by
  unfold Files.resolveLater
  refine ends_then (ends_trackLater n id hrests.asked) ?_
  have a := recalls_track (c := c) (v := v) s.state n id
  have hmeant := (unmoved_track s.state n id).meantBy? id context n
  set h : Host := { s.state with files := s.state.files.onResolver n (·.track id) } with hh
  have hrests' := hrests.recalls a
  refine ends_then (ends_viewLater _ hrests'.asked) ?_
  rw [← hmeant]
  dsimp only
  rw [path?_eq_meantBy?]
  cases h.meantBy? id context n with
  | none => exact ends_pure (servedLater_of_recalls hrests hs a (serves_nothing rfl))
  | some path =>
    refine ends_then (ends_viewLater _ hrests'.asked) ?_
    dsimp only
    cases hget : h.files.snapshot.get? path with
    | none =>
      -- a path that is not known cannot be read either
      have htext : v.text? path = none := hm.of_none (a.files.1 ▸ hget)
      obtain ⟨e, hread⟩ : ∃ e, h.files.vault.read path = .error e := by
        rw [a.files.2, hvault]
        show ∃ e, v.read path = .error e
        unfold MemoryVault.read
        rw [htext]
        exact ⟨_, rfl⟩
      refine ends_then (ends_viewLater _ hrests'.asked) ?_
      dsimp only
      rw [hread]
      exact ends_pure (servedLater_of_recalls hrests hs a (serves_nothing (chainAnswer_none htext)))
    | some identity =>
      obtain ⟨text, htext, -⟩ := hm.of_some (a.files.1 ▸ hget)
      refine (ends_resolveVersion_served hrests' (a.sincere hs) hready (a.files.1 ▸ hm) (a.files.2.trans hvault) n hget
        htext).mono (Nat.le_refl 1) fun r s' hr => hr.after hs a ?_
      rintro ⟨hreplies, haccounts⟩
      exact ⟨hreplies, Or.inr ⟨path, text, identity, rfl, hget, htext, haccounts.after_track⟩⟩

end Host

end ScriptVault

import ScriptVault.Proofs.Host.Edits
import ScriptVault.Proofs.Host.Later
import ScriptVault.Proofs.Snapshot.Mirror

/-!
# Chain — what transpilers make of a file, and what is kept of it

Notes and TypeScript are turned into code by a chain of transpilers, at once or in the hands of a worker.  What the
chain makes of a source is told by the settings and the compiler alone.  Whatever is kept under the token of a version
is what the chain makes of the text that the file has while this version is the one that is known.
-/

namespace ScriptVault

open Compile

/-- All that decides what becomes of a source. -/
structure Chain where
  /-- The settings. -/
  settings : Settings
  /-- The compiler. -/
  compiler : Option (Compile.Request → Compile.Outcome)

namespace Chain

variable (c : Chain)

/-- What comes of compiling a source in one of the two forms; none if it needs no compiler. -/
def made (form : Form) (source : Source) (given : Option Header) : Except Failure (Option String) :=
  match Workshop.request? source given form with
  | none => .ok none
  | some request => (({ compiler := c.compiler } : Workshop).compile request).1.map some

/-- What is compiled of a source, and with which declaration: the script in a note, and else the source. -/
def toCompile (source : Source) : Source × Option Header :=
  if source.isNote then ((source.ofNote c.settings).1, some (source.ofNote c.settings).2) else (source, none)

/-- What comes of compiling what is to be compiled of a source. -/
def result (form : Form) (source : Source) : Except Failure (Option String) :=
  c.made form (c.toCompile source).1 (c.toCompile source).2

/-- How often the compiler is asked to compile a source of which nothing is kept. -/
def calls (form : Form) (source : Source) (given : Option Header) : Nat :=
  if c.compiler.isSome && (Workshop.request? source given form).isSome then 1 else 0

/-- How often the compiler is asked for the code of a source of which nothing is kept. -/
def asks (form : Form) (source : Source) : Nat := c.calls form (c.toCompile source).1 (c.toCompile source).2

/-- The code of a source in one of the two forms. -/
def code (form : Form) (source : Source) : Except Failure String :=
  (c.result form source).map (·.getD (c.toCompile source).1.content)

theorem result_of_code {form : Form} {source : Source} {code : String} (h : c.code form source = .ok code) :
    ∃ made, c.result form source = .ok made := by
  unfold Chain.code at h
  cases hr : c.result form source with
  | error e =>
    rw [hr] at h
    cases h
  | ok made => exact ⟨made, rfl⟩

theorem toCompile_note {source : Source} (h : source.isNote = true) :
    c.toCompile source = ((source.ofNote c.settings).1, some (source.ofNote c.settings).2) := if_pos h

theorem toCompile_plain {source : Source} (h : ¬source.isNote = true) : c.toCompile source = (source, none) := if_neg h

theorem toCompile_origin (source : Source) : (c.toCompile source).1.origin = source.origin := by
  unfold toCompile
  split <;> rfl

end Chain

/-- The chain that is in force, and those that were before. -/
structure Chains where
  /-- The chain in force. -/
  now : Chain
  /-- The chains before. -/
  past : List Chain := []

/-- What may be kept of compiling a source: what the chain makes of it, or how a chain failed that was before. -/
def Chains.Gives (c : Chains) (form : Form) (source : Source) (r : Except Failure (Option String)) : Prop :=
  r = c.now.result form source ∨ ∃ e, r = .error e ∧ ∃ old ∈ c.past, old.result form source = .error e

/-- A file as a source, under the token of a version. -/
def Source.ofVersion (path text : String) (token : Nat) : Source := ⟨text, some path, some (.file token)⟩

/-- What holds of the source that a version is, as long as the version is known. -/
def Snapshot.Holds (s : Snapshot) (v : MemoryVault) (token : Nat) (P : Source → Prop) : Prop :=
  token < s.nextToken ∧ ∀ path identity text, s.get? path = some identity → identity.token = token →
    v.text? path = some text → P (.ofVersion path text token)

namespace Snapshot

variable {s s' : Snapshot} {v v' : MemoryVault} {token : Nat} {P Q : Source → Prop}

theorem Holds.imp (h : s.Holds v token P) (hpq : ∀ source, P source → Q source) : s.Holds v token Q :=
  ⟨h.1, fun path identity text hget ht htext => hpq _ (h.2 path identity text hget ht htext)⟩

/-- What holds of the one file that has a version holds of the version. -/
theorem Holds.of_get (hs : s.Sound) {path text : String} {identity : Identity} (hget : s.get? path = some identity)
    (htext : v.text? path = some text) (hp : P (.ofVersion path text identity.token)) :
    s.Holds v identity.token P := by
  refine ⟨hs.token path identity hget, fun q i t hi ht htext' => ?_⟩
  obtain rfl := hs.unique q path i identity hi hget ht
  obtain rfl := Option.some.inj (htext'.symm.trans htext)
  exact hp

/-- What holds of a version goes on to hold: where the version is still known, the file is as it was. -/
theorem Holds.later (h : s.Holds v token P) (hlater : Later s s')
    (hsame : ∀ path identity, s'.get? path = some identity → s.get? path = some identity →
      v'.text? path = v.text? path) : s'.Holds v' token P := by
  refine ⟨Nat.lt_of_lt_of_le h.1 hlater.next, fun path identity text hget ht htext => ?_⟩
  have hold : s.get? path = some identity := (hlater.same path identity hget).resolve_right fun hnew => by
    have := h.1
    omega
  exact h.2 path identity text hold ht ((hsame path identity hget hold).symm.trans htext)

end Snapshot

/-! ### Tables with one row a key -/

namespace Table

variable {κ α : Type} {t : Table κ α}

theorem nodup_filter (h : t.keys.Nodup) (p : κ × α → Bool) : (Table.keys (t.filter p)).Nodup :=
  h.sublist (List.filter_sublist.map _)

variable [DecidableEq κ]

theorem nodup_put (h : t.keys.Nodup) (key : κ) (value : α) : (t.put key value).keys.Nodup := by
  have mem {t : Table κ α} {k : κ} (hk : k ∈ (t.put key value).keys) : k = key ∨ k ∈ t.keys := by
    by_cases hkey : k = key
    · exact Or.inl hkey
    · refine Or.inr (Snapshot.mem_keys.2 ?_)
      rw [← at?_put_ne (Ne.symm hkey) t value]
      exact Snapshot.mem_keys.1 hk
  induction t with
  | nil => exact List.pairwise_singleton _ key
  | cons row t ih =>
    obtain ⟨k, v⟩ := row
    obtain ⟨hk, ht⟩ := List.nodup_cons.1 h
    unfold put
    by_cases hkey : k = key
    · rw [if_pos hkey]
      exact List.nodup_cons.2 ⟨hkey ▸ hk, ht⟩
    · rw [if_neg hkey]
      exact List.nodup_cons.2 ⟨fun hmem => (mem hmem).elim hkey hk, ih ht⟩

theorem nodup_update (h : t.keys.Nodup) (key : κ) (change : α → α) : (t.update key change).keys.Nodup := by
  have hkeys : (t.update key change).keys = t.keys := by
    unfold update keys
    rw [List.map_map]
    refine List.map_congr_left fun row _ => ?_
    dsimp only [Function.comp]
    split <;> rfl
  rwa [hkeys]

/-- Where each key has one row, what is left of a table is as it was. -/
theorem at?_filter (h : t.keys.Nodup) {p : κ × α → Bool} {key : κ} {value : α}
    (hat : at? (t.filter p) key = some value) : t.at? key = some value ∧ p (key, value) = true := by
  induction t with
  | nil => cases hat
  | cons row t ih =>
    obtain ⟨k, v⟩ := row
    obtain ⟨hk, ht⟩ := List.nodup_cons.1 h
    rw [at?_cons]
    by_cases hkey : k = key
    · subst hkey
      rw [if_pos rfl]
      by_cases hp : p (k, v) = true
      · rw [List.filter_cons_of_pos hp, at?_cons, if_pos rfl] at hat
        exact ⟨hat, Option.some.inj hat ▸ hp⟩
      · rw [List.filter_cons_of_neg hp] at hat
        -- another row of the key would be one too many
        refine absurd ?_ hk
        exact Snapshot.mem_keys.2 fun hnone => by
          rw [(ih ht hat).1] at hnone
          cases hnone
    · rw [if_neg hkey]
      refine ih ht ?_
      by_cases hp : p (k, v) = true
      · rwa [List.filter_cons_of_pos hp, at?_cons, if_neg hkey] at hat
      · rwa [List.filter_cons_of_neg hp] at hat

end Table

namespace FileResolver

variable {r : FileResolver} {token : Nat}

/-- A resolver remembers a version: the first transpiler, which is that of notes, made code from it. -/
def Remembers (r : FileResolver) (token : Nat) : Prop := token ∈ (r.transpiled.at? 0).getD []

theorem remembers_noteTranspiled (r : FileResolver) (token : Nat) : (r.noteTranspiled 0 token).Remembers token := by
  simp [Remembers, noteTranspiled]

theorem Remembers.noteTranspiled (h : r.Remembers token) (i t : Nat) : (r.noteTranspiled i t).Remembers token := by
  unfold Remembers FileResolver.noteTranspiled
  dsimp only
  rw [Table.at?_put]
  split
  · next hi =>
    subst hi
    exact List.mem_insert_of_mem h
  · exact h

theorem Remembers.forgetToken (h : r.Remembers token) {t : Nat} (ht : token ≠ t) :
    (r.forgetToken t).Remembers token := by
  have kept (rows : Table Nat (List Nat)) (hrows : token ∈ (rows.at? 0).getD []) :
      token ∈ (Table.at? (rows.map fun row => (row.1, row.2.erase t)) 0).getD [] := by
    induction rows with
    | nil => exact hrows
    | cons row rows ih =>
      obtain ⟨n, tokens⟩ := row
      rw [Table.at?_cons] at hrows
      rw [List.map_cons, Table.at?_cons]
      by_cases hn : n = 0
      · rw [if_pos hn] at hrows ⊢
        exact (List.mem_erase_of_ne ht).2 hrows
      · rw [if_neg hn] at hrows ⊢
        exact ih hrows
  exact kept r.transpiled h

/-- A resolver becomes one that remembers no less, and that has one row a path if it had before. -/
structure Retains (r r' : FileResolver) : Prop where
  /-- It remembers no less. -/
  remembers : ∀ token, r.Remembers token → r'.Remembers token
  /-- It goes on to have one row a path. -/
  distinct : r.entries.keys.Nodup → r'.entries.keys.Nodup

theorem retains_of_same {r' : FileResolver} (ht : r'.transpiled = r.transpiled) (he : r'.entries = r.entries) :
    r.Retains r' := ⟨fun token h => by unfold Remembers; rwa [ht], fun h => he ▸ h⟩

theorem retains_noteTranspiled (r : FileResolver) (i token : Nat) : r.Retains (r.noteTranspiled i token) :=
  ⟨fun _ h => h.noteTranspiled i token, id⟩

end FileResolver

namespace Host

/-- The chain of transpilers of a host. -/
def chain (h : Host) : Chain := ⟨h.settings, h.workshop.compiler⟩

/-- What came of a module that is kept. -/
def draftOf (h : Host) : Draft → Except Failure (Option String)
  | .asIs => .ok none
  | .pending id => Outcome.asCode (h.outcome? id)

/-- Code that is kept is that of a source. -/
def CodeTrue (c : Chain) (entry : Entry) (source : Source) : Prop :=
  ∀ form code, entry.code form = some code → c.code form source = .ok code

/-- Modules that are kept have numbers that were given out. -/
def Numbered (h : Host) : Prop :=
  ∀ origin id, h.workshop.modules.at? origin = some (.pending id) → id < h.nextWork

/-- Whatever is kept of the files of a vault is what the chain makes of them, or how they failed before. -/
structure Sincere (c : Chains) (v : MemoryVault) (h : Host) : Prop where
  /-- This is the chain. -/
  chain : h.chain = c.now
  /-- The versions are told apart by their tokens. -/
  sound : h.files.snapshot.Sound
  /-- The code that the resolvers keep. -/
  entries : ∀ r ∈ h.files.resolvers, ∀ path entry, r.entries.at? path = some entry →
    h.files.snapshot.Holds v entry.token (CodeTrue c.now entry)
  /-- The scripts that are kept. -/
  scripts : ∀ token kept, h.workshop.scripts.at? (.file token) = some kept →
    h.files.snapshot.Holds v token fun source => c.Gives .script source (kept.map some)
  /-- The modules that are kept. -/
  modules : ∀ token draft, h.workshop.modules.at? (.file token) = some draft →
    h.files.snapshot.Holds v token fun source => c.Gives .module source (h.draftOf draft)
  /-- The modules that are kept have numbers that were given out. -/
  numbered : h.Numbered

/-- A resolver remembers a version. -/
def Remembers (h : Host) (token : Nat) : Prop := ∃ r ∈ h.files.resolvers, r.Remembers token

/-- The notes of which code is kept are remembered. -/
structure Noted (v : MemoryVault) (h : Host) : Prop where
  /-- A resolver has one row a path. -/
  distinct : ∀ r ∈ h.files.resolvers, r.entries.keys.Nodup
  /-- A resolver keeps code under the path of its version, and remembers the version if it is a note. -/
  entries : ∀ r ∈ h.files.resolvers, ∀ path entry, r.entries.at? path = some entry →
    h.files.snapshot.Holds v entry.token fun source =>
      source.path = some path ∧ (source.isNote = true → r.Remembers entry.token)
  /-- The notes of which scripts are kept. -/
  scripts : ∀ token code, h.workshop.scripts.at? (.file token) = some (.ok code) →
    h.files.snapshot.Holds v token fun source => source.isNote = true → h.Remembers token
  /-- The notes of which modules are kept. -/
  modules : ∀ token draft, h.workshop.modules.at? (.file token) = some draft →
    (∀ e, h.draftOf draft ≠ .error e) →
    h.files.snapshot.Holds v token fun source => source.isNote = true → h.Remembers token

/-! ### Steps that only remember or forget -/

/-- A step that only remembers or forgets what was asked for and made; no draft is new. -/
structure Recalls (c : Chains) (v : MemoryVault) (h h' : Host) : Prop where
  /-- Only the resolvers and the transpilers remember it. -/
  rest : ∃ resolvers workshop, h' = { h with files := { h.files with resolvers := resolvers }, workshop := workshop }
  /-- There are as many resolvers. -/
  length : h'.files.resolvers.length = h.files.resolvers.length
  /-- No draft is new. -/
  drafts : ∀ origin draft, h'.workshop.modules.at? origin = some draft → h.workshop.modules.at? origin = some draft
  /-- What is kept stays true. -/
  sincere : h.Sincere c v → h'.Sincere c v
  /-- Notes go on to be remembered. -/
  noted : h.Sincere c v → h.Noted v → h'.Noted v

variable {c : Chains} {v : MemoryVault} {h h' h'' : Host}

theorem Recalls.refl (h : Host) : Recalls c v h h :=
  ⟨⟨h.files.resolvers, h.workshop, rfl⟩, rfl, fun _ _ hd => hd, id, fun _ => id⟩

theorem Recalls.trans (a : Recalls c v h h') (b : Recalls c v h' h'') : Recalls c v h h'' := by
  refine ⟨?_, b.length.trans a.length, fun origin draft hd => a.drafts _ _ (b.drafts _ _ hd),
    fun hs => b.sincere (a.sincere hs), fun hs hn => b.noted (a.sincere hs) (a.noted hs hn)⟩
  obtain ⟨_, _, rfl⟩ := a.rest
  obtain ⟨resolvers, workshop, rfl⟩ := b.rest
  exact ⟨resolvers, workshop, rfl⟩

/-- What a resolver has become is as it was, or is changed where it stands in the row. -/
theorem mem_onResolver_at {f : Files} {n : Nat} {change : FileResolver → FileResolver} {r : FileResolver}
    (hr : r ∈ (f.onResolver n change).resolvers) :
    r ∈ f.resolvers ∨ n < f.resolvers.length ∧ f.resolver n ∈ f.resolvers ∧ r = change (f.resolver n) := by
  unfold Files.onResolver at hr
  by_cases hn : n < f.resolvers.length
  · refine (List.mem_or_eq_of_mem_set hr).imp_right fun h => ⟨hn, ?_, h⟩
    rw [resolver_eq_getElem hn]
    exact List.getElem_mem hn
  · rw [List.set_eq_of_length_le (by omega)] at hr
    exact Or.inl hr

theorem resolver_onResolver {f : Files} {n : Nat} (hn : n < f.resolvers.length)
    (change : FileResolver → FileResolver) : (f.onResolver n change).resolver n = change (f.resolver n) := by
  simp [Files.onResolver, Files.resolver, hn]

/-- Versions go on to be remembered where a resolver is changed that remembers no less. -/
theorem Remembers.onResolver {token : Nat} (hr : h.Remembers token) (n : Nat) {change : FileResolver → FileResolver}
    (hchange : ∀ r : FileResolver, r.Remembers token → (change r).Remembers token) :
    Remembers { h with files := h.files.onResolver n change } token := by
  obtain ⟨r, hr, htoken⟩ := hr
  rcases onResolver_mem n change hr with hr | hr
  · exact ⟨r, hr, htoken⟩
  · exact ⟨_, hr, hchange r htoken⟩

/-- A resolver may be changed where it keeps no code that is new, or only such as is true, and forgets no version. -/
theorem recalls_onResolver (h : Host) (n : Nat) (change : FileResolver → FileResolver)
    (hretains : ∀ r : FileResolver, r.Retains (change r))
    (hchange : ∀ path entry, (change (h.files.resolver n)).entries.at? path = some entry →
      (∃ old, (h.files.resolver n).entries.at? path = some old ∧ old.token = entry.token ∧ old.code = entry.code) ∨
        (n < h.files.resolvers.length → h.files.resolver n ∈ h.files.resolvers → h.Sincere c v →
          h.files.snapshot.Holds v entry.token fun source => CodeTrue c.now entry source ∧ source.path = some path ∧
            (source.isNote = true → (h.files.resolver n).Remembers entry.token))) :
    Recalls c v h { h with files := h.files.onResolver n change } := by
  refine ⟨⟨_, h.workshop, rfl⟩, List.length_set .., fun _ _ hd => hd, fun hs => ?_, fun hs hn => ?_⟩
  · refine ⟨hs.chain, hs.sound, fun r hr path entry he => ?_, hs.scripts, hs.modules, hs.numbered⟩
    rcases mem_onResolver_at hr with hr | ⟨hlt, hmem, rfl⟩
    · exact hs.entries r hr path entry he
    · rcases hchange path entry he with ⟨old, hold, htoken, hcode⟩ | hnew
      · have := hs.entries _ hmem path old hold
        unfold CodeTrue at this ⊢
        rwa [htoken, hcode] at this
      · exact (hnew hlt hmem hs).imp fun _ => And.left
  · have hremembers := fun r => (hretains r).remembers
    refine ⟨fun r hr => ?_, fun r hr path entry he => ?_, fun token code hk => ?_, fun token draft hd hok => ?_⟩
    · rcases mem_onResolver_at hr with hr | ⟨-, hmem, rfl⟩
      · exact hn.distinct r hr
      · exact (hretains _).distinct (hn.distinct _ hmem)
    · rcases mem_onResolver_at hr with hr | ⟨hlt, hmem, rfl⟩
      · exact hn.entries r hr path entry he
      · rcases hchange path entry he with ⟨old, hold, htoken, -⟩ | hnew
        · have := hn.entries _ hmem path old hold
          rw [htoken] at this
          exact this.imp fun _ hsource => ⟨hsource.1, fun hnote => hremembers _ _ (hsource.2 hnote)⟩
        · exact (hnew hlt hmem hs).imp fun _ hsource => ⟨hsource.2.1, fun hnote => hremembers _ _ (hsource.2.2 hnote)⟩
    · exact (hn.scripts token code hk).imp fun _ hsource hnote => (hsource hnote).onResolver n fun r => hremembers r token
    · exact (hn.modules token draft hd hok).imp fun _ hsource hnote =>
        (hsource hnote).onResolver n fun r => hremembers r token

/-- A resolver may be changed where it keeps no code that is new, and forgets no version. -/
theorem recalls_lessening (h : Host) (n : Nat) (change : FileResolver → FileResolver)
    (hretains : ∀ r : FileResolver, r.Retains (change r))
    (hchange : ∀ r path entry, (change r).entries.at? path = some entry → r.entries.at? path = some entry) :
    Recalls c v h { h with files := h.files.onResolver n change } :=
  recalls_onResolver h n change hretains fun path entry he => Or.inl ⟨entry, hchange _ path entry he, rfl, rfl⟩

theorem sub_erase {origin o : Origin} {α : Type} {t : Table Origin α} {x : α} (hx : (t.erase origin).at? o = some x) :
    t.at? o = some x := at?_of_at?_erase hx

theorem Sincere.forget (hs : h.Sincere c v) (origin : Origin) : (h.forget origin).Sincere c v :=
  ⟨hs.chain, hs.sound, hs.entries, fun token kept hk => hs.scripts token kept (sub_erase hk),
    fun token draft hd => hs.modules token draft (sub_erase hd), fun o id hid => hs.numbered o id (sub_erase hid)⟩

theorem recalls_forget (h : Host) (origin : Origin) : Recalls c v h (h.forget origin) :=
  ⟨⟨h.files.resolvers, _, rfl⟩, rfl, fun _ _ hd => sub_erase hd, fun hs => hs.forget origin, fun _ hn =>
    ⟨hn.distinct, hn.entries, fun token code hk => hn.scripts token code (sub_erase hk),
      fun token draft hd => hn.modules token draft (sub_erase hd)⟩⟩

/-- The version of a file that a resolver keeps no code of may be forgotten. -/
theorem recalls_forgetToken (h : Host) (n : Nat) {path text : String} {identity : Identity}
    (hget : h.files.snapshot.get? path = some identity) (htext : v.text? path = some text)
    (hfree : (h.files.resolver n).entries.at? path = none) :
    Recalls c v h ({ h with files := h.files.onResolver n (·.forgetToken identity.token) }.forget
      (.file identity.token)) := by
  have hforgotten {α : Type} {t : Table Origin α} {x : α} {token : Nat}
      (hx : (t.erase (.file identity.token)).at? (.file token) = some x) : token ≠ identity.token := by
    rintro rfl
    rw [Table.at?_erase_same] at hx
    cases hx
  have hremembers {token : Nat} (hne : token ≠ identity.token) (hr : h.Remembers token) :
      Remembers ({ h with files := h.files.onResolver n (·.forgetToken identity.token) }.forget
        (.file identity.token)) token :=
    hr.onResolver n fun r hr => hr.forgetToken hne
  refine ⟨⟨_, _, rfl⟩, List.length_set .., fun _ _ hd => sub_erase hd, fun hs => ?_, fun hs hn =>
    ⟨fun r hr => ?_, fun r hr p entry he => ?_, fun token code hk => ?_, fun token draft hd hok => ?_⟩⟩
  · refine Sincere.forget (h := { h with files := h.files.onResolver n (·.forgetToken identity.token) })
      ⟨hs.chain, hs.sound, fun r hr p entry he => ?_, hs.scripts, hs.modules, hs.numbered⟩ _
    rcases mem_onResolver_at hr with hr | ⟨-, hmem, rfl⟩
    · exact hs.entries r hr p entry he
    · exact hs.entries _ hmem p entry he
  · rcases mem_onResolver_at hr with hr | ⟨-, hmem, rfl⟩
    · exact hn.distinct r hr
    · have hdistinct := hn.distinct _ hmem
      exact hdistinct
  · rcases mem_onResolver_at hr with hr | ⟨-, hmem, rfl⟩
    · exact hn.entries r hr p entry he
    · have hholds := hn.entries _ hmem p entry he
      -- the code that is left is not that of the version
      have hne : entry.token ≠ identity.token := by
        intro htoken
        have hpath : some path = some p := (hholds.2 path identity text hget htoken.symm htext).1
        rw [← Option.some.inj hpath] at he
        rw [show (h.files.resolver n).entries.at? path = some entry from he] at hfree
        cases hfree
      exact hholds.imp fun _ hsource => ⟨hsource.1, fun hnote => (hsource.2 hnote).forgetToken hne⟩
  · exact (hn.scripts token code (sub_erase hk)).imp fun _ hsource hnote => hremembers (hforgotten hk) (hsource hnote)
  · exact (hn.modules token draft (sub_erase hd) hok).imp fun _ hsource hnote =>
      hremembers (hforgotten hd) (hsource hnote)

/-- The code of a version may be kept, where the resolver remembers the version of a note. -/
theorem recalls_store (h : Host) (n : Nat) {path text code : String} {identity : Identity} {form : Form}
    (hget : h.files.snapshot.get? path = some identity) (htext : v.text? path = some text)
    (hcode : c.now.code form (.ofVersion path text identity.token) = .ok code)
    (hremembers : n < h.files.resolvers.length → (Source.ofVersion path text identity.token).isNote = true →
      (h.files.resolver n).Remembers identity.token) :
    Recalls c v h { h with files := h.files.onResolver n (·.store identity code form) } := by
  refine recalls_onResolver h n (·.store identity code form)
    (fun r => ⟨fun _ hr => hr, fun hr => Table.nodup_put hr _ _⟩) fun p entry he => ?_
  set r : FileResolver := h.files.resolver n with hrn
  by_cases hp : identity.path = p
  · refine Or.inr fun hlt hr hs => ?_
    -- the code is added to what is kept for this version, or stands alone
    obtain ⟨base, hbase, htoken, rfl⟩ : ∃ base : Entry, (r.entries.at? identity.path = some base ∨
        base = { token := identity.token }) ∧ base.token = identity.token ∧ base.withCode code form = entry := by
      simp only [FileResolver.store, hp, Table.at?_put_same, Option.some.injEq] at he
      refine ⟨_, ?_, ?_, he⟩
      · cases hold : r.entries.at? p with
        | none => exact Or.inr rfl
        | some old =>
          dsimp only
          split
          · exact Or.inl (hp ▸ hold)
          · exact Or.inr rfl
      · split
        · split
          · next h => exact h
          · rfl
        · rfl
    have hwith : (base.withCode code form).token = identity.token := by cases form <;> exact htoken
    rw [hwith]
    have hpath : some path = some p := congrArg some ((hs.sound.path path identity hget).symm.trans hp)
    refine Snapshot.Holds.of_get hs.sound hget htext ⟨fun form' code' hcode' => ?_, hpath, hremembers hlt⟩
    by_cases hform : form' = form
    · subst hform
      obtain rfl : code = code' := by cases form' <;> exact Option.some.inj hcode'
      exact hcode
    · have hold : base.code form' = some code' := by
        cases form <;> cases form' <;> first | exact absurd rfl hform | exact hcode'
      rcases hbase with hbase | rfl
      · have htrue := (hs.entries r hr _ base hbase).2 path identity text hget htoken.symm htext
        rw [htoken] at htrue
        exact htrue form' code' hold
      · cases form' <;> cases hold
  · left
    rw [FileResolver.store, Table.at?_put_ne hp] at he
    exact ⟨entry, he, rfl, rfl⟩

/-! ### Making code -/

/-- Something is kept of an origin in one of the two forms. -/
def holds (h : Host) (origin : Option Origin) : Form → Bool
  | .script => (origin.bind h.workshop.scripts.at?).isSome
  | .module => (h.workshop.draft? origin).isSome

/-- A source was compiled in one of the two forms: what came of it may be kept under its origin. -/
structure Made (form : Form) (source : Source) (given : Option Header) (h h' : Host) : Prop where
  /-- Only the transpilers and the workers remember it. -/
  rest : ∃ workshop outcomes nextWork, h' = { h with workshop := workshop, outcomes := outcomes, nextWork := nextWork }
  /-- The compiler is the same. -/
  compiler : h'.workshop.compiler = h.workshop.compiler
  /-- A script that is new is what comes of the source. -/
  scripts : ∀ origin kept, h'.workshop.scripts.at? origin = some kept → h.workshop.scripts.at? origin = some kept ∨
    form = .script ∧ source.origin = some origin ∧ h.chain.made .script source given = kept.map some
  /-- A module that is new is what comes of the source, and has a new number. -/
  modules : ∀ origin draft, h'.workshop.modules.at? origin = some draft → h.workshop.modules.at? origin = some draft ∨
    form = .module ∧ source.origin = some origin ∧ h'.draftOf draft = h.chain.made .module source given ∧
      ∀ id, draft = .pending id → h.nextWork ≤ id
  /-- What came of work is still told. -/
  outcomes : ∀ id < h.nextWork, h'.outcome? id = h.outcome? id
  /-- Numbers are given out in order. -/
  next : h.nextWork ≤ h'.nextWork
  /-- The modules that are kept go on to have numbers that were given out. -/
  numbered : h.Numbered → h'.Numbered
  /-- The compiler was asked, if nothing was kept of the source. -/
  calls : h.holds source.origin form = false →
    h'.workshop.compiles = h.workshop.compiles + h.chain.calls form source given

variable {form : Form} {source : Source} {given : Option Header}

theorem Made.refl (hkept : h.holds source.origin form = true) : Made form source given h h := by
  refine ⟨⟨_, _, _, rfl⟩, rfl, fun _ _ hk => Or.inl hk, fun _ _ hd => Or.inl hd, fun _ _ => rfl, Nat.le_refl _, id,
    fun hnone => ?_⟩
  rw [hkept] at hnone
  cases hnone

theorem Made.files (a : Made form source given h h') : h'.files = h.files := by
  obtain ⟨_, _, _, rfl⟩ := a.rest
  rfl

theorem Made.draftOf (a : Made form source given h h') (hn : h.Numbered) {origin : Origin} {draft : Draft}
    (hd : h.workshop.modules.at? origin = some draft) : h'.draftOf draft = h.draftOf draft := by
  cases draft with
  | asIs => rfl
  | pending id => exact congrArg Outcome.asCode (a.outcomes id (hn origin id hd))

/-- A source was turned into code on behalf of a resolver: it was compiled, and the resolver remembers which
transpiler made code of it; of a note, this is the first one. -/
def Coded (n : Nat) (form : Form) (source : Source) (h h' : Host) : Prop :=
  ∃ h₁, Made form (h.chain.toCompile source).1 (h.chain.toCompile source).2 h h₁ ∧
    (h' = h₁ ∧ (source.isNote = true → ∃ e, h.chain.result form source = .error e) ∨
      ∃ i token, source.origin = some (.file token) ∧ (source.isNote = true → i = 0) ∧
        h' = { h₁ with files := h₁.files.onResolver n (·.noteTranspiled i token) })

section Coded

variable {n : Nat} {path text : String} {identity : Identity}

theorem Coded.asked (a : Coded n form source h h') : h'.asked = h.asked := by
  obtain ⟨_, hmade, ⟨rfl, -⟩ | ⟨_, _, -, -, rfl⟩⟩ := a <;>
    obtain ⟨_, _, _, rfl⟩ := hmade.rest <;> rfl

theorem Coded.compiles (a : Coded n form source h h') (hnone : h.holds source.origin form = false) :
    h'.workshop.compiles = h.workshop.compiles + h.chain.asks form source := by
  rw [← h.chain.toCompile_origin source] at hnone
  obtain ⟨_, hmade, ⟨rfl, -⟩ | ⟨_, _, -, -, rfl⟩⟩ := a
  · exact hmade.calls hnone
  · exact hmade.calls hnone

theorem recalls_noteTranspiled (h : Host) (n i token : Nat) :
    Recalls c v h { h with files := h.files.onResolver n (·.noteTranspiled i token) } :=
  recalls_lessening h n (·.noteTranspiled i token) (fun r => r.retains_noteTranspiled i token) fun _ _ _ he => he

/-- After a source was compiled, the resolvers only remember how. -/
theorem Coded.recalls (a : Coded n form source h h') :
    ∃ h₁, Made form (h.chain.toCompile source).1 (h.chain.toCompile source).2 h h₁ ∧ ∀ c v, Recalls c v h₁ h' := by
  obtain ⟨h₁, hmade, ⟨rfl, -⟩ | ⟨i, token, -, -, rfl⟩⟩ := a
  · exact ⟨_, hmade, fun _ _ => Recalls.refl _⟩
  · exact ⟨_, hmade, fun _ _ => recalls_noteTranspiled h₁ n i token⟩

/-- A note of which code was made is remembered. -/
theorem Coded.remembers (a : Coded n form (.ofVersion path text identity.token) h h') {code : Option String}
    (hok : h.chain.result form (.ofVersion path text identity.token) = .ok code) (hn : n < h.files.resolvers.length)
    (hnote : (Source.ofVersion path text identity.token).isNote = true) :
    (h'.files.resolver n).Remembers identity.token := by
  obtain ⟨h₁, hmade, ⟨-, hfails⟩ | ⟨i, token, ho, hi, rfl⟩⟩ := a
  · obtain ⟨e, he⟩ := hfails hnote
    rw [hok] at he
    cases he
  · obtain rfl : identity.token = token := Origin.file.inj (Option.some.inj ho)
    obtain rfl := hi hnote
    have hn₁ : n < h₁.files.resolvers.length := hmade.files ▸ hn
    rw [resolver_onResolver hn₁]
    exact FileResolver.remembers_noteTranspiled _ _

/-- What is kept stays true when a version of a file is turned into code. -/
theorem Sincere.coded (hs : h.Sincere c v) (hget : h.files.snapshot.get? path = some identity)
    (htext : v.text? path = some text) (a : Coded n form (.ofVersion path text identity.token) h h') :
    h'.Sincere c v := by
  obtain ⟨h₁, hmade, hrecalls⟩ := a.recalls
  refine (hrecalls c v).sincere ?_
  have horigin {token : Nat} (ho : (h.chain.toCompile (.ofVersion path text identity.token)).1.origin =
      some (.file token)) : identity.token = token := by
    rw [h.chain.toCompile_origin] at ho
    exact Origin.file.inj (Option.some.inj ho)
  have hchain : h₁.chain = c.now := by
    obtain ⟨_, _, _, hrest⟩ := hmade.rest
    refine Eq.trans ?_ hs.chain
    unfold Host.chain
    rw [hmade.compiler, hrest]
  refine ⟨hchain, ?_, ?_, fun token kept hk => ?_, fun token draft hd => ?_, hmade.numbered hs.numbered⟩
  · rw [hmade.files]
    exact hs.sound
  · rw [hmade.files]
    exact hs.entries
  · rw [hmade.files]
    rcases hmade.scripts _ _ hk with hk | ⟨-, ho, hresult⟩
    · exact hs.scripts token kept hk
    · obtain rfl := horigin ho
      rw [hs.chain] at hresult
      exact .of_get hs.sound hget htext (Or.inl hresult.symm)
  · rw [hmade.files]
    rcases hmade.modules _ _ hd with hold | ⟨-, ho, hresult, -⟩
    · rw [hmade.draftOf hs.numbered hold]
      exact hs.modules token draft hold
    · obtain rfl := horigin ho
      rw [hs.chain] at hresult
      exact .of_get hs.sound hget htext (Or.inl hresult)

/-- Notes go on to be remembered when a version of a file is turned into code. -/
theorem Noted.coded (hn : h.Noted v) (hs : h.Sincere c v) (hlt : n < h.files.resolvers.length)
    (hget : h.files.snapshot.get? path = some identity) (htext : v.text? path = some text)
    (a : Coded n form (.ofVersion path text identity.token) h h') : h'.Noted v := by
  have hnew {code : Option String} (hok : h.chain.result form (.ofVersion path text identity.token) = .ok code)
      (hnote : (Source.ofVersion path text identity.token).isNote = true) := a.remembers hok hlt hnote
  obtain ⟨h₁, hmade, hcase⟩ := a
  have horigin {token : Nat} (ho : (h.chain.toCompile (.ofVersion path text identity.token)).1.origin =
      some (.file token)) : identity.token = token := by
    rw [h.chain.toCompile_origin] at ho
    exact Origin.file.inj (Option.some.inj ho)
  -- a resolver may remember one version more, and nothing else is different after the source was compiled
  obtain ⟨more, hmore, hcode, hfiles, hworkshop, houtcomes⟩ : ∃ more : FileResolver → FileResolver,
      (∀ r token, r.Remembers token → (more r).Remembers token) ∧ (∀ r, (more r).entries = r.entries) ∧
        h'.files = h.files.onResolver n more ∧ h'.workshop = h₁.workshop ∧ h'.outcomes = h₁.outcomes := by
    rcases hcase with ⟨rfl, -⟩ | ⟨i, token, -, -, rfl⟩
    · refine ⟨id, fun _ _ hr => hr, fun _ => rfl, ?_, rfl, rfl⟩
      rw [hmade.files]
      simp [Files.onResolver, resolver_eq_getElem hlt]
    · exact ⟨(·.noteTranspiled i token), fun _ _ hr => hr.noteTranspiled i token, fun _ => rfl,
        congrArg (Files.onResolver n (·.noteTranspiled i token)) hmade.files, rfl, rfl⟩
  have hremembers {token : Nat} (hr : h.Remembers token) : h'.Remembers token := by
    obtain ⟨r, hr, htoken⟩ := hr.onResolver n fun r => hmore r token
    exact ⟨r, hfiles ▸ hr, htoken⟩
  have hresolver : h'.files.resolver n ∈ h'.files.resolvers := by
    have hlt' : n < h'.files.resolvers.length := by
      rw [hfiles]
      exact (List.length_set ..).symm ▸ hlt
    rw [resolver_eq_getElem hlt']
    exact List.getElem_mem hlt'
  have hdraft (draft : Draft) : h'.draftOf draft = h₁.draftOf draft := by
    cases draft with
    | asIs => rfl
    | pending id => exact congrArg (fun outcomes => Outcome.asCode (Table.at? outcomes id)) houtcomes
  have hsnapshot : h'.files.snapshot = h.files.snapshot := by
    rw [hfiles]
    rfl
  refine ⟨fun r hr => ?_, fun r hr p entry he => ?_, fun token code hk => ?_, fun token draft hd hok => ?_⟩ <;>
    try rw [hsnapshot]
  · rw [hfiles] at hr
    rcases mem_onResolver_at hr with hr | ⟨-, hmem, rfl⟩
    · exact hn.distinct r hr
    · rw [hcode]
      exact hn.distinct _ hmem
  · rw [hfiles] at hr
    rcases mem_onResolver_at hr with hr | ⟨-, hmem, rfl⟩
    · exact hn.entries r hr p entry he
    · rw [hcode] at he
      exact (hn.entries _ hmem p entry he).imp fun _ hsource => ⟨hsource.1, fun hnote => hmore _ _ (hsource.2 hnote)⟩
  · rw [hworkshop] at hk
    rcases hmade.scripts _ _ hk with hold | ⟨rfl, ho, hresult⟩
    · exact (hn.scripts token code hold).imp fun _ hsource hnote => hremembers (hsource hnote)
    · obtain rfl := horigin ho
      exact .of_get hs.sound hget htext fun hnote => ⟨_, hresolver, hnew hresult hnote⟩
  · rw [hworkshop] at hd
    rw [hdraft] at hok
    rcases hmade.modules _ _ hd with hold | ⟨rfl, ho, hresult, -⟩
    · rw [hmade.draftOf hs.numbered hold] at hok
      exact (hn.modules token draft hold hok).imp fun _ hsource hnote => hremembers (hsource hnote)
    · obtain rfl := horigin ho
      refine .of_get hs.sound hget htext fun hnote => ⟨_, hresolver, ?_⟩
      cases hr : h.chain.result .module (.ofVersion path text identity.token) with
      | error e => exact absurd (hresult.trans hr) (hok e)
      | ok code => exact hnew hr hnote

end Coded

/-! ### Scripts -/

theorem compile_modules (w : Workshop) (request : Compile.Request) : (w.compile request).2.modules = w.modules := by
  unfold Workshop.compile
  split <;> rfl

theorem compile_compiles (w : Workshop) (settings : Settings) {source : Source} {given : Option Header}
    {request : Compile.Request} {form : Form} (hrequest : Workshop.request? source given form = some request) :
    (w.compile request).2.compiles = w.compiles + Chain.calls ⟨settings, w.compiler⟩ form source given := by
  unfold Workshop.compile Chain.calls
  rw [hrequest]
  cases w.compiler <;> rfl

theorem calls_none {c : Chain} {form : Form} {source : Source} {given : Option Header}
    (hrequest : Workshop.request? source given form = none) : c.calls form source given = 0 := by
  unfold Chain.calls
  rw [hrequest]
  simp

/-- Compiling to a script asks the compiler, if no script is kept. -/
theorem script_compiles (w : Workshop) (settings : Settings) (source : Source) (given : Option Header)
    (hnone : source.origin.bind w.scripts.at? = none) :
    (w.script source given).2.compiles = w.compiles + Chain.calls ⟨settings, w.compiler⟩ .script source given := by
  unfold Workshop.script
  rw [hnone]
  cases hrequest : Workshop.request? source given .script with
  | none =>
    rw [calls_none hrequest]
    rfl
  | some request =>
    rw [← compile_compiles w settings hrequest]
    cases source.origin <;> rfl

/-- Compiling to a script tells what the chain makes of the source, unless that is kept already. -/
theorem script_fst {w : Workshop} {settings : Settings} {source : Source} {given : Option Header}
    (hkept : ∀ origin kept, source.origin = some origin → w.scripts.at? origin = some kept →
      Chain.made ⟨settings, w.compiler⟩ .script source given = kept.map some) :
    (w.script source given).1 = Chain.made ⟨settings, w.compiler⟩ .script source given := by
  unfold Workshop.script
  cases hk : source.origin.bind w.scripts.at? with
  | some kept =>
    obtain ⟨origin, ho, hk⟩ := Option.bind_eq_some_iff.1 hk
    exact (hkept origin kept ho hk).symm
  | none =>
    unfold Chain.made
    cases Workshop.request? source given .script with
    | none => rfl
    | some request =>
      dsimp only
      rw [compile_fst w]

/-- Compiling to a script changes at most the script that is kept for the source. -/
theorem script_snd (w : Workshop) (source : Source) (given : Option Header) :
    (w.script source given).2.compiler = w.compiler ∧ (w.script source given).2.modules = w.modules ∧
      ((w.script source given).2.scripts = w.scripts ∨ ∃ origin request, source.origin = some origin ∧
        Workshop.request? source given .script = some request ∧
        (w.script source given).2.scripts = w.scripts.put origin (w.compile request).1) := by
  unfold Workshop.script
  cases source.origin.bind w.scripts.at? with
  | some kept => exact ⟨rfl, rfl, Or.inl rfl⟩
  | none =>
    cases hrequest : Workshop.request? source given .script with
    | none => exact ⟨rfl, rfl, Or.inl rfl⟩
    | some request =>
      obtain ⟨hcompiler, hscripts⟩ := compile_snd w request
      cases ho : source.origin with
      | none => exact ⟨hcompiler, compile_modules w request, Or.inl hscripts⟩
      | some origin =>
        exact ⟨hcompiler, compile_modules w request, Or.inr ⟨origin, request, rfl, rfl, congrArg (Table.put · origin _) hscripts⟩⟩

/-- A script is kept, or made by the chain. -/
theorem ends_scriptOf_made (h : Host) (source : Source) (given : Option Header)
    (hkept : ∀ origin kept, source.origin = some origin → h.workshop.scripts.at? origin = some kept →
      h.chain.made .script source given = kept.map some) :
    Action.Ends (scriptOf source given) h fun r h' =>
      r = h.chain.made .script source given ∧ Made .script source given h h' ∧
        h'.workshop.modules = h.workshop.modules ∧ h'.outcomes = h.outcomes := by
  refine ⟨_, _, exec_scriptOf .., script_fst hkept, ?_, (script_snd ..).2.1, rfl⟩
  obtain ⟨hcompiler, hmodules, hscripts⟩ := script_snd h.workshop source given
  refine ⟨⟨_, h.outcomes, h.nextWork, rfl⟩, hcompiler, fun origin kept hk => ?_, fun origin draft hd => ?_,
    fun _ _ => rfl, Nat.le_refl _, fun hn origin id hid => hn origin id (hmodules ▸ hid), fun hnone =>
      script_compiles h.workshop h.settings source given
        (Option.isNone_iff_eq_none.1 (Option.isSome_eq_false_iff.1 hnone))⟩
  · dsimp only at hk
    rcases hscripts with hsame | ⟨o, request, ho, hrequest, hput⟩
    · exact Or.inl (hsame ▸ hk)
    · rw [hput, Table.at?_put] at hk
      split at hk
      · next heq =>
        subst heq
        obtain rfl := Option.some.inj hk
        refine Or.inr ⟨rfl, ho, ?_⟩
        unfold Chain.made
        rw [hrequest]
        dsimp only
        rw [compile_fst h.workshop]
        rfl
      · exact Or.inl hk
  · exact Or.inl (hmodules ▸ hd)

/-- The script that a source becomes is what the chain makes of it, whatever is kept. -/
theorem ends_code_script (h : Host) (n : Nat) (path text : String) (token : Nat)
    (hkept : ∀ kept, h.workshop.scripts.at? (.file token) = some kept →
      h.chain.result .script (.ofVersion path text token) = kept.map some) :
    Action.Ends (Files.code transpilers n (.ofVersion path text token)) h fun r h' =>
      r = h.chain.code .script (.ofVersion path text token) ∧ Coded n .script (.ofVersion path text token) h h' ∧
        h'.workshop.modules = h.workshop.modules ∧ h'.outcomes = h.outcomes := by
  set source : Source := .ofVersion path text token with hsource
  have compiling := ends_scriptOf_made h (h.chain.toCompile source).1 (h.chain.toCompile source).2
    fun origin kept ho hk => by
      rw [h.chain.toCompile_origin] at ho
      obtain rfl := Option.some.inj ho
      exact hkept kept hk
  -- a transpiler that does not pass gives the code, and remembers that it did
  have done (i : Nat) (hi : source.isNote = true → i = 0) (code : String) {h₁ : Host}
      (hcode : h.chain.code .script source = .ok code)
      (hmade : Made .script (h.chain.toCompile source).1 (h.chain.toCompile source).2 h h₁)
      (hmodules : h₁.workshop.modules = h.workshop.modules) (houtcomes : h₁.outcomes = h.outcomes) :
      Action.Ends (do
        Files.noteTranspiled n i source.origin
        return code) h₁ fun r h' => r = h.chain.code .script source ∧ Coded n .script source h h' ∧
          h'.workshop.modules = h.workshop.modules ∧ h'.outcomes = h.outcomes :=
    Action.ends_bind (Action.ends_withFiles (Action.ends_pure
      ⟨hcode.symm, ⟨h₁, hmade, Or.inr ⟨i, token, rfl, hi, rfl⟩⟩, hmodules, houtcomes⟩))
  have code (r : Except Failure (Option String)) (hr : r = h.chain.result .script source) :
      h.chain.code .script source = r.map (·.getD (h.chain.toCompile source).1.content) := by rw [hr]; rfl
  show Action.Ends (Files.codeFrom n source 0 [scriptOfNote, fun s => scriptOf s none]) h _
  unfold Files.codeFrom
  refine Action.ends_bind ?_
  unfold scriptOfNote
  by_cases hnote : source.isNote
  · rw [if_pos hnote]
    refine Action.ends_bind ⟨_, _, Action.exec_get h, Action.ends_bind ?_⟩
    have hto : h.chain.toCompile source = ((source.ofNote h.settings).1, some (source.ofNote h.settings).2) :=
      h.chain.toCompile_note hnote
    rw [hto] at compiling code done
    refine compiling.mono ?_
    rintro r h' ⟨hr, hmade, hmodules, houtcomes⟩
    have hresult : r = h.chain.result .script source := by rw [hr, Chain.result, hto]
    have hcode := code r hresult
    cases r with
    | error e =>
      exact ⟨hcode.symm, ⟨h', by rwa [hto], Or.inl ⟨rfl, fun _ => ⟨e, hresult.symm⟩⟩⟩, hmodules, houtcomes⟩
    | ok made => exact Action.ends_pure (done 0 (fun _ => rfl) _ hcode hmade hmodules houtcomes)
  · rw [if_neg hnote]
    refine Action.ends_pure ?_
    unfold Files.codeFrom
    have hto := h.chain.toCompile_plain hnote
    rw [hto] at compiling code done
    refine Action.ends_bind (compiling.mono ?_)
    rintro r h' ⟨hr, hmade, hmodules, houtcomes⟩
    have hcode := code r (by rw [hr, Chain.result, hto])
    have hcoded : Coded n .script source h h' := ⟨h', by rwa [hto], Or.inl ⟨rfl, fun h => absurd h hnote⟩⟩
    cases r with
    | error e => exact ⟨hcode.symm, hcoded, hmodules, houtcomes⟩
    | ok made =>
      cases made with
      | some made => exact done 1 (fun h => absurd h hnote) _ hcode hmade hmodules houtcomes
      | none =>
        unfold Files.codeFrom
        exact Action.ends_pure ⟨hcode.symm, hcoded, hmodules, houtcomes⟩

/-- A failure that is kept of a version is told again. -/
theorem ends_code_script_failed {token : Nat} {e : Failure} (hk : h.workshop.scripts.at? (.file token) = some (.error e))
    (n : Nat) (path text : String) :
    Action.Ends (Files.code transpilers n (.ofVersion path text token)) h fun r h' => r = .error e ∧ h' = h := by
  have failing (source : Source) (given : Option Header) (ho : source.origin = some (.file token)) :
      Action.Ends (scriptOf source given) h fun r h' => r = .error e ∧ h' = h := by
    have hscript : h.workshop.script source given = (.error e, h.workshop) := by
      unfold Workshop.script
      rw [ho, Option.bind_some, hk]
      rfl
    refine ⟨_, _, exec_scriptOf .., ?_, ?_⟩ <;> rw [hscript]
  set source : Source := .ofVersion path text token with hsource
  show Action.Ends (Files.codeFrom n source 0 [scriptOfNote, fun s => scriptOf s none]) h _
  unfold Files.codeFrom
  refine Action.ends_bind ?_
  unfold scriptOfNote
  by_cases hnote : source.isNote
  · rw [if_pos hnote]
    refine Action.ends_bind ⟨_, _, Action.exec_get h, Action.ends_bind ((failing _ _ rfl).mono ?_)⟩
    rintro _ _ ⟨rfl, rfl⟩
    exact ⟨rfl, rfl⟩
  · rw [if_neg hnote]
    refine Action.ends_pure ?_
    unfold Files.codeFrom
    refine Action.ends_bind ((failing _ _ rfl).mono ?_)
    rintro _ _ ⟨rfl, rfl⟩
    exact ⟨rfl, rfl⟩

/-! ### Modules -/

open Async

variable {ev : Evaluator} {s : Schedule Host Work}

/-- A host goes on to rest where it only remembers or forgets. -/
theorem Rests.recalls (hs : Rests s) {h : Host} (a : Recalls c v s.state h) : Rests { s with state := h } := by
  have hdrafts := a.drafts
  obtain ⟨_, _, rfl⟩ := a.rest
  exact ⟨hs.still.withState _, hs.asked, fun origin id hid => hs.drafts origin id (hdrafts _ _ hid)⟩

/-- The host after a module was begun under a number, made and told. -/
def drafting (h : Host) (origin : Option Origin) (request : Compile.Request) : Host :=
  { h with
    nextWork := h.nextWork + 1
    workshop := ((h.workshop.keep origin (.pending h.nextWork)).compile request).2 }.tell h.nextWork
      (.code ((h.workshop.compile request).1.map some))

theorem keep_some (w : Workshop) (origin : Origin) (draft : Draft) :
    w.keep (some origin) draft = { w with modules := w.modules.put origin draft } := rfl

/-- What is made of a source with an origin is what the chain makes of it. -/
theorem made_drafting {origin : Origin} {request : Compile.Request} (ho : source.origin = some origin)
    (hrequest : Workshop.request? source given .module = some request) :
    Made .module source given h (h.drafting (some origin) request) := by
  have hmodules : (h.drafting (some origin) request).workshop.modules =
      h.workshop.modules.put origin (.pending h.nextWork) := compile_modules ..
  have hnew : (h.drafting (some origin) request).draftOf (.pending h.nextWork) = h.chain.made .module source given := by
    refine (congrArg Outcome.asCode (Table.at?_put_same ..)).trans ?_
    unfold Chain.made
    rw [hrequest]
    dsimp only
    rw [compile_fst h.workshop]
    rfl
  refine ⟨⟨_, _, _, rfl⟩, (compile_snd _ _).1, fun o kept hk => ?_, fun o draft hd => ?_, fun id hid => ?_,
    Nat.le_succ _, fun hn o id hid => ?_, fun _ => compile_compiles _ h.settings hrequest⟩
  · have hscripts : (h.drafting (some origin) request).workshop.scripts = h.workshop.scripts := (compile_snd _ _).2
    exact Or.inl (hscripts ▸ hk)
  · rw [hmodules, Table.at?_put] at hd
    split at hd
    · next heq =>
      subst heq
      obtain rfl := Option.some.inj hd
      exact Or.inr ⟨rfl, ho, hnew, fun id hid => Nat.le_of_eq (Draft.pending.inj hid)⟩
    · exact Or.inl hd
  · exact Table.at?_put_ne (Nat.ne_of_gt hid) ..
  · show id < h.nextWork + 1
    rw [hmodules, Table.at?_put] at hid
    split at hid
    · cases hid
      exact Nat.lt_succ_self _
    · exact Nat.lt_succ_of_lt (hn o id hid)

/-- A module is begun, waited for and told in one go, while nothing else runs. -/
theorem ends_drafting (hs : Rests s) (hnumbered : s.state.Numbered) (hready : s.rootReady = false) (origin : Origin)
    (request : Compile.Request) (ho : source.origin = some origin) :
    (do drafted (← (draft source request : Async Host Work Nat)) : Errand (Option String)).run.Ends (plan ev) 1 s
      fun r s' => r = (s.state.workshop.compile request).1.map some ∧ Rests s' ∧
        s'.state = s.state.drafting (some origin) request := by
  set n : Nat := s.state.nextWork with hn
  set h₁ : Host := { s.state with nextWork := n + 1 } with hh₁
  set h₂ : Host := { h₁ with workshop := h₁.workshop.keep source.origin (.pending n) } with hh₂
  show Ends (plan ev) (0 + (0 + (1 + 0))) (do
    let id ← fresh
    Async.change fun h => { h with workshop := h.workshop.keep source.origin (.pending id) }
    (do share id (.compiling request); await id)
    (compiled id).run) s _
  refine ends_bind (P := fun id t => id = n ∧ t = { s with state := h₁ }) (ends_step ?_) ?_
  · rw [adopt_of_none (collect_of_asked (by exact hs.asked))]
    exact ⟨rfl, rfl⟩
  rintro _ _ ⟨rfl, rfl⟩
  refine ends_bind (P := fun _ t => t = { s with state := h₂ }) (ends_change ?_) ?_
  · rw [adopt_of_none (collect_of_asked (by exact hs.asked))]
  rintro _ _ rfl
  have hperform : (plan ev).perform n (.compiling request) = .offload (fun h =>
      { h with workshop := (h.workshop.compile request).2 }.tell n
        (.code ((h.workshop.compile request).1.map some))) .done := rfl
  refine ends_bind (ends_shared hperform (hs.still.withState h₂) hready (collect_of_asked (by exact hs.asked))) ?_
  rintro _ s₃ ⟨hstill, hstate, hshares⟩
  have hdone : s₃.state = s.state.drafting (some origin) request := by
    rw [hstate]
    show Host.tell n (.code ((h₂.workshop.compile request).1.map some)) _ = _
    have hcompiler : h₂.workshop.compiler = s.state.workshop.compiler := by rw [hh₂, ho]; rfl
    rw [compile_fst h₂.workshop, hcompiler, ← compile_fst, hh₂, ho]
    rfl
  have htold : s₃.state.outcome? n = some (.code ((s.state.workshop.compile request).1.map some)) := by
    rw [hdone]
    exact Table.at?_put_same ..
  refine ends_compiled ⟨by rw [htold]; rfl, ⟨hstill, by rw [hdone]; exact hs.asked, fun o id hid => ?_⟩, hdone⟩
  rw [show s₃.state.workshop.modules = s.state.workshop.modules.put origin (.pending n) from
    hdone ▸ compile_modules .., Table.at?_put] at hid
  split at hid
  · cases hid
    exact ⟨hshares ▸ Table.at?_erase_same .., _, htold⟩
  · have hlt := hnumbered o id hid
    obtain ⟨hshare, result, hresult⟩ := hs.drafts o id hid
    refine ⟨?_, result, ?_⟩
    · rw [hshares, Table.at?_erase_ne (Nat.ne_of_gt hlt)]
      exact hshare
    · rw [hdone]
      exact (Table.at?_put_ne (Nat.ne_of_gt hlt) ..).trans hresult

/-- What came of a module that is kept is told again. -/
theorem ends_moduleOf_kept (hs : Rests s) (source : Source) (given : Option Header) {origin : Origin} {draft : Draft}
    (ho : source.origin = some origin) (hd : s.state.workshop.modules.at? origin = some draft) :
    (moduleOf source given).run.Ends (plan ev) 0 s fun r s' => r = s.state.draftOf draft ∧ s' = s := by
  unfold moduleOf
  refine ends_then (ends_viewing _) ?_
  rw [show s.state.workshop.draft? source.origin = some draft by rw [ho]; exact hd]
  cases draft with
  | asIs => exact ends_pure ⟨rfl, rfl⟩
  | pending id =>
    obtain ⟨hshare, -⟩ := hs.drafts origin id hd
    exact ends_then (ends_lift (ends_await hshare ⟨rfl, rfl⟩)) (ends_compiled ⟨rfl, rfl⟩)

/-- A module is kept, or made by the chain, while nothing else runs. -/
theorem ends_moduleOf_made (hs : Rests s) (hnumbered : s.state.Numbered) (hready : s.rootReady = false)
    (source : Source) (given : Option Header) {origin : Origin} (ho : source.origin = some origin)
    (hkept : ∀ draft, s.state.workshop.modules.at? origin = some draft →
      s.state.draftOf draft = s.state.chain.made .module source given) :
    (moduleOf source given).run.Ends (plan ev) 1 s fun r s' =>
      r = s.state.chain.made .module source given ∧ Rests s' ∧ Made .module source given s.state s'.state := by
  cases hd : s.state.workshop.modules.at? origin with
  | some draft =>
    refine (ends_moduleOf_kept hs source given ho hd).mono (Nat.zero_le 1) ?_
    rintro _ _ ⟨rfl, rfl⟩
    exact ⟨hkept _ hd, hs, Made.refl (by rw [ho]; exact congrArg Option.isSome hd)⟩
  | none =>
    unfold moduleOf
    refine ends_then (ends_viewing _) ?_
    rw [show s.state.workshop.draft? source.origin = none by rw [ho]; exact hd]
    dsimp only
    cases hrequest : Workshop.request? source given .module with
    | none =>
      refine ends_then (ends_changing _ hs.asked) (ends_pure ?_)
      have hmade : s.state.chain.made .module source given = .ok none := by
        unfold Chain.made
        rw [hrequest]
      rw [ho, keep_some]
      refine ⟨hmade.symm, ⟨hs.still.withState _, hs.asked, fun o id hid => ?_⟩, ⟨⟨_, s.state.outcomes, s.state.nextWork, rfl⟩,
        rfl, fun _ _ hk => Or.inl hk, fun o draft hd => ?_, fun _ _ => rfl, Nat.le_refl _, fun hn o id hid => ?_,
        fun _ => by rw [calls_none hrequest]; rfl⟩⟩
      · have hid : (s.state.workshop.modules.put origin .asIs).at? o = some (.pending id) := hid
        rw [Table.at?_put] at hid
        split at hid
        · cases hid
        · exact hs.drafts o id hid
      · have hd : (s.state.workshop.modules.put origin .asIs).at? o = some draft := hd
        rw [Table.at?_put] at hd
        split at hd
        · next heq =>
          cases hd
          exact Or.inr ⟨rfl, heq ▸ ho, hmade.symm, fun _ hp => by cases hp⟩
        · exact Or.inl hd
      · have hid : (s.state.workshop.modules.put origin .asIs).at? o = some (.pending id) := hid
        rw [Table.at?_put] at hid
        split at hid
        · cases hid
        · exact hn o id hid
    | some request =>
      simp only [ho, Option.isSome_some, if_true]
      refine (ends_drafting hs hnumbered hready origin request ho).mono (Nat.le_refl 1) ?_
      rintro r s' ⟨hr, hrests, hstate⟩
      refine ⟨hr.trans ?_, hrests, hstate ▸ made_drafting ho hrequest⟩
      unfold Chain.made
      rw [hrequest]
      dsimp only
      rw [compile_fst s.state.workshop]
      rfl

/-- A failure that is kept of a version is told again. -/
theorem ends_code_module_failed (hs : Rests s) {token : Nat} {draft : Draft} {e : Failure}
    (hd : s.state.workshop.modules.at? (.file token) = some draft) (he : s.state.draftOf draft = .error e)
    (n : Nat) (path text : String) :
    (Files.code transpilersLater n (.ofVersion path text token)).run.Ends (plan ev) 0 s fun r s' =>
      r = .error e ∧ s' = s := by
  have failing (source : Source) (given : Option Header) (ho : source.origin = some (.file token)) :
      (moduleOf source given).run.Ends (plan ev) 0 s fun r s' => r = .error e ∧ s' = s := by
    have hkept : (moduleOf source given).run.Ends (plan ev) 0 s _ := ends_moduleOf_kept hs source given ho hd
    rwa [he] at hkept
  set source : Source := .ofVersion path text token with hsource
  show (Files.codeFrom n source 0 [moduleOfNote, fun s => moduleOf s none]).run.Ends (plan ev) 0 s _
  unfold Files.codeFrom
  by_cases hnote : source.isNote = true
  · refine ends_except (m := 0) (n := 0) (P := fun r s' => r = .error e ∧ s' = s) ?_ ?_ ?_
    · unfold moduleOfNote
      rw [if_pos hnote]
      refine ends_then (ends_viewing _) (ends_except (m := 0) (n := 0) (failing _ _ rfl) ?_ fun _ _ h => h)
      rintro _ _ ⟨h, -⟩
      cases h
    · rintro _ _ ⟨h, -⟩
      cases h
    · rintro _ _ ⟨h, rfl⟩
      exact ⟨congrArg _ (Except.error.inj h), rfl⟩
  · have hpass : (moduleOfNote source).run.Ends (plan ev) 0 s fun r s' => r = .ok none ∧ s' = s := by
      unfold moduleOfNote
      rw [if_neg hnote]
      exact ends_pure ⟨rfl, rfl⟩
    refine ends_then hpass ?_
    dsimp only
    unfold Files.codeFrom
    refine ends_except (m := 0) (n := 0) (failing _ _ rfl) ?_ ?_
    · rintro _ _ ⟨h, -⟩
      cases h
    · rintro _ _ ⟨h, rfl⟩
      exact ⟨congrArg _ (Except.error.inj h), rfl⟩

/-- The module that a source becomes is what the chain makes of it, whatever is kept, while nothing else runs. -/
theorem ends_code_module (hs : Rests s) (hnumbered : s.state.Numbered) (hready : s.rootReady = false) (n : Nat)
    (path text : String) (token : Nat)
    (hkept : ∀ draft, s.state.workshop.modules.at? (.file token) = some draft →
      s.state.draftOf draft = s.state.chain.result .module (.ofVersion path text token)) :
    (Files.code transpilersLater n (.ofVersion path text token)).run.Ends (plan ev) 1 s fun r s' =>
      r = s.state.chain.code .module (.ofVersion path text token) ∧ Rests s' ∧
        Coded n .module (.ofVersion path text token) s.state s'.state := by
  set source : Source := .ofVersion path text token with hsource
  set c : Chain := s.state.chain with hc
  have horigin : (c.toCompile source).1.origin = some (.file token) := c.toCompile_origin source
  have compiling : (moduleOf (c.toCompile source).1 (c.toCompile source).2).run.Ends (plan ev) 1 s _ :=
    ends_moduleOf_made hs hnumbered hready (c.toCompile source).1 (c.toCompile source).2 horigin hkept
  -- a transpiler that does not pass gives the code, and remembers that it did
  have done (i : Nat) (hi : source.isNote = true → i = 0) (code : String) {s' : Schedule Host Work}
      (hcode : c.code .module source = .ok code) (hr : Rests s')
      (hmade : Made .module (c.toCompile source).1 (c.toCompile source).2 s.state s'.state) :
      ExceptT.run (do
        Files.noteTranspiled n i source.origin
        return code : Errand String) |>.Ends (plan ev) 0 s' fun r s' =>
          r = c.code .module source ∧ Rests s' ∧ Coded n .module source s.state s'.state :=
    ends_then (ends_filesLater _ hr.asked) (ends_pure ⟨hcode.symm,
      hr.recalls (c := ⟨c, []⟩) (v := {}) (recalls_noteTranspiled s'.state n i token),
      ⟨s'.state, hmade, Or.inr ⟨i, token, rfl, hi, rfl⟩⟩⟩)
  have code (r : Except Failure (Option String)) (hr : r = c.result .module source) :
      c.code .module source = r.map (·.getD (c.toCompile source).1.content) := by rw [hr]; rfl
  show (Files.codeFrom n source 0 [moduleOfNote, fun s => moduleOf s none]).run.Ends (plan ev) 1 s _
  unfold Files.codeFrom
  by_cases hnote : source.isNote = true
  · have hto : c.toCompile source = ((source.ofNote s.state.settings).1, some (source.ofNote s.state.settings).2) :=
      c.toCompile_note hnote
    have hresult : c.result .module source = c.made .module (c.toCompile source).1 (c.toCompile source).2 := rfl
    rw [hto] at compiling done code hresult
    refine ends_except (m := 1) (n := 0) (P := fun r s' => r ≠ .ok none ∧
      r.map (·.getD "") = c.code .module source ∧ (∀ e, r = .error e → c.result .module source = .error e) ∧
      Rests s' ∧ Made .module (c.toCompile source).1 (c.toCompile source).2 s.state s'.state) ?_ ?_ ?_
    · unfold moduleOfNote
      rw [if_pos hnote]
      refine ends_then (ends_viewing _) (ends_except (m := 1) (n := 0) compiling ?_ ?_)
      · rintro made s' ⟨hr, hrests, hmade⟩
        exact ends_pure ⟨by simp, (code _ (hr.trans hresult.symm)).symm, by simp, hrests, by rwa [hto]⟩
      · rintro e s' ⟨hr, hrests, hmade⟩
        have hfails : c.result .module source = .error e := hresult.trans hr.symm
        exact ⟨by simp, (code _ (hr.trans hresult.symm)).symm, fun _ he => he ▸ hfails, hrests, by rwa [hto]⟩
    · rintro made s' ⟨hsome, hcode, -, hrests, hmade⟩
      rw [hto] at hmade
      cases made with
      | none => exact absurd rfl hsome
      | some made => exact done 0 (fun _ => rfl) made hcode.symm hrests hmade
    · rintro e s' ⟨-, hcode, hfails, hrests, hmade⟩
      exact ⟨hcode, hrests, s'.state, hmade, Or.inl ⟨rfl, fun _ => ⟨e, hfails e rfl⟩⟩⟩
  · have hpass : (moduleOfNote source).run.Ends (plan ev) 0 s fun r s' => r = .ok none ∧ s' = s := by
      unfold moduleOfNote
      rw [if_neg hnote]
      exact ends_pure ⟨rfl, rfl⟩
    have hto := c.toCompile_plain hnote
    have hresult : c.result .module source = c.made .module (c.toCompile source).1 (c.toCompile source).2 := rfl
    rw [hto] at compiling done code hresult
    refine ends_then hpass ?_
    dsimp only
    unfold Files.codeFrom
    refine ends_except (m := 1) (n := 0) compiling ?_ ?_
    · rintro made s' ⟨hr, hrests, hmade⟩
      have hcode := code _ (hr.trans hresult.symm)
      cases made with
      | some made => exact done 1 (fun h => absurd h hnote) made hcode hrests hmade
      | none =>
        unfold Files.codeFrom
        exact ends_pure ⟨hcode.symm, hrests, s'.state, show Made .module (c.toCompile source).1 _ _ _ by rwa [hto],
          Or.inl ⟨rfl, fun h => absurd h hnote⟩⟩
    · rintro e s' ⟨hr, hrests, hmade⟩
      have hcode := code _ (hr.trans hresult.symm)
      exact ⟨hcode.symm, hrests, s'.state, show Made .module (c.toCompile source).1 _ _ _ by rwa [hto],
        Or.inl ⟨rfl, fun h => absurd h hnote⟩⟩

end Host

end ScriptVault

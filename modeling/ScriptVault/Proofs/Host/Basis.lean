import ScriptVault.Proofs.Host.Chain
import ScriptVault.Proofs.Host.Current

/-!
# Basis — what code rests on

A resolver keeps code of a version of a path, and with it the versions that the module was built on.  When one of
these is gone, the code is dropped as soon as the resolver looks at it; when the version itself is gone, the code
does not count any more.
-/

namespace ScriptVault

/-- The version of a path that is known. -/
def Snapshot.version? (s : Snapshot) (path : String) : Option Nat := (s.get? path).map Identity.token

/-- What code rests on. -/
structure Basis where
  /-- The version that the code was made from. -/
  version : Nat
  /-- The versions that the module was built on. -/
  others : List Nat := []
  deriving DecidableEq, Repr

namespace Basis

/-- A version that the module was built on is gone. -/
def isStale (b : Basis) (s : Snapshot) : Bool := !b.others.all s.isCurrent

/-- The module was built on one more version. -/
def on (b : Basis) (token : Nat) : Basis := { b with others := b.others.insert token }

/-- What code of a version rests on after a question: where it was answered, there is code. -/
def after (version : Nat) (b : Option Basis) : Except Failure (Option Resolved) → Option Basis
  | .ok _ => some (b.getD { version := version })
  | .error _ => b

end Basis

/-- What the code of an entry rests on. -/
def Entry.basis (entry : Entry) : Basis := ⟨entry.token, entry.dependencies⟩

namespace FileResolver

variable {r : FileResolver} {snapshot : Snapshot} {identity : Identity} {form : Compile.Form}

/-- A resolver drops the code of a path if it was built on a version that is gone. -/
theorem lookup_drops (hstale : (r.lookup snapshot identity form).1.2 = true) :
    (r.lookup snapshot identity form).2.entries = r.entries.erase identity.path := by
  unfold lookup at hstale ⊢
  split at hstale
  · cases hstale
  · split at hstale
    · cases hstale
    · next hfresh =>
      rw [if_neg hfresh]
      split at hstale
      · cases hstale
      · next hcurrent => rw [if_neg hcurrent]

/-- And else it keeps all code. -/
theorem lookup_fresh (hstale : (r.lookup snapshot identity form).1.2 = false) :
    (r.lookup snapshot identity form).2 = r := by
  unfold lookup at hstale ⊢
  split at hstale
  · rfl
  · split at hstale
    · next hversion => rw [if_pos hversion]
    · next hversion =>
      rw [if_neg hversion]
      split at hstale
      · next hcurrent => rw [if_pos hcurrent]
      · cases hstale

/-- What the code rests on that a resolver keeps when it was given code of a version. -/
theorem basis_store (r : FileResolver) (identity : Identity) (code : String) (form : Compile.Form) :
    ((r.store identity code form).entries.at? identity.path).map Entry.basis =
      some ((((r.entries.at? identity.path).map Entry.basis).filter (·.version = identity.token)).getD
        { version := identity.token }) := by
  have hwith (entry : Entry) : (entry.withCode code form).basis = entry.basis := by cases form <;> rfl
  unfold store
  rw [Table.at?_put_same, Option.map_some, hwith]
  cases r.entries.at? identity.path with
  | none => rfl
  | some entry =>
    by_cases hversion : entry.token = identity.token
    · simp [Option.filter, hversion, Entry.basis]
    · simp [Option.filter, hversion, Entry.basis]

/-- What a resolver keeps of a path when it was told what a module was built on. -/
theorem entry_depend (r : FileResolver) (parent path : String) (token : Nat) :
    (r.depend parent token).entries.at? path = (r.entries.at? path).map fun entry =>
      if path = parent then { entry with dependencies := entry.dependencies.insert token } else entry := by
  rw [depend, Host.at?_update]

end FileResolver

namespace Files

/-- What the code rests on that a resolver keeps of the version of a path that is known. -/
def basis? (f : Files) (n : Nat) (path : String) : Option Basis :=
  (((f.resolver n).entries.at? path).map Entry.basis).filter fun b => f.snapshot.version? path = some b.version

/-- A resolver keeps code of a path that was built on a version that is gone. -/
def isStale (f : Files) (n : Nat) (path : String) : Bool := (f.basis? n path).any (·.isStale f.snapshot)

/-- What the code rests on that is left when a resolver looked at what it keeps of a path. -/
def lasting? (f : Files) (n : Nat) (path : String) : Option Basis :=
  (f.basis? n path).filter fun b => !b.isStale f.snapshot

/-- Of other paths, and by other resolvers, code is kept as before. -/
def Elsewhere (n : Nat) (path : String) (f f' : Files) : Prop :=
  ∀ k p, (k, p) ≠ (n, path) → f'.basis? k p = f.basis? k p

section Basis

variable {f f' f'' : Files} {n : Nat} {path : String} {identity : Identity}

theorem Elsewhere.trans (a : f.Elsewhere n path f') (b : f'.Elsewhere n path f'') : f.Elsewhere n path f'' :=
  fun k p hne => (b k p hne).trans (a k p hne)

theorem Elsewhere.apart (a : f.Elsewhere n path f') {k : Nat} {p : String} (hne : ¬(n = k ∧ path = p)) :
    f'.basis? k p = f.basis? k p :=
  a k p fun h => hne ⟨(congrArg Prod.fst h).symm, (congrArg Prod.snd h).symm⟩

theorem lasting?_of_stale (h : f.isStale n path = true) : f.lasting? n path = none := by
  unfold isStale at h
  unfold lasting?
  cases hb : f.basis? n path with
  | none => rfl
  | some b =>
    rw [hb] at h
    simpa using h

theorem lasting?_of_not_stale (h : f.isStale n path = false) : f.lasting? n path = f.basis? n path := by
  unfold isStale at h
  unfold lasting?
  cases hb : f.basis? n path with
  | none => rfl
  | some b =>
    rw [hb] at h
    simpa using h

theorem isStale_congr (hbasis : f'.basis? n path = f.basis? n path) (hsnapshot : f'.snapshot = f.snapshot) :
    f'.isStale n path = f.isStale n path := by
  unfold isStale
  rw [hbasis, hsnapshot]

theorem lasting?_congr (hbasis : f'.basis? n path = f.basis? n path) (hsnapshot : f'.snapshot = f.snapshot) :
    f'.lasting? n path = f.lasting? n path := by
  unfold lasting?
  rw [hbasis, hsnapshot]

/-! ### One resolver does something -/

theorem resolver_of_le (hn : f.resolvers.length ≤ n) : f.resolver n = { strategy := .absolute } := by
  simp [resolver, List.getElem?_eq_none hn]

/-- Where all resolvers do something, each of them does. -/
theorem resolver_overall (act : FileResolver → Ripple × FileResolver) (hn : n < f.resolvers.length) :
    (f.overall act).2.resolver n = (act (f.resolver n)).2 := by
  simp [overall, resolver, hn]

theorem resolver_overall_of_le (act : FileResolver → Ripple × FileResolver) (hn : f.resolvers.length ≤ n) :
    (f.overall act).2.resolver n = { strategy := .absolute } :=
  resolver_of_le (by simpa [overall] using hn)

/-- Only a resolver that is there keeps code. -/
theorem resolver_mem {entry : Entry} (hentry : (f.resolver n).entries.at? path = some entry) :
    f.resolver n ∈ f.resolvers := by
  by_cases hn : n < f.resolvers.length
  · rw [Host.resolver_eq_getElem hn]
    exact List.getElem_mem hn
  · rw [resolver_of_le (Nat.le_of_not_lt hn)] at hentry
    cases hentry

/-- Where there is no such resolver, nothing is done. -/
theorem resolver_onResolver_of_le (hn : f.resolvers.length ≤ n) (change : FileResolver → FileResolver) :
    (f.onResolver n change).resolver n = { strategy := .absolute } :=
  resolver_of_le (show (f.resolvers.set n _).length ≤ n from (List.length_set ..).symm ▸ hn)

/-- A resolver may do something that leaves the code it keeps. -/
theorem basis?_onResolver (f : Files) (n : Nat) {change : FileResolver → FileResolver}
    (hsame : ∀ r, (change r).entries = r.entries) : (f.onResolver n change).basis? = f.basis? := by
  funext k p
  have hentries : ((f.onResolver n change).resolver k).entries = (f.resolver k).entries := by
    by_cases hk : n = k
    · subst hk
      rcases resolver_onResolver_same f n change with hr | hr
      · rw [hr, hsame]
      · rw [hr]
    · rw [resolver_onResolver_ne hk]
  unfold basis?
  rw [hentries]
  rfl

/-- A resolver may do something with the code that it keeps of one path. -/
theorem elsewhere_onResolver (f : Files) (n : Nat) {change : FileResolver → FileResolver}
    (hother : ∀ r p, p ≠ path → (change r).entries.at? p = r.entries.at? p) :
    f.Elsewhere n path (f.onResolver n change) := by
  intro k p hne
  have hentry : ((f.onResolver n change).resolver k).entries.at? p = (f.resolver k).entries.at? p := by
    by_cases hk : n = k
    · subst hk
      rcases resolver_onResolver_same f n change with hr | hr
      · rw [hr, hother _ p fun hp => hne (by rw [hp])]
      · rw [hr]
    · rw [resolver_onResolver_ne hk]
  unfold basis?
  rw [hentry]
  rfl

theorem basis?_of_resolver (hsnapshot : f'.snapshot = f.snapshot)
    (hentry : (f'.resolver n).entries.at? path = (f.resolver n).entries.at? path) :
    f'.basis? n path = f.basis? n path := by
  unfold basis?
  rw [hentry, hsnapshot]

theorem basis?_of_get (hget : f.snapshot.get? path = some identity) :
    f.basis? n path =
      (((f.resolver n).entries.at? path).map Entry.basis).filter fun b => b.version = identity.token := by
  unfold basis? Snapshot.version?
  rw [hget]
  simp only [Option.map_some, Option.some.injEq, eq_comm]

theorem basis?_eq (hget : f.snapshot.get? path = some identity) {entry : Entry}
    (hentry : (f.resolver n).entries.at? path = some entry) :
    f.basis? n path = if entry.token = identity.token then some entry.basis else none := by
  rw [basis?_of_get hget, hentry]
  simp [Option.filter, Entry.basis]

theorem basis?_none (hentry : (f.resolver n).entries.at? path = none) : f.basis? n path = none := by
  unfold basis?
  rw [hentry]
  rfl

/-! ### Looking at what is kept -/

/-- What a resolver drops when it looks for code is what was built on a version that is gone. -/
theorem lookup_isStale (f : Files) (n : Nat) (hget : f.snapshot.get? path = some identity) (hpath : identity.path = path)
    (form : Compile.Form) : ((f.resolver n).lookup f.snapshot identity form).1.2 = f.isStale n path := by
  unfold FileResolver.lookup isStale
  rw [hpath]
  cases hentry : (f.resolver n).entries.at? path with
  | none =>
    rw [basis?_none hentry]
    rfl
  | some entry =>
    rw [basis?_eq hget hentry]
    by_cases htoken : entry.token = identity.token
    · by_cases hall : entry.dependencies.all f.snapshot.isCurrent = true
      · simp [htoken, hall, Basis.isStale, Entry.basis]
      · simp [htoken, hall, Basis.isStale, Entry.basis]
    · simp [htoken]

/-- Where a resolver has code at hand, the code rests on the version and on nothing that is gone. -/
theorem basis?_of_lookup (hget : f.snapshot.get? path = some identity) (hpath : identity.path = path)
    {form : Compile.Form} {code : String}
    (hcode : ((f.resolver n).lookup f.snapshot identity form).1.1 = some code) :
    f.isStale n path = false ∧ ∃ b, f.basis? n path = some b := by
  rw [← f.lookup_isStale n hget hpath form]
  unfold FileResolver.lookup at hcode ⊢
  rw [hpath] at hcode ⊢
  cases hentry : (f.resolver n).entries.at? path with
  | none =>
    rw [hentry] at hcode
    cases hcode
  | some entry =>
    rw [hentry] at hcode
    rw [basis?_eq hget hentry]
    by_cases htoken : entry.token = identity.token
    · by_cases hall : entry.dependencies.all f.snapshot.isCurrent = true
      · simp [htoken, hall]
      · simp [htoken, hall] at hcode
    · simp [htoken] at hcode

/-- What a resolver drops when it looks for code is not kept any more. -/
theorem entry_of_stale {form : Compile.Form}
    (hstale : ((f.resolver n).lookup f.snapshot identity form).1.2 = true) :
    ((f.onResolver n fun r => (r.lookup f.snapshot identity form).2).resolver n).entries.at? identity.path = none := by
  by_cases hn : n < f.resolvers.length
  · rw [Host.resolver_onResolver hn, FileResolver.lookup_drops hstale, Table.at?_erase_same]
  · rw [resolver_onResolver_of_le (Nat.le_of_not_lt hn)]
    rfl

/-- When a resolver looks for code, it drops what was built on a version that is gone, and nothing else. -/
theorem basis?_lookup (hget : f.snapshot.get? path = some identity) (hpath : identity.path = path)
    (form : Compile.Form) :
    (f.onResolver n fun r => (r.lookup f.snapshot identity form).2).basis? n path = f.lasting? n path := by
  have hstale := f.lookup_isStale n hget hpath form
  cases hdrops : f.isStale n path with
  | true =>
    rw [lasting?_of_stale hdrops]
    exact basis?_none (hpath ▸ entry_of_stale (hstale.trans hdrops))
  | false =>
    rw [lasting?_of_not_stale hdrops]
    refine basis?_of_resolver rfl ?_
    rcases resolver_onResolver_same f n fun r => (r.lookup f.snapshot identity form).2 with hr | hr
    · rw [hr, FileResolver.lookup_fresh (hstale.trans hdrops)]
    · rw [hr]

theorem elsewhere_lookup (f : Files) (n : Nat) (hpath : identity.path = path) (form : Compile.Form) :
    f.Elsewhere n path (f.onResolver n fun r => (r.lookup f.snapshot identity form).2) := by
  refine elsewhere_onResolver f n fun r p hp => ?_
  cases hstale : (r.lookup f.snapshot identity form).1.2 with
  | true => rw [FileResolver.lookup_drops hstale, Table.at?_erase_ne (hpath ▸ Ne.symm hp)]
  | false => rw [FileResolver.lookup_fresh hstale]

/-! ### Keeping code -/

/-- A resolver that keeps code goes on to know what the code of the version was built on. -/
theorem basis?_store (hn : n < f.resolvers.length) (hget : f.snapshot.get? path = some identity)
    (hpath : identity.path = path) (code : String) (form : Compile.Form) :
    (f.onResolver n (·.store identity code form)).basis? n path =
      some ((f.basis? n path).getD { version := identity.token }) := by
  have hafter : ((f.onResolver n (·.store identity code form)).basis? n path) = _ :=
    basis?_of_get hget
  rw [hafter, basis?_of_get hget, Host.resolver_onResolver hn, ← hpath, FileResolver.basis_store]
  cases hold : Option.filter (·.version = identity.token) (((f.resolver n).entries.at? identity.path).map Entry.basis) with
  | none => simp [Option.filter]
  | some b =>
    have hversion : b.version = identity.token := by simpa using (Option.filter_eq_some_iff.1 hold).2
    simp [Option.filter, hversion]

theorem elsewhere_store (f : Files) (n : Nat) (hpath : identity.path = path) (code : String) (form : Compile.Form) :
    f.Elsewhere n path (f.onResolver n (·.store identity code form)) :=
  elsewhere_onResolver f n fun _ _ hp => Table.at?_put_ne (hpath ▸ Ne.symm hp) ..

/-! ### What a module was built on, and what is forgotten -/

theorem basis?_of_le (hn : f.resolvers.length ≤ n) : f.basis? n path = none :=
  basis?_none (by rw [resolver_of_le hn]; rfl)

theorem basis?_onResolver_of_le (hn : f.resolvers.length ≤ n) (change : FileResolver → FileResolver) :
    (f.onResolver n change).basis? n path = none :=
  basis?_none (by rw [resolver_onResolver_of_le hn]; rfl)

/-- A resolver goes on to know that a module was built on one more version. -/
theorem basis?_depend (f : Files) (n : Nat) (path : String) (token : Nat) :
    (f.onResolver n (·.depend path token)).basis? n path = (f.basis? n path).map (·.on token) := by
  by_cases hn : n < f.resolvers.length
  · have hentry : ((f.resolver n).depend path token).entries.at? path = ((f.resolver n).entries.at? path).map
        fun entry => { entry with dependencies := entry.dependencies.insert token } := by
      rw [FileResolver.depend, Host.at?_update]
      simp
    unfold basis?
    rw [Host.resolver_onResolver hn, hentry]
    show Option.filter (fun b : Basis => decide (f.snapshot.version? path = some b.version)) _ = _
    cases (f.resolver n).entries.at? path with
    | none => rfl
    | some entry =>
      by_cases hversion : f.snapshot.version? path = some entry.token
      · simp [Option.filter, Entry.basis, hversion, Basis.on]
      · simp [Option.filter, Entry.basis, hversion]
  · rw [basis?_onResolver_of_le (Nat.le_of_not_lt hn), basis?_of_le (Nat.le_of_not_lt hn)]
    rfl

theorem elsewhere_depend (f : Files) (n : Nat) (path : String) (token : Nat) :
    f.Elsewhere n path (f.onResolver n (·.depend path token)) := by
  refine elsewhere_onResolver f n fun r p hp => ?_
  rw [FileResolver.entry_depend]
  simp [hp]

/-- What a resolver forgets of a path counts no more. -/
theorem basis?_forget (f : Files) (n : Nat) {change : FileResolver → FileResolver}
    (hchange : ∀ r, (change r).entries.at? path = none) : (f.onResolver n change).basis? n path = none := by
  by_cases hn : n < f.resolvers.length
  · exact basis?_none (by rw [Host.resolver_onResolver hn, hchange])
  · exact basis?_onResolver_of_le (Nat.le_of_not_lt hn) change

end Basis

end Files

/-! ### What questions leave -/

namespace Host

open Compile

variable {h h' : Host} {n : Nat} {form : Form} {path text : String} {token : Nat} {identity : Identity} {cache : Bool}

theorem Coded.basis? {source : Source} (a : Coded n form source h h') : h'.files.basis? = h.files.basis? := by
  obtain ⟨h₁, hmade, ⟨rfl, -⟩ | ⟨i, token, -, -, rfl⟩⟩ := a
  · rw [hmade.files]
  · rw [← hmade.files]
    exact h₁.files.basis?_onResolver n fun _ => rfl

/-- A resolver looked at what it keeps of a version of a path, which is forgotten where some of it is dropped. -/
structure Looked (n : Nat) (form : Form) (path : String) (token : Nat) (h h' : Host) : Prop where
  /-- Of other paths the same is kept. -/
  elsewhere : h.files.Elsewhere n path h'.files
  /-- What was built on a version that is gone is dropped. -/
  basis : h'.files.basis? n path = h.files.lasting? n path
  /-- There are as many resolvers. -/
  length : h'.files.resolvers.length = h.files.resolvers.length
  /-- The chain is the same. -/
  chain : h'.chain = h.chain
  /-- The compiler was not asked. -/
  compiles : h'.workshop.compiles = h.workshop.compiles
  /-- Where something is dropped, nothing is kept of the version. -/
  forgotten : h.files.isStale n path = true → h'.holds (some (.file token)) form = false

/-- Code of a version of a path was made anew, and kept if it could be made. -/
structure Remade (n : Nat) (form : Form) (path text : String) (token : Nat) (cache : Bool) (h : Host)
    (r : Except Failure (Option Resolved)) (h' : Host) : Prop where
  /-- The file is known. -/
  answered : r ≠ .ok none
  /-- Whether a module of the path may be used again. -/
  cache : ∀ answer, r = .ok (some answer) → answer.cache = cache
  /-- Of other paths the same is kept. -/
  elsewhere : h.files.Elsewhere n path h'.files
  /-- What the code rests on that is kept. -/
  basis : n < h.files.resolvers.length → h'.files.basis? n path = Basis.after token (h.files.basis? n path) r
  /-- The compiler was asked, if nothing was kept. -/
  calls : h.holds (some (.file token)) form = false →
    h'.workshop.compiles = h.workshop.compiles + h.chain.asks form (.ofVersion path text token)

/-- A question for a path was answered: if the code that was kept was built on a version that is gone, it was made anew,
and a module of the path must not be used again. -/
structure Accounts (n : Nat) (form : Form) (path text : String) (token : Nat) (h : Host)
    (r : Except Failure (Option Resolved)) (h' : Host) : Prop where
  /-- The file is known. -/
  answered : r ≠ .ok none
  /-- Whether a module of the path may be used again. -/
  cache : ∀ answer, r = .ok (some answer) → answer.cache = !h.files.isStale n path
  /-- Of other paths the same is kept. -/
  elsewhere : h.files.Elsewhere n path h'.files
  /-- What the code rests on that is kept. -/
  basis : n < h.files.resolvers.length → h'.files.basis? n path = Basis.after token (h.files.lasting? n path) r
  /-- The compiler was asked, if something was dropped. -/
  calls : h.files.isStale n path = true →
    h'.workshop.compiles = h.workshop.compiles + h.chain.asks form (.ofVersion path text token)

theorem Looked.accounts {h₁ : Host} {r : Except Failure (Option Resolved)} (a : Looked n form path token h h₁)
    (b : Remade n form path text token (!h.files.isStale n path) h₁ r h') : Accounts n form path text token h r h' :=
  ⟨b.answered, b.cache, a.elsewhere.trans b.elsewhere, fun hn => a.basis ▸ b.basis (a.length ▸ hn),
    fun hstale => by rw [b.calls (a.forgotten hstale), a.compiles, a.chain]⟩

theorem looked_lookup (hget : h.files.snapshot.get? path = some identity) (hpath : identity.path = path) (form : Form)
    (hfresh : h.files.isStale n path = false) :
    Looked n form path identity.token h
      { h with files := h.files.onResolver n fun r => (r.lookup h.files.snapshot identity form).2 } :=
  ⟨Files.elsewhere_lookup h.files n hpath form, Files.basis?_lookup hget hpath form, List.length_set .., rfl, rfl,
    fun hstale => by rw [hfresh] at hstale; cases hstale⟩

theorem looked_forget (hget : h.files.snapshot.get? path = some identity) (hpath : identity.path = path) (form : Form)
    {h₁ : Host} (hh₁ : h₁ = { h with
      files := h.files.onResolver n fun r => (r.lookup h.files.snapshot identity form).2 }) :
    Looked n form path identity.token h
      ({ h₁ with files := h₁.files.onResolver n (·.forgetToken identity.token) }.forget (.file identity.token)) := by
  subst hh₁
  set f : Files := h.files.onResolver n fun r => (r.lookup h.files.snapshot identity form).2 with hf
  have hsame : (f.onResolver n (·.forgetToken identity.token)).basis? = f.basis? := f.basis?_onResolver n fun _ => rfl
  refine ⟨fun k p hne => ?_, ?_, ?_, rfl, rfl, fun _ => ?_⟩
  · exact (congrFun (congrFun hsame k) p).trans (Files.elsewhere_lookup h.files n hpath form k p hne)
  · exact (congrFun (congrFun hsame n) path).trans (Files.basis?_lookup hget hpath form)
  · exact (List.length_set ..).trans (List.length_set ..)
  · cases form with
    | script => exact congrArg Option.isSome (Table.at?_erase_same h.workshop.scripts (.file identity.token))
    | module => exact congrArg Option.isSome (Table.at?_erase_same h.workshop.modules (.file identity.token))

theorem remade_failed {e : Failure} (a : Coded n form (.ofVersion path text token) h h') :
    Remade n form path text token cache h (.error e) h' :=
  ⟨nofun, nofun, fun k p _ => congrFun (congrFun a.basis? k) p, fun _ => congrFun (congrFun a.basis? n) path,
    a.compiles⟩

theorem remade_refused {e : Failure} (form : Form) (hkept : h.holds (some (.file token)) form = true) :
    Remade n form path text token cache h (.error e) h :=
  ⟨nofun, nofun, fun _ _ _ => rfl, fun _ => rfl, fun hnone => by rw [hkept] at hnone; cases hnone⟩

theorem remade_kept (hget : h'.files.snapshot.get? path = some identity) (hpath : identity.path = path)
    (hlength : h'.files.resolvers.length = h.files.resolvers.length)
    (a : Coded n form (.ofVersion path text identity.token) h h') (code : String) :
    Remade n form path text identity.token cache h (.ok (some (.ofFile path code cache)))
      { h' with files := h'.files.onResolver n (·.store identity code form) } := by
  refine ⟨nofun, fun _ hr => ?_, fun k p hne => ?_, fun hn => ?_, a.compiles⟩
  · cases hr
    rfl
  · exact (Files.elsewhere_store h'.files n hpath code form k p hne).trans (congrFun (congrFun a.basis? k) p)
  · exact (Files.basis?_store (hlength ▸ hn) hget hpath code form).trans (by rw [a.basis?]; rfl)

/-- Code that is at hand is code of the version, and was built on nothing that is gone. -/
theorem accounts_found (h : Host) (n : Nat) (form : Form) (text code : String)
    (hget : h.files.snapshot.get? path = some identity) (hpath : identity.path = path)
    (hcode : ((h.files.resolver n).lookup h.files.snapshot identity form).1.1 = some code) :
    Accounts n form path text identity.token h (.ok (some (.ofFile path code true)))
      { h with files := h.files.onResolver n fun r => (r.lookup h.files.snapshot identity form).2 } := by
  obtain ⟨hfresh, b, hb⟩ := Files.basis?_of_lookup hget hpath hcode
  refine ⟨nofun, fun _ hr => ?_, Files.elsewhere_lookup h.files n hpath form, fun _ => ?_, fun hstale => ?_⟩
  · cases hr
    rw [hfresh]
    rfl
  · refine (Files.basis?_lookup hget hpath form).trans ?_
    rw [Files.lasting?_of_not_stale hfresh, hb]
    rfl
  · rw [hfresh] at hstale
    cases hstale

/-- It does not matter what else was asked for. -/
theorem Accounts.after_track {id : String} {r : Except Failure (Option Resolved)}
    (a : Accounts n form path text token { h with files := h.files.onResolver n (·.track id) } r h') :
    Accounts n form path text token h r h' := by
  have hsame : (h.files.onResolver n (·.track id)).basis? = h.files.basis? := h.files.basis?_onResolver n fun _ => rfl
  have hown := congrFun (congrFun hsame n) path
  have hstale : (h.files.onResolver n (·.track id)).isStale n path = h.files.isStale n path :=
    Files.isStale_congr hown rfl
  have hlasting : (h.files.onResolver n (·.track id)).lasting? n path = h.files.lasting? n path :=
    Files.lasting?_congr hown rfl
  refine ⟨a.answered, fun answer hr => hstale ▸ a.cache answer hr, fun k p hne => ?_, fun hn => ?_, fun hs => ?_⟩
  · exact (a.elsewhere k p hne).trans (congrFun (congrFun hsame k) p)
  · exact hlasting ▸ a.basis ((List.length_set ..).symm ▸ hn)
  · exact a.calls (hstale.trans hs)

end Host

end ScriptVault

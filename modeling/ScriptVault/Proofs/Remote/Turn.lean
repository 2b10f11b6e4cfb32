import ScriptVault.Proofs.Async.Accord
import ScriptVault.Proofs.Remote.Page

/-!
# Turn — what threads may do to remote modules

Loads, and those who wait for them, share the entries of the addresses, what the transpilers keep, and what is told under
numbers.  Each number is held by one thread, which alone tells something under it; each load has a token, under which only
it has something kept.  An entry is begun by whoever claims it, and settled with what came of the very load that it was
begun for.  Where nothing is done from outside, more is known: what the run set out from decides all that comes of it.
-/

namespace ScriptVault

/-- What threads see of a host: beside the state and the threads, who holds the numbers. -/
abbrev Sight := View Host Work (Nat → Option Nat)

/-- What a run sets out from, in which nothing is done from outside. -/
structure Outset where
  /-- The host at the start. -/
  host : Host
  /-- The addresses that may be loaded. -/
  within : List String
  /-- What their pages require is among them. -/
  closed : ∀ href ∈ within, ∀ url ∈ host.pageRequires href, ∀ a, host.finalAddress? url none = some a → a ∈ within

namespace Host

/-- How far an address is. -/
def entry (h : Host) (href : String) : Option RemoteState := h.remote.modules.at? href

/-- The address can be claimed. -/
def Free (h : Host) (href : String) : Prop := h.entry href = none ∨ h.entry href = some .awaited

/-- Some entry stands for the load of a number. -/
def Bears (h : Host) (token : Nat) : Prop := ∃ href state, h.entry href = some state ∧ state.token? = some token

/-- What the transpilers keep of a load. -/
def kept (h : Host) (token : Nat) : Option (Except Failure String) × Option Compile.Draft :=
  (h.workshop.scripts.at? (.remote token), h.workshop.modules.at? (.remote token))

/-- The transpilers keep something of a load. -/
def Keeps (h : Host) (token : Nat) : Prop := h.kept token ≠ (none, none)

/-- The transpilers keep something of a load that no entry stands for. -/
def Strays (h : Host) (token : Nat) : Prop := h.Keeps token ∧ ¬h.Bears token

end Host

namespace Sight

variable (k : Option Outset)

/-- A load was begun, as the work of a number, for an address and under a token. -/
abbrev Loads (x : Sight) (work : Nat) (href : String) (token : Nat) : Prop := x.Works work (.fetching href token)

/-- What is told of a load is what came of it. -/
structure Reports (x : Sight) (href : String) (t : Nat) (r : Except Failure RemoteModule) : Prop where
  /-- The module has the token of the load. -/
  token : ∀ module, r = .ok module → module.token = t
  /-- Nothing is kept of a load that failed. -/
  failed : ∀ e, r = .error e → ¬x.state.Keeps t
  /-- Where nothing is done from outside, it is what the page becomes. -/
  page : ∀ s, k = some s → r = s.host.loadedPage href t

/-- Where nothing is done from outside: what is known of all that was done since the start. -/
structure Calm (s : Outset) (x : Sight) : Prop where
  alike : Host.Akin s.host x.state
  network : x.state.network = { s.host.network with requests := x.state.network.requests }
  /-- Each address is loaded once. -/
  once : ∀ w w' href t t', x.Loads w href t → x.Loads w' href t' → w = w'
  /-- What is loaded was free at the start. -/
  free : ∀ w href t, x.Loads w href t → s.host.Free href
  within : ∀ w href t, x.Loads w href t → href ∈ s.within
  /-- The entry of what was begun to be loaded waits for it, or has what came of it. -/
  entered : ∀ w href t, x.Loads w href t → x.state.entry href = some (.loading t w) ∨
    ∃ r, x.state.entry href = some (.ofResult r) ∧ x.state.outcome? w = some (.remote r)
  /-- All other entries are as at the start. -/
  rest : ∀ href, (∀ w t, ¬x.Loads w href t) → x.state.entry href = s.host.entry href
  /-- Each address is asked for once, by the load of it. -/
  requests : ∃ new, x.state.network.requests = new ++ s.host.network.requests ∧ new.Nodup ∧
    ∀ href ∈ new, ∃ w t, x.Loads w href t
  /-- New redirects are as the network tells them. -/
  redirects : ∀ a, x.state.remote.redirects.at? a = s.host.remote.redirects.at? a ∨
    s.host.remote.redirects.at? a = none ∧ ∃ target, s.host.network.destination a = .ok target ∧
      x.state.remote.redirects.at? a = some target

/-- What holds after every change. -/
structure Orderly (x : Sight) : Prop where
  asked : x.state.asked = []
  quiet : x.state.Quiet
  /-- Numbers are given out before they are used. -/
  begun : ∀ i, x.threads i ≠ none → i < x.state.nextWork
  told : ∀ i, x.state.outcome? i ≠ none → i < x.state.nextWork
  held : ∀ i, x.notes i ≠ none → i < x.state.nextWork
  /-- Each thread holds its number. -/
  holds : ∀ i, x.threads i ≠ none → x.notes i = some i
  /-- What an entry waits for was begun. -/
  loading : ∀ href t w, x.state.entry href = some (.loading t w) → x.Loads w href t
  /-- Tokens are given out before they are used, each to one load. -/
  tokens : ∀ w href t, x.Loads w href t → t < x.state.remote.nextToken
  apart : ∀ w w' href href' t, x.Loads w href t → x.Loads w' href' t → w = w'
  carried : ∀ t, x.state.Bears t → t < x.state.remote.nextToken
  /-- Only the entry of its own address stands for a load. -/
  stands : ∀ w href t, x.Loads w href t → ∀ a state, x.state.entry a = some state → state.token? = some t → a = href
  kept : ∀ t, x.state.Keeps t → t < x.state.remote.nextToken
  /-- What strays is kept by a load that is under way. -/
  strays : ∀ t, x.state.Strays t → ∃ w href, x.Loads w href t ∧ x.state.outcome? w = none
  /-- What is told of loads is what came of them. -/
  reports : ∀ w href t o, x.Loads w href t → x.state.outcome? w = some o →
    ∃ r, o = .remote r ∧ Reports k x href t r
  calm : ∀ s, k = some s → Calm s x

/-! ### What is done in one turn -/

/-- Numbers are given out, and threads begun under them. -/
structure Numbers (x y : Sight) : Prop where
  next : x.state.nextWork ≤ y.state.nextWork
  threads : ∀ i v, x.threads i = some v → y.threads i = some v
  begun : ∀ i, x.threads i = none → y.threads i ≠ none →
    x.state.nextWork ≤ i ∧ i < y.state.nextWork ∧ y.notes i = some i
  notes : ∀ i j, x.notes i = some j → y.notes i = some j
  held : ∀ i, x.notes i = none → y.notes i ≠ none → x.state.nextWork ≤ i ∧ i < y.state.nextWork

/-- At most one entry changes: it is claimed, or settled with what came of the load that it waits for. -/
inductive Entries (x y : Sight) : Prop where
  | same : (∀ href, y.state.entry href = x.state.entry href) → y.state.remote.nextToken = x.state.remote.nextToken →
      (∀ w href t, y.Loads w href t → x.Loads w href t) → Entries x y
  | claimed (href : String) (w : Nat) : x.state.Free href → (∀ s, k = some s → href ∈ s.within) → x.threads w = none →
      y.Loads w href x.state.remote.nextToken → (∀ i, i ≠ w → y.threads i = x.threads i) →
      y.state.entry href = some (.loading x.state.remote.nextToken w) →
      (∀ a, a ≠ href → y.state.entry a = x.state.entry a) →
      y.state.remote.nextToken = x.state.remote.nextToken + 1 → Entries x y
  | settled (href : String) (t w : Nat) (r : Except Failure RemoteModule) :
      x.state.entry href = some (.loading t w) → x.state.outcome? w = some (.remote r) →
      y.state.entry href = some (.ofResult r) → (∀ a, a ≠ href → y.state.entry a = x.state.entry a) →
      y.state.remote.nextToken = x.state.remote.nextToken → y.threads = x.threads → Entries x y

/-- The thread of a number is no work, or a load. -/
def Asks (x : Sight) (me : Nat) : Prop := x.threads me = some none ∨ ∃ href t, x.Loads me href t

/-- What the thread of a number does in one turn. -/
structure Turn (me : Nat) (x y : Sight) : Prop where
  alike : Host.Akin x.state y.state
  asked : y.state.asked = x.state.asked
  watched : y.state.watched = x.state.watched
  network : y.state.network = { x.state.network with requests := y.state.network.requests }
  numbers : Numbers x y
  entries : Entries k x y
  /-- Only under its own token, and while it is under way, a load has something kept or forgotten. -/
  kept : ∀ t, y.state.kept t = x.state.kept t ∨ (∃ href, x.Loads me href t) ∧ y.state.outcome? me = none
  /-- Something is only told once under a number, by who holds it. -/
  told : ∀ n, y.state.outcome? n = x.state.outcome? n ∨
    x.state.outcome? n = none ∧ x.notes n = some me ∧ y.state.outcome? n ≠ none ∧
      ∀ href t, x.Loads n href t → ¬x.state.Strays t ∧
        ∃ r, y.state.outcome? n = some (.remote r) ∧ Reports k x href t r
  /-- A load asks for its address. -/
  requests : y.state.network.requests = x.state.network.requests ∨
    ∃ href t, x.Loads me href t ∧ y.state.network.requests = href :: x.state.network.requests ∧
      ∀ s, k = some s → x.state.network.requests.count href = s.host.network.requests.count href
  redirects : ∀ a, y.state.remote.redirects.at? a = x.state.remote.redirects.at? a ∨
    ∃ target, x.state.network.destination a = .ok target ∧ y.state.remote.redirects.at? a = some target ∧
      ∀ s, k = some s → s.host.remote.redirects.at? a = none
  /-- Only calls and loads begin work. -/
  begins : y.threads = x.threads ∨ Asks x me

/-! ### What threads can count on -/

/-- What all threads keep. -/
structure Keep (x y : Sight) : Prop where
  next : x.state.nextWork ≤ y.state.nextWork
  tokens : x.state.remote.nextToken ≤ y.state.remote.nextToken
  threads : ∀ i v, x.threads i = some v → y.threads i = some v
  outcomes : ∀ n o, x.state.outcome? n = some o → y.state.outcome? n = some o
  alike : Host.Akin x.state y.state
  /-- A load that no entry stands for any more never comes to stand in one. -/
  dead : ∀ t, t < x.state.remote.nextToken → y.state.Bears t → x.state.Bears t
  /-- Where nothing is done from outside, what is settled stays so. -/
  settled : k ≠ none → ∀ href r, x.state.entry href = some (.ofResult r) → y.state.entry href = some (.ofResult r)
  /-- Where nothing is done from outside, what is waited for stays so until it is settled. -/
  loading : k ≠ none → ∀ href t w, x.state.entry href = some (.loading t w) →
    y.state.entry href = some (.loading t w) ∨ ∃ r, y.state.entry href = some (.ofResult r)
  /-- Where nothing is done from outside, redirects that are known stay known. -/
  redirects : k ≠ none → ∀ a target, x.state.remote.redirects.at? a = some target →
    y.state.remote.redirects.at? a = some target

/-- What is left alone that only the thread of a number may touch. -/
structure Own (i : Nat) (x y : Sight) : Prop where
  threads : ∀ v, x.threads i = some v → y.threads i = some v
  held : ∀ n, x.notes n = some i → y.notes n = some i ∧ y.state.outcome? n = x.state.outcome? n
  kept : ∀ href t, x.Loads i href t → y.state.kept t = x.state.kept t ∨ ¬y.state.Keeps t
  strays : ∀ href t, x.Loads i href t → y.state.Strays t → x.state.Strays t
  requests : k ≠ none → ∀ href t, x.Loads i href t →
    y.state.network.requests.count href = x.state.network.requests.count href

variable {k} {me : Nat} {x y z : Sight}

/-! ### Order is kept -/

theorem Turn.outcome (a : Turn k me x y) {n : Nat} {o : Outcome} (h : x.state.outcome? n = some o) :
    y.state.outcome? n = some o := by
  rcases a.told n with he | ⟨hnone, -⟩
  · rw [he, h]
  · rw [h] at hnone
    cases hnone

/-- What was not begun before a turn to be loaded was free, and waits for the load now. -/
theorem Turn.fresh (a : Turn k me x y) {w t : Nat} {href : String} (hy : y.Loads w href t) :
    x.Loads w href t ∨ (t = x.state.remote.nextToken ∧ x.threads w = none ∧ x.state.Free href ∧
      (∀ s, k = some s → href ∈ s.within) ∧ y.state.entry href = some (.loading t w) ∧
      (∀ i, i ≠ w → y.threads i = x.threads i) ∧ y.state.remote.nextToken = x.state.remote.nextToken + 1 ∧
      ∀ a, a ≠ href → y.state.entry a = x.state.entry a) := by
  cases a.entries with
  | same _ _ hloads => exact Or.inl (hloads w href t hy)
  | claimed href' w' hfree hwithin hw' hloads hrest hentry hothers hnext =>
    by_cases hw : w = w'
    · subst hw
      have he : Work.fetching href t = .fetching href' x.state.remote.nextToken :=
        Option.some.inj (Option.some.inj (hy.symm.trans hloads))
      cases he
      exact Or.inr ⟨rfl, hw', hfree, hwithin, hentry, hrest, hnext, hothers⟩
    · exact Or.inl ((hrest w hw).symm.trans hy)
  | settled href' t' w' r' _ _ _ _ _ hthreads => exact Or.inl ((congrFun hthreads w).symm.trans hy)

theorem Numbers.loads (a : Numbers x y) {w t : Nat} {href : String} (hx : x.Loads w href t) : y.Loads w href t :=
  a.threads w _ hx

/-- Work whose number was known has been begun before, if it is begun at all. -/
theorem Numbers.loads_of_lt (a : Numbers x y) {w t : Nat} {href : String} (hy : y.Loads w href t)
    (hw : w < x.state.nextWork) : x.Loads w href t := by
  cases hx : x.threads w with
  | none =>
    have := (a.begun w hx (by rw [show y.threads w = _ from hy]; nofun)).1
    omega
  | some v => exact hx.trans ((a.threads w v hx).symm.trans hy)

/-- Entries come to stand only for a load that is begun in the turn. -/
theorem Turn.bears (hx : Orderly k x) (a : Turn k me x y) {t : Nat} (hy : y.state.Bears t) :
    x.state.Bears t ∨ t = x.state.remote.nextToken ∧ ∃ w href, y.Loads w href t := by
  obtain ⟨href, state, hentry, ht⟩ := hy
  cases a.entries with
  | same hsame _ _ => exact Or.inl ⟨href, state, hsame href ▸ hentry, ht⟩
  | claimed href' w _ _ _ hloads _ hentry' hothers _ =>
    by_cases he : href = href'
    · subst he
      obtain rfl := Option.some.inj (hentry.symm.trans hentry')
      obtain rfl := Option.some.inj ht
      exact Or.inr ⟨rfl, w, href, hloads⟩
    · exact Or.inl ⟨href, state, hothers href he ▸ hentry, ht⟩
  | settled href' t' w r hloading htold hentry' hothers _ _ =>
    by_cases he : href = href'
    · subst he
      obtain rfl := Option.some.inj (hentry.symm.trans hentry')
      obtain ⟨r', hr', hreports⟩ := hx.reports w href t' _ (hx.loading href t' w hloading) htold
      cases hr'
      cases r with
      | error e => cases ht
      | ok module =>
        obtain rfl := Option.some.inj ht
        refine Or.inl ⟨href, _, hloading, ?_⟩
        rw [hreports.token module rfl]
        rfl
    · exact Or.inl ⟨href, state, hothers href he ▸ hentry, ht⟩

/-- A load that loses its entry in a turn has failed, and nothing is kept of it. -/
theorem Turn.lost (hx : Orderly k x) (a : Turn k me x y) {t : Nat} (ht : x.state.Bears t) :
    y.state.Bears t ∨ ¬x.state.Keeps t := by
  obtain ⟨href, state, hentry, ht⟩ := ht
  cases a.entries with
  | same hsame _ _ => exact Or.inl ⟨href, state, (hsame href).trans hentry, ht⟩
  | claimed href' w hfree _ _ _ _ _ hothers _ =>
    by_cases he : href = href'
    · subst he
      rcases hfree with hfree | hfree
      · cases hfree.symm.trans hentry
      · cases hfree.symm.trans hentry
        cases ht
    · exact Or.inl ⟨href, state, (hothers href he).trans hentry, ht⟩
  | settled href' t' w r hloading htold hentry' hothers _ _ =>
    by_cases he : href = href'
    · subst he
      cases hloading.symm.trans hentry
      obtain rfl := Option.some.inj ht
      obtain ⟨r', hr', hreports⟩ := hx.reports w href t' _ (hx.loading href t' w hloading) htold
      cases hr'
      cases r with
      | error e => exact Or.inr (hreports.failed e rfl)
      | ok module => exact Or.inl ⟨href, _, hentry', congrArg some (hreports.token module rfl)⟩
    · exact Or.inl ⟨href, state, (hothers href he).trans hentry, ht⟩

theorem keeps_congr {h h' : Host} {t : Nat} (hk : h'.kept t = h.kept t) : h'.Keeps t ↔ h.Keeps t := by
  unfold Host.Keeps
  rw [hk]

/-- What strays after a turn strayed before, or its load is under way and has just kept it. -/
theorem Turn.strays (hx : Orderly k x) (a : Turn k me x y) {t : Nat} (hy : y.state.Strays t) :
    x.state.Strays t ∨ (∃ href, x.Loads me href t) ∧ y.state.outcome? me = none := by
  rcases a.kept t with hk | hown
  · have hkeeps : x.state.Keeps t := (keeps_congr hk).1 hy.1
    exact Or.inl ⟨hkeeps, fun hc => (a.lost hx hc).elim hy.2 fun h => h hkeeps⟩
  · exact Or.inr hown

theorem Turn.calm (hx : Orderly k x) (a : Turn k me x y) {s : Outset} (hs : k = some s) (hc : Calm s x) : Calm s y := by
  have hfree {w t : Nat} {href : String} (hw : x.Loads w href t) (hf : x.state.Free href) : False := by
    rcases hc.entered w href t hw with h | ⟨r, h, -⟩
    · rcases hf with hf | hf <;> cases hf.symm.trans h
    · rcases hf with hf | hf <;> cases r <;> cases hf.symm.trans h
  have hold {w t : Nat} {href : String} (hf : x.state.Free href) : ¬x.Loads w href t := fun hw => hfree hw hf
  have hnew {w w' t t' : Nat} {href : String} (hw : y.Loads w href t) (hw' : y.Loads w' href t') (hn : ¬x.Loads w href t) :
      w = w' := by
    by_contra hne
    obtain ⟨-, -, hf, -, -, hrest, -⟩ := (a.fresh hw).resolve_left hn
    exact hfree ((hrest w' (Ne.symm hne)).symm.trans hw') hf
  refine ⟨hc.alike.trans a.alike, ?_, fun w w' href t t' hw hw' => ?_, fun w href t hw => ?_, fun w href t hw => ?_,
    fun w href t hw => ?_, fun href hnone => ?_, ?_, fun b => ?_⟩
  · rw [a.network, hc.network]
  · by_cases h : x.Loads w href t
    · by_cases h' : x.Loads w' href t'
      · exact hc.once w w' href t t' h h'
      · exact (hnew hw' hw h').symm
    · exact hnew hw hw' h
  · rcases a.fresh hw with h | ⟨-, -, hf, -⟩
    · exact hc.free w href t h
    · have hrest := hc.rest href fun w t => hold hf
      unfold Host.Free at hf ⊢
      rwa [← hrest]
  · rcases a.fresh hw with h | ⟨-, -, -, hwithin, -⟩
    · exact hc.within w href t h
    · exact hwithin s hs
  · rcases a.fresh hw with h | ⟨-, -, -, -, hentry, -⟩
    · cases a.entries with
      | same hsame _ _ =>
        rw [hsame href]
        exact (hc.entered w href t h).imp_right fun ⟨r, hr, ho⟩ => ⟨r, hr, a.outcome ho⟩
      | claimed href' w' hf _ _ _ _ _ hothers _ =>
        rw [hothers href fun he => hfree h (he ▸ hf)]
        exact (hc.entered w href t h).imp_right fun ⟨r, hr, ho⟩ => ⟨r, hr, a.outcome ho⟩
      | settled href' t' w' r hloading htold hentry hothers _ _ =>
        by_cases he : href = href'
        · subst he
          obtain rfl := hc.once w w' href t t' h (hx.loading href t' w' hloading)
          exact Or.inr ⟨r, hentry, a.outcome htold⟩
        · rw [hothers href he]
          exact (hc.entered w href t h).imp_right fun ⟨r, hr, ho⟩ => ⟨r, hr, a.outcome ho⟩
    · exact Or.inl hentry
  · have hnone' (w t : Nat) : ¬x.Loads w href t := fun hw => hnone w t (a.numbers.loads hw)
    rw [← hc.rest href hnone']
    cases a.entries with
    | same hsame _ _ => exact hsame href
    | claimed href' w' _ _ _ hloads _ _ hothers _ => exact hothers href fun he => hnone w' _ (he ▸ hloads)
    | settled href' t' w' r hloading _ _ hothers _ _ =>
      exact hothers href fun he => hnone' w' t' (he ▸ hx.loading href' t' w' hloading)
  · obtain ⟨new, hnew, hnodup, hloads⟩ := hc.requests
    rcases a.requests with he | ⟨href, t, hme, he, hcount⟩
    · exact ⟨new, he.trans hnew, hnodup, fun b hb =>
        (hloads b hb).imp fun w hw => hw.imp fun t ht => a.numbers.loads ht⟩
    · refine ⟨href :: new, by rw [he, hnew]; rfl, List.nodup_cons.2 ⟨fun hmem => ?_, hnodup⟩, fun b hb => ?_⟩
      · have hc' := hcount s hs
        rw [hnew, List.count_append] at hc'
        have := List.count_pos_iff.2 hmem
        omega
      · rcases List.mem_cons.1 hb with rfl | hb
        · exact ⟨me, t, a.numbers.loads hme⟩
        · exact (hloads b hb).imp fun w hw => hw.imp fun t ht => a.numbers.loads ht
  · rcases a.redirects b with he | ⟨target, hd, he, hnone⟩
    · rw [he]
      exact hc.redirects b
    · refine Or.inr ⟨hnone s hs, target, ?_, he⟩
      rw [hc.network] at hd
      exact hd

theorem Turn.next (a : Turn k me x y) : x.state.remote.nextToken ≤ y.state.remote.nextToken := by
  cases a.entries with
  | same _ hnext _ => exact Nat.le_of_eq hnext.symm
  | claimed _ _ _ _ _ _ _ _ _ hnext => omega
  | settled _ _ _ _ _ _ _ _ hnext _ => exact Nat.le_of_eq hnext.symm

theorem Turn.tokens (hx : Orderly k x) (a : Turn k me x y) {w t : Nat} {href : String} (hw : y.Loads w href t) :
    t < y.state.remote.nextToken := by
  rcases a.fresh hw with h | ⟨rfl, -, -, -, -, -, hnext, -⟩
  · exact Nat.lt_of_lt_of_le (hx.tokens w href t h) a.next
  · omega

/-- What is told of a load goes on to be what came of it. -/
theorem Turn.reports (hx : Orderly k x) (a : Turn k me x y) {w t : Nat} {href : String}
    {r : Except Failure RemoteModule} (hw : x.Loads w href t) (ho : y.state.outcome? w = some (.remote r))
    (hr : Reports k x href t r) : Reports k y href t r := by
  refine ⟨hr.token, fun e he hkeeps => ?_, hr.page⟩
  rcases a.kept t with hk | ⟨⟨href', hme⟩, hnone⟩
  · exact hr.failed e he ((keeps_congr hk).1 hkeeps)
  · obtain rfl := hx.apart w me href href' t hw hme
    rw [ho] at hnone
    cases hnone

/-- A turn keeps the order. -/
theorem Turn.orderly (hx : Orderly k x) (a : Turn k me x y) : Orderly k y where
  asked := a.asked.trans hx.asked
  quiet := by
    unfold Host.Quiet
    rw [a.watched, a.alike.settings]
    exact hx.quiet
  begun i hi := by
    cases hx' : x.threads i with
    | none => exact (a.numbers.begun i hx' hi).2.1
    | some v => exact Nat.lt_of_lt_of_le (hx.begun i (by rw [hx']; nofun)) a.numbers.next
  told i hi := by
    rcases a.told i with he | ⟨-, hme, -⟩
    · exact Nat.lt_of_lt_of_le (hx.told i (he ▸ hi)) a.numbers.next
    · exact Nat.lt_of_lt_of_le (hx.held i (by rw [hme]; nofun)) a.numbers.next
  held i hi := by
    cases hx' : x.notes i with
    | none => exact (a.numbers.held i hx' hi).2
    | some v => exact Nat.lt_of_lt_of_le (hx.held i (by rw [hx']; nofun)) a.numbers.next
  holds i hi := by
    cases hx' : x.threads i with
    | none => exact (a.numbers.begun i hx' hi).2.2
    | some v => exact a.numbers.notes i i (hx.holds i (by rw [hx']; nofun))
  loading href t w hentry := by
    cases a.entries with
    | same hsame _ _ => exact a.numbers.loads (hx.loading href t w (hsame href ▸ hentry))
    | claimed href' w' _ _ _ hloads _ hentry' hothers _ =>
      by_cases he : href = href'
      · subst he
        cases hentry.symm.trans hentry'
        exact hloads
      · exact a.numbers.loads (hx.loading href t w (hothers href he ▸ hentry))
    | settled href' t' w' r _ _ hentry' hothers _ _ =>
      by_cases he : href = href'
      · subst he
        cases r <;> cases hentry.symm.trans hentry'
      · exact a.numbers.loads (hx.loading href t w (hothers href he ▸ hentry))
  tokens w href t hw := a.tokens hx hw
  apart w w' href href' t hw hw' := by
    by_contra hne
    rcases a.fresh hw with h | ⟨rfl, -, -, -, -, hrest, -⟩
    · rcases a.fresh hw' with h' | ⟨rfl, -⟩
      · exact hne (hx.apart w w' href href' t h h')
      · exact Nat.lt_irrefl _ (hx.tokens w href _ h)
    · exact Nat.lt_irrefl _ (hx.tokens w' href' _ ((hrest w' (Ne.symm hne)).symm.trans hw'))
  carried t ht := by
    rcases a.bears hx ht with h | ⟨-, w, href, hw⟩
    · exact Nat.lt_of_lt_of_le (hx.carried t h) a.next
    · exact a.tokens hx hw
  stands w href t hw b state hentry ht := by
    rcases a.fresh hw with hold | ⟨rfl, -, -, -, hhref, -, -, hothers⟩
    · have hlt := hx.tokens w href t hold
      cases a.entries with
      | same hsame _ _ => exact hx.stands w href t hold b state (hsame b ▸ hentry) ht
      | claimed href' w' _ _ _ _ _ hentry' hothers _ =>
        by_cases he : b = href'
        · subst he
          cases hentry.symm.trans hentry'
          exact absurd (Option.some.inj ht) (Nat.ne_of_gt hlt)
        · exact hx.stands w href t hold b state (hothers b he ▸ hentry) ht
      | settled href' t' w' r hl ho hentry' hothers _ _ =>
        by_cases he : b = href'
        · subst he
          obtain ⟨r', hr', hreports⟩ := hx.reports w' b t' _ (hx.loading b t' w' hl) ho
          cases hr'
          cases hentry.symm.trans hentry'
          cases r with
          | error e => cases ht
          | ok module =>
            have htoken : t' = t := (hreports.token module rfl).symm.trans (Option.some.inj ht)
            exact hx.stands w href t hold b _ hl (congrArg some htoken)
        · exact hx.stands w href t hold b state (hothers b he ▸ hentry) ht
    · by_contra hne
      exact Nat.lt_irrefl _ (hx.carried _ ⟨b, state, hothers b hne ▸ hentry, ht⟩)
  kept t ht := by
    rcases a.kept t with hk | ⟨⟨href, hme⟩, -⟩
    · exact Nat.lt_of_lt_of_le (hx.kept t ((keeps_congr hk).1 ht)) a.next
    · exact Nat.lt_of_lt_of_le (hx.tokens me href t hme) a.next
  strays t ht := by
    rcases a.strays hx ht with h | ⟨⟨href, hme⟩, hnone⟩
    · obtain ⟨w, href, hw, hnone⟩ := hx.strays t h
      refine ⟨w, href, a.numbers.loads hw, ?_⟩
      rcases a.told w with he | ⟨-, -, -, hreports⟩
      · rw [he, hnone]
      · exact ((hreports href t hw).1 h).elim
    · exact ⟨me, href, a.numbers.loads hme, hnone⟩
  reports w href t o hw ho := by
    rcases a.told w with he | ⟨-, hme, -, htold⟩
    · have ho' : x.state.outcome? w = some o := he ▸ ho
      have hw' := a.numbers.loads_of_lt hw (hx.told w (by rw [ho']; nofun))
      obtain ⟨r, rfl, hr⟩ := hx.reports w href t o hw' ho'
      exact ⟨r, rfl, a.reports hx hw' ho hr⟩
    · have hw' := a.numbers.loads_of_lt hw (hx.held w (by rw [hme]; nofun))
      obtain ⟨-, r, hr, hreports⟩ := htold href t hw'
      obtain rfl := Option.some.inj (ho.symm.trans hr)
      exact ⟨r, rfl, a.reports hx hw' ho hreports⟩
  calm s hs := a.calm hx hs (hx.calm s hs)

/-! ### What a turn shows to others -/

theorem Turn.keep (hx : Orderly k x) (a : Turn k me x y) : Keep k x y where
  next := a.numbers.next
  tokens := a.next
  threads := a.numbers.threads
  outcomes _ _ := a.outcome
  alike := a.alike
  dead t ht hc := (a.bears hx hc).resolve_right fun h => Nat.lt_irrefl _ (h.1 ▸ ht)
  settled _ href r hr := by
    cases a.entries with
    | same hsame _ _ => rw [hsame href, hr]
    | claimed href' w hf _ _ _ _ _ hothers _ =>
      rw [hothers href fun he => ?_, hr]
      subst he
      rcases hf with hf | hf <;> cases r <;> cases hf.symm.trans hr
    | settled href' t w r' hloading _ _ hothers _ _ =>
      rw [hothers href fun he => ?_, hr]
      subst he
      cases r <;> cases hloading.symm.trans hr
  loading _ href t w hl := by
    cases a.entries with
    | same hsame _ _ => exact Or.inl ((hsame href).trans hl)
    | claimed href' w' hf _ _ _ _ _ hothers _ =>
      refine Or.inl ((hothers href fun he => ?_).trans hl)
      subst he
      rcases hf with hf | hf <;> cases hf.symm.trans hl
    | settled href' t' w' r' _ _ hentry hothers _ _ =>
      by_cases he : href = href'
      · subst he
        exact Or.inr ⟨r', hentry⟩
      · exact Or.inl ((hothers href he).trans hl)
  redirects hk b target hb := by
    obtain ⟨s, hs⟩ := Option.ne_none_iff_exists'.1 hk
    rcases a.redirects b with he | ⟨target', hd, he, hnone⟩
    · exact he.trans hb
    · -- what was known already was learnt from the network too
      rcases (hx.calm s hs).redirects b with he' | ⟨-, target'', hd', he'⟩
      · cases (hnone s hs).symm.trans (he'.symm.trans hb)
      · rw [(hx.calm s hs).network] at hd
        cases hd.symm.trans hd'
        exact he.trans (he'.symm.trans hb)

theorem Turn.own (hx : Orderly k x) (a : Turn k me x y) {i : Nat} (hi : i ≠ me) : Own k i x y where
  threads := a.numbers.threads i
  held n hn := by
    refine ⟨a.numbers.notes n i hn, ?_⟩
    rcases a.told n with he | ⟨-, hme, -⟩
    · exact he
    · exact (hi (Option.some.inj (hn.symm.trans hme))).elim
  kept href t hw := (a.kept t).imp_right fun ⟨⟨href', hme⟩, _⟩ => (hi (hx.apart i me href href' t hw hme)).elim
  strays href t hw hs := (a.strays hx hs).resolve_right fun ⟨⟨href', hme⟩, _⟩ => hi (hx.apart i me href href' t hw hme)
  requests hk href t hw := by
    obtain ⟨s, hs⟩ := Option.ne_none_iff_exists'.1 hk
    rcases a.requests with he | ⟨href', t', hme, he, -⟩
    · rw [he]
    · rw [he, List.count_cons, if_neg fun heq => ?_, Nat.add_zero]
      exact hi ((hx.calm s hs).once i me href t t' hw (by rw [← beq_iff_eq.1 heq]; exact hme))

/-- A turn in which nothing is told, kept or asked for leaves also alone what is the thread's own. -/
theorem Turn.own_of_aside (hx : Orderly k x) (a : Turn k me x y) (hkept : ∀ t, y.state.kept t = x.state.kept t)
    (htold : ∀ n, y.state.outcome? n = x.state.outcome? n)
    (hrequests : y.state.network.requests = x.state.network.requests) (i : Nat) : Own k i x y where
  threads := a.numbers.threads i
  held n hn := ⟨a.numbers.notes n i hn, htold n⟩
  kept _ t _ := Or.inl (hkept t)
  strays _ t _ hs := by
    have hkeeps : x.state.Keeps t := (keeps_congr (hkept t)).1 hs.1
    exact ⟨hkeeps, fun hc => (a.lost hx hc).elim hs.2 fun h => h hkeeps⟩
  requests _ _ _ _ := by rw [hrequests]

/-! ### Together -/

theorem Keep.refl (x : Sight) : Keep k x x :=
  ⟨Nat.le_refl _, Nat.le_refl _, fun _ _ h => h, fun _ _ h => h, Host.Akin.refl _, fun _ _ h => h, fun _ _ _ h => h,
    fun _ _ _ _ h => Or.inl h, fun _ _ _ h => h⟩

theorem Keep.trans (a : Keep k x y) (b : Keep k y z) : Keep k x z where
  next := Nat.le_trans a.next b.next
  tokens := Nat.le_trans a.tokens b.tokens
  threads i v h := b.threads i v (a.threads i v h)
  outcomes n o h := b.outcomes n o (a.outcomes n o h)
  alike := a.alike.trans b.alike
  dead t ht h := a.dead t ht (b.dead t (Nat.lt_of_lt_of_le ht a.tokens) h)
  settled hk href r h := b.settled hk href r (a.settled hk href r h)
  loading hk href t w h := by
    rcases a.loading hk href t w h with h | ⟨r, h⟩
    · exact b.loading hk href t w h
    · exact Or.inr ⟨r, b.settled hk href r h⟩
  redirects hk c target h := b.redirects hk c target (a.redirects hk c target h)

theorem Own.refl (i : Nat) (x : Sight) : Own k i x x :=
  ⟨fun _ h => h, fun _ h => ⟨h, rfl⟩, fun _ _ _ => Or.inl rfl, fun _ _ _ h => h, fun _ _ _ _ => rfl⟩

theorem Own.trans {i : Nat} (a : Own k i x y) (b : Own k i y z) : Own k i x z where
  threads v h := b.threads v (a.threads v h)
  held n h := ⟨(b.held n (a.held n h).1).1, (b.held n (a.held n h).1).2.trans (a.held n h).2⟩
  kept href t h := by
    rcases b.kept href t (a.threads _ h) with hb | hb
    · rcases a.kept href t h with ha | ha
      · exact Or.inl (hb.trans ha)
      · exact Or.inr fun hk => ha ((keeps_congr hb).1 hk)
    · exact Or.inr hb
  strays href t h hs := a.strays href t h (b.strays href t (a.threads _ h) hs)
  requests hk href t h := (b.requests hk href t (a.threads _ h)).trans (a.requests hk href t h)

/-- What the thread of a number does in some turns, one after another. -/
def Turns (k : Option Outset) (me : Nat) : Sight → Sight → Prop :=
  Relation.ReflTransGen fun x y => Orderly k x ∧ Turn k me x y

theorem Turns.keep (a : Turns k me x y) : Keep k x y := by
  induction a with
  | refl => exact .refl x
  | tail _ hb ih => exact ih.trans (hb.2.keep hb.1)

theorem Turns.own (a : Turns k me x y) {i : Nat} (hi : i ≠ me) : Own k i x y := by
  induction a with
  | refl => exact .refl i x
  | tail _ hb ih => exact ih.trans (hb.2.own hb.1 hi)

/-- An address is settled, or on its way. -/
def Begins (x : Sight) (href : String) : Prop :=
  (∃ r, x.state.entry href = some (.ofResult r)) ∨ ∃ t w, x.state.entry href = some (.loading t w)

/-- It is known where a specifier leads in the end. -/
def Knows (s : Outset) (x : Sight) (id : String) (cwd : Option String) : Prop :=
  x.state.remote.address? id cwd = s.host.finalAddress? id cwd

/-- All that the page of an address requires is settled, or on its way, and can be found. -/
def Required (s : Outset) (x : Sight) (href : String) : Prop :=
  ∀ url ∈ s.host.pageRequires href, Knows s x url none ∧ ∀ a, s.host.finalAddress? url none = some a → Begins x a

/-- What comes of work when it has ended. -/
def Told (k : Option Outset) (id : Nat) (x : Sight) : Prop :=
  match x.threads id with
  | some (some (.fetching href _)) => ∃ r, x.state.outcome? id = some (.remote r) ∧
      ∀ s, k = some s → Required s x href
  | some (some (.compiling request)) =>
      x.state.outcome? id = some (.code (((x.state.workshop.compile request).1).map some))
  | _ => True

/-- What is known of work when it is begun. -/
def Begun (k : Option Outset) (id : Nat) (work : Work) (x : Sight) : Prop :=
  x.Works id work ∧ x.state.outcome? id = none ∧
    match work with
    | .fetching href t => ¬x.state.Keeps t ∧
        ∀ s, k = some s → x.state.network.requests.count href = s.host.network.requests.count href
    | .compiling _ => True
    | _ => False

end Sight

/-- What threads owe each other that load remote modules. -/
def remotePact (k : Option Outset) : Pact Host Work (Nat → Option Nat) where
  inv := Sight.Orderly k
  move := Sight.Turns k
  keep := Sight.Keep k
  own := Sight.Own k
  begun := Sight.Begun k
  told := Sight.Told k
  opens h w := ∃ href t, h.entry href = some (.loading t w)
  move_refl _ _ := .refl
  move_trans a b := a.trans b
  keep_refl := .refl
  keep_trans a b := a.trans b
  own_refl := .refl
  own_trans a b := a.trans b
  keep_threads a h := a.threads _ _ h
  keep_of_move _ _ a := a.keep
  own_of_move _ _ a h := a.own h

end ScriptVault

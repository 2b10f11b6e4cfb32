import ScriptVault.Proofs.Host.Languages

/-!
# Staleness — code that was built on versions that are gone

A resolver remembers what a module was built on.  When one of these versions is gone, the next answer for the path is
made anew and says that a module of the path must not be used again; the answers after it say nothing, until a version
is gone that the module was built on since.  Whoever sees all questions and answers can tell what is said next: only a
question that fails on the way makes the resolver forget.
-/

namespace ScriptVault

open Compile

namespace Snapshot

/-- A version does not count any more when something was told of its path. -/
theorem Course.noticed_gone {s s' : Snapshot} {notices : List Notice} (h : Course s notices s') (hs : s.Sound)
    {path : String} {identity : Identity} (hget : s.get? path = some identity)
    (hnoticed : path ∈ notices.map Notice.path) : s'.isCurrent identity.token = false := by
  induction h with
  | done => cases hnoticed
  | @seen s s' s'' vault p i notice notices hcache hrest ih =>
    have hcourse := Course.seen hcache hrest
    obtain ⟨ht, hp, rfl, -, rfl⟩ := cache_ok hcache
    by_cases hpath : p = path
    · subst hpath
      exact hcourse.previous_gone hs _ List.mem_cons_self identity hget
    · refine ih ((later_put s p i ht hp).sound hs) ((Table.at?_put_ne hpath ..).trans hget) ?_
      exact (List.mem_cons.1 hnoticed).resolve_left (Ne.symm hpath)
  | @gone s s'' p previous notices hprevious hrest ih =>
    by_cases hpath : p = path
    · subst hpath
      exact (Course.gone hprevious hrest).previous_gone hs _ List.mem_cons_self identity
        (hprevious.symm.trans hget ▸ rfl)
    · refine ih (hprevious ▸ (s.later_erase p).sound hs) ((Table.at?_erase_ne hpath ..).trans hget) ?_
      exact (List.mem_cons.1 hnoticed).resolve_left (Ne.symm hpath)
  | ruled rules hrest ih => exact ih ⟨hs.path, hs.token, hs.unique, hs.current⟩ hget hnoticed
  | drawn count hrest ih =>
    exact ih ⟨hs.path, fun p i h => Nat.lt_add_right count (hs.token p i h), hs.unique, hs.current⟩ hget hnoticed

end Snapshot

namespace Files

/-- Resolvers forget the paths that they are told of, and nothing else. -/
theorem entry_followAll (notices : List Notice) (f : Files) (n : Nat) (path : String) :
    ((f.followAll notices).2.resolver n).entries.at? path =
      if path ∈ notices.map Notice.path then none else (f.resolver n).entries.at? path := by
  induction notices generalizing f with
  | nil => rfl
  | cons notice notices ih =>
    have hone : ((f.overall (·.follow notice)).2.resolver n).entries = (f.resolver n).entries.erase notice.path := by
      by_cases hn : n < f.resolvers.length
      · rw [resolver_overall _ hn]
        exact (Host.resolver_follow (f.resolver n) notice).2.1
      · rw [resolver_overall_of_le _ (Nat.le_of_not_lt hn), resolver_of_le (Nat.le_of_not_lt hn)]
        rfl
    refine (ih (f.overall (·.follow notice)).2).trans ?_
    rw [hone, Table.at?_erase]
    by_cases hpath : path = notice.path
    · simp [hpath]
    · simp [hpath]

/-- When a snapshot is adopted, the code counts that was made from a version that is still known. -/
theorem basis?_adopt {f : Files} {next : List Notice × Snapshot} (hs : f.snapshot.Sound)
    (hcourse : Snapshot.Course f.snapshot next.1 next.2) {n : Nat} {path : String}
    (hgiven : ∀ entry, (f.resolver n).entries.at? path = some entry → entry.token < f.snapshot.nextToken) :
    (f.adopt next).2.basis? n path =
      (f.basis? n path).filter fun b => next.2.version? path = some b.version := by
  have hafter : ((f.adopt next).2.resolver n).entries.at? path = _ :=
    entry_followAll next.1 { f with snapshot := next.2 } n path
  have hsame : ({ f with snapshot := next.2 } : Files).resolver n = f.resolver n := rfl
  unfold basis?
  rw [(Host.adopt_rest f next).1, hafter, hsame]
  cases hentry : (f.resolver n).entries.at? path with
  | none => simp [Option.filter]
  | some entry =>
    by_cases hnow : next.2.version? path = some entry.token
    · -- the version is still known, so it was before, and nothing was told of the path
      obtain ⟨identity, hget, htoken⟩ := Option.map_eq_some_iff.1 hnow
      have hold : f.snapshot.get? path = some identity :=
        (hcourse.later.same path identity hget).resolve_right fun hnew => by
          have := hgiven entry hentry
          omega
      have hunnoticed : path ∉ next.1.map Notice.path := fun hnoticed => by
        have hgone := hcourse.noticed_gone hs hold hnoticed
        rw [(hcourse.later.sound hs).isCurrent hget] at hgone
        cases hgone
      have hbefore : f.snapshot.version? path = some entry.token :=
        (congrArg (Option.map Identity.token) hold).trans (congrArg some htoken)
      simp [Option.filter, hunnoticed, Entry.basis, hnow, hbefore]
    · have hdropped (b : Option Basis) (hb : ∀ x ∈ b, x = entry.basis) :
          b.filter (fun b => next.2.version? path = some b.version) = none := by
        cases b with
        | none => rfl
        | some x => simpa [Option.filter, hb x rfl, Entry.basis] using hnow
      rw [hdropped _ (by split <;> simp), hdropped _ (by simp)]

end Files

namespace Session

/-- What the code of a path rests on, as whoever sees all questions and answers can tell. -/
structure Account extends Basis where
  /-- A question for the path failed after a version was gone that the module was built on. -/
  missed : Bool := false
  deriving DecidableEq, Repr

/-- The module was built on one more version. -/
def Account.builtOn (a : Account) (version : Nat) : Account := ⟨a.toBasis.on version, a.missed⟩

/-- The version of a path that is known. -/
def version? (s : Session) (path : String) : Option Nat := s.host.files.snapshot.version? path

/-- A version is gone that the module was built on. -/
def isStale (s : Session) (a : Account) : Bool := a.toBasis.isStale s.host.files.snapshot

/-- A version is gone that the module was built on, and no question for the path failed since. -/
def isDue (s : Session) (a : Account) : Bool := s.isStale a && !a.missed

/-- What the code of a path rests on after a question for it. -/
def answered (s : Session) (path : String) (account : Option Account) : Except Failure (Option Resolved) → Option Account
  | .ok none => account
  | .ok (some _) =>
    (account.filter fun a => !s.isStale a && !a.missed).or ((s.version? path).map fun version => ⟨⟨version, []⟩, false⟩)
  | .error _ => account.map fun a => { a with missed := a.missed || s.isStale a }

/-- What the code of a path that a resolver keeps rests on after a move: from the answer that it was made for, until its
version is gone or it is forgotten, it rests on what the resolver was told that the module was built on. -/
def noted (n : Nat) (path : String) (s : Session) (account : Option Account) : FileMove → Option Account
  | .resolve form k id context =>
    if k = n ∧ s.host.meantBy? id context k = some path then s.answered path account (s.resolveBy form k id context).1
    else account
  | .depend k parent dependency =>
    if k = n ∧ parent = path then
      (s.version? dependency).elim account fun version => account.map (·.builtOn version)
    else account
  | .forget k id => if k = n ∧ id = path then none else account
  | .forgetAll k => if k = n then none else account
  | move => account.filter fun a => (s.move move).version? path = some a.version

/-- What the code of a path rests on after some moves. -/
def accountFrom (n : Nat) (path : String) : Session → Option Account → List FileMove → Option Account
  | _, account, [] => account
  | s, account, m :: moves => accountFrom n path (s.move m) (s.noted n path account m) moves

/-- A resolver knows what the code of a path rests on, unless a question failed that it should have been told of. -/
def Accounted (n : Nat) (path : String) (s : Session) (account : Option Account) : Prop :=
  s.host.files.basis? n path = (account.filter fun a => !a.missed).map Account.toBasis

section Accounted

open Host

variable {c : Chains} {v : MemoryVault} {rules : Rules} {s : Session} {n : Nat} {path : String}
  {account : Option Account}

theorem Accounted.isStale (ha : s.Accounted n path account) : s.host.files.isStale n path = account.any s.isDue := by
  unfold Files.isStale
  rw [ha]
  cases account with
  | none => rfl
  | some a => cases hmissed : a.missed <;> simp [Option.filter, isDue, Session.isStale, hmissed]

theorem Accounted.lasting? (ha : s.Accounted n path account) :
    s.host.files.lasting? n path =
      (account.filter fun a => !s.isStale a && !a.missed).map Account.toBasis := by
  unfold Files.lasting?
  rw [ha]
  cases account with
  | none => rfl
  | some a =>
    cases hmissed : a.missed <;> cases hstale : s.isStale a <;>
      simp_all [Option.filter, Session.isStale]

/-- What is kept is of versions that were given out. -/
theorem Mirroring.given (hs : s.Mirroring c rules v) (n : Nat) (path : String) :
    ∀ entry, (s.host.files.resolver n).entries.at? path = some entry →
      entry.token < s.host.files.snapshot.nextToken := by
  intro entry hentry
  exact (hs.host.sincere.entries _ (Files.resolver_mem hentry) path entry hentry).1

/-! ### What moves do -/

/-- Where a change of the files is followed, the code goes on to count whose version is still known. -/
theorem Accounted.adopt (hs : s.Mirroring c rules v) (ha : s.Accounted n path account) {s' : Session} {vault : Vault}
    {next : List Notice × Snapshot} (hcourse : Snapshot.Course s.host.files.snapshot next.1 next.2)
    (hfiles : s'.host.files = (Files.adopt { s.host.files with vault := vault } next).2) :
    s'.Accounted n path (account.filter fun a => s'.version? path = some a.version) := by
  have hafter := Files.basis?_adopt (f := { s.host.files with vault := vault }) hs.host.sincere.sound hcourse
    (hs.given n path)
  have hbefore : ({ s.host.files with vault := vault } : Files).basis? n path = _ := ha
  have hversion : s'.version? path = next.2.version? path := by
    unfold Session.version?
    rw [hfiles, (adopt_rest _ next).1]
  unfold Accounted
  rw [hfiles, hafter, hbefore, hversion]
  cases account with
  | none => rfl
  | some a => cases hmissed : a.missed <;> by_cases hknown : next.2.version? path = some a.version <;>
      simp [Option.filter, hmissed, hknown]

/-- A change of the vault is followed by the snapshot and the resolvers. -/
theorem Mirroring.files_adopt (hs : s.Mirroring c rules v) (step : Change × MemoryVault) :
    ∃ vault next, Snapshot.Course s.host.files.snapshot next.1 next.2 ∧
      (s.adopt step.1 step.2 false).host.files = (Files.adopt { s.host.files with vault := vault } next).2 := by
  refine ⟨.memory step.2, _, s.host.files.snapshot.course_follow (.memory step.2) step.1, ?_⟩
  set h : Host := { s.host with files := { s.host.files with vault := .memory step.2 } } with hh
  have hhost := host_absorbed (s := s.touch fun _ => h) (hs.rests.still.withState h) hs.rests.asked hs.host.watched
    fun h => h.files.follow step.1
  unfold Session.adopt
  rw [if_neg Bool.false_ne_true]
  exact (congrArg Host.files hhost).trans (absorb_files h (h.files.follow step.1))

theorem Mirroring.files_rebuild (hs : s.Mirroring c rules v) :
    ∃ vault next, Snapshot.Course s.host.files.snapshot next.1 next.2 ∧
      (s.move .rebuild).host.files = (Files.adopt { s.host.files with vault := vault } next).2 :=
  ⟨s.host.files.vault, _, s.host.files.snapshot.course_rebuild s.host.files.vault,
    (congrArg Host.files (host_absorbed hs.rests.still hs.rests.asked hs.host.watched fun h => h.files.rebuild)).trans
      (absorb_files s.host s.host.files.rebuild)⟩

/-- One resolver forgets some of what it keeps. -/
theorem files_lessen (s : Session) (n : Nat) (act : Files → FileResolver → Ripple × FileResolver) :
    (s.touch fun h => h.absorb (h.files.withResolver n act)).host.files =
      s.host.files.onResolver n fun r => (act s.host.files r).2 :=
  absorb_files s.host (s.host.files.withResolver n act)

theorem Accounted.of_files (ha : s.Accounted n path account) {s' : Session}
    (hbasis : s'.host.files.basis? n path = s.host.files.basis? n path) : s'.Accounted n path account := hbasis.trans ha

theorem Accounted.answered (ha : s.Accounted n path account) {s' : Session} {identity : Identity}
    {r : Except Failure (Option Resolved)} (hget : s.host.files.snapshot.get? path = some identity) (hr : r ≠ .ok none)
    (hbasis : s'.host.files.basis? n path = Basis.after identity.token (s.host.files.lasting? n path) r) :
    s'.Accounted n path (s.answered path account r) := by
  have hversion : s.version? path = some identity.token := congrArg (Option.map Identity.token) hget
  rw [ha.lasting?] at hbasis
  refine hbasis.trans ?_
  cases r with
  | error e =>
    cases account with
    | none => rfl
    | some a => cases hmissed : a.missed <;> cases hstale : s.isStale a <;>
        simp [Option.filter, Basis.after, Session.answered, hmissed, hstale]
  | ok answer =>
    obtain ⟨answer, rfl⟩ := Option.ne_none_iff_exists'.1 fun h => hr (congrArg Except.ok h)
    unfold Session.answered
    rw [hversion]
    cases account with
    | none => rfl
    | some a => cases hmissed : a.missed <;> cases hstale : s.isStale a <;>
        simp [Option.filter, Basis.after, hmissed, hstale]

/-- A question is answered for. -/
theorem Accounted.resolve (hs : s.Mirroring c rules v) (hn : n < s.host.files.resolvers.length)
    (ha : s.Accounted n path account) (form : Form) (k : Nat) (id : String) (context : Context) :
    (s.move (.resolve form k id context)).Accounted n path (s.noted n path account (.resolve form k id context)) := by
  obtain ⟨hserves, -, -⟩ := hs.resolveBy form k id context
  show Accounted n path _ (if k = n ∧ s.host.meantBy? id context k = some path then _ else account)
  rcases hserves.accounts with ⟨hnone, hbasis⟩ | ⟨p, text, identity, hmeant, hget, -, a⟩
  · rw [hnone]
    exact (ite_self (c := _ ∧ _) account).symm ▸ ha.of_files (congrFun (congrFun hbasis n) path)
  by_cases hown : k = n ∧ p = path
  · obtain ⟨rfl, rfl⟩ := hown
    rw [if_pos ⟨rfl, hmeant⟩]
    exact ha.answered hget a.answered (a.basis hn)
  · have hother : ¬(k = n ∧ s.host.meantBy? id context k = some path) := fun h =>
      hown ⟨h.1, Option.some.inj (hmeant.symm.trans h.2)⟩
    rw [if_neg hother]
    exact ha.of_files (a.elsewhere.apart hown)

/-- A resolver is told that a module was built on another. -/
theorem Accounted.depend (ha : s.Accounted n path account) (k : Nat) (parent dependency : String) :
    (s.move (.depend k parent dependency)).Accounted n path (s.noted n path account (.depend k parent dependency)) := by
  have hfiles : (s.move (.depend k parent dependency)).host.files = s.host.files.onResolver k fun r =>
      (s.host.files.snapshot.get? dependency).elim r fun identity => r.depend parent identity.token := rfl
  have hversion : s.version? dependency = (s.host.files.snapshot.get? dependency).map Identity.token := rfl
  show Accounted n path _ (if k = n ∧ parent = path then
    (s.version? dependency).elim account fun version => account.map (·.builtOn version) else account)
  unfold Accounted
  rw [hfiles, hversion]
  cases s.host.files.snapshot.get? dependency with
  | none =>
    have hsame := s.host.files.basis?_onResolver k (fun r => (rfl : (id r).entries = r.entries))
    exact (congrFun (congrFun hsame n) path).trans (ha.trans (by rw [Option.map_none, Option.elim_none, ite_self]))
  | some identity =>
    by_cases hown : k = n ∧ parent = path
    · obtain ⟨rfl, rfl⟩ := hown
      refine (s.host.files.basis?_depend k parent identity.token).trans ?_
      rw [ha, if_pos ⟨rfl, rfl⟩]
      cases account with
      | none => rfl
      | some a => cases hmissed : a.missed <;> simp [Option.filter, Account.builtOn, hmissed]
    · rw [if_neg hown]
      exact ((s.host.files.elsewhere_depend k parent identity.token).apart hown).trans ha

/-- A resolver forgets what it keeps of one path. -/
theorem Accounted.forget (ha : s.Accounted n path account) (k : Nat) (id : String) :
    (s.move (.forget k id)).Accounted n path (s.noted n path account (.forget k id)) := by
  have hfiles : (s.move (.forget k id)).host.files = _ := s.files_lessen k _
  have hentries (r : FileResolver) : (r.invalidate s.host.files.snapshot id).2.entries = r.entries.erase id :=
    (forgetToken_entries ..).1
  show Accounted n path _ (if k = n ∧ id = path then none else account)
  by_cases hown : k = n ∧ id = path
  · obtain ⟨rfl, rfl⟩ := hown
    rw [if_pos ⟨rfl, rfl⟩]
    unfold Accounted
    rw [hfiles]
    exact s.host.files.basis?_forget k fun r => by rw [hentries, Table.at?_erase_same]
  · rw [if_neg hown]
    refine ha.of_files ?_
    rw [hfiles]
    have helsewhere : s.host.files.Elsewhere k id _ := s.host.files.elsewhere_onResolver k fun r p hp => by
      rw [hentries, Table.at?_erase_ne (Ne.symm hp)]
    exact helsewhere.apart hown

/-- A resolver forgets everything. -/
theorem Accounted.forgetAll (ha : s.Accounted n path account) (k : Nat) :
    (s.move (.forgetAll k)).Accounted n path (s.noted n path account (.forgetAll k)) := by
  have hfiles : (s.move (.forgetAll k)).host.files = _ := s.files_lessen k _
  show Accounted n path _ (if k = n then none else account)
  by_cases hown : k = n
  · subst hown
    rw [if_pos rfl]
    unfold Accounted
    rw [hfiles]
    exact s.host.files.basis?_forget k fun r => rfl
  · rw [if_neg hown]
    refine ha.of_files (Files.basis?_of_resolver ?_ ?_)
    · rw [hfiles]
      rfl
    · rw [hfiles, Files.resolver_onResolver_ne hown]

/-- Whatever is done, a resolver goes on to know what the code of a path rests on. -/
theorem Accounted.move (hs : s.Mirroring c rules v) (hn : n < s.host.files.resolvers.length)
    (ha : s.Accounted n path account) (m : FileMove) : (s.move m).Accounted n path (s.noted n path account m) := by
  cases m with
  | write p text =>
    obtain ⟨_, _, hcourse, hfiles⟩ := hs.files_adopt (s.vault.write p text)
    exact ha.adopt hs hcourse hfiles
  | remove p =>
    obtain ⟨_, _, hcourse, hfiles⟩ := hs.files_adopt (s.vault.remove p)
    exact ha.adopt hs hcourse hfiles
  | rename source target =>
    obtain ⟨_, _, hcourse, hfiles⟩ := hs.files_adopt (s.vault.rename source target)
    exact ha.adopt hs hcourse hfiles
  | rebuild =>
    obtain ⟨_, _, hcourse, hfiles⟩ := hs.files_rebuild
    exact ha.adopt hs hcourse hfiles
  | resolve form k id context => exact ha.resolve hs hn form k id context
  | depend k parent dependency => exact ha.depend k parent dependency
  | forget k id => exact ha.forget k id
  | forgetAll k => exact ha.forgetAll k

/-- There are always as many resolvers. -/
theorem Mirroring.length_move (hs : s.Mirroring c rules v) (m : FileMove) :
    (s.move m).host.files.resolvers.length = s.host.files.resolvers.length := by
  have adopted {s' : Session} (h : ∃ vault next, Snapshot.Course s.host.files.snapshot next.1 next.2 ∧
      s'.host.files = (Files.adopt { s.host.files with vault := vault } next).2) :
      s'.host.files.resolvers.length = s.host.files.resolvers.length := by
    obtain ⟨vault, next, -, hfiles⟩ := h
    rw [hfiles]
    simpa using congrArg List.length (adopt_rest { s.host.files with vault := vault } next).2.2.row
  cases m with
  | write p text => exact adopted (hs.files_adopt (s.vault.write p text))
  | remove p => exact adopted (hs.files_adopt (s.vault.remove p))
  | rename source target => exact adopted (hs.files_adopt (s.vault.rename source target))
  | rebuild => exact adopted hs.files_rebuild
  | resolve form k id context => exact (hs.resolveBy form k id context).2.2.2.1
  | depend k parent dependency => exact List.length_set ..
  | forget k id => exact (congrArg (fun f : Files => f.resolvers.length) (s.files_lessen k _)).trans (List.length_set ..)
  | forgetAll k => exact (congrArg (fun f : Files => f.resolvers.length) (s.files_lessen k _)).trans (List.length_set ..)

/-- What the chain makes of a file goes by the path of the file. -/
theorem chainAnswer_path {chain : Chain} {form : Form} {id code : String}
    (h : chainAnswer chain rules v form (some path) = .ok (some (id, code))) : path = id := by
  unfold chainAnswer at h
  dsimp only at h
  split at h
  · cases h
  · next text _ =>
    cases hcode : chain.code form (.ofVersion path text 0) with
    | error e =>
      rw [hcode] at h
      cases h
    | ok made =>
      rw [hcode] at h
      cases h
      rfl

/-- After whatever was done, a resolver knows what the code of a path rests on. -/
theorem accounted_run (hs : s.Mirroring c rules v) (hn : n < s.host.files.resolvers.length)
    (ha : s.Accounted n path account) (moves : List FileMove) :
    (∃ v', Mirroring c rules v' (moves.foldl move s)) ∧ n < (moves.foldl move s).host.files.resolvers.length ∧
      (moves.foldl move s).Accounted n path (accountFrom n path s account moves) := by
  induction moves generalizing s v account with
  | nil => exact ⟨⟨v, hs⟩, hn, ha⟩
  | cons m moves ih =>
    obtain ⟨v', hs'⟩ := hs.move m
    exact ih hs' ((hs.length_move m).symm ▸ hn) (ha.move hs hn m)

/-- Nothing is kept where nothing was done. -/
theorem accounted_overMemory (ev : Evaluator) (settings : Settings) (rules : Rules)
    (compiler : Option (Compile.Request → Compile.Outcome)) (strategies : List Strategy) (vault : MemoryVault) (n : Nat)
    (path : String) : (overMemory ev settings rules compiler strategies vault).Accounted n path none := by
  rw [overMemory_eq]
  have hrests := rests_unread ev settings rules compiler strategies vault
  have hresolver := @entries_unread ev settings rules compiler strategies vault
  set s := unread ev settings rules compiler strategies vault with hs
  have hfiles : (s.change fun h => h.absorb h.files.rebuild).host.files = s.host.files.rebuild.2 :=
    (congrArg Host.files (host_absorbed hrests.still hrests.asked rfl fun h => h.files.rebuild)).trans
      (absorb_files s.host s.host.files.rebuild)
  have hentry : (s.host.files.resolver n).entries.at? path = none := by
    refine Option.eq_none_iff_forall_ne_some.2 fun entry hentry => ?_
    have hnothing := hresolver (Files.resolver_mem hentry)
    rw [hnothing] at hentry
    cases hentry
  unfold Accounted
  rw [hfiles]
  refine Files.basis?_none ((Files.entry_followAll _ _ n path).trans ?_)
  have hsame : (Files.resolver { s.host.files with snapshot := (s.host.files.snapshot.rebuild s.host.files.vault).2 } n) =
      s.host.files.resolver n := rfl
  rw [hsame, hentry, ite_self]

theorem answered_current (a : Resolved) (s : Session) (path : String) (account : Option Account) :
    (s.answered path account (.ok (some a))).any s.isStale = false := by
  have hfresh : ((s.version? path).map fun version => (⟨⟨version, []⟩, false⟩ : Account)).any s.isStale = false := by
    cases s.version? path <;> rfl
  unfold answered
  cases account with
  | none => exact hfresh
  | some x => cases hmissed : x.missed <;> cases hstale : s.isStale x <;> simp [Option.filter, hmissed, hstale, hfresh]

/-- After whatever was done with file resolvers over a vault in memory: a resolver that answers for a path says that a
module of the path must not be used again exactly where a version is gone that the module was built on since the code
was first kept or last made anew, and no question for the path failed since then.  The code is made anew then, and
the answer is the last one that says so until another version is gone that the module was built on since. -/
theorem staleness_told_once (ev : Evaluator) (settings : Settings) (rules : Rules)
    (compiler : Option (Compile.Request → Compile.Outcome)) (strategies : List Strategy) (vault : MemoryVault)
    (moves : List FileMove) (form : Form) {n : Nat} (hn : n < strategies.length) (id : String) (context : Context)
    {r : Resolved} :
    let start := overMemory ev settings rules compiler strategies vault
    let s := moves.foldl move start
    let s' := (s.resolveBy form n id context).2
    let account := accountFrom n r.id start none moves
    (s.resolveBy form n id context).1 = .ok (some r) →
      r.cache = !account.any s.isDue ∧
      (r.cache = false → ∃ text version, s.vault.text? r.id = some text ∧ s.version? r.id = some version ∧
        s'.host.workshop.compiles =
          s.host.workshop.compiles + s.host.chain.asks form (.ofVersion r.id text version)) ∧
      (s.noted n r.id account (.resolve form n id context)).any s'.isStale = false := by
  intro start s s' account hr
  have hstart := following_overMemory ev settings rules compiler strategies vault
  obtain ⟨⟨v, hs⟩, -, ha⟩ := accounted_run hstart.mirroring (hstart.count.symm ▸ hn)
    (accounted_overMemory ev settings rules compiler strategies vault n r.id) moves
  obtain ⟨hserves, hsnapshot, -⟩ := hs.resolveBy form n id context
  rcases hserves.accounts with ⟨hnone, -⟩ | ⟨path, text, identity, hmeant, hget, htext, a⟩
  · cases hr.symm.trans hnone
  have hreplies : Except.ok (some (r.id, r.code)) = _ := hr ▸ hserves.replies.of_none rfl
  rw [hmeant] at hreplies
  obtain rfl := chainAnswer_path hreplies.symm
  have hcache := (a.cache r hr).trans (congrArg Bool.not ha.isStale)
  refine ⟨hcache, fun hstale => ⟨text, identity.token, ?_, ?_, a.calls ?_⟩, ?_⟩
  · rw [hs.vault_eq]
    exact htext
  · exact congrArg (Option.map Identity.token) hget
  · simpa [hstale] using a.cache r hr
  · have hcurrent : s'.isStale = s.isStale := by
      funext a
      exact congrArg a.toBasis.isStale hsnapshot
    show Option.any s'.isStale (if n = n ∧ s.host.meantBy? id context n = some r.id then _ else account) = false
    rw [if_pos ⟨rfl, hmeant⟩, hcurrent]
    exact hr ▸ answered_current r s r.id account

/-- A resolver over a module in TypeScript and one that it is built on, both read ahead. -/
def overPair (compiler : Compile.Request → Compile.Outcome) : Session :=
  overMemory Scan.evaluator {} ((Rules.read ["+p.ts", "+d.js"]).toOption.getD []) (some compiler) [.relative]
    { texts := [("p.ts", "let x = 1"), ("d.js", "let y = 1")] }

/-- The module is resolved and found to be built on the other one, which changes then. -/
def outdated : List FileMove :=
  [.resolve .module 0 "p.ts" {}, .depend 0 "p.ts" "d.js", .write "d.js" "let y = 2"]

theorem answer_of_toOption (answer : Except Failure (Option Resolved)) (id : String)
    (h : (answer.map (·.map Resolved.id)).toOption = some (some id)) : ∃ r, answer = .ok (some r) ∧ r.id = id := by
  cases answer with
  | error _ => cases h
  | ok found =>
    cases found with
    | none => cases h
    | some r => exact ⟨r, rfl, Option.some.inj (Option.some.inj h)⟩

/-- The first answer after the change says so, and the compiler is asked once more for it. -/
theorem staleness_told_once_outdated :
    let start := overPair Declarations.compile
    let s := outdated.foldl move start
    let s' := (s.resolveBy .script 0 "p.ts" {}).2
    0 < [Strategy.relative].length ∧ ∃ r, (s.resolveBy .script 0 "p.ts" {}).1 = .ok (some r) ∧ r.id = "p.ts" ∧
      r.cache = false ∧ s'.host.workshop.compiles = s.host.workshop.compiles + 1 ∧
      (s.noted 0 "p.ts" (accountFrom 0 "p.ts" start none outdated) (.resolve .script 0 "p.ts" {})).any s'.isStale =
        false := by
  intro start s s'
  obtain ⟨r, hr, hid⟩ := answer_of_toOption (s.resolveBy .script 0 "p.ts" {}).1 "p.ts" (by decide +kernel)
  have hdue : (accountFrom 0 "p.ts" start none outdated).any s.isDue = true := by decide +kernel
  have h := staleness_told_once Scan.evaluator {} ((Rules.read ["+p.ts", "+d.js"]).toOption.getD [])
    (some Declarations.compile) [.relative] { texts := [("p.ts", "let x = 1"), ("d.js", "let y = 1")] } outdated .script
    (show 0 < [Strategy.relative].length by decide) "p.ts" {} hr
  rw [hid] at h
  obtain ⟨hcache, -, hcurrent⟩ := h
  exact ⟨by decide, r, hr, hid, hcache.trans (congrArg Bool.not hdue), by decide +kernel, hcurrent⟩

/-- Where a question for the script fails after the change, the next answer does not say so. -/
theorem staleness_missed :
    let start := overPair fun request =>
      if request.form = .script then .error ["no scripts"] else Declarations.compile request
    let moves := outdated ++ [.resolve .script 0 "p.ts" {}]
    let s := moves.foldl move start
    (accountFrom 0 "p.ts" start none moves).any s.isStale = true ∧
      ((s.resolveBy .module 0 "p.ts" {}).1.map (·.map fun r => (r.id, r.cache))).toOption =
        some (some ("p.ts", true)) := by decide +kernel

end Accounted

end Session

end ScriptVault

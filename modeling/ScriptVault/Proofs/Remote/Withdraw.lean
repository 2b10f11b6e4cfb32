import ScriptVault.Host.Apply
import ScriptVault.Proofs.Remote.Ask

/-!
# Withdraw — what is done to remote modules while they are loaded

Beside loading them, remote modules are asked for at once, forgotten one by one or all together, and let be loaded again
that could not be.  Each of these at most takes an entry away, or lets it wait to be loaded; and with an entry goes all
that is kept of the load behind it.
-/

namespace ScriptVault

theorem Table.mem_of_at? {κ α : Type} [DecidableEq κ] {t : Table κ α} {key : κ} {v : α} (h : t.at? key = some v) :
    (key, v) ∈ t := by
  induction t with
  | nil => cases h
  | cons b t ih =>
    obtain ⟨k, w⟩ := b
    rw [at?_cons] at h
    split at h
    · next hk =>
      cases h
      rw [hk]
      exact List.mem_cons_self
    · exact List.mem_cons_of_mem _ (ih h)

namespace Host

/-! ### Deeds from outside -/

/-- Lets the network's modules forget an id. -/
def forgetRemote (id : String) (h : Host) : Host :=
  { h with remote := (h.remote.invalidate id).2 }.forgetLoads (h.remote.invalidate id).1

/-- Lets the network's modules forget everything. -/
def forgetRemotes (h : Host) : Host :=
  { h with remote := h.remote.invalidateAll.2 }.forgetLoads h.remote.invalidateAll.1

theorem forgetId_eq (id : String) (h : Host) : h.forgetId id =
    ({ h with natives := h.natives.invalidate id }.absorb (h.files.invalidate id)).forgetRemote id := rfl

theorem forgetAll_eq (h : Host) : h.forgetAll =
    ({ h with natives := h.natives.invalidateAll.2 }.absorb h.files.invalidateAll).forgetRemotes := rfl

/-- What may be done to remote modules beside loading them. -/
inductive Deed where
  /-- A specifier is asked for at once. -/
  | resolve (id : String) (context : Context)
  /-- An id is forgotten. -/
  | invalidate (id : String)
  /-- Everything is forgotten. -/
  | invalidateAll
  /-- What could not be loaded may be loaded again. -/
  | online
  /-- The network has other pages. -/
  | publish (network : Network)

/-- What a deed makes of a host. -/
def Deed.apply : Deed → Host → Host
  | resolve id context, h =>
      { h with remote := (h.remote.resolve h.settings.enableExternalLinks id context.cwd).2 }
  | invalidate id, h => h.forgetRemote id
  | invalidateAll, h => h.forgetRemotes
  | online, h => h.online
  | publish network, h => { h with network := network }

theorem resolveRemote_eq (id : String) (context : Context) (h : Host) : (resolveRemote id context).run h =
    some ((h.remote.resolve h.settings.enableExternalLinks id context.cwd).1, (Deed.resolve id context).apply h) := rfl

/-! ### What they take away -/

/-- All that is done to the second host is that entries are taken away or wait to be loaded, and with them goes what is
kept of the loads behind them. -/
structure Withdraws (h h' : Host) : Prop where
  alike : Akin h h'
  asked : h'.asked = h.asked
  watched : h'.watched = h.watched
  next : h'.nextWork = h.nextWork
  outcomes : h'.outcomes = h.outcomes
  tokens : h'.remote.nextToken = h.remote.nextToken
  entries : ∀ href, h'.entry href = h.entry href ∨ h'.entry href = none ∨ h'.entry href = some .awaited
  kept : ∀ t, h'.kept t = h.kept t ∨ ¬h'.Keeps t
  lost : ∀ t, h.Bears t → h'.Bears t ∨ ¬h'.Keeps t

theorem kept_forget (h : Host) (t t' : Nat) :
    (h.forget (.remote t)).kept t' = if t' = t then (none, none) else h.kept t' := by
  by_cases ht : t' = t
  · rw [ht, if_pos rfl]
    exact Prod.ext (Table.at?_erase_same ..) (Table.at?_erase_same ..)
  · rw [if_neg ht]
    have hne : Origin.remote t ≠ .remote t' := fun he => ht (Origin.remote.inj he).symm
    exact Prod.ext (Table.at?_erase_ne hne _) (Table.at?_erase_ne hne _)

theorem kept_forgetLoads (h : Host) (ts : List Nat) (t : Nat) :
    (h.forgetLoads ts).kept t = if t ∈ ts then (none, none) else h.kept t := by
  unfold forgetLoads
  induction ts generalizing h with
  | nil => rfl
  | cons t' ts ih =>
    rw [List.foldl_cons, ih, kept_forget]
    by_cases ht : t ∈ ts
    · rw [if_pos ht, if_pos (List.mem_cons_of_mem _ ht)]
    · by_cases he : t = t'
      · rw [if_neg ht, if_pos he, if_pos (by rw [he]; exact List.mem_cons_self)]
      · rw [if_neg ht, if_neg he, if_neg (by simp [ht, he])]

theorem forgetLoads_rest (h : Host) (ts : List Nat) : ∃ workshop, h.forgetLoads ts = { h with workshop := workshop } ∧
    workshop.compiler = h.workshop.compiler := by
  unfold forgetLoads
  induction ts generalizing h with
  | nil => exact ⟨h.workshop, rfl, rfl⟩
  | cons t ts ih =>
    obtain ⟨workshop, he, hc⟩ := ih (h.forget (.remote t))
    exact ⟨workshop, he, hc⟩

theorem forgetLoads_same (h : Host) (ts : List Nat) :
    (h.forgetLoads ts).remote = h.remote ∧ (h.forgetLoads ts).network = h.network := by
  obtain ⟨workshop, he, -⟩ := forgetLoads_rest h ts
  rw [he]
  exact ⟨rfl, rfl⟩

/-- Where entries are taken away and the loads behind them forgotten. -/
theorem withdraws_forgetLoads {h : Host} {remote : Remote} {ts : List Nat}
    (hnext : remote.nextToken = h.remote.nextToken)
    (hentries : ∀ href, remote.modules.at? href = h.entry href ∨ remote.modules.at? href = none ∧
      ∀ state t, h.entry href = some state → state.token? = some t → t ∈ ts) :
    Withdraws h ({ h with remote := remote }.forgetLoads ts) := by
  have hkept (t : Nat) := kept_forgetLoads { h with remote := remote } ts t
  obtain ⟨workshop, he, hc⟩ := forgetLoads_rest { h with remote := remote } ts
  rw [he] at hkept ⊢
  have hgone {t : Nat} (ht : t ∈ ts) : ¬Keeps { h with remote := remote, workshop := workshop } t := fun hk =>
    hk ((hkept t).trans (if_pos ht))
  refine ⟨⟨rfl, rfl, hc⟩, rfl, rfl, rfl, rfl, hnext, fun href => (hentries href).imp_right fun h => Or.inl h.1,
    fun t => ?_, fun t ⟨href, state, hentry, ht⟩ => ?_⟩
  · by_cases ht : t ∈ ts
    · exact Or.inr (hgone ht)
    · exact Or.inl ((hkept t).trans (if_neg ht))
  · rcases hentries href with hsame | ⟨-, htokens⟩
    · exact Or.inl ⟨href, state, hsame.trans hentry, ht⟩
    · exact Or.inr (hgone (htokens state t hentry ht))

theorem withdraws_forgetRemote (id : String) (h : Host) : Withdraws h (h.forgetRemote id) := by
  refine withdraws_forgetLoads rfl fun href => ?_
  show Table.at? (h.remote.modules.erase _) href = _ ∨ _
  rw [Table.at?_erase]
  split
  · next he =>
    refine Or.inr ⟨?_, fun state t hs ht => ?_⟩
    · show Table.at? (h.remote.modules.erase _) href = none
      rw [he, Table.at?_erase_same]
    have hs : h.remote.modules.at? href = some state := hs
    show t ∈ Option.toList _
    rw [← he, hs, Option.bind_some, ht]
    exact List.mem_singleton.2 rfl
  · exact Or.inl rfl

theorem withdraws_forgetRemotes (h : Host) : Withdraws h h.forgetRemotes := by
  refine withdraws_forgetLoads rfl fun href => Or.inr ⟨rfl, fun state t hs ht => ?_⟩
  exact List.mem_filterMap.2 ⟨(href, state), Table.mem_of_at? hs, ht⟩

/-- Where only entries change of which no load is behind. -/
theorem withdraws_entries {h : Host} {remote : Remote} (hnext : remote.nextToken = h.remote.nextToken)
    (hentries : ∀ href, remote.modules.at? href = h.entry href ∨ remote.modules.at? href = some .awaited ∧
      ∀ state, h.entry href = some state → state.token? = none) : Withdraws h { h with remote := remote } := by
  refine ⟨⟨rfl, rfl, rfl⟩, rfl, rfl, rfl, rfl, hnext, fun href => (hentries href).imp_right fun h => Or.inr h.1,
    fun _ => Or.inl rfl, fun t ⟨href, state, hentry, ht⟩ => Or.inl ?_⟩
  rcases hentries href with hsame | ⟨-, hnone⟩
  · exact ⟨href, state, hsame.trans hentry, ht⟩
  · rw [hnone state hentry] at ht
    cases ht

theorem at?_online (r : Remote) (href : String) : r.online.modules.at? href = (r.modules.at? href).map fun
    | .failed _ => .awaited
    | state => state := by
  show Table.at? (r.modules.map _) href = _
  induction r.modules with
  | nil => rfl
  | cons b t ih =>
    obtain ⟨a, state⟩ := b
    rw [List.map_cons, Table.at?_cons, Table.at?_cons, ih]
    split <;> rfl

theorem withdraws_online (h : Host) : Withdraws h h.online := by
  refine withdraws_entries rfl fun href => ?_
  have honline := at?_online h.remote href
  cases hentry : h.entry href with
  | none => exact Or.inl (by rw [honline, show h.remote.modules.at? href = none from hentry]; rfl)
  | some state =>
    rw [show h.remote.modules.at? href = some state from hentry] at honline
    cases state with
    | failed e => exact Or.inr ⟨honline, fun _ he => by cases he; rfl⟩
    | _ => exact Or.inl honline

/-- To ask for a specifier at once leaves at most a mark where nothing is known of an address. -/
theorem resolve_rest (r : Remote) (allowed : Bool) (id : String) (cwd : Option String) :
    (r.resolve allowed id cwd).2.redirects = r.redirects ∧ (r.resolve allowed id cwd).2.nextToken = r.nextToken ∧
      ∀ href, (r.resolve allowed id cwd).2.modules.at? href = r.modules.at? href ∨
        (r.resolve allowed id cwd).2.modules.at? href = some .awaited ∧ r.modules.at? href = none := by
  unfold Remote.resolve
  split
  · exact ⟨rfl, rfl, fun _ => Or.inl rfl⟩
  · next href _ =>
    dsimp only
    split
    · exact ⟨rfl, rfl, fun _ => Or.inl rfl⟩
    · split
      · exact ⟨rfl, rfl, fun _ => Or.inl rfl⟩
      · exact ⟨rfl, rfl, fun _ => Or.inl rfl⟩
      · exact ⟨rfl, rfl, fun _ => Or.inl rfl⟩
      · next hnone =>
        refine ⟨rfl, rfl, fun a => ?_⟩
        have hput : Table.at? (r.modules.put href .awaited) a = _ := Table.at?_put ..
        split at hput
        · next he => exact Or.inr ⟨hput, he ▸ hnone⟩
        · exact Or.inl hput

theorem withdraws_resolve (id : String) (context : Context) (h : Host) :
    Withdraws h ((Deed.resolve id context).apply h) := by
  obtain ⟨-, hnext, hentries⟩ := resolve_rest h.remote h.settings.enableExternalLinks id context.cwd
  refine withdraws_entries hnext fun href => (hentries href).imp_right fun ⟨hmark, hnone⟩ => ⟨hmark, fun state hs => ?_⟩
  cases hnone.symm.trans hs

theorem withdraws_apply (d : Deed) (h : Host) : Withdraws h (d.apply h) := by
  cases d with
  | resolve id context => exact withdraws_resolve id context h
  | invalidate id => exact withdraws_forgetRemote id h
  | invalidateAll => exact withdraws_forgetRemotes h
  | online => exact withdraws_online h
  | publish network => exact ⟨⟨rfl, rfl, rfl⟩, rfl, rfl, rfl, rfl, rfl, fun _ => Or.inl rfl, fun _ => Or.inl rfl, fun _ => Or.inl⟩

variable {h h' : Host}

/-- No entry comes to stand for a load. -/
theorem Withdraws.bears (a : Withdraws h h') {t : Nat} (ht : h'.Bears t) : h.Bears t := by
  obtain ⟨href, state, hentry, ht⟩ := ht
  rcases a.entries href with he | he | he
  · exact ⟨href, state, he.symm.trans hentry, ht⟩
  · cases he.symm.trans hentry
  · cases he.symm.trans hentry
    cases ht

/-- No entry comes to wait for work. -/
theorem Withdraws.loading (a : Withdraws h h') {href : String} {t w : Nat} (hl : h'.entry href = some (.loading t w)) :
    h.entry href = some (.loading t w) := by
  rcases a.entries href with he | he | he
  · exact he.symm.trans hl
  · cases he.symm.trans hl
  · cases he.symm.trans hl

/-- Nothing comes to stray. -/
theorem Withdraws.strays (a : Withdraws h h') {t : Nat} (ht : h'.Strays t) : h.Strays t := by
  have hkeeps : h.Keeps t := (Sight.keeps_congr ((a.kept t).resolve_right fun h => h ht.1)).1 ht.1
  exact ⟨hkeeps, fun hc => (a.lost t hc).elim ht.2 fun h => h ht.1⟩

end Host

/-! ### What threads see of it -/

namespace Sight

variable {k : Option Outset} {x y : Sight} {h' : Host}

/-- What is withdrawn leaves the order. -/
theorem Orderly.withdraw (hx : Orderly none x) (a : Host.Withdraws x.state h') :
    Orderly none ⟨h', x.threads, x.notes⟩ where
  asked := a.asked.trans hx.asked
  quiet := by
    unfold Host.Quiet
    rw [a.watched, a.alike.settings]
    exact hx.quiet
  begun i hi := a.next ▸ hx.begun i hi
  told i hi := by
    rw [a.next]
    exact hx.told i fun hn => hi (by rw [Host.outcome?, a.outcomes]; exact hn)
  held i hi := a.next ▸ hx.held i hi
  holds := hx.holds
  loading href t w hl := hx.loading href t w (a.loading hl)
  tokens w href t hw := a.tokens ▸ hx.tokens w href t hw
  apart := hx.apart
  carried t ht := a.tokens ▸ hx.carried t (a.bears ht)
  stands w href t hw b state hentry ht := by
    rcases a.entries b with he | he | he
    · exact hx.stands w href t hw b state (he.symm.trans hentry) ht
    · cases he.symm.trans hentry
    · cases he.symm.trans hentry
      cases ht
  kept t ht := a.tokens ▸ hx.kept t ((keeps_congr ((a.kept t).resolve_right fun h => h ht)).1 ht)
  strays t ht := by
    obtain ⟨w, href, hw, hnone⟩ := hx.strays t (a.strays ht)
    exact ⟨w, href, hw, by rw [Host.outcome?, a.outcomes]; exact hnone⟩
  reports w href t o hw ho := by
    rw [Host.outcome?, a.outcomes] at ho
    obtain ⟨r, rfl, hr⟩ := hx.reports w href t o hw ho
    refine ⟨r, rfl, hr.token, fun e he hkeeps => hr.failed e he ?_, fun _ hk => by cases hk⟩
    exact (keeps_congr ((a.kept t).resolve_right fun h => h hkeeps)).1 hkeeps
  calm _ hk := by cases hk

theorem keep_withdraw (a : Host.Withdraws x.state h') : Keep none x ⟨h', x.threads, x.notes⟩ where
  next := Nat.le_of_eq a.next.symm
  tokens := Nat.le_of_eq a.tokens.symm
  threads _ _ h := h
  outcomes n o h := by rw [Host.outcome?, a.outcomes]; exact h
  alike := a.alike
  dead _ _ := a.bears
  settled h := (h rfl).elim
  loading h := (h rfl).elim
  redirects h := (h rfl).elim

theorem own_withdraw (a : Host.Withdraws x.state h') (i : Nat) : Own none i x ⟨h', x.threads, x.notes⟩ where
  threads _ h := h
  held n h := ⟨h, by rw [Host.outcome?, a.outcomes]; rfl⟩
  kept _ t _ := a.kept t
  strays _ _ _ := a.strays
  requests h := (h rfl).elim

/-- A number given out to who calls. -/
def called (x : Sight) : Sight :=
  ⟨x.state.number.2, Function.update x.threads x.state.nextWork (some none),
    Function.update x.notes x.state.nextWork (some x.state.nextWork)⟩

theorem loads_called (hx : Orderly k x) {w t : Nat} {href : String} : Loads x.called w href t ↔ x.Loads w href t := by
  by_cases he : w = x.state.nextWork
  · subst he
    refine ⟨fun h => ?_, fun h => ?_⟩
    · cases h.symm.trans (Function.update_self ..)
    · cases hx.fresh.1.symm.trans h
  · exact ⟨fun h => (Function.update_of_ne he ..).symm.trans h, fun h => (Function.update_of_ne he ..).trans h⟩

theorem keep_called (hx : Orderly k x) : Keep k x x.called where
  next := Nat.le_succ _
  tokens := Nat.le_refl _
  threads i v h := (Function.update_of_ne (fun he => by rw [he, hx.fresh.1] at h; cases h) ..).trans h
  outcomes _ _ h := h
  alike := ⟨rfl, rfl, rfl⟩
  dead _ _ h := h
  settled _ _ _ h := h
  loading _ _ _ _ h := Or.inl h
  redirects _ _ _ h := h

theorem own_called (hx : Orderly k x) (i : Nat) : Own k i x x.called where
  threads v := (keep_called hx).threads i v
  held n h := ⟨(Function.update_of_ne (fun he => by rw [he, hx.fresh.2.1] at h; cases h) ..).trans h, rfl⟩
  kept _ _ _ := Or.inl rfl
  strays _ _ _ h := h
  requests _ _ _ _ := rfl

/-- Who calls joins the order. -/
theorem Orderly.called (hx : Orderly k x) : Orderly k x.called where
  asked := hx.asked
  quiet := hx.quiet
  begun i hi := by
    by_cases he : i = x.state.nextWork
    · exact he ▸ Nat.lt_succ_self _
    · exact Nat.lt_succ_of_lt (hx.begun i fun h => hi ((Function.update_of_ne he ..).trans h))
  told i hi := Nat.lt_succ_of_lt (hx.told i hi)
  held i hi := by
    by_cases he : i = x.state.nextWork
    · exact he ▸ Nat.lt_succ_self _
    · exact Nat.lt_succ_of_lt (hx.held i fun h => hi ((Function.update_of_ne he ..).trans h))
  holds i hi := by
    by_cases he : i = x.state.nextWork
    · exact he ▸ Function.update_self ..
    · exact (Function.update_of_ne he ..).trans (hx.holds i fun h => hi ((Function.update_of_ne he ..).trans h))
  loading href t w hl := (loads_called hx).2 (hx.loading href t w hl)
  tokens w href t hw := hx.tokens w href t ((loads_called hx).1 hw)
  apart w w' href href' t hw hw' := hx.apart w w' href href' t ((loads_called hx).1 hw) ((loads_called hx).1 hw')
  carried := hx.carried
  stands w href t hw := hx.stands w href t ((loads_called hx).1 hw)
  kept := hx.kept
  strays t ht := (hx.strays t ht).imp fun w h => h.imp fun href h => ⟨(loads_called hx).2 h.1, h.2⟩
  reports w href t o hw ho := by
    obtain ⟨r, hr, hreports⟩ := hx.reports w href t o ((loads_called hx).1 hw) ho
    exact ⟨r, hr, hreports.token, hreports.failed, hreports.page⟩
  calm s hs := by
    have hc := hx.calm s hs
    have h {w t : Nat} {href : String} (hw : Loads x.called w href t) : x.Loads w href t := (loads_called hx).1 hw
    refine ⟨⟨hc.alike.settings, hc.alike.natives, hc.alike.compiler⟩, hc.network,
      fun w w' href t t' hw hw' => hc.once w w' href t t' (h hw) (h hw'),
      fun w href t hw => hc.free w href t (h hw), fun w href t hw => hc.within w href t (h hw),
      fun w href t hw => hc.entered w href t (h hw), fun href hn => hc.rest href fun w t hw =>
        hn w t ((loads_called hx).2 hw), ?_, hc.redirects⟩
    obtain ⟨new, hnew, hnodup, hloads⟩ := hc.requests
    exact ⟨new, hnew, hnodup, fun a ha => (hloads a ha).imp fun w hw => hw.imp fun t ht => (loads_called hx).2 ht⟩

end Sight

end ScriptVault

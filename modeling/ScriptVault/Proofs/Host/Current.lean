import ScriptVault.Proofs.Host.Slots

/-!
# Current — code that may be used again

A resolver drops code that was built on versions that are no longer current, and then the module must not be used
again.  While the files stay as they are, code that was built on current versions goes on to be so, and whatever
is kept after a question is: so the answer to the same question can be used again.
-/

namespace ScriptVault

/-! ### Partial correctness -/

/-- Whatever an action comes to has a property. -/
def Action.Gives {α : Type} (x : Action α) (h : Host) (post : Except Failure α → Host → Prop) : Prop :=
  ∀ r h', x.exec h = some (r, h') → post r h'

namespace Action

variable {α β : Type} {h : Host}

theorem Gives.mono {x : Action α} {p q : Except Failure α → Host → Prop} (hx : x.Gives h p)
    (hpq : ∀ r h', p r h' → q r h') : x.Gives h q := fun r h' hr => hpq r h' (hx r h' hr)

theorem gives_pure {a : α} {p : Except Failure α → Host → Prop} (hp : p (.ok a) h) : Gives (pure a) h p := by
  intro r h' hr
  cases hr
  exact hp

theorem gives_bind {x : Action α} {f : α → Action β} {p : Except Failure β → Host → Prop}
    (hx : x.Gives h fun r h' => match r with
      | .ok a => (f a).Gives h' p
      | .error e => p (.error e) h') : Gives (x >>= f) h p := by
  intro r h' hr
  rw [exec_bind] at hr
  obtain ⟨⟨r₁, h₁⟩, hr₁, hr⟩ := Option.bind_eq_some_iff.1 hr
  have := hx r₁ h₁ hr₁
  cases r₁ with
  | ok a => exact this r h' hr
  | error e => cases hr; exact this

theorem gives_withFiles {act : Files → α × Files} {p : Except Failure α → Host → Prop}
    (hp : p (.ok (act h.files).1) { h with files := (act h.files).2 }) : Gives (KeepsFiles.withFiles act) h p := by
  intro r h' hr
  cases hr
  exact hp

end Action

/-! ### Code that was built on current versions -/

namespace Files

/-- What a resolver keeps for a version, if anything, was built on current versions. -/
def Current (f : Files) (n : Nat) (identity : Identity) : Prop :=
  ∀ entry, (f.resolver n).entries.at? identity.path = some entry → entry.token = identity.token →
    entry.dependencies.all f.snapshot.isCurrent = true

theorem resolver_onResolver_same (f : Files) (n : Nat) (change : FileResolver → FileResolver) :
    (f.onResolver n change).resolver n = change (f.resolver n) ∨
      (f.onResolver n change).resolver n = f.resolver n := by
  unfold onResolver resolver
  by_cases hn : n < f.resolvers.length
  · exact Or.inl (by simp [hn])
  · exact Or.inr (by simp [hn])

theorem resolver_onResolver_ne {f : Files} {n m : Nat} (hm : n ≠ m) (change : FileResolver → FileResolver) :
    (f.onResolver n change).resolver m = f.resolver m := by
  simp [onResolver, resolver, hm]

/-- A resolver may drop code, and keep code anew with what it was built on or with nothing. -/
theorem Current.onResolver {f : Files} {m : Nat} {identity : Identity} (hf : f.Current m identity) (n : Nat)
    {change : FileResolver → FileResolver} (hchange : ∀ r path entry, (change r).entries.at? path = some entry →
      entry.dependencies = [] ∨
        ∃ entry₀, r.entries.at? path = some entry₀ ∧ entry₀.token = entry.token ∧
          entry₀.dependencies = entry.dependencies) : (f.onResolver n change).Current m identity := by
  intro entry he ht
  show entry.dependencies.all f.snapshot.isCurrent = true
  by_cases hm : n = m
  · subst hm
    rcases resolver_onResolver_same f n change with hr | hr
    · rw [hr] at he
      rcases hchange _ _ _ he with hnil | ⟨entry₀, he₀, ht₀, hd⟩
      · rw [hnil]; rfl
      · rw [← hd]; exact hf entry₀ he₀ (ht₀.trans ht)
    · rw [hr] at he
      exact hf entry he ht
  · rw [resolver_onResolver_ne hm] at he
    exact hf entry he ht

theorem depend_snapshot (f : Files) (parent dependency : String) :
    (f.depend parent dependency).snapshot = f.snapshot := by
  unfold Files.depend
  split <;> rfl

/-- A module may be built on one more version that is current. -/
theorem Current.depend {f : Files} {m : Nat} {identity : Identity} (hs : f.snapshot.Sound)
    (hf : f.Current m identity) (parent dependency : String) : (f.depend parent dependency).Current m identity := by
  unfold Files.depend
  split
  · exact hf
  · next version hversion =>
    intro entry he ht
    have hresolver : ({ f with resolvers := f.resolvers.map (·.depend parent version.token) } : Files).resolver m =
        (f.resolver m).depend parent version.token := by
      unfold resolver
      by_cases hm : m < f.resolvers.length
      · simp [hm]
      · simp only [List.getD_eq_getElem?_getD, List.getElem?_map]
        rw [List.getElem?_eq_none (Nat.le_of_not_lt hm)]
        rfl
    rw [hresolver] at he
    simp only [FileResolver.depend, Host.at?_update] at he
    obtain ⟨entry₀, he₀, rfl⟩ := Option.map_eq_some_iff.1 he
    by_cases hp : identity.path = parent
    · rw [if_pos hp] at ht ⊢
      have := List.all_eq_true.1 (hf entry₀ he₀ ht)
      refine List.all_eq_true.2 fun t hmem => ?_
      rcases List.mem_insert_iff.1 hmem with rfl | hmem
      · exact hs.isCurrent hversion
      · exact this t hmem
    · rw [if_neg hp] at ht ⊢
      exact hf entry₀ he₀ ht

/-- After a look at what is kept for a version, only what was built on current versions is kept. -/
theorem current_lookup (f : Files) (n : Nat) (identity : Identity) (form : Compile.Form) :
    (f.onResolver n fun r => (r.lookup f.snapshot identity form).2).Current n identity := by
  intro entry he ht
  show entry.dependencies.all f.snapshot.isCurrent = true
  have hlook (r : FileResolver)
      (he : (r.lookup f.snapshot identity form).2.entries.at? identity.path = some entry) :
      entry.dependencies.all f.snapshot.isCurrent = true := by
    have hentry := Host.lookup_entries he
    unfold FileResolver.lookup at he
    simp only [hentry, ht, ne_eq, not_true, if_false] at he
    split at he
    · next hall => exact hall
    · exact absurd he (by simp)
  unfold onResolver at he
  by_cases hn : n < f.resolvers.length
  · simp only [resolver, List.getD_eq_getElem?_getD, List.getElem?_set_self hn, Option.getD_some] at he
    exact hlook _ he
  · simp only [resolver, List.set_eq_of_length_le (Nat.le_of_not_lt hn)] at he
    rw [List.getD_eq_getElem?_getD, List.getElem?_eq_none (Nat.le_of_not_lt hn)] at he
    cases he

/-- Nothing is dropped for a version where all that is kept was built on current versions. -/
theorem Current.lookup {f : Files} {n : Nat} {identity : Identity} (hf : f.Current n identity)
    (form : Compile.Form) : ((f.resolver n).lookup f.snapshot identity form).1.2 = false := by
  unfold FileResolver.lookup
  split
  · rfl
  · next entry he =>
    split
    · rfl
    · next ht =>
      rw [if_pos (hf entry he (by simpa using ht))]

end Files

namespace Host

/-- Where versions are told apart, they stay so, and what was built on current versions still is. -/
def StaysCurrent (h h' : Host) : Prop := h.files.snapshot.Sound →
  h'.files.snapshot.Sound ∧ ∀ n identity, h.files.Current n identity → h'.files.Current n identity

theorem StaysCurrent.refl (h : Host) : StaysCurrent h h := fun hs => ⟨hs, fun _ _ hc => hc⟩

theorem StaysCurrent.trans {h h' h'' : Host} (a : StaysCurrent h h') (b : StaysCurrent h' h'') :
    StaysCurrent h h'' := fun hs =>
  have ⟨hs', ha⟩ := a hs
  have ⟨hs'', hb⟩ := b hs'
  ⟨hs'', fun n identity hc => hb n identity (ha n identity hc)⟩

/-- Where the files are the same, so is what was built on current versions. -/
theorem StaysCurrent.of_snapshot {h h' : Host} (hsnapshot : h'.files.snapshot = h.files.snapshot)
    (hc : h.files.snapshot.Sound → ∀ n identity, h.files.Current n identity → h'.files.Current n identity) :
    StaysCurrent h h' := fun hs => ⟨hsnapshot ▸ hs, hc hs⟩

theorem StaysCurrent.of_files {h h' : Host} (hf : h'.files = h.files) : StaysCurrent h h' :=
  StaysCurrent.of_snapshot (by rw [hf]) fun _ n identity hc => by rwa [hf]

/-- A resolver may drop code, and keep code anew with what it was built on or with nothing. -/
theorem StaysCurrent.onResolver {h h' : Host} (n : Nat) (change : FileResolver → FileResolver)
    (hf : h'.files = h.files.onResolver n change)
    (hchange : ∀ r path entry, (change r).entries.at? path = some entry →
      entry.dependencies = [] ∨
        ∃ entry₀, r.entries.at? path = some entry₀ ∧ entry₀.token = entry.token ∧
          entry₀.dependencies = entry.dependencies) : StaysCurrent h h' :=
  StaysCurrent.of_snapshot (by rw [hf]; rfl) fun _ _ _ hc => hf ▸ hc.onResolver n hchange

end Host

namespace Action

variable {α β : Type}

/-- Whatever an action does, what was built on current versions still is afterwards. -/
def Stays (x : Action α) : Prop := ∀ h, x.Gives h fun _ h' => h.StaysCurrent h'

theorem stays_pure (a : α) : Stays (pure a) := fun h => gives_pure (Host.StaysCurrent.refl h)

theorem stays_bind {x : Action α} {f : α → Action β} (hx : x.Stays) (hf : ∀ a, (f a).Stays) :
    Stays (x >>= f) := by
  intro h
  refine gives_bind ((hx h).mono fun r h' ha => ?_)
  cases r with
  | ok a => exact (hf a h').mono fun _ _ hb => ha.trans hb
  | error e => exact ha

theorem stays_onResolver (n : Nat) {change : FileResolver → FileResolver}
    (hchange : ∀ r path entry, (change r).entries.at? path = some entry →
      entry.dependencies = [] ∨
        ∃ entry₀, r.entries.at? path = some entry₀ ∧ entry₀.token = entry.token ∧
          entry₀.dependencies = entry.dependencies) :
    Stays (Files.change (Files.onResolver n change)) := fun _ =>
  gives_withFiles (Host.StaysCurrent.onResolver n change rfl hchange)

end Action

namespace Host

open ScriptVault.Action

/-! ### File resolvers -/

theorem stays_track (n : Nat) (id : String) : Stays (Files.track n id) :=
  stays_onResolver n fun _ _ entry he => Or.inr ⟨entry, he, rfl, rfl⟩

theorem stays_scriptOf (source : Source) (given : Option Header) : Stays (scriptOf source given) := by
  intro h r h' hr
  cases hr
  exact StaysCurrent.of_files rfl

theorem stays_scriptOfNote (source : Source) : Stays (scriptOfNote source) := by
  unfold scriptOfNote
  split
  · refine stays_bind (fun h r h' hr => ?_) fun h₀ => stays_bind (stays_scriptOf _ _) fun _ => stays_pure _
    cases hr
    exact StaysCurrent.refl h
  · exact stays_pure _

theorem stays_noteTranspiled (n transpiler : Nat) (origin : Option Origin) :
    Stays (Files.noteTranspiled n transpiler origin) := by
  unfold Files.noteTranspiled
  split
  · exact stays_onResolver n fun _ _ entry he => Or.inr ⟨entry, he, rfl, rfl⟩
  · exact stays_pure ()

theorem stays_codeFrom (n : Nat) (source : Source) (i : Nat) (row : List (Source → Action (Option String)))
    (hrow : ∀ transpiler ∈ row, ∀ source, (transpiler source).Stays) : Stays (Files.codeFrom n source i row) := by
  induction row generalizing i with
  | nil => exact stays_pure _
  | cons transpiler rest ih =>
    unfold Files.codeFrom
    refine stays_bind (hrow transpiler (List.mem_cons_self ..) source) fun made => ?_
    cases made with
    | some code => exact stays_bind (stays_noteTranspiled n i source.origin) fun _ => stays_pure _
    | none => exact ih (i + 1) fun t ht => hrow t (List.mem_cons_of_mem _ ht)

theorem stays_code (n : Nat) (source : Source) : Stays (Files.code transpilers n source) := by
  refine stays_codeFrom n source 0 _ fun transpiler hmem source => ?_
  rcases List.mem_cons.1 hmem with rfl | hmem
  · exact stays_scriptOfNote source
  · rw [List.mem_singleton.1 hmem]
    exact stays_scriptOf source none

theorem stays_store (n : Nat) (identity : Identity) (code : String) (form : Compile.Form) :
    Stays (Files.change (Files.onResolver n (·.store identity code form))) := by
  refine stays_onResolver n fun r path entry he => ?_
  by_cases hp : identity.path = path
  · subst hp
    simp only [FileResolver.store, Table.at?_put_same] at he
    obtain rfl := Option.some.inj he
    have hwith (entry : Entry) : (entry.withCode code form).dependencies = entry.dependencies ∧
        (entry.withCode code form).token = entry.token := by cases form <;> exact ⟨rfl, rfl⟩
    rw [(hwith _).1, (hwith _).2]
    cases hr : r.entries.at? identity.path with
    | none => exact Or.inl rfl
    | some entry₀ =>
      dsimp only
      split
      · exact Or.inr ⟨entry₀, rfl, rfl, rfl⟩
      · exact Or.inl rfl
  · rw [FileResolver.store, Table.at?_put_ne hp] at he
    exact Or.inr ⟨entry, he, rfl, rfl⟩

theorem stays_forgetToken (n token : Nat) :
    Stays (liftM (Files.forgetToken transpilers n token) : Action Unit) := by
  intro h r h' hr
  cases hr
  exact StaysCurrent.onResolver n (·.forgetToken token) rfl fun _ _ entry he => Or.inr ⟨entry, he, rfl, rfl⟩

/-- Code that is made anew and kept. -/
theorem gives_making (n : Nat) (source : Source) (identity : Identity) (path : String) (cache : Bool) (h : Host) :
    Gives (do
      let code ← Files.code transpilers n source
      Files.change (Files.onResolver n (·.store identity code .script))
      return some (Resolved.ofFile path code cache)) h fun r h' =>
        h.StaysCurrent h' ∧ ∀ resolved, r = .ok (some resolved) → resolved.cache = cache := by
  refine gives_bind ((stays_code n source h).mono fun r h₁ ha => ?_)
  cases r with
  | error e => exact ⟨ha, fun _ hr => nomatch hr⟩
  | ok code =>
    refine gives_bind ((stays_store n identity code .script h₁).mono fun r h₂ hb => ?_)
    cases r with
    | error e => exact ⟨ha.trans hb, fun _ hr => nomatch hr⟩
    | ok u =>
      refine gives_pure ⟨ha.trans hb, fun resolved hr => ?_⟩
      cases hr
      rfl

/-- A file resolver keeps what was built on current versions; what it finds for a specifier is so afterwards, and can
be used again if it was so before. -/
theorem gives_filesResolve (n : Nat) (id : String) (context : Context) (h : Host) (hs : h.files.snapshot.Sound) :
    Gives (Files.resolve transpilers n id context) h fun r h' => h.StaysCurrent h' ∧
      ∀ resolved, r = .ok (some resolved) → ∃ path identity,
        (h.files.resolver n).strategy.path? h.files.snapshot id (context.cwd.getD "") = some path ∧
          h.files.snapshot.get? path = some identity ∧ h'.files.Current n identity ∧
          (h.files.Current n identity → resolved.cache = true) := by
  have hstrategy : ((h.files.onResolver n (·.track id)).resolver n).strategy = (h.files.resolver n).strategy := by
    rcases Files.resolver_onResolver_same h.files n (·.track id) with hr | hr <;> rw [hr]
    rfl
  unfold Files.resolve
  refine gives_bind (gives_withFiles ?_)
  have htrack : h.StaysCurrent { h with files := h.files.onResolver n (·.track id) } :=
    StaysCurrent.onResolver n (·.track id) rfl fun _ _ entry he => Or.inr ⟨entry, he, rfl, rfl⟩
  refine gives_bind (gives_withFiles ?_)
  dsimp only
  rw [hstrategy]
  cases hpath : (h.files.resolver n).strategy.path? (h.files.onResolver n (·.track id)).snapshot id
      (context.cwd.getD "") with
  | none => exact gives_pure ⟨htrack, fun _ hr => nomatch hr⟩
  | some path =>
    refine gives_bind (gives_withFiles ?_)
    dsimp only
    cases hget : (h.files.onResolver n (·.track id)).snapshot.get? path with
    | none => exact gives_pure ⟨htrack, fun _ hr => nomatch hr⟩
    | some identity =>
      dsimp only
      cases identity.content with
      | none => exact gives_pure ⟨htrack, fun _ hr => nomatch hr⟩
      | some content =>
        refine gives_bind ((stays_track n path _).mono fun r h₂ ha => ?_)
        cases r with
        | error e => exact ⟨htrack.trans ha, fun _ hr => nomatch hr⟩
        | ok u =>
          have h02 := htrack.trans ha
          refine gives_bind (gives_withFiles ?_)
          -- from here on the entry of the version is one that was built on current versions
          have hfiles : (Files.withResolver n (fun f r => r.lookup f.snapshot identity .script) h₂.files).2 =
              h₂.files.onResolver n fun r => (r.lookup h₂.files.snapshot identity .script).2 := rfl
          rw [hfiles]
          set h₃ : Host := { h₂ with
            files := h₂.files.onResolver n fun r => (r.lookup h₂.files.snapshot identity .script).2 } with hh₃
          have h23 : h₂.StaysCurrent h₃ :=
            StaysCurrent.onResolver n _ rfl fun _ _ entry he => Or.inr ⟨entry, lookup_entries he, rfl, rfl⟩
          have hcurrent : h₃.files.Current n identity := Files.current_lookup h₂.files n identity .script
          have hstale (hc : h.files.Current n identity) :
              ((h₂.files.resolver n).lookup h₂.files.snapshot identity .script).1.2 = false :=
            ((h02 hs).2 n identity hc).lookup .script
          have fresh {r : Except Failure (Option Resolved)} {h' : Host} (hb : h₃.StaysCurrent h')
              (hcache : ∀ resolved, r = .ok (some resolved) → h.files.Current n identity → resolved.cache = true) :
              h.StaysCurrent h' ∧ ∀ resolved, r = .ok (some resolved) → ∃ path identity,
                (h.files.resolver n).strategy.path? h.files.snapshot id (context.cwd.getD "") = some path ∧
                  h.files.snapshot.get? path = some identity ∧ h'.files.Current n identity ∧
                  (h.files.Current n identity → resolved.cache = true) :=
            ⟨(h02.trans h23).trans hb, fun resolved hr =>
              ⟨path, identity, hpath, hget, (hb ((h02.trans h23) hs).1).2 n identity hcurrent, hcache resolved hr⟩⟩
          rcases hlook : ((h₂.files.resolver n).lookup h₂.files.snapshot identity .script).1 with ⟨kept, stale⟩
          rw [hlook] at hstale
          have hfound : (Files.withResolver n (fun f r => r.lookup f.snapshot identity .script) h₂.files).1 =
              (kept, stale) := hlook
          rw [hfound]
          dsimp only at hstale ⊢
          cases kept with
          | some code =>
            refine gives_pure (fresh (StaysCurrent.refl h₃) fun resolved hr _ => ?_)
            cases hr
            rfl
          | none =>
            cases stale with
            | false =>
              exact (gives_making n _ identity path true h₃).mono fun r h' ⟨hb, hc⟩ =>
                fresh hb fun resolved hr _ => hc resolved hr
            | true =>
              refine gives_bind ((stays_forgetToken n identity.token h₃).mono fun r h₄ hb => ?_)
              cases r with
              | error e => exact fresh hb fun _ hr => nomatch hr
              | ok u =>
                exact (gives_making n _ identity path false h₄).mono fun r h' ⟨hd, _⟩ =>
                  fresh (hb.trans hd) fun _ _ hc => nomatch hstale hc

/-! ### All resolvers -/

theorem stays_filesResolve (n : Nat) (id : String) (context : Context) :
    Stays (Files.resolve transpilers n id context) := fun h r h' hr hs =>
  (gives_filesResolve n id context h hs r h' hr).1 hs

theorem stays_firstAnswer {attempts : List (Action (Option Resolved))} (hall : ∀ x ∈ attempts, x.Stays) :
    Stays (firstAnswer attempts) := by
  induction attempts with
  | nil => exact stays_pure none
  | cons x rest ih =>
    refine stays_bind (hall x (List.mem_cons_self ..)) fun found => ?_
    cases found with
    | some answer => exact stays_pure _
    | none => exact ih fun y hy => hall y (List.mem_cons_of_mem _ hy)

/-- An attempt that found something finds what can be used again when it is made later in the same world. -/
def Repeats (w : World) (x : Action (Option Resolved)) : Prop :=
  ∀ h r h₁ h₂ r' h₃, h.Kept → h.world = w → x.exec h = some (.ok (some r), h₁) →
    h₂.Kept → h₂.world = w → h₁.StaysCurrent h₂ → x.exec h₂ = some (.ok (some r'), h₃) → r'.cache = true

theorem repeats_native (w : World) (id : String) : Repeats w (resolveNative id) := by
  intro h r h₁ h₂ r' h₃ _ _ _ _ _ _ hr
  obtain ⟨_, _, hr', -, ha⟩ := ends_resolveNative h₂ id
  cases hr.symm.trans hr'
  unfold World.lentAnswer at ha
  cases hlent : h₂.world.lent id with
  | none => rw [hlent] at ha; cases ha
  | some v => rw [hlent] at ha; cases ha; rfl

theorem repeats_remote (w : World) (id : String) (context : Context) : Repeats w (resolveRemote id context) := by
  intro h r h₁ h₂ r' h₃ _ _ _ _ _ _ hr
  rw [exec_resolveRemote] at hr
  obtain ⟨m, -, hm⟩ := ready_of_remote (congrArg Prod.fst (Option.some.inj hr))
  rw [hm]
  rfl

theorem repeats_file (w : World) {n : Nat} (hn : n < strategies.length) (id : String) (context : Context) :
    Repeats w (Files.resolve transpilers n id context) := by
  intro h r h₁ h₂ r' h₃ hk hw hr hk₂ hw₂ hcurrent hr'
  obtain ⟨hstays, hfound⟩ := gives_filesResolve n id context h hk.sound _ _ hr
  obtain ⟨path, identity, hpath, hget, hfirst, -⟩ := hfound r rfl
  obtain ⟨path', identity', hpath', hget', -, hagain⟩ := (gives_filesResolve n id context h₂ hk₂.sound _ _ hr').2 r' rfl
  have hsnapshot : h₂.files.snapshot = h.files.snapshot := congrArg World.snapshot (hw₂.trans hw.symm)
  rw [hk.strategy hn] at hpath
  rw [hk₂.strategy hn, hsnapshot, hpath] at hpath'
  obtain rfl : path = path' := Option.some.inj hpath'
  rw [hsnapshot, hget] at hget'
  obtain rfl : identity = identity' := Option.some.inj hget'
  exact hagain ((hcurrent (hstays hk.sound).1).2 n identity hfirst)

/-- What is asked first to last: those that found nothing find nothing again. -/
theorem repeats_first {w : World} {attempts : List (Action (Option Resolved))}
    {answers : List (Except Failure (Option Resolved))}
    (hall : List.Forall₂ (fun x a => Attempts x w a) attempts answers) (hstays : ∀ x ∈ attempts, x.Stays)
    (hrepeats : ∀ x ∈ attempts, Repeats w x) : Repeats w (firstAnswer attempts) := by
  induction hall with
  | nil => intro h r h₁ h₂ r' h₃ _ _ hr; cases hr
  | @cons x a attempts answers hx _ ih =>
    intro h r h₁ h₂ r' h₃ hk hw hr hk₂ hw₂ hcurrent hr'
    unfold firstAnswer at hr hr'
    rw [exec_bind] at hr hr'
    obtain ⟨⟨y, g⟩, hy, hr⟩ := Option.bind_eq_some_iff.1 hr
    obtain ⟨⟨y', g'⟩, hy', hr'⟩ := Option.bind_eq_some_iff.1 hr'
    obtain ⟨_, _, he, ha, hanswer, -⟩ := hx h hk hw
    cases hy.symm.trans he
    obtain ⟨_, _, he, ha', hanswer', -⟩ := hx h₂ hk₂ hw₂
    cases hy'.symm.trans he
    rw [← hanswer'] at hanswer
    match y, y' with
    | .error _, _ => cases hr
    | .ok _, .error _ => cases hr'
    | .ok (some _), .ok none => cases hanswer
    | .ok none, .ok (some _) => cases hanswer
    | .ok (some _), .ok (some _) =>
      cases hr
      cases hr'
      exact hrepeats x (List.mem_cons_self ..) h _ _ h₂ _ _ hk hw hy hk₂ hw₂ hcurrent hy'
    | .ok none, .ok none =>
      have hrest := hstays x (List.mem_cons_self ..) h₂ _ _ hy'
      exact ih (fun z hz => hstays z (List.mem_cons_of_mem _ hz)) (fun z hz => hrepeats z (List.mem_cons_of_mem _ hz))
        g r h₁ g' r' h₃ (ha.kept hk) (ha.world.trans hw) hr (ha'.kept hk₂) (ha'.world.trans hw₂)
        (hcurrent.trans hrest) hr'

theorem mem_row {x : Action (Option Resolved)} {id : String} {context : Context} (hx : x ∈ row id context) :
    x = resolveNative id ∨ (∃ n, n < strategies.length ∧ x = Files.resolve transpilers n id context) ∨
      x = resolveRemote id context := by
  unfold row at hx
  rcases List.mem_append.1 hx with hx | hx
  · rcases List.mem_cons.1 hx with rfl | hx
    · exact Or.inl rfl
    · obtain ⟨n, hn, rfl⟩ := List.mem_map.1 hx
      exact Or.inr (Or.inl ⟨n, List.mem_range.1 hn, rfl⟩)
  · exact Or.inr (Or.inr (List.mem_singleton.1 hx))

theorem stays_row {x : Action (Option Resolved)} {id : String} {context : Context} (hx : x ∈ row id context) :
    x.Stays := by
  rcases mem_row hx with rfl | ⟨n, -, rfl⟩ | rfl
  · intro h r h' hr
    cases hr
    exact StaysCurrent.of_files rfl
  · exact stays_filesResolve n id context
  · intro h r h' hr
    cases hr
    exact StaysCurrent.of_files rfl

theorem stays_resolve (id : String) (context : Context) : Stays (resolve id context) :=
  stays_firstAnswer fun _ hx => stays_row hx

theorem repeats_resolve (w : World) (id : String) (context : Context) : Repeats w (resolve id context) := by
  refine repeats_first (attempts_row w id context) (fun _ hx => stays_row hx) fun x hx => ?_
  rcases mem_row hx with rfl | ⟨n, hn, rfl⟩ | rfl
  · exact repeats_native w id
  · exact repeats_file w hn id context
  · exact repeats_remote w id context

/-! ### A load -/

theorem exec_find (l : Nat) (id : String) (h : Host) :
    (find l id).exec h = ((resolve id (h.contextOf l)).exec (depend l (h.contextOf l) id h)).bind
      (Action.andThen (known l id (h.contextOf l))) := by
  unfold find
  rw [exec_bind, exec_get, Option.bind_some, andThen_ok, exec_bind, exec_modify, Option.bind_some, andThen_ok,
    exec_bind]
  rfl

variable {l : Nat} {h h' : Host}

theorem staysCurrent_settle (l : Nat) (id : String) (resolved : Resolved) (context : Context) (h : Host) :
    h.StaysCurrent (settle l id resolved context h) := by
  have hevict : (evicting l (·.settled id resolved) h).files = h.files := by
    obtain ⟨_, _, _, _, he⟩ := evicting_rest l (·.settled id resolved) h
    rw [he]
  rw [settle_eq]
  split
  · refine (StaysCurrent.of_files hevict).trans (StaysCurrent.of_snapshot ?_ fun hs _ _ hc => hc.depend hs _ _)
    exact Files.depend_snapshot _ _ _
  · exact StaysCurrent.of_files hevict

/-- What comes after all resolvers were asked. -/
theorem exec_known {id : String} {context : Context} {found : Option Resolved} {r : Except Failure Resolved}
    (hr : (known l id context found).exec h = some (r, h')) :
    (r = .error (.moduleNotFound id) ∧ found = none ∧ h' = h) ∨
      ∃ resolved, r = .ok resolved ∧ found = some resolved ∧ h' = settle l id resolved context h := by
  unfold known at hr
  cases found with
  | none => cases hr; exact Or.inl ⟨rfl, rfl, rfl⟩
  | some resolved => cases hr; exact Or.inr ⟨resolved, rfl, rfl, rfl⟩

theorem stays_find (l : Nat) (id : String) : Stays (find l id) := by
  intro h r h' hr
  rw [exec_find] at hr
  obtain ⟨⟨found, h₁⟩, hfound, hr⟩ := Option.bind_eq_some_iff.1 hr
  have hdepend : h.StaysCurrent (depend l (h.contextOf l) id h) := StaysCurrent.of_files rfl
  have hresolve := hdepend.trans (stays_resolve _ _ _ _ _ hfound)
  cases found with
  | error e => cases hr; exact hresolve
  | ok found =>
    rcases exec_known hr with ⟨-, -, rfl⟩ | ⟨resolved, -, -, rfl⟩
    · exact hresolve
    · exact hresolve.trans (staysCurrent_settle _ _ _ _ _)

/-- To find again what was found gives what can be used again. -/
theorem cache_of_find_again (hk : h.Kept) {id : String} {resolved : Resolved}
    (hf : (find l id).exec h = some (.ok resolved, h')) {g g' : Host} (hg : g.Kept) (hw : g.world = h.world)
    (hcontext : g.contextOf l = h.contextOf l) (hcurrent : h'.StaysCurrent g) {again : Resolved}
    (hf' : (find l id).exec g = some (.ok again, g')) : again.cache = true := by
  rw [exec_find] at hf hf'
  obtain ⟨⟨found, h₁⟩, hfound, hf⟩ := Option.bind_eq_some_iff.1 hf
  obtain ⟨⟨found', g₁⟩, hfound', hf'⟩ := Option.bind_eq_some_iff.1 hf'
  cases found with
  | error e => cases hf
  | ok found =>
    cases found' with
    | error e => cases hf'
    | ok found' =>
      rcases exec_known hf with ⟨he, -⟩ | ⟨_, he, rfl, rfl⟩
      · cases he
      cases he
      rcases exec_known hf' with ⟨he, -⟩ | ⟨_, he, rfl, -⟩
      · cases he
      cases he
      rw [hcontext] at hfound'
      have hstays := (staysCurrent_settle l id resolved (h.contextOf l) h₁).trans hcurrent
      exact repeats_resolve h.world id (h.contextOf l) _ _ _ _ _ _ (depend_kept hk ..) rfl hfound
        (depend_kept hg ..) hw (hstays.trans (StaysCurrent.of_files rfl)) hfound'

theorem staysCurrent_claim (l : Nat) (resolved : Resolved) (h : Host) :
    h.StaysCurrent (claim l resolved h).2 := by
  refine StaysCurrent.of_files ?_
  unfold claim
  split
  · rfl
  · split <;> rfl

theorem staysCurrent_fail (l : Nat) (id : String) (object : Nat) (e : Failure) (h : Host) :
    h.StaysCurrent (fail l id object e h) := by
  refine StaysCurrent.of_files ?_
  unfold fail
  split
  · split <;> rfl
  · rfl

theorem staysCurrent_close (object : Nat) (h : Host) : h.StaysCurrent (close object h).2 := by
  refine StaysCurrent.of_files ?_
  unfold close
  split <;> rfl

/-- Once a module was found, what was built on current versions still is after it was loaded. -/
theorem current_after_find {depth : Nat} {id : String} {cwd : Option String} {r : Except Failure Value}
    (hr : (require Scan.evaluator depth l id cwd).exec h = some (r, h')) :
    ∃ x h₁, (find l id).exec (h.entered l cwd) = some (x, h₁) ∧ h₁.StaysCurrent h' := by
  induction depth generalizing id cwd h r h' with
  | zero => cases hr
  | succ depth ih =>
    obtain ⟨h₁, hcourse, rfl⟩ := course_of_exec hr
    have left : h₁.StaysCurrent (h₁.onLoader l (·.leave cwd.toList.length 0)) := StaysCurrent.of_files rfl
    have claimed {resolved : Resolved} {h₂ : Host} {x : Except Failure Value ⊕ Nat} {h₃ : Host}
        (hc : claim l resolved h₂ = (x, h₃)) : h₂.StaysCurrent h₃ := by
      have := staysCurrent_claim l resolved h₂
      rwa [hc] at this
    have opened (resolved : Resolved) (h₂ : Host) : h₂.StaysCurrent (h₂.opened l resolved) :=
      StaysCurrent.of_files rfl
    have closed (h₂ : Host) : h₂.StaysCurrent (h₂.closed l) := StaysCurrent.of_files rfl
    have put {h₂ h₃ : Host} (exports : Value) (s : String) (v : Value) (ha : h₂.StaysCurrent h₃) :
        h₂.StaysCurrent (h₃.put exports s v) := ha.trans (StaysCurrent.of_files rfl)
    have nested {s : String} {h₂ h₃ : Host} {y : Except Failure Value}
        (hy : (Host.require Scan.evaluator depth l s none).exec h₂ = some (y, h₃)) : h₂.StaysCurrent h₃ := by
      obtain ⟨x, h₄, hx, hrest⟩ := ih hy
      have hin : h₂.StaysCurrent (h₂.entered l none) := StaysCurrent.of_files rfl
      exact (hin.trans (stays_find l s _ _ _ hx)).trans hrest
    have loaded {resolved : Resolved} {h₂ : Host} {object : Nat} {calls : List Script.Call}
        {x : Except Failure Unit} {h₃ : Host}
        (hloads : (loading depth l object h₂ calls).exec (h₂.opened l resolved) = some (x, h₃)) :
        h₂.StaysCurrent h₃ := by
      rcases loadAll_walk (fun _ h₄ => h₂.StaysCurrent h₄)
        (fun _ _ _ _ _ _ _ hmid hy => put _ _ _ (hmid.trans (nested hy))) (opened resolved h₂)
        hloads with ⟨-, hmid⟩ | ⟨_, _, _, _, _, -, -, hmid, hy⟩
      · exact hmid
      · exact hmid.trans (nested hy)
    cases hcourse with
    | unfound hx => exact ⟨_, _, hx, left⟩
    | served hf hc => exact ⟨_, _, hf, (claimed hc).trans left⟩
    | @unreadable resolved _ _ h₃ _ _ hf hc _ he =>
      refine ⟨_, _, hf, StaysCurrent.trans (StaysCurrent.trans ?_ (staysCurrent_fail _ _ _ _ _)) left⟩
      rcases he with rfl | rfl
      · exact claimed hc
      · exact (claimed hc).trans ((opened resolved h₃).trans (closed _))
    | finished hf hc _ hloads =>
      have hran := ((claimed hc).trans (loaded hloads)).trans (closed _)
      exact ⟨_, _, hf, (hran.trans (staysCurrent_close _ _)).trans left⟩
    | broken hf hc _ hloads =>
      have hran := ((claimed hc).trans (loaded hloads)).trans (closed _)
      exact ⟨_, _, hf, (hran.trans (staysCurrent_fail _ _ _ _ _)).trans left⟩

end Host

end ScriptVault

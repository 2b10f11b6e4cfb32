import ScriptVault.Proofs.Async.Chronicle
import ScriptVault.Proofs.Host.Program

/-!
# Heard — what startup modules hear of all that is done

Apart from loads of startup modules, nothing that a host does touches them but an announcement: the watcher unloads a
listed module that is announced, or asks for it to be run again.  So who loads modules, imports them or fetches pages may
at most unload some startup modules, and none where no listed module is announced.
-/

namespace ScriptVault

theorem Startup.unload_unload (s : Startup) (ids more : List String) :
    ((s.unload ids).2.unload more).2 = (s.unload (ids ++ more)).2 := by
  simp [unload, List.foldl_append]

namespace Host

variable {h h' h'' : Host}

/-- A module is listed, and is among what is announced. -/
def Told (h : Host) (news : List (Nat × String)) (id : String) : Prop :=
  id ∈ h.settings.startupModules ∧ id ∈ news.map Prod.snd

/-- What startup modules hear of a change: of what is announced, those that are listed are unloaded or asked to be run
again. -/
structure Heard (h h' : Host) : Prop where
  settings : h'.settings = h.settings
  news : ∃ news ids asked, h'.announced = news ++ h.announced ∧ h'.startup = (h.startup.unload ids).2 ∧
    h'.asked = h.asked ++ asked ∧ (∀ id ∈ ids, h.Told news id) ∧
    ∀ p ∈ asked, ∃ id, p.2 = Work.reloading reloadDelay [id] ∧ h.Told news id

/-- No listed module was announced. -/
def Unheard (h : Host) : Prop := ∀ id ∈ h.settings.startupModules, id ∉ h.announced.map Prod.snd

namespace Heard

theorem of_eq (heq : (h'.startup, h'.settings, h'.announced, h'.asked) = (h.startup, h.settings, h.announced, h.asked)) :
    Heard h h' := by
  simp only [Prod.mk.injEq] at heq
  obtain ⟨hstartup, hsettings, hannounced, hasked⟩ := heq
  refine ⟨hsettings, [], [], [], hannounced, hstartup, ?_, nofun, nofun⟩
  rw [hasked, List.append_nil]

theorem trans (a : Heard h h') (b : Heard h' h'') : Heard h h'' := by
  obtain ⟨hsettings, news, ids, asked, hannounced, hstartup, hasked, hids, htasks⟩ := a
  obtain ⟨hsettings', news', ids', asked', hannounced', hstartup', hasked', hids', htasks'⟩ := b
  have hfirst {id : String} (ht : h.Told news id) : h.Told (news' ++ news) id := by
    refine ⟨ht.1, ?_⟩
    rw [List.map_append]
    exact List.mem_append_right _ ht.2
  have hsecond {id : String} (ht : h'.Told news' id) : h.Told (news' ++ news) id := by
    refine ⟨hsettings ▸ ht.1, ?_⟩
    rw [List.map_append]
    exact List.mem_append_left _ ht.2
  refine ⟨hsettings'.trans hsettings, news' ++ news, ids ++ ids', asked ++ asked', ?_, ?_, ?_, ?_, ?_⟩
  · rw [hannounced', hannounced, List.append_assoc]
  · rw [hstartup', hstartup, Startup.unload_unload]
  · rw [hasked', hasked, List.append_assoc]
  · exact List.forall_mem_append.2 ⟨fun id hid => hfirst (hids id hid), fun id hid => hsecond (hids' id hid)⟩
  · refine List.forall_mem_append.2 ⟨fun p hp => ?_, fun p hp => ?_⟩
    · exact (htasks p hp).imp fun id hid => ⟨hid.1, hfirst hid.2⟩
    · exact (htasks' p hp).imp fun id hid => ⟨hid.1, hsecond hid.2⟩

/-- Startup modules are at most unloaded. -/
theorem unloads (hh : Heard h h') : ∃ ids, h'.startup = (h.startup.unload ids).2 := by
  obtain ⟨-, _, ids, _, -, hstartup, -⟩ := hh
  exact ⟨ids, hstartup⟩

theorem unheard (hh : Heard h h') (hnone : h'.Unheard) : h.Unheard := by
  obtain ⟨hsettings, news, _, _, hannounced, -⟩ := hh
  intro id hid hmem
  refine hnone id (hsettings ▸ hid) ?_
  rw [hannounced, List.map_append]
  exact List.mem_append_right _ hmem

/-- Where no listed module is announced, startup modules hear of nothing. -/
theorem same (hh : Heard h h') (hnone : h'.Unheard) : h'.startup = h.startup ∧ h'.asked = h.asked := by
  obtain ⟨hsettings, news, ids, asked, hannounced, hstartup, hasked, hids, htasks⟩ := hh
  have hnobody (id : String) : ¬h.Told news id := fun ht => by
    refine hnone id (hsettings ▸ ht.1) ?_
    rw [hannounced, List.map_append]
    exact List.mem_append_left _ ht.2
  have hno : ids = [] := List.eq_nil_iff_forall_not_mem.2 fun id hid => hnobody id (hids id hid)
  have hnone : asked = [] := List.eq_nil_iff_forall_not_mem.2 fun p hp =>
    (htasks p hp).elim fun id hid => hnobody id hid.2
  rw [hno] at hstartup
  rw [hnone, List.append_nil] at hasked
  exact ⟨hstartup, hasked⟩

end Heard

instance : IsPreorder Host Heard where
  refl _ := .of_eq rfl
  trans _ _ _ := Heard.trans

theorem heard_emit (stream : Nat) (h : Host) (id : String) : Heard h (emit stream h id) := by
  have hnews : Heard h { h with announced := (stream, id) :: h.announced } :=
    ⟨rfl, [(stream, id)], [], [], rfl, rfl, (List.append_nil _).symm, nofun, nofun⟩
  unfold emit startupEvicted
  dsimp only
  split
  · split
    · exact hnews
    · next hlisted =>
      have htold : h.Told [(stream, id)] id := by
        refine ⟨?_, by simp⟩
        simpa using hlisted
      split
      · refine ⟨rfl, [(stream, id)], [], [(h.nextWork, .reloading reloadDelay [id])], rfl, rfl, rfl, nofun, ?_⟩
        exact List.forall_mem_singleton.2 ⟨id, rfl, htold⟩
      · exact ⟨rfl, [(stream, id)], [id], [], rfl, rfl, (List.append_nil _).symm,
          List.forall_mem_singleton.2 htold, nofun⟩
  · exact hnews

theorem heard_evicting (l : Nat) (act : Loader → List String × Loader) (h : Host) : Heard h (evicting l act h) := by
  have hemits (stream : Nat) (ids : List String) (h : Host) : Heard h (ids.foldl (emit stream) h) := by
    induction ids generalizing h with
    | nil => exact refl_of Heard h
    | cons id ids ih => exact (heard_emit stream h id).trans (ih _)
  have hset : Heard h { h with loaders := h.loaders.set l (act (h.loader l)).2 } := .of_eq rfl
  exact hset.trans (hemits _ _ _)

theorem heard_onLoader (h : Host) (l : Nat) (f : Loader → Loader) : Heard h (h.onLoader l f) := .of_eq rfl

/-- A move within the loaders tells startup modules of what it evicts. -/
theorem heard_act (m : Move) (hm : m.Inside) (h : Host) : Heard h (m.act h) := by
  cases m with
  | aside f hf => exact hm.elim
  | around l f hf => exact heard_onLoader h l f
  | add app stream held => exact .of_eq rfl
  | claim l resolved =>
    show Heard h (claim l resolved h).2
    obtain ⟨_, -, he⟩ | ⟨-, _, he⟩ | ⟨-, he⟩ := claim_cases l resolved h <;> rw [he] <;> exact .of_eq rfl
  | fail l id object e =>
    show Heard h (fail l id object e h)
    obtain ⟨-, he⟩ | ⟨-, he⟩ := fail_cases l id object e h <;> rw [he] <;> exact .of_eq rfl
  | claimImport l resolved interop =>
    show Heard h (claimImport l resolved interop h).2
    obtain ⟨_, -, he⟩ | ⟨-, _, he⟩ | ⟨-, he⟩ := claimImport_cases l resolved interop h <;> rw [he] <;> exact .of_eq rfl
  | forgetImport l id interop work =>
    show Heard h (forgetImport l id interop work h)
    obtain ⟨-, he⟩ | ⟨-, he⟩ := forgetImport_cases l id interop work h <;> rw [he] <;> exact .of_eq rfl
  | settle l id resolved context =>
    have hevicting := heard_evicting l (·.settled id resolved) h
    show Heard h (settle l id resolved context h)
    rw [settle_eq]
    split
    · exact hevicting.trans (.of_eq rfl)
    · exact hevicting
  | evict l id => exact heard_evicting l (·.evict id) h
  | clear l => exact heard_evicting l Loader.cleared h

instance : Permits Heard where
  offstage hoff := .of_eq (by rw [hoff.startup, hoff.settings, hoff.announced, hoff.asked])
  inside m _ := heard_act m
  around l _ _ hh := (heard_onLoader _ l _).trans (hh.trans (heard_onLoader _ l _))

/-! ### What may wait -/

/-- Whatever may wait is as steady as its changes are, where a relation allows all that is done to loaders. -/
theorem steady_pervades {R : Host → Host → Prop} (hloader : ∀ h l f, R h (h.onLoader l f)) {may : Work → Prop}
    (hmay : ∀ work, work.Ordinary → may work) : Pervades R fun α (x : Async Host Work α) => x.Steady may R where
  pure := Async.steady_pure
  bind := Async.steady_bind
  view := Async.steady_view
  step := Async.steady_step
  offload := Async.steady_offload
  share id _ hwork := Async.steady_share id (hmay _ hwork)
  await := Async.steady_await
  spawn id _ hwork := Async.steady_spawn id (hmay _ hwork)
  join := Async.steady_join
  sleep := Async.steady_sleep
  rest := Async.steady_rest
  consult := Async.steady_consult
  all := Async.steady_all
  act hx := Async.steady_act fun h a h' hr => by
    obtain ⟨_, _, hr', hchange⟩ := hx h
    cases hr.symm.trans hr'
    exact hchange
  within l cwds parents _ hx :=
    Async.steady_bind (Async.steady_change fun h => hloader h l _) fun _ => Async.steady_bind hx fun _ =>
      Async.steady_bind (Async.steady_change fun h => hloader h l _) fun _ => Async.steady_pure _

/-- Whatever may wait does the same before anything that may come after it. -/
theorem goesOn_pervades {γ : Type} (note : Host → Host → γ → γ) :
    Pervades (fun _ _ => True) fun α (x : Async Host Work α) => x.GoesOn note where
  pure := Async.goesOn_pure
  bind := Async.goesOn_bind
  view := Async.goesOn_view
  step _ := Async.goesOn_step _
  offload _ := Async.goesOn_offload _
  share id _ _ := Async.goesOn_share id _
  await := Async.goesOn_await
  spawn id _ _ := Async.goesOn_spawn id _
  join := Async.goesOn_join
  sleep := Async.goesOn_sleep
  rest := Async.goesOn_rest
  consult := Async.goesOn_consult
  all _ := Async.goesOn_all _
  act hx := Async.goesOn_act fun h => by
    obtain ⟨_, _, hr, -⟩ := hx h
    rw [hr]
    rfl
  within l cwds parents _ hx :=
    Async.goesOn_bind (Async.goesOn_change _) fun _ => Async.goesOn_bind hx fun _ =>
      Async.goesOn_bind (Async.goesOn_change _) fun _ => Async.goesOn_pure _

instance : Permits fun _ _ => True where
  refl _ := trivial
  trans _ _ _ _ _ := trivial
  offstage _ := trivial
  inside _ _ _ _ := trivial
  around _ _ _ _ := trivial

/-- All ordinary work is as steady as its changes are. -/
theorem steady_perform {R : Host → Host → Prop} [Permits R] (hloader : ∀ h l f, R h (h.onLoader l f)) {ev : Evaluator}
    (hev : ev.Solitary) {may : Work → Prop} (hmay : ∀ work, work.Ordinary → may work) (id : Nat) {work : Work}
    (hwork : work.Ordinary) : (perform ev id work).Steady may R := by
  have hP := steady_pervades hloader hmay
  by_cases hsource : ∃ source, work = .evaluating source
  · obtain ⟨source, rfl⟩ := hsource
    have hmodule := (hev R inferInstance allows_heap _ fun specifier =>
      obeys_require hev.nests.tame depthLimit source.loader specifier none).2
        (fun α x => x.Steady may R) ⟨hP.pure, hP.bind, hP.sleep⟩ (fun x hx => Async.steady_act hx) source
    exact hP.bind hmodule fun _ => hP.change (allows_tell id _)
  · exact hP.ordinary ev id hwork fun source he => hsource ⟨source, he⟩

end Host

end ScriptVault

import ScriptVault.Proofs.Host.Edits
import ScriptVault.Proofs.Host.Slots

/-!
# Pending — the calls that are made while a module is loaded

A load runs modules inside each other, and each of them has made some of its calls when the next one is run.
Which modules can be run at all is told by the world: there are finitely many.
-/

namespace ScriptVault

namespace World

theorem first_mem {answers : List (Except Failure (Option Resolved))} {resolved : Resolved}
    (h : first answers = .ok (some resolved)) : .ok (some resolved) ∈ answers := by
  induction answers with
  | nil => cases h
  | cons answer rest ih =>
    match answer with
    | .ok none => exact List.mem_cons_of_mem _ (ih h)
    | .ok (some _) => exact h ▸ List.mem_cons_self ..
    | .error _ => cases h

/-- A specifier stands for a lent value, for a file or for a remote module. -/
theorem answer_cases {w : World} {id : String} {cwd : Option String} {resolved : Resolved}
    (h : w.answer id cwd = .ok (some resolved)) :
    (∃ v, w.lent id = some v ∧ resolved = { id := id, value := some v }) ∨
      (∃ strategy path identity content code, w.file? strategy id cwd = some (path, identity, content) ∧
        w.code (sourceOf path content identity) = .ok code ∧ resolved = .ofFile path code true) ∨
      w.remote id cwd = .ok (some resolved) := by
  have hmem := first_mem h
  simp only [List.mem_append, List.mem_cons, List.mem_map, List.not_mem_nil, or_false] at hmem
  rcases hmem with (hlent | ⟨strategy, -, hfile⟩) | hremote
  · left
    unfold lentAnswer at hlent
    cases hv : w.lent id with
    | none => rw [hv] at hlent; cases hlent
    | some v => rw [hv] at hlent; cases hlent; exact ⟨v, rfl, rfl⟩
  · right; left
    unfold fileAnswer at hfile
    cases hf : w.file? strategy id cwd with
    | none => rw [hf] at hfile; cases hfile
    | some found =>
      obtain ⟨path, identity, content⟩ := found
      rw [hf] at hfile
      dsimp only at hfile
      cases hc : w.code (sourceOf path content identity) with
      | error e => rw [hc] at hfile; cases hfile
      | ok code => rw [hc] at hfile; cases hfile; exact ⟨strategy, path, identity, content, code, hf, hc, rfl⟩
  · exact Or.inr (Or.inr hremote.symm)

theorem get?_of_file? {w : World} {strategy : Strategy} {id path : String} {cwd : Option String}
    {identity : Identity} {content : String} (h : w.file? strategy id cwd = some (path, identity, content)) :
    w.snapshot.get? path = some identity ∧ identity.content = some content := by
  unfold file? at h
  obtain ⟨p, -, h⟩ := Option.bind_eq_some_iff.1 h
  obtain ⟨i, hi, h⟩ := Option.bind_eq_some_iff.1 h
  obtain ⟨c, hc, h⟩ := Option.map_eq_some_iff.1 h
  cases h
  exact ⟨hi, hc⟩

end World

namespace Host

/-! ### The modules that can be run -/

/-- The file or the remote module with this id can be run. -/
def Loadable (h : Host) (id : String) : Prop :=
  (∃ identity, h.world.snapshot.get? id = some identity) ∨ ∃ m, h.remote.modules.at? id = some (.ready m)

/-- What is found and is no value can be run. -/
theorem loadable_of_find {l : Nat} {h h' : Host} (hk : h.Kept) {id : String} {resolved : Resolved}
    (hr : (find l id).exec h = some (.ok resolved, h')) (hv : resolved.value = none) : h.Loadable resolved.id := by
  cases finding_of_exec hk hr with
  | settled _ hanswer _ =>
    rcases World.answer_cases hanswer with ⟨v, -, he⟩ | ⟨_, path, identity, _, _, hf, -, he⟩ | hremote
    · have : resolved.value = some v := congrArg Resolved.value he
      rw [hv] at this
      cases this
    · have : resolved.id = path := congrArg Resolved.id he
      exact Or.inl ⟨identity, this ▸ (World.get?_of_file? hf).1⟩
    · obtain ⟨m, hm, -⟩ := ready_of_remote hremote
      exact Or.inr ⟨m, hm⟩

/-- There are finitely many modules that can be run. -/
theorem exists_loadable (h : Host) : ∃ ids : List String, ∀ id, h.Loadable id → id ∈ ids := by
  refine ⟨h.world.snapshot.entries.keys ++ h.remote.modules.keys, fun id hid => List.mem_append.2 ?_⟩
  rcases hid with ⟨identity, hi⟩ | ⟨m, hm⟩
  · refine Or.inl (by_contra fun hn => ?_)
    rw [Snapshot.get?, Table.at?_of_notMem hn] at hi
    cases hi
  · refine Or.inr (by_contra fun hn => ?_)
    rw [Table.at?_of_notMem hn] at hm
    cases hm

theorem Loads.loadable {l : Nat} {h h' : Host} (a : Loads l h h') {id : String} (hid : h'.Loadable id) :
    h.Loadable id := by
  rcases hid with ⟨identity, hi⟩ | ⟨m, hm⟩
  · exact Or.inl ⟨identity, a.world ▸ hi⟩
  · exact Or.inr ⟨m, (a.ready id m).1 hm⟩

/-- A new member leaves fewer of some ids outside. -/
theorem filter_not_contains_lt {ids known : List String} {id : String} (hid : id ∈ ids) (hnew : id ∉ known) :
    (ids.filter (!(id :: known).contains ·)).length < (ids.filter (!known.contains ·)).length := by
  have hsplit : ids.filter (!(id :: known).contains ·) =
      (ids.filter (!known.contains ·)).filter (· ≠ id) := by
    rw [List.filter_filter]
    refine List.filter_congr fun x _ => ?_
    by_cases hx : x = id <;> simp [hx]
  rw [hsplit, List.length_filter_lt_length_iff_exists]
  exact ⟨id, List.mem_filter.2 ⟨hid, by simpa using hnew⟩, by simp⟩

/-! ### The calls of a load -/

/-- The calls that are made while a specifier is loaded, each with the modules that are being run for it, the
innermost first, with their objects. -/
inductive Pending (l : Nat) (h₀ : Host) (id₀ : String) (cwd₀ : Option String) :
    List (String × Nat) → Host → String → Option String → Prop
  /-- The call that starts the load. -/
  | root : Pending l h₀ id₀ cwd₀ [] h₀ id₀ cwd₀
  /-- A call of a module that is run for another call, after the calls before it. -/
  | nested {running : List (String × Nat)} {h : Host} {id : String} {cwd : Option String} {resolved : Resolved}
    {h₁ : Host} {object : Nat} {h₂ : Host} {before : List Script.Call} {call : Script.Call}
    {after : List Script.Call} {depth : Nat} {h₃ : Host} :
    Pending l h₀ id₀ cwd₀ running h id cwd → Finds l h id cwd resolved h₁ →
    claim l resolved h₁ = (.inr object, h₂) → h₂.world.calls resolved = .ok (before ++ call :: after) →
    (loading depth l object h₂ before).exec (h₂.opened l resolved) = some (.ok (), h₃) →
    Pending l h₀ id₀ cwd₀ ((resolved.id, object) :: running) h₃ call.specifier none

/-- Every pending call is made in a host that came about by loading. -/
theorem Pending.loads {l : Nat} {h₀ : Host} {id₀ : String} {cwd₀ : Option String} (hk : h₀.Kept)
    (hl : l < h₀.loaders.length) {running : List (String × Nat)} {h : Host} {id : String} {cwd : Option String}
    (hp : Pending l h₀ id₀ cwd₀ running h id cwd) : Loads l h₀ h := by
  induction hp with
  | root => exact Loads.refl l h₀
  | @nested running h id cwd resolved h₁ object h₂ before call after depth h₃ _ hf hc _ hloads ih =>
    have hl' : l < h.loaders.length := by rw [ih.count]; exact hl
    have hback := returns_claimed (ih.kept hk) hl' hf hc
    have hopened : Loads l h₀ (h₂.opened l resolved) :=
      ((ih.trans (Loads.entered l cwd h)).trans hback.toLoads).trans (Loads.opened l resolved h₂)
    exact hopened.trans
      (returns_loading (hopened.kept hk) (by rw [hopened.count]; exact hl) hloads).toLoads

/-- The call that comes after `n` calls of the module that a call runs. -/
def descend (depth l : Nat) (h : Host) (id : String) (cwd : Option String) (n : Nat) :
    Option ((String × Nat) × Host × String) :=
  match (find l id).exec (h.entered l cwd) with
  | some (.ok resolved, h₁) =>
    match claim l resolved h₁ with
    | (.inr object, h₂) =>
      match h₂.world.calls resolved with
      | .ok calls =>
        match calls.drop n, (loading depth l object h₂ (calls.take n)).exec (h₂.opened l resolved) with
        | call :: _, some (.ok _, h₃) => some ((resolved.id, object), h₃, call.specifier)
        | _, _ => none
      | .error _ => none
    | (.inl _, _) => none
  | _ => none

theorem Pending.descend {l : Nat} {h₀ : Host} {id₀ : String} {cwd₀ : Option String} {running : List (String × Nat)}
    {h : Host} {id : String} {cwd : Option String} (hp : Pending l h₀ id₀ cwd₀ running h id cwd) {depth n : Nat}
    {opened : String × Nat} {h₃ : Host} {s : String}
    (hd : Host.descend depth l h id cwd n = some (opened, h₃, s)) :
    Pending l h₀ id₀ cwd₀ (opened :: running) h₃ s none := by
  unfold Host.descend at hd
  split at hd
  · next resolved h₁ hf =>
    split at hd
    · next object h₂ hc =>
      split at hd
      · next calls hcalls =>
        split at hd
        · next call after u h₄ hcall hloads =>
          cases hd
          have hsplit : calls = calls.take n ++ call :: after := by rw [← hcall, List.take_append_drop]
          exact Pending.nested hp hf hc (hcalls.trans (congrArg Except.ok hsplit)) hloads
        · cases hd
      · cases hd
    · cases hd
  · cases hd

end Host

end ScriptVault

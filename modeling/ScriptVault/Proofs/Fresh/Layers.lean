import ScriptVault.Proofs.Fresh.Locality

/-!
# Layers — files that leave no doubt

A clear world leaves no doubt what a module is and what comes of it.  Where each file calls only for files that
come after it in the order of their paths, and under no other file's path, the world is clear; and whether it is so
can be computed.
-/

namespace ScriptVault.World

/-- Modules are told apart by their ids, none of them fails on a circle of calls, and none calls for a file that
cannot be compiled. -/
structure Clear (ids : String → Prop) (w : World) : Prop where
  /-- Modules are told apart by their ids. -/
  plain : w.meaning.Plain ids
  /-- Every module on a circle of calls can be loaded. -/
  untangled : w.meaning.Untangled
  /-- No call of a module fails over a file that cannot be compiled. -/
  compiles : w.Compiles

variable {w : World} {ids : List String}

/-- The module in a file. -/
def moduleAt? (w : World) (path : String) : Option Resolved :=
  (w.snapshot.view path).join.bind fun content =>
    (w.code { content := content, path := some path }).toOption.map fun code => .ofFile path code true

/-- A call leads to a file after a path, or to none, and a name among some leads to the file with this name. -/
def callsAhead (w : World) (ids : List String) (r : Resolved) (call : Script.Call) : Bool :=
  match w.answer call.specifier r.cwd with
  | .ok (some t) => decide (r.id < t.id) && (!ids.contains call.specifier || t.id == call.specifier)
  | _ => true

/-- The file is among some names, it can be compiled, and its calls lead ahead. -/
def layeredAt (w : World) (ids : List String) (path : String) : Bool :=
  ids.contains path && ((w.snapshot.view path).join.isNone || (w.moduleAt? path).isSome) &&
    ((w.moduleAt? path).toList.all fun r =>
      (w.calls r).toOption.toList.all fun calls => calls.all (w.callsAhead ids r))

/-- All files call only for files after them. -/
def layered (w : World) (ids : List String) : Bool := w.snapshot.paths.all (w.layeredAt ids)

/-- There are files and nothing else. -/
structure OnlyFiles (w : World) : Prop where
  /-- No value is lent. -/
  lent : ∀ id, w.lent id = none
  /-- There is no remote module. -/
  remote : ∀ id cwd r, w.remote id cwd ≠ .ok (some r)

theorem OnlyFiles.kin {w' : World} (h : w.OnlyFiles) (a : Kin w w') : w'.OnlyFiles :=
  ⟨fun id => by rw [a.lent, h.lent], fun id cwd r => by rw [a.remote]; exact h.remote id cwd r⟩

/-- What a resolver of files answers is the module in the file. -/
theorem moduleAt?_of_fileAnswer {strategy : Strategy} {id : String} {cwd : Option String} {r : Resolved}
    (h : w.fileAnswer strategy id cwd = .ok (some r)) : w.moduleAt? r.id = some r := by
  rw [fileAnswer_eq] at h
  cases hf : w.found? strategy id cwd with
  | none => rw [hf] at h; cases h
  | some found =>
    obtain ⟨path, content⟩ := found
    rw [hf] at h
    dsimp only at h
    cases hc : w.code { content := content, path := some path } with
    | error e => rw [hc] at h; cases h
    | ok code =>
      rw [hc] at h
      cases h
      obtain ⟨path', -, hmap⟩ := Option.bind_eq_some_iff.1 hf
      obtain ⟨content', hcontent, he⟩ := Option.map_eq_some_iff.1 hmap
      cases he
      unfold moduleAt?
      rw [show ((Resolved.ofFile path code true).id) = path from rfl]
      rw [show (w.snapshot.view path).join = some content from hcontent, Option.bind_some, hc]
      rfl

/-- Where there are only files, the modules that are known are those in them. -/
theorem OnlyFiles.moduleAt? (h : w.OnlyFiles) {r : Resolved} (hr : w.meaning.Knows r) :
    w.moduleAt? r.id = some r := by
  obtain ⟨s, cwd, ha⟩ := hr
  have hmem := first_mem ha
  simp only [List.mem_append, List.mem_cons, List.mem_map, List.not_mem_nil, or_false] at hmem
  rcases hmem with (hlent | ⟨strategy, -, hfile⟩) | hremote
  · rw [lentAnswer, h.lent] at hlent
    cases hlent
  · exact moduleAt?_of_fileAnswer hfile
  · exact absurd hremote.symm (h.remote s cwd r)

theorem mem_paths_of_moduleAt? {path : String} {r : Resolved} (h : w.moduleAt? path = some r) :
    path ∈ w.snapshot.paths := by
  rw [Snapshot.mem_paths, ← Option.isSome_iff_ne_none, Snapshot.isSome_get?]
  unfold moduleAt? at h
  cases hv : w.snapshot.view path with
  | none => rw [hv] at h; cases h
  | some _ => rfl

/-- A known module is one of the files, and its calls lead ahead. -/
theorem OnlyFiles.ahead (h : w.OnlyFiles) (hl : w.layered ids = true) {r : Resolved} (hr : w.meaning.Knows r) :
    r.id ∈ ids ∧ ∀ calls, w.calls r = .ok calls → ∀ c ∈ calls, w.callsAhead ids r c = true := by
  have hat := h.moduleAt? hr
  have hfile := List.all_eq_true.1 hl _ (mem_paths_of_moduleAt? hat)
  simp only [layeredAt, Bool.and_eq_true, List.all_eq_true, hat, Option.toList_some, List.mem_singleton,
    forall_eq] at hfile
  refine ⟨List.contains_iff_mem.1 hfile.1.1, fun calls hcalls c hc => ?_⟩
  exact hfile.2 calls (by rw [hcalls]; exact List.mem_singleton_self _) c hc

/-- Where only the last of some attempts fails, the others have found nothing. -/
theorem none_of_first_error {answers : List (Except Failure (Option Resolved))}
    {last : Except Failure (Option Resolved)} {e : Failure} (h : first (answers ++ [last]) = .error e)
    (hok : ∀ a ∈ answers, ∃ found, a = .ok found) : ∀ a ∈ answers, a = .ok none := by
  induction answers with
  | nil => nofun
  | cons a answers ih =>
    obtain ⟨found, rfl⟩ := hok a (List.mem_cons_self ..)
    cases found with
    | some r => cases h
    | none =>
      refine fun b hb => (List.mem_cons.1 hb).elim id fun hb => ?_
      exact ih h (fun a ha => hok a (List.mem_cons_of_mem _ ha)) b hb

/-- Where all files can be compiled, no call fails over a file. -/
theorem compiles_of_moduleAt? (h : ∀ path, (w.snapshot.view path).join ≠ none → w.moduleAt? path ≠ none) :
    w.Compiles := by
  have hok (strategy : Strategy) (id : String) (cwd : Option String) :
      ∃ found, w.fileAnswer strategy id cwd = .ok found := by
    rw [fileAnswer_eq]
    cases hf : w.found? strategy id cwd with
    | none => exact ⟨_, rfl⟩
    | some found =>
      obtain ⟨path, -, hmap⟩ := Option.bind_eq_some_iff.1 hf
      obtain ⟨content, hcontent, rfl⟩ := Option.map_eq_some_iff.1 hmap
      have hjoin : (w.snapshot.view path).join = some content := hcontent
      have hmodule := h path (by rw [hjoin]; nofun)
      unfold moduleAt? at hmodule
      rw [hjoin, Option.bind_some] at hmodule
      dsimp only
      cases hc : w.code { content := content, path := some path } with
      | error e => rw [hc] at hmodule; exact absurd rfl hmodule
      | ok code => exact ⟨_, rfl⟩
  intro r calls c e _ _ _ herror strategy hs
  refine none_of_first_error herror (fun a ha => ?_) _ (List.mem_cons_of_mem _ (List.mem_map_of_mem hs))
  rcases List.mem_cons.1 ha with rfl | ha
  · exact ⟨_, rfl⟩
  · obtain ⟨strategy', -, rfl⟩ := List.mem_map.1 ha
    exact hok ..

/-- Files that call only for files after them are clear. -/
theorem OnlyFiles.clear (h : w.OnlyFiles) (hl : w.layered ids = true) : w.Clear (· ∈ ids) where
  plain := by
    refine ⟨fun r r' hr hr' he => ?_, fun r hr => (h.ahead hl hr).1, fun r calls c t hr hcalls hc hleads hids => ?_⟩
    · exact Option.some.inj ((h.moduleAt? hr).symm.trans (he ▸ h.moduleAt? hr'))
    · have hahead := (h.ahead hl hr).2 calls hcalls c hc
      rw [callsAhead, show w.answer c.specifier r.cwd = .ok (some t) from hleads] at hahead
      simp only [Bool.and_eq_true, List.contains_iff_mem.2 hids] at hahead
      exact eq_of_beq hahead.2
  untangled := by
    -- calls lead on in the order of the paths, so no circle closes
    have ahead {r t : Resolved} (hr : w.meaning.Knows r) (ht : w.meaning.CallsFor r t) : r.id < t.id := by
      obtain ⟨-, calls, hcalls, c, hc, hleads⟩ := ht
      have hahead := (h.ahead hl hr).2 calls hcalls c hc
      rw [callsAhead, show w.answer c.specifier r.cwd = .ok (some t) from hleads] at hahead
      exact of_decide_eq_true (Bool.and_eq_true_iff.1 hahead).1
    have lt {r t : Resolved} (hr : w.meaning.Knows r) (ht : Relation.TransGen w.meaning.CallsFor r t) :
        r.id < t.id ∧ w.meaning.Knows t := by
      induction ht with
      | single hrt => exact ⟨ahead hr hrt, hrt.knows⟩
      | tail _ htu ih => exact ⟨String.lt_trans ih.1 (ahead ih.2 htu), htu.knows⟩
    exact fun r hr hcircle => absurd (lt hr hcircle).1 (String.lt_irrefl _)
  compiles := by
    refine compiles_of_moduleAt? fun path hv => ?_
    have hmem : path ∈ w.snapshot.paths := by
      rw [Snapshot.mem_paths]
      intro hn
      rw [Snapshot.view, hn] at hv
      exact hv rfl
    have hat := List.all_eq_true.1 hl _ hmem
    simp only [layeredAt, Bool.and_eq_true, Bool.or_eq_true, Option.isNone_iff_eq_none] at hat
    exact Option.isSome_iff_ne_none.1 (hat.1.2.resolve_left hv)

end ScriptVault.World

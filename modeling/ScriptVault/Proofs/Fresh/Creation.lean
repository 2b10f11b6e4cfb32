import ScriptVault.Proofs.Fresh.Freshness
import ScriptVault.Proofs.Host.Required

/-!
# Creation — a new file reaches whoever asked for its path

A resolver remembers what it was asked for as it was spelled, and announces a file under its path.  So a module
that asked for a file that was not there is evicted once there is one under just the path that it asked for.  As
long as a new file means something new to no other call of a module that is kept, the host goes on to give what a
fresh one would.
-/

namespace ScriptVault.Host

variable {parts : Parts} {remote : Remote} {watched : Option Nat} {ids : String → Prop} {v : MemoryVault} {h h' f : Host}
  {rules : Rules} {w : World} {l : Nat} {own : Nat → Option Resolved} {notice : Notice} {s : Snapshot}

/-! ### What is evicted is required by nobody -/

/-- Whoever required what is announced is evicted with all its requirements. -/
theorem requires_evictEach (announced : List String) {loader : Loader} (ho : loader.graph.Orderly ids) {p t : String}
    (hs : t ∈ (Loader.evictEach loader announced).requires p) : t ∈ loader.requires p ∧ t ∉ announced := by
  induction announced generalizing loader with
  | nil => exact ⟨hs, List.not_mem_nil⟩
  | cons id rest ih =>
    obtain ⟨ht, hrest⟩ := ih (show (loader.evict id).2.graph.Orderly ids from ho.invalidate id) hs
    refine ⟨Loader.requires_invalidate ht, fun hmem => (List.mem_cons.1 hmem).elim (fun he => ?_) hrest⟩
    subst he
    -- a module that requires what is evicted is evicted itself
    obtain ⟨hcascade, hgraph⟩ := ho.consistent.invalidate_spec t
    have hleft : p ∉ (loader.graph.invalidate t).1 := fun hg => by
      rw [Loader.requires, show (loader.evict t).2.graph = _ from hgraph, Graph.mem_evicted_dependencies] at ht
      exact ht.1 hg
    exact hleft (ho.closed hcascade (Loader.requires_invalidate ht) (hcascade.start _ (ho.whole _).1))

/-- A loader that listens goes on to heed what its modules require when it follows a notice. -/
theorem Heeds.adopted (hh : h.Heeds l) (hl : l < h.loaders.length) (ho : (h.loader l).graph.Orderly ids)
    (hlisten : (h.loader l).listening = true) : (h.absorb (h.files.adopt ([notice], s))).Heeds l := by
  intro p t ht hlent
  rw [absorb_loader _ _ hl, if_pos hlisten] at ht
  obtain ⟨ht, hsilent⟩ := requires_evictEach _ ho ht
  rw [absorb_world] at hlent
  have htracked := hh p t ht hlent
  rw [Tracked, absorb_files]
  exact tracked_adopt.2 ⟨fun he => hsilent (mem_announced_adopt.2 ⟨he, htracked⟩), htracked⟩

/-! ### What a new file means -/

/-- A change of the files means nothing new to what is kept, but for one name: each module can still be asked for,
and what it required stands for what it stood for. -/
structure Admits (z : String) (g : Graph Slots) (m m' : Meaning) : Prop where
  /-- A module that is kept is still known. -/
  known : ∀ r, m.Knows r → g.scriptOf r.id ≠ none → m'.Knows r
  /-- What it required under another name stands for what it stood for. -/
  same : ∀ r, m.Knows r → g.scriptOf r.id ≠ none → ∀ t ∈ Graph.namesAt g.dependencies r.id, t ≠ z →
    m'.answer t r.cwd = m.answer t r.cwd

/-- A lent value stands for its name whatever files there are. -/
theorem answer_of_lent {id : String} {value : Value} (hlent : w.lent id = some value) (cwd : Option String) :
    w.answer id cwd = .ok (some { id := id, value := some value }) := by
  unfold World.answer World.lentAnswer
  rw [hlent]
  rfl

/-- A listening loader at rest that heeds what its modules require goes on to be truthful when it follows a change
that is admitted under the path of the notice. -/
theorem Truthful.admitted (ht : Truthful w ids l own [] h) (hplain : w.meaning.Plain ids) (hh : h.Heeds l)
    (hlisten : (h.loader l).listening = true) (hlater : h.files.snapshot.Later s)
    (hadmits : Admits notice.path (h.loader l).graph w.meaning { w with snapshot := s }.meaning)
    (hplain' : { w with snapshot := s }.meaning.Plain ids) :
    ∃ own', Truthful { w with snapshot := s } ids l own' [] (h.absorb (h.files.adopt ([notice], s))) := by
  have hkin : World.Kin w { w with snapshot := s } := ⟨rfl, rfl, rfl, rfl⟩
  refine ht.adopted hplain hlisten hlater hplain' fun gone _ hcallers => ?_
  have same {r : Resolved} (hr : Left gone (h.loader l).graph w.meaning r) {t : String}
      (hreq : t ∈ Graph.namesAt (h.loader l).graph.dependencies r.id) :
      { w with snapshot := s }.meaning.answer t r.cwd = w.meaning.answer t r.cwd := by
    by_cases hz : t = notice.path
    · -- whoever required the path is gone, unless the path is the name of a lent value
      cases hlent : w.lent t with
      | some value =>
        exact (answer_of_lent (hkin.lent ▸ hlent) r.cwd).trans (answer_of_lent hlent r.cwd).symm
      | none =>
        subst hz
        exact absurd (hcallers (hh r.id _ hreq (ht.world ▸ hlent)) r.id hreq) hr.stays
    · exact hadmits.same r hr.knows hr.kept t hreq hz
  refine ⟨fun r => congrFun hkin.calls r, fun r hr => hadmits.known r hr.knows hr.kept,
    fun r _ c e hr _ _ hreq hu => ?_, fun r t u hr hreq hl _ => ?_⟩
  · unfold Meaning.Unanswered at hu ⊢
    rwa [same hr hreq]
  · exact (same hr hreq).trans hl

/-- To follow an admitted change leaves the host paused. -/
theorem Paused.admitted (hs : Paused rules ids v h) (hclear : h.world.Clear ids) (hh : h.Heeds 0)
    {change : Change × MemoryVault} (hfollow : h.files.snapshot.follow (.memory change.2) change.1 = ([notice], s))
    (hadmits : Admits notice.path (h.loader 0).graph h.world.meaning (h.edited change).world.meaning)
    (hmirrors : s.Mirrors rules change.2) (hclear' : (h.edited change).world.Clear ids) :
    Paused rules ids change.2 (h.edited change) := by
  obtain ⟨own, ht⟩ := hs.truthful
  refine hs.following hfollow hmirrors ?_
  rw [edited_world hfollow] at hclear' hadmits ⊢
  rw [edited_eq, hfollow]
  exact (ht.onVault change.2).admitted hclear.plain hh hs.listening (later_of_follow hfollow) hadmits hclear'.plain

/-! ### Hosts whose files come and go -/

/-- A started host heeds what its modules require: nothing was loaded. -/
theorem heeds_started (hb : started parts remote watched v = .ok h) : h.Heeds 0 := by
  obtain ⟨rules, -, -, rfl⟩ := started_eq hb
  intro p t ht _
  have hloader : ((unlooked parts v rules).looked remote watched).loader 0 =
      Loader.evictEach ((unlooked parts v rules).loader 0) (unlooked parts v rules).files.rebuild.1.announced := by
    show ((unlooked parts v rules).absorb (unlooked parts v rules).files.rebuild).loader 0 = _
    rw [absorb_loader _ _ Nat.zero_lt_one]
    exact if_pos rfl
  rw [hloader] at ht
  have hempty : ((unlooked parts v rules).loader 0).graph.Orderly fun _ => True := Graph.Orderly.empty
  exact absurd (requires_evictEach _ hempty ht).1 List.not_mem_nil

/-- A paused host goes on to heed what its modules require when it follows a change. -/
theorem Heeds.edited (hh : h.Heeds 0) (hs : Paused rules ids v h) {change : Change × MemoryVault}
    (hfollow : h.files.snapshot.follow (.memory change.2) change.1 = ([notice], s)) : (h.edited change).Heeds 0 := by
  obtain ⟨own, ht⟩ := hs.truthful
  have hvault : (h.onVault change.2).Heeds 0 := hh
  rw [edited_eq, hfollow]
  exact hvault.adopted ht.there ht.agrees.orderly hs.listening

/-- What may come of a started host by loading, and by writing, removing and creating files, with the files that are
left.  It is as for a `Run`, and each new file means something new to those alone that asked for its very path. -/
inductive Life (parts : Parts) (remote : Remote) (watched : Option Nat) (ids : String → Prop) :
    MemoryVault → Host → Prop
  /-- The host was started. -/
  | start {v : MemoryVault} {h : Host} : started parts remote watched v = .ok h → h.world.Clear ids →
    Life parts remote watched ids v h
  /-- A specifier was loaded. -/
  | require {v : MemoryVault} {h : Host} {depth : Nat} {s : String} {cwd : Option String} {x : Except Failure Value}
    {h' : Host} : Life parts remote watched ids v h →
    (∀ t, h.world.answer s cwd = .ok (some t) → ids s → t.id = s) →
    (require Scan.evaluator depth 0 s cwd).exec h = some (x, h') → Life parts remote watched ids v h'
  /-- A file was written. -/
  | write {v : MemoryVault} {h : Host} {path text : String} : Life parts remote watched ids v h →
    v.isFile (Path.normalize path) = true → (h.edited (v.write path text)).world.Clear ids →
    Life parts remote watched ids (v.write path text).2 (h.edited (v.write path text))
  /-- A file was removed. -/
  | remove {v : MemoryVault} {h : Host} {path : String} : Life parts remote watched ids v h →
    (v.isFile (Path.normalize path) = true → h.files.snapshot.rules.selects (Path.normalize path) = true) →
    (h.edited (v.remove path)).world.Clear ids →
    Life parts remote watched ids (v.remove path).2 (h.edited (v.remove path))
  /-- A file was created. -/
  | create {v : MemoryVault} {h : Host} {path text : String} : Life parts remote watched ids v h →
    Admits (Path.normalize path) (h.loader 0).graph h.world.meaning (h.edited (v.write path text)).world.meaning →
    (h.edited (v.write path text)).world.Clear ids →
    Life parts remote watched ids (v.write path text).2 (h.edited (v.write path text))

/-- All along its life the host is paused and heeds what its modules require; its world is clear and differs from that
of a started host in the files alone. -/
theorem Life.paused (hlife : Life parts remote watched ids v h) {v₀ : MemoryVault}
    (hf : started parts remote watched v₀ = .ok f) :
    ∃ rules, parts.settings.rules = .ok rules ∧ Paused rules ids v h ∧ h.Heeds 0 ∧ h.world.Clear ids ∧
      World.Kin f.world h.world := by
  induction hlife with
  | start hb hclear =>
    obtain ⟨rules, hr, hs⟩ := paused_started hb
    exact ⟨rules, hr, hs, heeds_started hb, hclear, kin_started hb hf⟩
  | require _ hnamed hr ih =>
    obtain ⟨rules, hrules, hs, hh, hclear, hkin⟩ := ih
    obtain ⟨hs', hworld, -⟩ := hs.served hclear.plain hclear.untangled hnamed hr
    obtain ⟨own, ht⟩ := hs.truthful
    exact ⟨rules, hrules, hs', hh.records (records_require _ ht.kept ht.there hr), hworld ▸ hclear, hworld ▸ hkin⟩
  | @write v h path text _ hfile hclear' ih =>
    obtain ⟨rules, hrules, hs, hh, hclear, hkin⟩ := ih
    obtain ⟨notice, s, hfollow, hedits, hmirrors⟩ := hs.mirrors.write path text hfile
    exact ⟨rules, hrules, hs.edited hclear hfollow hedits hmirrors hclear', hh.edited hs hfollow, hclear',
      hkin.trans (kin_edited h _)⟩
  | @remove v h path _ hselects hclear' ih =>
    obtain ⟨rules, hrules, hs, hh, hclear, hkin⟩ := ih
    rw [hs.mirrors.ruled] at hselects
    have hkin' := hkin.trans (kin_edited h (v.remove path))
    rcases hs.mirrors.remove path hselects with ⟨notice, s, hfollow, hedits, hmirrors⟩ | ⟨hfollow, hmirrors⟩
    · exact ⟨rules, hrules, hs.edited hclear hfollow hedits hmirrors hclear', hh.edited hs hfollow, hclear', hkin'⟩
    · refine ⟨rules, hrules, hs.unnoticed hfollow hmirrors, ?_, hclear', hkin'⟩
      rw [edited_eq, hfollow]
      exact hh
  | @create v h path text _ hadmits hclear' ih =>
    obtain ⟨rules, hrules, hs, hh, hclear, hkin⟩ := ih
    obtain ⟨notice, s, hfollow, hpath, hruled, hview⟩ := h.files.snapshot.follow_write v path text
    rw [← hpath] at hadmits
    exact ⟨rules, hrules, hs.admitted hclear hh hfollow hadmits (hs.mirrors.written hruled hview) hclear',
      hh.edited hs hfollow, hclear', hkin.trans (kin_edited h _)⟩

/-- A host that loads while its files come and go gives what a host gives that is started over the files as they are
then, as long as each new file is asked for by its path. -/
theorem created_as_fresh (hlife : Life parts remote watched ids v h) (hf : started parts remote watched v = .ok f)
    {s : String} {cwd : Option String} (hnamed : ∀ t, h.world.answer s cwd = .ok (some t) → ids s → t.id = s)
    {depth depth' : Nat} {x y : Except Failure Value} {f' : Host}
    (hx : (require Scan.evaluator depth 0 s cwd).exec h = some (x, h'))
    (hy : (require Scan.evaluator depth' 0 s cwd).exec f = some (y, f')) :
    (∃ e, x = .error e ∧ y = .error e) ∨ ∃ t u u', x = .ok u ∧ y = .ok u' ∧
      h.world.answer s cwd = .ok (some t) ∧ Pictures h.world.meaning h'.heap t u ∧
        Pictures h.world.meaning f'.heap t u' ∧ SameTree h'.heap u f'.heap u' := by
  obtain ⟨rules, hrules, hs, -, hclear, hkin⟩ := hlife.paused hf
  exact hs.as_fresh hclear hkin hrules hf hnamed hx hy

/-! ### A file is created -/

/-- A path leads to the file with this path. -/
def finds (w : World) (path : String) : Bool :=
  match w.answer path none with
  | .ok (some t) => t.id == path
  | _ => false

/-- Only one path was required, and what is kept is found under its path with the text that it had. -/
def admitsFile (z : String) (g : Graph Slots) (w w' : World) : Bool :=
  (g.dependencies.flatMap (·.2)).all (· == z) &&
    g.cache.keys.all fun path => decide (w'.snapshot.view path = w.snapshot.view path) && finds w' path

theorem moduleAt?_congr {w' : World} (a : World.Kin w w') {path : String}
    (hview : w'.snapshot.view path = w.snapshot.view path) : w'.moduleAt? path = w.moduleAt? path := by
  unfold World.moduleAt?
  rw [hview]
  simp only [World.code_congr a.settings a.compiler]

/-- Among files, a path that alone was required admits its file. -/
theorem admits_of_admitsFile {z : String} {g : Graph Slots} {w' : World} (h : w.OnlyFiles) (a : World.Kin w w')
    (hadmits : admitsFile z g w w' = true) : Admits z g w.meaning w'.meaning := by
  simp only [admitsFile, Bool.and_eq_true, List.all_eq_true, decide_eq_true_eq] at hadmits
  obtain ⟨hrequired, hkept⟩ := hadmits
  refine ⟨fun r hr hslot => ?_, fun r _ _ t ht hz => ?_⟩
  · have hmem : r.id ∈ g.cache.keys := by
      by_contra hn
      refine hslot ?_
      rw [Graph.scriptOf, Graph.slots?, Table.at?_of_notMem hn]
      rfl
    obtain ⟨hview, hfinds⟩ := hkept r.id hmem
    unfold finds at hfinds
    split at hfinds
    · next t hanswer =>
      have ht := (h.kin a).moduleAt? ⟨r.id, none, hanswer⟩
      rw [eq_of_beq hfinds, moduleAt?_congr a hview, h.moduleAt? hr] at ht
      exact ⟨r.id, none, Option.some.inj ht ▸ hanswer⟩
    · cases hfinds
  · exact absurd (eq_of_beq (hrequired t (Graph.mem_flatMap_of_mem_namesAt ht))) hz

/-- A file that calls for one that is not there, by its path. -/
def lacking : MemoryVault where
  texts := [("a.js", "require('b.js')")]

theorem created_as_fresh_by_path :
    ∃ h h₁ h₂ f f₁ e u u', started bare {} none lacking = .ok h ∧
      (require Scan.evaluator 5 0 "a.js" none).exec h = some (.error e, h₁) ∧
      Life bare {} none (· ∈ ["a.js", "b.js"]) (lacking.write "b.js" "").2 (h₁.edited (lacking.write "b.js" "")) ∧
      started bare {} none (lacking.write "b.js" "").2 = .ok f ∧
      (require Scan.evaluator 5 0 "a.js" none).exec (h₁.edited (lacking.write "b.js" "")) = some (.ok u, h₂) ∧
      (require Scan.evaluator 5 0 "a.js" none).exec f = some (.ok u', f₁) ∧ SameTree h₂.heap u f₁.heap u' := by
  have hrun : ((started bare {} none lacking).toOption.bind fun h =>
      ((require Scan.evaluator 5 0 "a.js" none).exec h).bind fun x =>
        let h₂ := x.2.edited (lacking.write "b.js" "")
        ((require Scan.evaluator 5 0 "a.js" none).exec h₂).bind fun y =>
          (started bare {} none (lacking.write "b.js" "").2).toOption.bind fun f =>
            ((require Scan.evaluator 5 0 "a.js" none).exec f).filter fun _ =>
              !x.1.isOk && y.1.isOk && h.world.layered ["a.js", "b.js"] && leadsHome h.world "a.js" &&
                admitsFile "b.js" (x.2.loader 0).graph x.2.world h₂.world &&
                h₂.world.layered ["a.js", "b.js"] && leadsHome h₂.world "a.js").isSome = true := by
    decide +kernel
  obtain ⟨⟨z, f₁⟩, hx⟩ := Option.isSome_iff_exists.1 hrun
  obtain ⟨h, hb, hx⟩ := Option.bind_eq_some_iff.1 hx
  obtain ⟨⟨x, h₁⟩, hx₁, hx⟩ := Option.bind_eq_some_iff.1 hx
  obtain ⟨⟨y, h₃⟩, hx₂, hx⟩ := Option.bind_eq_some_iff.1 hx
  obtain ⟨f, hf, hx⟩ := Option.bind_eq_some_iff.1 hx
  obtain ⟨hx₃, hr⟩ := Option.filter_eq_some_iff.1 hx
  simp only [Bool.and_eq_true] at hr
  obtain ⟨⟨⟨⟨⟨⟨hfails, hloads⟩, hl⟩, hhome⟩, hadmits⟩, hl'⟩, hhome'⟩ := hr
  replace hb := eq_ok_of_toOption hb
  replace hf := eq_ok_of_toOption hf
  cases x with
  | ok _ => cases hfails
  | error e =>
    cases y with
    | error _ => cases hloads
    | ok u =>
      have honly := onlyFiles_started hb
      have hstart : Life bare {} none (· ∈ ["a.js", "b.js"]) lacking h := Life.start hb (honly.clear hl)
      have hfailed := Life.require hstart (fun t ht _ => id_of_leadsHome hhome ht) hx₁
      obtain ⟨-, -, -, -, -, hkin⟩ := hfailed.paused hb
      have honly₁ := honly.kin hkin
      have hkin₁ := kin_edited h₁ (lacking.write "b.js" "")
      have hcreated : Life bare {} none (· ∈ ["a.js", "b.js"]) (lacking.write "b.js" "").2
          (h₁.edited (lacking.write "b.js" "")) :=
        Life.create hfailed (admits_of_admitsFile honly₁ hkin₁ hadmits) ((honly₁.kin hkin₁).clear hl')
      rcases created_as_fresh hcreated hf (fun t ht _ => id_of_leadsHome hhome' ht) hx₂ hx₃ with
        ⟨_, he, -⟩ | ⟨_, _, u', hu, hu', -, -, -, hsame⟩
      · cases he
      · cases hu
        cases hu'
        exact ⟨h, h₁, h₃, f, f₁, e, u, u', hb, hx₁, hcreated, hf, hx₂, hx₃, hsame⟩

/-! ### A file is created under another spelling -/

/-- A file that calls for one that is not there, as seen from its directory. -/
def lackingBeside : MemoryVault where
  texts := [("a.js", "require('./b.js')")]

/-- A module that asked for a file by another spelling than its path goes on to fail once the file is there, though a
fresh host loads it. -/
theorem created_not_as_fresh :
    ∃ h h₁ h₂ f f₁ e e' u, started bare {} none lackingBeside = .ok h ∧
      (require Scan.evaluator 5 0 "a.js" none).exec h = some (.error e, h₁) ∧
      (require Scan.evaluator 5 0 "a.js" none).exec (h₁.edited (lackingBeside.write "b.js" "")) =
        some (.error e', h₂) ∧
      started bare {} none (lackingBeside.write "b.js" "").2 = .ok f ∧
      (require Scan.evaluator 5 0 "a.js" none).exec f = some (.ok u, f₁) := by
  have hrun : ((started bare {} none lackingBeside).toOption.bind fun h =>
      ((require Scan.evaluator 5 0 "a.js" none).exec h).bind fun x =>
        ((require Scan.evaluator 5 0 "a.js" none).exec (x.2.edited (lackingBeside.write "b.js" ""))).bind fun y =>
          (started bare {} none (lackingBeside.write "b.js" "").2).toOption.bind fun f =>
            ((require Scan.evaluator 5 0 "a.js" none).exec f).filter fun z =>
              !x.1.isOk && !y.1.isOk && z.1.isOk).isSome = true := by
    decide +kernel
  obtain ⟨⟨z, f₁⟩, hx⟩ := Option.isSome_iff_exists.1 hrun
  obtain ⟨h, hb, hx⟩ := Option.bind_eq_some_iff.1 hx
  obtain ⟨⟨x, h₁⟩, hx₁, hx⟩ := Option.bind_eq_some_iff.1 hx
  obtain ⟨⟨y, h₂⟩, hx₂, hx⟩ := Option.bind_eq_some_iff.1 hx
  obtain ⟨f, hf, hx⟩ := Option.bind_eq_some_iff.1 hx
  obtain ⟨hx₃, hr⟩ := Option.filter_eq_some_iff.1 hx
  simp only [Bool.and_eq_true] at hr
  obtain ⟨⟨hfails, hfails'⟩, hloads⟩ := hr
  cases x with
  | ok _ => cases hfails
  | error e =>
    cases y with
    | ok _ => cases hfails'
    | error e' =>
      cases z with
      | error _ => cases hloads
      | ok u => exact ⟨h, h₁, h₂, f, f₁, e, e', u, eq_ok_of_toOption hb, hx₁, hx₂, eq_ok_of_toOption hf, hx₃⟩

end ScriptVault.Host

import ScriptVault.Evaluator.Lines
import ScriptVault.Proofs.Host.Program

/-!
# Lines — what scripts of one statement a line do by themselves

Statements make values, assign to exports and count, all of which is in the heap; apart from that they load modules, and
those of a module wait.
-/

namespace ScriptVault

namespace Waits

variable {P : (α : Type) → Async Host Work α → Prop} (hP : Waits P) {α β : Type}

include hP

/-- It holds of two computations that may fail, one after the other. -/
theorem bindErrand {x : Errand α} {f : α → Errand β} (hx : P _ x.run) (hf : ∀ a, P _ (f a).run) :
    P _ (x >>= f).run := by
  refine hP.bind (x := x.run) hx fun r => ?_
  cases r with
  | ok a => exact hf a
  | error e => exact hP.pure (Except.error e)

/-- It holds of a wait for the clock where something may fail. -/
theorem sleepErrand (nanos : Nat) : P _ (ExceptT.lift (Async.sleep nanos) : Errand Unit).run := by
  show P _ (Except.ok <$> Async.sleep nanos)
  rw [← bind_pure_comp]
  exact hP.bind (hP.sleep nanos) fun _ => hP.pure (Except.ok ())

end Waits

namespace Lines

open Host

section

variable {R : Host → Host → Prop} [IsPreorder Host R]
  (hheap : ∀ h heap, h.heap.records.size ≤ heap.records.size → R h { h with heap := heap })

include hheap

omit [IsPreorder Host R] in
theorem obeys_onHeap {α : Type} {act : Heap → α × Heap}
    (hact : ∀ heap : Heap, heap.records.size ≤ (act heap).2.records.size) : (Frame.onHeap act).Obeys R :=
  Action.obeys_modifyGet fun h => hheap h _ (hact h.heap)

variable {f : Frame} (hload : ∀ id, (f.load id).Obeys R)

omit hheap in
theorem obeys_moduleObject : f.moduleObject.Obeys R := by
  unfold Frame.moduleObject
  split
  · exact Action.obeys_pure _
  · exact Action.obeys_throw _

omit hheap in
theorem obeys_currentExports : f.currentExports.Obeys R :=
  Action.obeys_bind obeys_moduleObject fun _ => Action.obeys_bind Action.obeys_get fun _ => Action.obeys_pure _

include hload

theorem obeys_value (e : Expression) : (f.value e).Obeys R := by
  cases e with
  | literal json => exact obeys_onHeap hheap (Heap.ofJson_grows · json)
  | undefined => exact Action.obeys_pure _
  | «exports» => exact Action.obeys_pure _
  | moduleExports => exact obeys_currentExports
  | app => exact Action.obeys_pure _
  | cwd => exact Action.obeys_bind Action.obeys_get fun _ => Action.obeys_pure _
  | process path => exact obeys_onHeap hheap fun heap => Nat.le_of_eq (heap.readPath_size _ path).symm
  | counter name =>
    simp only [Frame.value]
    refine obeys_onHeap hheap fun heap => ?_
    exact Nat.le_refl heap.records.size
  | blueprint name =>
    simp only [Frame.value]
    refine obeys_onHeap hheap fun heap => ?_
    exact Nat.le_refl heap.records.size
  | load specifier path =>
    refine Action.obeys_bind (hload specifier) fun v => obeys_onHeap hheap fun heap => ?_
    exact Nat.le_of_eq (heap.readPath_size v path).symm

theorem obeys_run (statement : Statement) : (f.run statement).Obeys R := by
  have hwrite (v : Value) (key : Key) (new : Value) : (Frame.onHeap (·.write v key new)).Obeys R :=
    obeys_onHeap hheap fun heap => Nat.le_of_eq (heap.write_size v key new).symm
  cases statement with
  | tick name =>
    refine Action.obeys_bind (obeys_onHeap hheap fun heap => ?_) fun _ => Action.obeys_pure _
    exact Nat.le_refl heap.records.size
  | fail message => exact Action.obeys_throw _
  | sleep millis => exact Action.obeys_pure _
  | replaceExports e =>
    refine Action.obeys_bind (obeys_value hheap hload e) fun v => Action.obeys_bind obeys_moduleObject fun object => ?_
    refine Action.obeys_bind (Action.obeys_discard (obeys_onHeap hheap fun heap => ?_)) fun _ => Action.obeys_pure _
    exact Nat.le_of_eq (heap.set_rest object (.text "exports") v).1.symm
  | assignModule name e =>
    refine Action.obeys_bind (obeys_value hheap hload e) fun v => Action.obeys_bind obeys_currentExports fun exports => ?_
    exact Action.obeys_bind (Action.obeys_discard (hwrite _ _ _)) fun _ => Action.obeys_pure _
  | assign name e =>
    refine Action.obeys_bind (obeys_value hheap hload e) fun v => Action.obeys_bind (hwrite _ _ _) fun done => ?_
    cases done with
    | false => exact Action.obeys_throw _
    | true => exact Action.obeys_pure _
  | remove name =>
    simp only [Frame.run]
    split
    · refine Action.obeys_bind (Action.obeys_discard (obeys_onHeap hheap fun heap => ?_)) fun _ => Action.obeys_pure _
      exact Nat.le_of_eq (heap.delete_size _ _).symm
    · exact Action.obeys_pure _
  | declare name e => exact Action.obeys_bind (obeys_value hheap hload e) fun v => Action.obeys_pure _

theorem obeys_runAll (statements : List Statement) : (f.runAll statements).Obeys R := by
  induction statements with
  | nil => exact Action.obeys_pure _
  | cons statement rest ih =>
    exact Action.obeys_bind (Action.obeys_discard (obeys_run hheap hload statement)) fun _ => ih

theorem waits_runLater {P : (α : Type) → Async Host Work α → Prop} (hP : Waits P)
    (hact : ∀ {α : Type} (x : Action α), x.Obeys R → P _ (Async.act x.run)) (statements : List Statement) :
    P _ (f.runLater statements).run := by
  induction statements with
  | nil => exact hP.pure _
  | cons statement rest ih =>
    have hstatement := hP.bindErrand (hact (f.run statement) (obeys_run hheap hload statement)) fun bindings =>
      hP.bindErrand ih fun more => hP.pure (Except.ok (bindings ++ more))
    cases statement with
    | sleep millis => exact hP.bindErrand (hP.sleepErrand _) fun _ => ih
    | _ => exact hstatement

end

theorem lines_solitary : evaluator.Solitary := by
  intro R _ hheap load hload
  refine ⟨fun scope => ?_, fun P hP hact source => ?_⟩
  · exact Action.obeys_bind (Action.obeys_result _) fun statements => obeys_runAll hheap hload statements
  · have hbound : (boundModule source).Obeys R := by
      unfold boundModule
      split
      · exact Action.obeys_pure _
      · split
        · exact Action.obeys_map _ (obeys_onHeap hheap newModule_grows)
        · exact Action.obeys_throw _
    refine hP.bindErrand (hP.pure _) fun statements => ?_
    refine hP.bindErrand (hact _ hbound) fun module => ?_
    refine hP.bindErrand (hact _ ?_) fun exports => ?_
    · cases module with
      | none => exact Action.obeys_pure _
      | some object => exact Action.obeys_bind Action.obeys_get fun _ => Action.obeys_pure _
    · refine hP.bindErrand (waits_runLater hheap hload hP hact statements) fun bindings => ?_
      exact hact _ (obeys_onHeap hheap fun heap => heap.size_le_addRecord _)

end Lines

end ScriptVault

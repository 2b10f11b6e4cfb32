import ScriptVault.Script.Calls
import ScriptVault.Text.Quoted

/-!
# Rewrite — calls sent to another loader

A remote script names its modules as seen from where it was served.  `rewrite` replaces each call whose
specifier has a target: the callee by another expression, and the literal by the target's.
-/

namespace ScriptVault.Script

/-- A span of a source and what replaces it. -/
structure Edit where
  /-- What is replaced. -/
  span : Span
  /-- What replaces it. -/
  text : List Char
  deriving DecidableEq, Repr

/-- A script whose calls were replaced. -/
structure Rewritten where
  /-- The new source. -/
  code : String
  /-- The targets, each once, in the order of their first call. -/
  requires : List String
  deriving DecidableEq, Repr

/-- Splits a text after a number of bytes. -/
def splitBytes : Nat → List Char → List Char × List Char
  | _, [] => ([], [])
  | n, c :: s =>
    if n < c.utf8Size then ([], c :: s)
    else
      let (front, rest) := splitBytes (n - c.utf8Size) s
      (c :: front, rest)

/-- Applies edits in the order of their spans; `pos` is the first byte of `s`. -/
def applyEdits (pos : Nat) (s : List Char) : List Edit → List Char
  | [] => s
  | edit :: edits =>
    let (kept, rest) := splitBytes (edit.span.start - pos) s
    let (_, rest) := splitBytes (edit.span.stop - edit.span.start) rest
    kept ++ edit.text ++ applyEdits edit.span.stop rest edits

/-- The edits of a call with a target. -/
def Call.edits (callee : List Char) (call : Call) (target : String) : List Edit :=
  [⟨call.callee, callee⟩, ⟨call.argument, Text.Quoted.encode target.toList⟩]

/-- Replaces the calls whose specifiers have targets. -/
def rewrite (id : String) (source callee : List Char) (target? : String → Option String) :
    Except Failure Rewritten := do
  let calls ← calls id source
  let found := calls.filterMap fun call => (target? call.specifier).map fun target => (call, target)
  let edits := found.flatMap fun (call, target) => call.edits callee target
  return ⟨String.ofList (applyEdits 0 source edits), (found.map Prod.snd).eraseDups⟩

end ScriptVault.Script

import ScriptVault.Text.CaseFold
import ScriptVault.Text.Word
import ScriptVault.Text.Blank

/-!
# Regex — regular expressions and what they match

A regular expression is matched by following, from a set of positions in the text, all positions that
the expression can lead to.  Repetition closes a set of positions under its body.
-/

namespace ScriptVault.Pattern

/-- The places in a text that an expression can ask for without taking a character. -/
inductive Anchor where
  /-- The start of the text. -/
  | textStart
  /-- The end of the text. -/
  | textEnd
  /-- The start of a line. -/
  | lineStart
  /-- The end of a line. -/
  | lineEnd
  /-- Between a word character and another. -/
  | wordEdge
  /-- Not between a word character and another. -/
  | noWordEdge
  /-- Where a word begins. -/
  | wordStart
  /-- Where a word ends. -/
  | wordEnd
  deriving DecidableEq, Repr

/-- A regular expression. -/
inductive Regex where
  /-- The empty text. -/
  | empty
  /-- One character that `accepts` accepts. -/
  | one (accepts : Char → Bool)
  /-- A place. -/
  | anchor (place : Anchor)
  /-- The first expression and then the second. -/
  | seq (first second : Regex)
  /-- Either expression. -/
  | alt (left right : Regex)
  /-- The expression `least` times or more, at most `most` times if that is given. -/
  | repeated (body : Regex) (least : Nat) (most : Option Nat)

namespace Regex

/-- A position belongs to a word. -/
def wordAt (text : Array Char) (i : Nat) : Bool := text[i]?.any Text.isWord

/-- The character before a position belongs to a word. -/
def wordBefore (text : Array Char) (i : Nat) : Bool := i != 0 && wordAt text (i - 1)

/-- The anchor holds at a position. -/
def holds (text : Array Char) (i : Nat) : Anchor → Bool
  | .textStart => i == 0
  | .textEnd => i == text.size
  | .lineStart => i == 0 || text[i - 1]? == some '\n'
  | .lineEnd => i == text.size || text[i]? == some '\n'
  | .wordEdge => wordBefore text i != wordAt text i
  | .noWordEdge => wordBefore text i == wordAt text i
  | .wordStart => !wordBefore text i && wordAt text i
  | .wordEnd => wordBefore text i && !wordAt text i

/-- Positions that are new, added to those known. -/
def grow (known found : List Nat) : List Nat × List Nat :=
  let fresh := (found.filter (!known.contains ·)).eraseDups
  (known ++ fresh, fresh)

/-- The positions reached by any number of steps; at most `fuel` rounds. -/
def closure (step : Nat → List Nat) : Nat → List Nat → List Nat → List Nat
  | 0, known, _ => known
  | fuel + 1, known, fresh =>
    if fresh.isEmpty then known
    else
      let (known', fresh') := grow known (fresh.flatMap step)
      closure step fuel known' fresh'

/-- The positions after exactly `n` steps. -/
def stepsExactly (step : Nat → List Nat) : Nat → List Nat → List Nat
  | 0, at_ => at_
  | n + 1, at_ => if at_.isEmpty then [] else stepsExactly step n (at_.flatMap step).eraseDups

/-- The positions after at most `n` steps. -/
def stepsAtMost (step : Nat → List Nat) : Nat → List Nat → List Nat → List Nat
  | 0, known, _ => known
  | n + 1, known, fresh =>
    if fresh.isEmpty then known
    else
      let (known', fresh') := grow known (fresh.flatMap step)
      stepsAtMost step n known' fresh'

/-- The positions at which a match that begins at `i` can end. -/
def ends (text : Array Char) : Regex → Nat → List Nat
  | empty, i => [i]
  | one accepts, i => if text[i]?.any accepts then [i + 1] else []
  | anchor place, i => if holds text i place then [i] else []
  | seq first second, i => ((ends text first i).flatMap (ends text second)).eraseDups
  | alt left right, i => (ends text left i ++ ends text right i).eraseDups
  | repeated body least most, i =>
    let after := stepsExactly (ends text body) least [i]
    match most with
    | none => closure (ends text body) (text.size + 1) after after
    | some most => stepsAtMost (ends text body) (most - least) after after

/-- The expression matches somewhere in the text. -/
def isMatch (r : Regex) (text : List Char) : Bool :=
  let text := text.toArray
  (List.range (text.size + 1)).any fun i => !(ends text r i).isEmpty

end Regex

end ScriptVault.Pattern

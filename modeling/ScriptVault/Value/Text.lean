import ScriptVault.Text.Shown
import ScriptVault.Value.Facade

/-!
# Text — values as people read them

`display` is the text that a value turns into, `shown` the one for somebody who inspects it.
-/

namespace ScriptVault

/-- The largest whole number that is written through a word of 64 bits. -/
def Value.wordMax : Nat := Nat.pow 2 63 - 1

/-- A number: whole numbers below `10 ^ 21` as far as they fit a word, all others in full. -/
def Value.numberText (x : Float) : String :=
  if x.isNaN then "NaN"
  else if x.isInf then if 0.0 < x then "Infinity" else "-Infinity"
  else
    let b := Decimal.Binary.ofFloat x
    let (num, den) := Decimal.ratio b.m b.q
    let n := num / den
    if num % den = 0 && n < Nat.pow 10 21 then
      if n = 0 then "0"
      else if Decimal.isNegative x then "-" ++ toString (min n (wordMax + 1))
      else toString (min n wordMax)
    else Decimal.plain x

namespace Heap

/-- The text of an object with some tag. -/
def taggedText (tag : Value) : String :=
  match tag with
  | .text tag => "[object " ++ tag ++ "]"
  | _ => "[object Object]"

/-- The text that a value turns into. -/
def display (h : Heap) : Value → String
  | .undefined => "undefined"
  | .null => "null"
  | .bool b => if b then "true" else "false"
  | .number x => Value.numberText x
  | .text s => s
  | .function f => "function " ++ (h.function f).name ++ "() \x7b [native code] \x7d"
  | .object o => taggedText (h.get o .tag)
  | .facade f => taggedText (h.facadeGet f .tag).1

/-- An object by its own keys. -/
def shownKeys (h : Heap) (o : Nat) : String :=
  "Object \x7b keys: [" ++ ", ".intercalate ((h.ownKeys o).map fun k => Text.shown k.name) ++ "] \x7d"

/-- The text of a value for somebody who inspects it. -/
def shown (h : Heap) : Value → String
  | .text s => Text.shown s
  | .function f => "[Function: " ++ (h.function f).name ++ "]"
  | .object o => h.shownKeys o
  | .facade f =>
    "ModuleFacade \x7b exports: " ++ h.shownKeys (h.facade f).exports ++ ", namespace: " ++
      h.shownKeys (h.facade f).namespace ++ " \x7d"
  | v => h.display v

end Heap

end ScriptVault

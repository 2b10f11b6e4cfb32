import ScriptVault.Text.Pieces
import ScriptVault.Value.Heap

/-!
# Notation — functions and flags in words

What a function does, and which flags a property has, can be written as a short text.
-/

namespace ScriptVault

/-- What a function does, in words; a word before a colon takes what follows it. -/
def Body.ofText (text : String) : Body :=
  match text, Text.cut? [':'] text.toList with
  | "this", _ => .receiver
  | "this_type", _ => .receiverType
  | "args", _ => .arguments
  | _, some (word, rest) =>
    let rest := String.ofList rest
    match String.ofList word with
    | "get" => .read (.text rest)
    | "set" => .assign (.text rest)
    | "throw" => .fail rest
    | _ => .idle
  | _, none => .idle

/-- A property with the flags of a word or, each by its first letter, those that are listed. -/
def Property.ofFlags (flags : String) (value : Value) : Property :=
  let has (c : Char) : Bool := flags.toList.contains c
  match flags with
  | "" => { value := value }
  | "data" => { value := value }
  | "hidden" => .hidden value
  | "frozen" => .frozen value
  | _ =>
    { value := value, writable := has 'w', enumerable := has 'e', configurable := has 'c' }

end ScriptVault

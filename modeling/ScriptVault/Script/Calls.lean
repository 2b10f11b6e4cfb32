import ScriptVault.Failure
import ScriptVault.Script.Scanner

/-!
# Calls — the `require` calls of a script

A call is the identifier `require` with one string literal between parentheses.  Members named so, and
functions declared under that name, are no calls of the loader.
-/

namespace ScriptVault.Script

/-- One call of `require` with a string literal. -/
structure Call where
  /-- The text of the literal. -/
  specifier : String
  /-- Where the callee stands. -/
  callee : Span
  /-- Where the literal stands. -/
  argument : Span
  deriving DecidableEq, Repr

/-- The tokens of a source without any that could not be read. -/
def tokens (id : String) (source : List Char) : Except Failure (List Token) :=
  (scan source).mapM fun token =>
    match token.kind with
    | .invalid reason =>
      .error (.badSyntax id (reason.message ++ " at offset " ++ toString token.span.start))
    | _ => .ok token

/-- A `require` after the token is a member or is being declared. -/
def Kind.hidesCall : Kind → Bool
  | .dot => true
  | .optionalDot => true
  | .identifier name => name == "function"
  | _ => false

/-- The call that begins a list of tokens. -/
def callAt? : List Token → Option Call
  | ⟨.identifier "require", callee⟩ :: ⟨.parenOpen, _⟩ :: ⟨.text specifier, argument⟩ ::
      ⟨.parenClose, _⟩ :: _ => some ⟨specifier, callee, argument⟩
  | _ => none

/-- The calls among some tokens; `hidden` tells whether the token before them hides a call. -/
def callsFrom (hidden : Bool) : List Token → List Call
  | [] => []
  | token :: rest =>
    let here := if hidden then none else callAt? (token :: rest)
    here.toList ++ callsFrom token.kind.hidesCall rest

/-- The calls of a script, in the order in which they stand. -/
def calls (id : String) (source : List Char) : Except Failure (List Call) :=
  (tokens id source).map (callsFrom false)

end ScriptVault.Script

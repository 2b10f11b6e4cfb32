import ScriptVault.Script.Calls

/-!
# Check — what may stand in a script

A script runs as the body of a function, so `import`, `export` and `await` at its top level are refused.
`import` as a call and its members are expressions, and the body of an arrow function is not top level.
-/

namespace ScriptVault.Script

/-- What the check knows between two tokens. -/
structure Level where
  /-- How many braces are open. -/
  depth : Nat
  /-- The body of an arrow function without braces goes on. -/
  inArrow : Bool
  deriving DecidableEq, Repr

/-- An identifier that only a module may have at its top level. -/
def moduleOnly (name : String) (next : Option Kind) (inArrow : Bool) : Bool :=
  match name with
  | "export" => true
  | "import" => next != some .parenOpen && next != some .dot
  | "await" => !inArrow
  | _ => false

/-- The first token that only a module may have: its name and where it starts. -/
def firstModuleOnly (level : Level) (previous : Option Token) : List Token → Option (String × Nat)
  | [] => none
  | token :: rest =>
    let go (level : Level) := firstModuleOnly level (some token) rest
    match token.kind with
    | .braceOpen => go { level with depth := level.depth + 1 }
    | .braceClose =>
      let depth := level.depth - 1
      go ⟨depth, if depth = 0 then false else level.inArrow⟩
    | .operator ';' => go (if level.depth = 0 then { level with inArrow := false } else level)
    | .operator '>' =>
      let arrow := previous.any fun p =>
        p.kind == .operator '=' && p.span.stop == token.span.start
      go (if arrow && level.depth = 0 then { level with inArrow := true } else level)
    | .identifier name =>
      let member := previous.any fun p => p.kind == .dot || p.kind == .optionalDot
      let next := rest.head?.map Token.kind
      if level.depth = 0 && !member && moduleOnly name next level.inArrow then
        some (name, token.span.start)
      else go level
    | _ => go level

/-- Refuses a source that cannot run as a script. -/
def check (id : String) (source : List Char) : Except Failure Unit := do
  let tokens ← tokens id source
  match firstModuleOnly ⟨0, false⟩ none tokens with
  | none => return ()
  | some (name, start) =>
    throw (.badSyntax id
      ("`" ++ name ++ "` at offset " ++ toString start ++ " is only valid in a module"))

end ScriptVault.Script

import ScriptVault.Text.Quoted

/-!
# Frame — what is put around a module's code

A module imported with script bindings is preceded by declarations of `module`, `exports`, `process`
and `app`; every code that is evaluated is followed by a line that names its source.
-/

namespace ScriptVault.Script

/-- The declarations before a module that is to have the bindings of a script. -/
def prelude (requireName : String) : String :=
  ";".intercalate
    ["export let module=\x7bexports:Object.defineProperty(\x7b\x7d,Symbol.toStringTag," ++
        "\x7bconfigurable:!0,enumerable:!1,value:\"Module\",writable:!0\x7d)\x7d",
      "let\x7bexports\x7d=module",
      "let\x7bprocess\x7d=self;process??=\x7benv:\x7bNODE_DEV:\"production\"\x7d\x7d",
      "let\x7bapp\x7d=self[" ++ Text.Quoted.literal requireName ++ "]",
      ""]

/-- The code followed by the line that names its source under a root. -/
def withSourceUrl (code id root : String) : String :=
  let separator := if root.isEmpty || root.endsWith "/" then "" else "/"
  code ++ "\n//# sourceURL=" ++ root ++ separator ++ id

/-- The expression under which rewritten calls find the loader. -/
def loaderExpression (requireName : String) : String :=
  "self[" ++ Text.Quoted.literal requireName ++ "]"

end ScriptVault.Script

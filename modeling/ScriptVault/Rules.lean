import ScriptVault.Failure
import ScriptVault.Pattern.Glob
import ScriptVault.Pattern.RegexRead
import ScriptVault.Text.Pieces

/-!
# Rules — which files are read ahead of time

A rule is a sign and a pattern: `+` includes, `-` excludes, and no sign includes.  The pattern is a
regular expression between slashes, with flags, or else a wildcard pattern.  The last rule that matches a
path decides; a path that none matches is excluded.
-/

namespace ScriptVault

/-- How a rule tells its paths. -/
inductive Rule.Matcher where
  /-- A regular expression, matched anywhere in the path. -/
  | regex (r : Pattern.Regex)
  /-- A wildcard pattern for the whole path. -/
  | glob (pattern : List Pattern.Wild)

/-- One rule. -/
structure Rule where
  /-- Whether the paths it matches are included. -/
  includes : Bool
  /-- The paths it matches. -/
  matcher : Rule.Matcher

/-- The path matches. -/
def Rule.Matcher.isMatch (path : String) : Rule.Matcher → Bool
  | regex r => r.isMatch path.toList
  | glob pattern => Pattern.Wild.isMatch pattern path.toList

namespace Rule

/-- The source and the flags of a regular expression between slashes. -/
def regexLiteral? (body : List Char) : Option (List Char × List Char) :=
  match body with
  | '/' :: rest =>
    match (Text.pieces (· == '/') rest).reverse with
    | flags :: piece :: pieces => some (Text.join ['/'] (piece :: pieces).reverse, flags)
    | _ => none
  | _ => none

/-- A regular expression literal as it was written. -/
def literalText (source flags : List Char) : String :=
  "/" ++ String.ofList source ++ "/" ++ String.ofList flags

/-- The flags of a literal; `u`, `g` and `y` change nothing. -/
def readFlags (source all : List Char) : List Char → Except Failure Pattern.Regex.Flags
  | [] => .ok ⟨false, false, false⟩
  | c :: rest => do
    unless ['i', 'm', 's', 'u', 'g', 'y'].contains c do
      throw (.config ("unsupported regex flag '" ++ c.toString ++ "' in " ++ literalText source all))
    let flags ← readFlags source all rest
    return match c with
      | 'i' => { flags with ignoreCase := true }
      | 'm' => { flags with multiLine := true }
      | 's' => { flags with dotAll := true }
      | _ => flags

/-- The pattern of a rule; `rule` is the whole rule as it was written. -/
def readMatcher (rule : String) (body : List Char) : Except Failure Matcher :=
  match regexLiteral? body with
  | some (source, flags) => do
    let understood ← readFlags source flags flags
    match Pattern.Regex.read? understood source with
    | some r => return .regex r
    | none => throw (.config ("invalid regex rule " ++ literalText source flags))
  | none =>
    match Pattern.Wild.read body with
    | .ok pattern => .ok (.glob pattern)
    | .error (fault, pos) =>
      .error (.config ("invalid glob rule '" ++ rule ++ "': Pattern syntax error near position " ++
        toString pos ++ ": " ++ fault.message))

/-- The rule that a text spells. -/
def read (rule : String) : Except Failure Rule :=
  match rule.toList with
  | '+' :: body => (readMatcher rule body).map (⟨true, ·⟩)
  | '-' :: body => (readMatcher rule body).map (⟨false, ·⟩)
  | body => (readMatcher rule body).map (⟨true, ·⟩)

end Rule

/-- Rules in the order in which they are given. -/
abbrev Rules := List Rule

namespace Rules

/-- The rules that some texts spell; the first text that spells none fails. -/
def read (rules : List String) : Except Failure Rules := rules.mapM Rule.read

/-- The rules include the path. -/
def selects (rules : Rules) (path : String) : Bool :=
  match rules.reverse.find? (·.matcher.isMatch path) with
  | some rule => rule.includes
  | none => false

end Rules

end ScriptVault

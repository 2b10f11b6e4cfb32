/-!
# Token — the tokens of a script

A token has a kind and the bytes of the source at which it stands.
-/

namespace ScriptVault.Script

/-- A range of bytes of a source. -/
structure Span where
  /-- The first byte. -/
  start : Nat
  /-- The byte after the last one. -/
  stop : Nat
  deriving DecidableEq, Repr

/-- What was left open when a token could not be read. -/
inductive Unterminated where
  | comment
  | text
  | template
  | regex
  deriving DecidableEq, Repr

/-- The wording for a token that could not be read. -/
def Unterminated.message : Unterminated → String
  | comment => "unterminated comment"
  | text => "unterminated string"
  | template => "unterminated template"
  | regex => "unterminated regular expression"

/-- The kind of a token. -/
inductive Kind where
  /-- An identifier or keyword. -/
  | identifier (name : String)
  /-- A string literal; its text has the escapes resolved. -/
  | text (value : String)
  /-- A piece of a template literal. -/
  | template
  | number
  /-- A regular expression literal. -/
  | regex
  | parenOpen
  | parenClose
  | bracketOpen
  | bracketClose
  | braceOpen
  | braceClose
  | dot
  /-- The member operator that also takes nothing. -/
  | optionalDot
  | comma
  /-- Any other mark. -/
  | operator (c : Char)
  /-- A literal or comment without end. -/
  | invalid (reason : Unterminated)
  deriving DecidableEq, Repr

/-- The name of a kind. -/
def Kind.name : Kind → String
  | identifier _ => "Identifier"
  | text _ => "String"
  | template => "Template"
  | number => "Number"
  | regex => "RegExp"
  | parenOpen => "("
  | parenClose => ")"
  | bracketOpen => "["
  | bracketClose => "]"
  | braceOpen => "\x7b"
  | braceClose => "\x7d"
  | dot => "."
  | optionalDot => "?."
  | comma => ","
  | operator _ => "Operator"
  | invalid _ => "Invalid"

/-- The text that comes with a kind. -/
def Kind.text? : Kind → Option String
  | identifier name => some name
  | text value => some value
  | operator c => some c.toString
  | invalid reason => some reason.message
  | _ => none

/-- A token. -/
structure Token where
  /-- What it is. -/
  kind : Kind
  /-- Where it stands. -/
  span : Span
  deriving DecidableEq, Repr

/-- Keywords that an expression may follow. -/
def beforeExpression : List String :=
  ["return", "typeof", "instanceof", "in", "of", "new", "delete", "void", "throw", "case", "do",
    "else", "yield", "await"]

/-- A slash after the token divides; it does not open a regular expression. -/
def Kind.endsExpression : Kind → Bool
  | identifier name => !beforeExpression.contains name
  | text _ => true
  | template => true
  | number => true
  | regex => true
  | parenClose => true
  | bracketClose => true
  | _ => false

end ScriptVault.Script

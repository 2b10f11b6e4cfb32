/-!
# Toml — a settings document

A document is a table of keys.  Tables come about in four ways, and each way has its own rule about who
may add to the table later; `enter` walks to a table and creates those that are not there yet.
-/

namespace ScriptVault

/-- How a table came about. -/
inductive Toml.Origin where
  /-- On the way to the table of a header. -/
  | implied
  /-- By a key with dots. -/
  | dotted
  /-- By a header of its own; the document itself counts as one. -/
  | headed
  /-- Between braces. -/
  | inline
  deriving DecidableEq, Repr

/-- A value of a settings document. -/
inductive Toml where
  | text (s : String)
  | whole (n : Int)
  | real (x : Float)
  | bool (b : Bool)
  /-- A date or a time of day. -/
  | moment
  | array (items : List Toml)
  | table (origin : Toml.Origin) (entries : List (String × Toml))
  /-- Tables that share one header. -/
  | tables (members : List (List (String × Toml)))

namespace Toml

/-- The entries of a table. -/
abbrev Entries := List (String × Toml)

/-- The entries with a key bound to a value in its place. -/
def Entries.put (key : String) (value : Toml) : Entries → Entries
  | [] => [(key, value)]
  | (k, v) :: rest => if k = key then (key, value) :: rest else (k, v) :: Entries.put key value rest

/-- Changes the table that a path leads to; `byKey` tells a key with dots from a header. -/
def enter (byKey : Bool) (change : Origin → Entries → Option Entries) (origin : Origin)
    (entries : Entries) : List String → Option Entries
  | [] => change origin entries
  | key :: path =>
    match entries.lookup key with
    | none =>
      let origin := if byKey then .dotted else .implied
      (enter byKey change origin [] path).map fun es => entries.put key (.table origin es)
    | some (.table origin es) =>
      if origin = .inline || (byKey && origin = .headed) then none
      else (enter byKey change origin es path).map fun es => entries.put key (.table origin es)
    | some (.tables members) =>
      match members.getLast? with
      | none => none
      | some es =>
        (enter byKey change .headed es path).map fun es =>
          entries.put key (.tables (members.dropLast ++ [es]))
    | some _ => none

/-- Binds a key that may have dots. -/
def bind (path : List String) (key : String) (value : Toml) (origin : Origin) (entries : Entries) :
    Option Entries :=
  enter true
    (fun origin es =>
      if (origin == .dotted) == path.isEmpty || (es.lookup key).isSome then none
      else some (es ++ [(key, value)]))
    origin entries path

/-- Opens the table of a header. -/
def openTable (path : List String) (key : String) (document : Entries) : Option Entries :=
  enter false
    (fun _ es =>
      match es.lookup key with
      | none => some (es ++ [(key, .table .headed [])])
      | some (.table .implied inside) => some (es.put key (.table .headed inside))
      | some _ => none)
    .headed document path

/-- Opens one more of the tables that share a header. -/
def openTables (path : List String) (key : String) (document : Entries) : Option Entries :=
  enter false
    (fun _ es =>
      match es.lookup key with
      | none => some (es ++ [(key, .tables [[]])])
      | some (.tables members) => some (es.put key (.tables (members ++ [[]])))
      | some _ => none)
    .headed document path

/-- Binds a key in the table that the last header opened. -/
def bindUnder (header path : List String) (key : String) (value : Toml) (document : Entries) :
    Option Entries :=
  enter false (bind path key value) .headed document header

end Toml

end ScriptVault

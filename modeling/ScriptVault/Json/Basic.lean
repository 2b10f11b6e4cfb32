import ScriptVault.Decimal.Text
import ScriptVault.Text.Quoted

/-!
# Json — JSON values and their compact text

Objects keep their members in the order of their keys, one member a key.  `Json.compact` writes a value
without any space.
-/

namespace ScriptVault

namespace Json

/-- A number: whole numbers of 64 bits are kept exactly, all others as floating point. -/
inductive Number where
  | whole (n : Int)
  | real (x : Float)
  deriving Inhabited

/-- The number as floating point. -/
def Number.toFloat : Number → Float
  | whole n => if n < 0 then -(n.natAbs.toFloat) else n.natAbs.toFloat
  | real x => x

/-- The text of a number. -/
def Number.text : Number → String
  | whole n => toString n
  | real x => Decimal.json x

end Json

/-- A JSON value. -/
inductive Json where
  | null
  | bool (b : Bool)
  | number (n : Json.Number)
  | text (s : String)
  | array (items : List Json)
  | object (members : List (String × Json))
  deriving Inhabited

namespace Json

/-- Members with one more, in the order of the keys; an equal key loses its former value. -/
def insertMember (key : String) (value : Json) :
    List (String × Json) → List (String × Json)
  | [] => [(key, value)]
  | (k, v) :: rest =>
    if key == k then (key, value) :: rest
    else if key < k then (key, value) :: (k, v) :: rest
    else (k, v) :: insertMember key value rest

/-- The object of some members, given in any order; of equal keys the last counts. -/
def ofMembers (members : List (String × Json)) : Json :=
  .object (members.foldl (fun sorted (k, v) => insertMember k v sorted) [])

/-- The value of a member of an object. -/
def member? (key : String) : Json → Option Json
  | .object members => members.lookup key
  | _ => none

/-- The text of a text value. -/
def asText? : Json → Option String
  | .text s => some s
  | _ => none

/-- The members of an object. -/
def asMembers? : Json → Option (List (String × Json))
  | .object members => some members
  | _ => none

mutual

/-- The text of a value without any space. -/
def compact : Json → String
  | .null => "null"
  | .bool b => if b then "true" else "false"
  | .number n => n.text
  | .text s => Text.Quoted.literal s
  | .array items => "[" ++ compactItems items ++ "]"
  | .object members => "\x7b" ++ compactMembers members ++ "\x7d"

/-- The texts of array items with commas between them. -/
def compactItems : List Json → String
  | [] => ""
  | [v] => compact v
  | v :: w :: rest => compact v ++ "," ++ compactItems (w :: rest)

/-- The texts of object members with commas between them. -/
def compactMembers : List (String × Json) → String
  | [] => ""
  | [(k, v)] => Text.Quoted.literal k ++ ":" ++ compact v
  | (k, v) :: m :: rest =>
    Text.Quoted.literal k ++ ":" ++ compact v ++ "," ++ compactMembers (m :: rest)

end

end Json

end ScriptVault

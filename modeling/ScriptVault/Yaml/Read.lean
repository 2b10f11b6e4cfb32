import ScriptVault.Yaml.Token

/-!
# Read — structured texts as JSON values

A text is read as one document.  A scalar without quotes is a number, a truth value or nothing where the
core schema says so, and else a text; names of keys are always texts, and of equal keys the last counts.
-/

namespace ScriptVault.Yaml

/-! ### Scalars -/

/-- Digits with a zero before them are a text. -/
def isPaddedNumber (s : List Char) : Bool :=
  let digits := (Decimal.takeSign s).2
  1 < digits.length && digits.head? == some '0' && digits.all Char.isDigit

/-- The number that all of some digits spell in a base. -/
def inBase? (base : Nat) (digits : List Char) : Option Nat :=
  if digits.isEmpty then none
  else
    digits.foldl
      (fun n c => do
        let d ← Json.hexValue? c
        if d < base then return (← n) * base + d else none)
      (some 0)

/-- The magnitude of a whole number, in base ten or behind the letter of another base. -/
def magnitude? (padded : Bool) : List Char → Option Nat
  | '0' :: 'x' :: digits => inBase? 16 digits
  | '0' :: 'o' :: digits => inBase? 8 digits
  | '0' :: 'b' :: digits => inBase? 2 digits
  | digits => if padded then none else inBase? 10 digits

/-- The whole number that a text spells. -/
def whole? (s : List Char) : Option Int :=
  let padded := isPaddedNumber s
  match s with
  | '-' :: digits => (magnitude? padded digits).map fun n => -(n : Int)
  | '+' :: digits => (magnitude? padded digits).map fun n => (n : Int)
  | digits => (magnitude? padded digits).map fun n => (n : Int)

/-- The floating point number that a text spells; one that is not finite counts as nothing. -/
def real? (s : List Char) : Option Json :=
  let unsigned := if s.head? == some '+' then s.drop 1 else s
  let name := String.ofList (if unsigned.head? == some '-' then unsigned.drop 1 else unsigned)
  if [".inf", ".Inf", ".INF"].contains name then some .null
  else if [".nan", ".NaN", ".NAN"].contains (String.ofList unsigned) then some .null
  else if s.head? == some '+' && (unsigned.head? == some '+' || unsigned.head? == some '-') then none
  else
    (Decimal.ofText? (String.ofList unsigned)).bind fun x =>
      if x.isFinite then some (.number (.real x)) else none

/-- A whole number of 64 bits, signed or not. -/
def isWord (n : Int) : Bool := -9223372036854775808 ≤ n && n ≤ 18446744073709551615

/-- A whole number of 128 bits, signed or not. -/
def isLongWord (n : Int) : Bool :=
  -170141183460469231731687303715884105728 ≤ n && n ≤ 340282366920938463463374607431768211455

/-- The value of a whole number, which must have 64 bits. -/
def wholeValue? (n : Int) : Option Json := if isWord n then some (.number (.whole n)) else none

/-- A number with a point, or else the text as it is. -/
def realOrText (text : String) : Json :=
  if isPaddedNumber text.toList then .text text else (real? text.toList).getD (.text text)

/-- The value of a scalar without quotes.  A whole number has none between 64 and 128 bits; one that is longer
is read like a number with a point. -/
def bareValue? (text : String) : Option Json :=
  if ["", "null", "Null", "NULL", "~"].contains text then some .null
  else if ["true", "True", "TRUE"].contains text then some (.bool true)
  else if ["false", "False", "FALSE"].contains text then some (.bool false)
  else
    match whole? text.toList with
    | some n => if isLongWord n then wholeValue? n else some (realOrText text)
    | none => some (realOrText text)

/-- The value of a scalar with a tag; the lone mark leaves the type to the text, and a tag that names none of
the types of the core schema leaves a text. -/
def taggedValue? (tag text : String) (bare : Bool) : Option Json :=
  match tag with
  | "!" => if bare then bareValue? text else some (.text text)
  | "!!null" => if ["null", "Null", "NULL", "~"].contains text then some .null else none
  | "!!bool" =>
    match bareValue? text with
    | some (.bool b) => some (.bool b)
    | _ => none
  | "!!int" => (whole? text.toList).bind wholeValue?
  | "!!float" => real? text.toList
  | _ => if tag.startsWith "!!" then some (.text text) else none

/-! ### Nodes -/

/-- A value, the text it has as a key if it is a scalar, and the tokens that follow. -/
structure Node where
  /-- The value. -/
  value : Json
  /-- Its text as a key. -/
  keyText : Option String
  /-- The tokens after it. -/
  rest : List Token

/-- The nodes that have names. -/
abbrev Names := List (String × Json × Option String)

/-- What an absent node counts as. -/
def Node.absent (rest : List Token) : Node := ⟨.null, some "", rest⟩

/-- Tokens before which a node of a block is absent. -/
def endsBlockNode : Token → Bool
  | .key => true
  | .value => true
  | .blockEnd => true
  | _ => false

/-- Tokens before which a node between brackets is absent. -/
def endsFlowNode : Token → Bool
  | .value => true
  | .flowEntry => true
  | .flowSequenceEnd => true
  | .flowMappingEnd => true
  | _ => false

/-- The tag and the anchor before a node, in either order. -/
def takeProperties : Nat → List Token → Option String × Option String → Option String × Option String × List Token
  | 0, ts, (tag, anchor) => (tag, anchor, ts)
  | fuel + 1, ts, (tag, anchor) =>
    match ts, tag, anchor with
    | .tag t :: rest, none, _ => takeProperties fuel rest (some t, anchor)
    | .anchor a :: rest, _, none => takeProperties fuel rest (tag, some a)
    | _, _, _ => (tag, anchor, ts)

/-- How a node may be written at some place. -/
structure Place where
  /-- Blocks may begin. -/
  block : Bool
  /-- A sequence may begin without being indented. -/
  sequence : Bool

/-- A node with a tag that no scalar has. -/
def Node.tagged (tag : Option String) (node : Option (Node × Names)) : Option (Node × Names) :=
  match tag with
  | some t => if t.startsWith "!!" || t == "!" then node else none
  | none => node

mutual

/-- A node. -/
def takeNode : Nat → Place → Names → List Token → Option (Node × Names)
  | 0, _, _, _ => none
  | fuel + 1, place, names, ts =>
    match ts with
    | .reference name :: rest => (names.lookup name).map fun (v, k) => (⟨v, k, rest⟩, names)
    | _ =>
      let (tag, anchor, ts) := takeProperties 2 ts (none, none)
      let named (found : Option (Node × Names)) : Option (Node × Names) :=
        found.map fun (node, names) =>
          match anchor with
          | some a => (node, (a, node.value, node.keyText) :: names)
          | none => (node, names)
      match ts with
      | .scalar text bare :: rest =>
        let value := match tag with
          | some t => taggedValue? t text bare
          | none => if bare then bareValue? text else some (.text text)
        named (value.map fun v => (⟨v, some text, rest⟩, names))
      | .flowSequence :: rest => named (Node.tagged tag (takeFlowItems fuel true names rest []))
      | .flowMapping :: rest => named (Node.tagged tag (takeFlowMembers fuel true names rest []))
      | .blockEntry :: _ =>
        if place.sequence then named (Node.tagged tag (takeLooseItems fuel names ts []))
        else if tag.isSome || anchor.isSome then named (some (Node.absent ts, names))
        else none
      | .blockSequence :: rest =>
        if place.block then named (Node.tagged tag (takeItems fuel names rest [])) else none
      | .blockMapping :: rest =>
        if place.block then named (Node.tagged tag (takeMembers fuel names rest [])) else none
      | _ =>
        if tag.isSome || anchor.isSome then
          named (Node.tagged tag (some (Node.absent ts, names)))
        else none

/-- A node that is absent before some tokens. -/
def takeOptional : Nat → (Token → Bool) → Place → Names → List Token → Option (Node × Names)
  | 0, _, _, _, _ => none
  | fuel + 1, ends, place, names, ts =>
    match ts with
    | [] => none
    | t :: _ => if ends t then some (Node.absent ts, names) else takeNode fuel place names ts

/-- The items of a sequence that is a block of its own. -/
def takeItems : Nat → Names → List Token → List Json → Option (Node × Names)
  | 0, _, _, _ => none
  | fuel + 1, names, ts, done =>
    match ts with
    | .blockEntry :: rest =>
      let ends : Token → Bool := fun t => t == .blockEntry || t == .blockEnd
      match takeOptional fuel ends ⟨true, false⟩ names rest with
      | some (node, names) => takeItems fuel names node.rest (node.value :: done)
      | none => none
    | .blockEnd :: rest => some (⟨.array done.reverse, none, rest⟩, names)
    | _ => none

/-- The items of a sequence that is not indented. -/
def takeLooseItems : Nat → Names → List Token → List Json → Option (Node × Names)
  | 0, _, _, _ => none
  | fuel + 1, names, ts, done =>
    match ts with
    | .blockEntry :: rest =>
      let ends : Token → Bool := fun t => t == .blockEntry || endsBlockNode t
      match takeOptional fuel ends ⟨true, false⟩ names rest with
      | some (node, names) => takeLooseItems fuel names node.rest (node.value :: done)
      | none => none
    | _ => some (⟨.array done.reverse, none, ts⟩, names)

/-- The members of a mapping that is a block. -/
def takeMembers : Nat → Names → List Token → List (String × Json) → Option (Node × Names)
  | 0, _, _, _ => none
  | fuel + 1, names, ts, done =>
    match ts with
    | .key :: rest =>
      match takeOptional fuel endsBlockNode ⟨true, true⟩ names rest with
      | some (key, names) =>
        match key.keyText, key.rest with
        | some k, .value :: rest =>
          match takeOptional fuel endsBlockNode ⟨true, true⟩ names rest with
          | some (node, names) => takeMembers fuel names node.rest ((k, node.value) :: done)
          | none => none
        | some k, rest => takeMembers fuel names rest ((k, .null) :: done)
        | none, _ => none
      | none => none
    | .value :: rest =>
      match takeOptional fuel endsBlockNode ⟨true, true⟩ names rest with
      | some (node, names) => takeMembers fuel names node.rest (("", node.value) :: done)
      | none => none
    | .blockEnd :: rest => some (⟨Json.ofMembers done.reverse, none, rest⟩, names)
    | _ => none

/-- The value after a key between brackets, and what follows it. -/
def takeFlowValue : Nat → Names → List Token → Option (Node × Names)
  | 0, _, _ => none
  | fuel + 1, names, ts =>
    match ts with
    | .value :: rest => takeOptional fuel endsFlowNode ⟨false, false⟩ names rest
    | _ => some (Node.absent ts, names)

/-- The items of a sequence between brackets. -/
def takeFlowItems : Nat → Bool → Names → List Token → List Json → Option (Node × Names)
  | 0, _, _, _, _ => none
  | fuel + 1, first, names, ts, done =>
    match ts with
    | .flowSequenceEnd :: rest => some (⟨.array done.reverse, none, rest⟩, names)
    | _ =>
      let ts? := if first then some ts else
        match ts with
        | .flowEntry :: rest => some rest
        | _ => none
      match ts? with
      | none => none
      | some (.flowSequenceEnd :: rest) => some (⟨.array done.reverse, none, rest⟩, names)
      | some (.key :: rest) =>
        match takeOptional fuel endsFlowNode ⟨false, false⟩ names rest with
        | some (key, names) =>
          match key.keyText, takeFlowValue fuel names key.rest with
          | some k, some (node, names) =>
            takeFlowItems fuel false names node.rest (Json.ofMembers [(k, node.value)] :: done)
          | _, _ => none
        | none => none
      | some ts =>
        match takeNode fuel ⟨false, false⟩ names ts with
        | some (node, names) => takeFlowItems fuel false names node.rest (node.value :: done)
        | none => none

/-- The members of a mapping between braces. -/
def takeFlowMembers : Nat → Bool → Names → List Token → List (String × Json) → Option (Node × Names)
  | 0, _, _, _, _ => none
  | fuel + 1, first, names, ts, done =>
    match ts with
    | .flowMappingEnd :: rest => some (⟨Json.ofMembers done.reverse, none, rest⟩, names)
    | _ =>
      let ts? := if first then some ts else
        match ts with
        | .flowEntry :: rest => some rest
        | _ => none
      match ts? with
      | none => none
      | some (.flowMappingEnd :: rest) => some (⟨Json.ofMembers done.reverse, none, rest⟩, names)
      | some (.key :: rest) =>
        match takeOptional fuel endsFlowNode ⟨false, false⟩ names rest with
        | some (key, names) =>
          match key.keyText, takeFlowValue fuel names key.rest with
          | some k, some (node, names) =>
            takeFlowMembers fuel false names node.rest ((k, node.value) :: done)
          | _, _ => none
        | none => none
      | some ts =>
        match takeNode fuel ⟨false, false⟩ names ts with
        | some (node, names) =>
          match node.keyText with
          | some k => takeFlowMembers fuel false names node.rest ((k, .null) :: done)
          | none => none
        | none => none

end

/-- The value of the one document that a text holds. -/
def read? (text : List Char) : Option Json := do
  let tokens ← tokens? text
  let tokens := match tokens with
    | .documentStart :: rest => rest
    | ts => ts
  let fuel := 4 * tokens.length + 8
  let (node, _) ← takeNode fuel ⟨true, false⟩ [] tokens
  match node.rest with
  | [] => return node.value
  | [.documentEnd] => return node.value
  | _ => none

end ScriptVault.Yaml

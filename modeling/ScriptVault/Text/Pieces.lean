/-!
# Pieces — cutting a text at separators

`pieces` cuts at every separator character, `cut?` at the first occurrence of a separating text, and
`after?` removes a beginning.  Lengths are counted in the bytes of the UTF-8 encoding.
-/

namespace ScriptVault.Text

/-- The number of bytes that the text takes in UTF-8. -/
def byteLength (s : List Char) : Nat := (s.map Char.utf8Size).foldr (· + ·) 0

@[simp] theorem byteLength_nil : byteLength [] = 0 := rfl

@[simp] theorem byteLength_cons (c : Char) (s : List Char) :
    byteLength (c :: s) = c.utf8Size + byteLength s := by
  simp [byteLength]

@[simp] theorem byteLength_append (s t : List Char) :
    byteLength (s ++ t) = byteLength s + byteLength t := by
  induction s with
  | nil => simp
  | cons c s ih => simp [ih, Nat.add_assoc]

/-- What follows the first `n` bytes, unless the text is shorter or they end inside a character. -/
def fromByte? : Nat → List Char → Option (List Char)
  | 0, s => some s
  | _ + 1, [] => none
  | n + 1, c :: s => if c.utf8Size ≤ n + 1 then fromByte? (n + 1 - c.utf8Size) s else none

/-- The pieces of a text between its separators; a text without one is its only piece. -/
def pieces (isSep : Char → Bool) : List Char → List (List Char)
  | [] => [[]]
  | c :: s =>
    if isSep c then [] :: pieces isSep s
    else
      match pieces isSep s with
      | [] => [[c]]
      | p :: ps => (c :: p) :: ps

theorem pieces_ne_nil (isSep : Char → Bool) (s : List Char) : pieces isSep s ≠ [] := by
  cases s with
  | nil => simp [pieces]
  | cons c s =>
    unfold pieces
    split
    · simp
    · split <;> simp

/-- What follows `start`, when the text begins with it. -/
def after? : List Char → List Char → Option (List Char)
  | [], s => some s
  | _ :: _, [] => none
  | a :: start, c :: s => if a = c then after? start s else none

theorem after?_eq_some_iff {start s rest : List Char} :
    after? start s = some rest ↔ s = start ++ rest := by
  induction start generalizing s with
  | nil => simp [after?, eq_comm]
  | cons a start ih =>
    cases s with
    | nil => simp [after?]
    | cons c s =>
      by_cases h : a = c
      · simp [after?, h, ih]
      · simp only [after?, if_neg h, reduceCtorEq, List.cons_append, List.cons.injEq, false_iff]
        exact fun hc => h hc.1.symm

/-- What precedes `ending`, when the text ends with it. -/
def before? (ending s : List Char) : Option (List Char) :=
  (after? ending.reverse s.reverse).map List.reverse

/-- The text ends with `ending`. -/
def endsWith (ending s : List Char) : Bool := (before? ending s).isSome

/-- The two sides of the first occurrence of `sep`. -/
def cut? (sep : List Char) : List Char → Option (List Char × List Char)
  | [] => if sep = [] then some ([], []) else none
  | c :: s =>
    match after? sep (c :: s) with
    | some rest => some ([], rest)
    | none => (cut? sep s).map fun (l, r) => (c :: l, r)

/-- The text contains `part`. -/
def has (part s : List Char) : Bool := (cut? part s).isSome

/-- Joins texts with `sep` between neighbours. -/
def join (sep : List Char) : List (List Char) → List Char
  | [] => []
  | [p] => p
  | p :: q :: ps => p ++ sep ++ join sep (q :: ps)

/-- Every occurrence of `part`, taken from the left, replaced by `by_`. -/
def replace (part by_ : List Char) (s : List Char) : List Char :=
  go (s.length + 1) s
where
  /-- At most `fuel` replacements and steps. -/
  go : Nat → List Char → List Char
    | 0, s => s
    | _ + 1, [] => []
    | fuel + 1, c :: s =>
      if part = [] then c :: s
      else
        match after? part (c :: s) with
        | some rest => by_ ++ go fuel rest
        | none => c :: go fuel s

end ScriptVault.Text

import ScriptVault.Json.Read

/-!
# Percent — bytes written as a percent sign and two digits

`decode?` reads a text byte by byte and takes a percent sign as an escape only when two digits of base
sixteen follow; the bytes must be UTF-8.  `encode` escapes the bytes that a set asks for, and
every byte that is not ASCII.
-/

namespace ScriptVault.Text.Percent

/-- The bytes of a text in UTF-8. -/
def bytes (s : List Char) : List UInt8 := (String.ofList s).toUTF8.toList

/-- The text that some bytes spell in UTF-8. -/
def ofBytes? (bytes : List UInt8) : Option (List Char) :=
  (String.fromUTF8? ⟨bytes.toArray⟩).map String.toList

/-- The value of an ASCII byte as a digit of base sixteen. -/
def hexByte? (b : UInt8) : Option Nat := Json.hexValue? (Char.ofNat b.toNat)

/-- The bytes with their escapes resolved. -/
def decodeBytes : List UInt8 → List UInt8
  | 0x25 :: a :: b :: rest =>
    match hexByte? a, hexByte? b with
    | some h, some l => UInt8.ofNat (16 * h + l) :: decodeBytes rest
    | _, _ => 0x25 :: decodeBytes (a :: b :: rest)
  | c :: rest => c :: decodeBytes rest
  | [] => []

/-- The text with its escapes resolved, unless that is not UTF-8. -/
def decode? (s : List Char) : Option (List Char) := ofBytes? (decodeBytes (bytes s))

/-- A digit of base sixteen, in upper case. -/
def upperHex (n : Nat) : Char := if n < 10 then Char.ofNat (48 + n) else Char.ofNat (55 + n)

/-- A byte as an escape. -/
def escape (b : UInt8) : List Char := ['%', upperHex (b.toNat / 16), upperHex (b.toNat % 16)]

/-- The text with the bytes outside ASCII and those in `set` escaped. -/
def encode (set : Char → Bool) (s : List Char) : List Char :=
  s.flatMap fun c => if 128 ≤ c.toNat || set c then (bytes [c]).flatMap escape else [c]

end ScriptVault.Text.Percent

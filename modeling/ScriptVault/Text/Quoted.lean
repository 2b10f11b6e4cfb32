/-!
# Quoted — texts as JSON string literals

`Quoted.encode` writes a text between double quotes.  It escapes the quote, the backslash and the
control characters, those with a letter of their own by the letter and the others by four digits.
-/

namespace ScriptVault.Text.Quoted

/-- A digit of base sixteen, in lower case. -/
def hexDigit (n : Nat) : Char :=
  if n < 10 then Char.ofNat (48 + n) else Char.ofNat (87 + n)

/-- The letter that stands for a control character after a backslash. -/
def shortEscape? (c : Char) : Option Char :=
  match c.toNat with
  | 8 => some 'b'
  | 9 => some 't'
  | 10 => some 'n'
  | 12 => some 'f'
  | 13 => some 'r'
  | 34 => some '\x22'
  | 92 => some '\\'
  | _ => none

/-- One character inside a literal. -/
def encodeChar (c : Char) : List Char :=
  match shortEscape? c with
  | some letter => ['\\', letter]
  | none =>
    if c.toNat < 32 then ['\\', 'u', '0', '0', hexDigit (c.toNat / 16), hexDigit (c.toNat % 16)]
    else [c]

/-- The literal of a text. -/
def encode (s : List Char) : List Char := '\x22' :: s.flatMap encodeChar ++ ['\x22']

/-- The literal of a text, as a text. -/
def literal (s : String) : String := String.ofList (encode s.toList)

end ScriptVault.Text.Quoted

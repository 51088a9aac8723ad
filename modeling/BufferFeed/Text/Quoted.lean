import BufferFeed.Text.Hex

/-!
# Quoted text

How a piece of ASCII text is shown inside a diagnostic form: between double quotes, with the quote,
the backslash and every control character escaped. Five controls have a letter of their own; the
others are written by number. A printable character stands for itself.

The rule is stated for ASCII only. Which characters outside it would need an escape depends on
tables this library does not carry, so `quoted?` refuses such a text.
-/

namespace BufferFeed.Text

/-- One character inside the quotes. -/
def escaped (c : Char) : List Char :=
  match c with
  | '"' => ['\\', '"']
  | '\\' => ['\\', '\\']
  | '\t' => ['\\', 't']
  | '\n' => ['\\', 'n']
  | '\r' => ['\\', 'r']
  | '\x00' => ['\\', '0']
  | c =>
    if c.toNat < 0x20 ∨ c.toNat = 0x7f then
      '\\' :: 'u' :: '\x7b' :: Hex.digits c.toNat ++ ['\x7d']
    else [c]

/-- The text between its quotes, or nothing when a character is not ASCII. -/
def quoted? (s : String) : Option String :=
  if s.toList.all (·.toNat < 0x80) then
    some (String.ofList ('"' :: s.toList.flatMap escaped ++ ['"']))
  else none

end BufferFeed.Text

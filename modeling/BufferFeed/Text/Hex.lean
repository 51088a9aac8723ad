import BufferFeed.Bytes

/-!
# Hexadecimal text

Two spellings share the sixteen lowercase digits:

- a **number** is written with as few digits as possible, at least one, under the mark `0x`;
- a **byte string** is written with exactly two digits a byte and no mark.

Both readers accept lowercase digits only, so neither accepts a second spelling of the same
content through letter case. The number reader accepts leading zeros: that the writer never emits
one is a fact about the writer, and is not checked on the way in.
-/

namespace BufferFeed.Hex

/-- The digit for `d`, which is meant to be below sixteen. -/
def digit (d : Nat) : Char :=
  if d < 10 then Char.ofNat (0x30 + d) else Char.ofNat (0x57 + d)

/-- What a lowercase digit stands for. -/
def value? (c : Char) : Option Nat :=
  if '0' ≤ c ∧ c ≤ '9' then some (c.toNat - 0x30)
  else if 'a' ≤ c ∧ c ≤ 'f' then some (c.toNat - 0x57)
  else none

theorem value?_digit {d : Nat} (h : d < 16) : value? (digit d) = some d :=
  (by decide : ∀ d : Fin 16, value? (digit d) = some d.val) ⟨d, h⟩

/-! ## Numbers -/

/-- The digits of a number, most significant first, without leading zeros; zero is one digit. -/
def digits (n : Nat) : List Char :=
  if n < 16 then [digit n] else digits (n / 16) ++ [digit (n % 16)]

/-- Reads digits behind a number already read. -/
def readFrom? (acc : Nat) : List Char → Option Nat
  | [] => some acc
  | c :: cs => do readFrom? (16 * acc + (← value? c)) cs

/-- Reads a run of digits; an empty run is no number. -/
def readDigits? : List Char → Option Nat
  | [] => none
  | cs => readFrom? 0 cs

/-- A number under its mark. -/
def text (n : Nat) : String := String.ofList ('0' :: 'x' :: digits n)

/-- Reads a number under its mark. -/
def read? (s : String) : Option Nat :=
  match s.toList with
  | '0' :: 'x' :: cs => readDigits? cs
  | _ => none

/-! ## Byte strings -/

/-- Two digits a byte. -/
def pairs : Bytes → List Char
  | [] => []
  | b :: bs => digit (b.toNat / 16) :: digit (b.toNat % 16) :: pairs bs

/-- Reads two digits a byte; a digit left over is refused. -/
def readPairs? : List Char → Option Bytes
  | [] => some []
  | [_] => none
  | hi :: lo :: cs => do
    let b := UInt8.ofNat (16 * (← value? hi) + (← value? lo))
    return b :: (← readPairs? cs)

/-- A byte string as text. -/
def ofBytes (bs : Bytes) : String := String.ofList (pairs bs)

/-- The byte string a text spells. -/
def toBytes? (s : String) : Option Bytes := readPairs? s.toList

@[simp]
theorem length_pairs (bs : Bytes) : (pairs bs).length = 2 * bs.length := by
  induction bs with
  | nil => rfl
  | cons b bs ih => simp [pairs, ih]; omega

end BufferFeed.Hex

/-!
# Decimal text

A size is read from decimal digits, after at most one plus sign, when its value can be held in 64
bits. Leading zeros are harmless, so the length of a text says nothing about its value: the bound is
tested digit by digit, on the value read so far, which only ever grows. There is no other leniency:
no minus sign, no blank, no separator, no digit outside ASCII.

A quotient is written with two places. It is rounded to the nearer hundredth, and a value halfway
between two goes to the even one.
-/

namespace BufferFeed.Decimal

/-! ## Reading sizes -/

/-- What an ASCII digit stands for. -/
def digit? (c : Char) : Option Nat :=
  if '0' ≤ c ∧ c ≤ '9' then some (c.toNat - 0x30) else none

/-- The first value that is too large for a size. -/
def bound : Nat := UInt64.size

/-- Reads digits behind a value already read, as long as the value stays below the bound. -/
def readFrom? (acc : Nat) : List Char → Option Nat
  | [] => some acc
  | c :: cs => do
    let value := 10 * acc + (← digit? c)
    if value < bound then readFrom? value cs else none

/-- The digits of a size: what follows the plus sign, if there is one. -/
def unsigned : List Char → List Char
  | '+' :: cs => cs
  | cs => cs

/-- The size a text spells. -/
def size? (s : String) : Option Nat :=
  match unsigned s.toList with
  | [] => none
  | cs => readFrom? 0 cs

/-! ## Writing hundredths -/

/-- `num / den` to the nearest integer, halfway cases to the even one. -/
def roundHalfEven (num den : Nat) : Nat :=
  let q := num / den
  let r := num % den
  if 2 * r < den then q
  else if den < 2 * r then q + 1
  else q + q % 2

/-- A number of hundredths with two places. -/
def ofHundredths (n : Nat) : String :=
  s!"{n / 100}.{n / 10 % 10}{n % 10}"

/-- The value of a finite double that is not negative, as a quotient. -/
def quotientOf (x : Float) : Nat × Nat :=
  let bits := x.toBits.toNat
  let exponent := (bits >>> 52) % (1 <<< 11)
  let fraction := bits % (1 <<< 52)
  let mantissa := if exponent = 0 then fraction else (1 <<< 52) + fraction
  let scale := max exponent 1
  if 1075 ≤ scale then (mantissa <<< (scale - 1075), 1) else (mantissa, 1 <<< (1075 - scale))

/-- A finite double that is not negative, with two places. -/
def twoPlaces (x : Float) : String :=
  let (num, den) := quotientOf x
  ofHundredths (roundHalfEven (100 * num) den)

end BufferFeed.Decimal

/-!
# Byte strings

`Bytes` is `List UInt8`: structural induction is what every later law about contents uses.

Machine words are spelled in little-endian bytes, which is how a generator's words become bytes.
Each spelling comes with its length, because a generator's bookkeeping counts words and a buffer
counts bytes.
-/

namespace BufferFeed

abbrev Bytes := List UInt8

namespace Bytes

/-- The four bytes of a word, least significant first. -/
def ofWord32 (w : UInt32) : Bytes :=
  [w.toUInt8, (w >>> 8).toUInt8, (w >>> 16).toUInt8, (w >>> 24).toUInt8]

/-- The eight bytes of a double word, least significant first. -/
def ofWord64 (w : UInt64) : Bytes :=
  ofWord32 w.toUInt32 ++ ofWord32 (w >>> 32).toUInt32

@[simp]
theorem length_ofWord32 (w : UInt32) : (ofWord32 w).length = 4 := rfl

@[simp]
theorem length_ofWord64 (w : UInt64) : (ofWord64 w).length = 8 := rfl

/-- The 32-bit word at byte offset `i`. A byte past the end reads as zero, so a short string
stands for the same string with zeros behind it. -/
def word32At (bs : Bytes) (i : Nat) : UInt32 :=
  let byte (k : Nat) : UInt32 := (bs.getD (i + k) 0).toUInt32
  byte 0 ||| byte 1 <<< 8 ||| byte 2 <<< 16 ||| byte 3 <<< 24

end Bytes

end BufferFeed

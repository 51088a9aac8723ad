import BufferFeed.Text.Hex

/-!
# Handles

A handle is the token a client holds in place of the thing itself: the index of a slot and the
generation the slot had when the handle was issued. It has three machine notations and two texts:

- `raw`, 64 bits with the index in the low half and the generation in the high half;
- `long`, the same 64 bits read as a signed number;
- `text`, the raw value as a marked hexadecimal number, used in every message and log line;
- `fields`, the two components in decimal, used in diagnostics only.

A generation of zero is never issued. That is a law of the table that issues handles, not of this
type: every pair of components is a handle here, and a forged one is just a handle that no table
knows.
-/

namespace BufferFeed

structure Handle where
  /-- Which slot. -/
  index : UInt32
  /-- Which of the slot's successive contents. -/
  generation : UInt32
deriving DecidableEq, Repr

namespace Handle

/-- The components of a raw value. -/
def ofRaw (raw : UInt64) : Handle :=
  ⟨raw.toUInt32, (raw >>> 32).toUInt32⟩

/-- Both components in one word, the generation above the index. -/
def raw (h : Handle) : UInt64 :=
  h.generation.toUInt64 <<< 32 ||| h.index.toUInt64

/-- The handle behind a signed word. -/
def ofLong (n : Int64) : Handle := ofRaw n.toUInt64

/-- The raw value as a signed word: the same bits. -/
def long (h : Handle) : Int64 := h.raw.toInt64

/-- The raw value that stands for no handle at all. -/
def nullRaw : UInt64 := 0

/-- The spelling used in messages and log lines. -/
def text (h : Handle) : String := Hex.text h.raw.toNat

/-- Reads the spelling used in messages; a number of more than 64 bits is no handle. -/
def ofText? (s : String) : Option Handle :=
  match Hex.read? s with
  | some n => if n < UInt64.size then some (ofRaw (UInt64.ofNat n)) else none
  | none => none

/-- The components by name, in decimal. -/
def fields (h : Handle) : String :=
  s!"Handle \x7b index: {h.index.toNat}, generation: {h.generation.toNat} \x7d"

end Handle

end BufferFeed

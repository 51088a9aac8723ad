import BufferFeed.Feed

/-!
# Tallies

What a survey keeps of the buffers it has been shown: how often each byte value occurred, and the
first buffer. A tally is built by walking a feed; every number in a report is read off it.
-/

namespace BufferFeed.Survey

structure Tally where
  /-- For each byte value, how often it occurred. -/
  counts : Vector Nat 256
  first : Option Bytes
deriving Repr

namespace Tally

/-- Nothing seen yet. -/
def empty : Tally := ⟨Vector.replicate 256 0, none⟩

/-- One more occurrence of a byte. -/
def countByte (counts : Vector Nat 256) (b : UInt8) : Vector Nat 256 :=
  have inRange : b.toNat < 256 := b.toNat_lt
  counts.set b.toNat (counts[b.toNat] + 1)

/-- One more buffer. -/
def add (t : Tally) (b : Bytes) : Tally :=
  ⟨b.foldl countByte t.counts, t.first <|> some b⟩

/-- How many bytes were seen. -/
def total (t : Tally) : Nat := t.counts.toList.foldr (· + ·) 0

/-- The sum of all bytes seen. -/
def weight (t : Tally) : Nat :=
  (t.counts.toList.mapIdx fun value n => value * n).foldr (· + ·) 0

/-- How often the rarest byte value occurred. -/
def least (t : Tally) : Nat := t.counts.toList.min?.getD 0

/-- How often the commonest byte value occurred. -/
def most (t : Tally) : Nat := t.counts.toList.max?.getD 0

/-- The mean byte. -/
def mean (t : Tally) : Float := t.weight.toUInt64.toFloat / t.total.toUInt64.toFloat

/-- Walks a feed to its end. -/
def ofFeed (f : Feed) : Except Failure Tally := (f.walk add empty).1

end Tally

end BufferFeed.Survey

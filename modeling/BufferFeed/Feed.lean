import BufferFeed.Failure
import BufferFeed.Source

/-!
# Feeds

A feed is a fixed row of byte buffers of one size, read once from front to back. All buffers are
drawn when the feed is made; after that only the cursor changes, and it only moves forward, by one
buffer for each read that succeeds. Past the last buffer every read fails and changes nothing.

Making a feed can be refused before anything is drawn: the row and each buffer have to be blocks
that a 64-bit machine can address (`Fits`). The bound on a buffer's size counts only when there is a
buffer.

A feed built by `generate` is `WellFormed`, and every read keeps it so. The structure itself does
not demand it: `unread` is a truncated difference, and its being exact is part of that law.
-/

namespace BufferFeed

/-- Where the contents came from: a source that was handed in, or the system's entropy. Contents of
the second kind are never the same twice, so reports show only their shape. -/
inductive Origin
  | supplied
  | entropy
deriving DecidableEq, Repr

structure Feed where
  buffers : Array Bytes
  /-- Bytes in each buffer. -/
  size : Nat
  /-- How many buffers have been read. -/
  cursor : Nat
  origin : Origin
deriving DecidableEq, Repr

namespace Feed

/-! ## Making a feed -/

/-- Bytes in the largest block that can be addressed. -/
def largestBlock : Nat := (1 <<< 63) - 1

/-- Bytes that the row keeps for each buffer besides its contents. -/
def descriptorBytes : Nat := 24

/-- Whether the row and every buffer in it can be addressed. -/
def Fits (count size : Nat) : Prop :=
  count * descriptorBytes ≤ largestBlock ∧ (0 < count → size ≤ largestBlock)

instance (count size : Nat) : Decidable (Fits count size) := by unfold Fits; infer_instance

/-- What is reported when a feed does not fit. -/
def overflowText : String := "capacity overflow"

/-- Draws `count` buffers of `size` bytes from a source. A feed that does not fit draws nothing. -/
def generate (count size : Nat) (origin : Origin) (source : Source) :
    Option (Feed × Source) :=
  if Fits count size then
    let (buffers, source) := source.draw size count #[]
    some (⟨buffers, size, 0, origin⟩, source)
  else none

/-- Draws the buffers from a source of its own, seeded with entropy. -/
def ofEntropy (count size : Nat) (key : Keystream.Key) : Option Feed :=
  (generate count size .entropy (Source.ofKey key)).map (·.1)

/-- The cursor stands within the row, and every buffer has the feed's size. -/
structure WellFormed (f : Feed) : Prop where
  cursor_le : f.cursor ≤ f.buffers.size
  size_eq : ∀ b ∈ f.buffers, b.length = f.size

/-- **A feed is made whole or not at all.** It is refused exactly when it does not fit. -/
theorem generate_eq_none_iff {count size : Nat} {origin : Origin} {source : Source} :
    generate count size origin source = none ↔ ¬ Fits count size := by
  simp [generate]

theorem wellFormed_of_generate {count size : Nat} {origin : Origin} {source rest : Source}
    {f : Feed} (h : generate count size origin source = some (f, rest)) : f.WellFormed := by
  unfold generate at h
  split at h
  · simp only [Option.some.injEq, Prod.mk.injEq] at h
    obtain ⟨rfl, -⟩ := h
    exact ⟨Nat.zero_le _, Source.length_of_mem_draw (by simp)⟩
  · cases h

/-! ## Looking -/

def count (f : Feed) : Nat := f.buffers.size

def hasMore (f : Feed) : Bool := f.cursor < f.buffers.size

/-- How many buffers are still to be read. -/
def unread (f : Feed) : Nat := f.buffers.size - f.cursor

/-- A feed's shape and progress, without its contents. -/
structure Status where
  hasMore : Bool
  count : Nat
  size : Nat
  unread : Nat
deriving DecidableEq, Repr

def status (f : Feed) : Status := ⟨f.hasMore, f.count, f.size, f.unread⟩

/-! ## Reading -/

/-- The next unread buffer. -/
def next (f : Feed) : Except Failure Bytes × Feed :=
  match f.buffers[f.cursor]? with
  | some b => (.ok b, { f with cursor := f.cursor + 1 })
  | none => (.error .exhausted, f)

/-- A read succeeds exactly when there is more, and then it gives the buffer at the cursor. -/
theorem next_eq_ok_iff {f g : Feed} {b : Bytes} :
    f.next = (.ok b, g) ↔
      f.buffers[f.cursor]? = some b ∧ g = { f with cursor := f.cursor + 1 } := by
  unfold next
  split
  · rename_i c hc
    simp only [Prod.mk.injEq, Except.ok.injEq, hc, Option.some.injEq, eq_comm (a := g)]
  · rename_i hc
    simp [hc]

/-- A read fails in one way only, when there is no more, and then it changes nothing. -/
theorem next_of_not_hasMore {f : Feed} (h : f.hasMore = false) :
    f.next = (.error .exhausted, f) := by
  have hc : f.buffers.size ≤ f.cursor := by simpa [hasMore] using h
  simp [next, Array.getElem?_eq_none hc]

/-- A read that succeeds leaves one buffer less. -/
theorem unread_of_next {f g : Feed} {b : Bytes} (h : f.next = (.ok b, g)) :
    g.unread + 1 = f.unread := by
  obtain ⟨hb, rfl⟩ := next_eq_ok_iff.mp h
  obtain ⟨hlt, _⟩ := Array.getElem?_eq_some_iff.mp hb
  simp only [unread]
  omega

/-- Every read keeps a feed well formed. -/
theorem WellFormed.next {f : Feed} (h : f.WellFormed) : f.next.2.WellFormed := by
  cases hn : f.next with
  | mk r g =>
    cases r with
    | ok b =>
      obtain ⟨hb, rfl⟩ := next_eq_ok_iff.mp hn
      obtain ⟨hlt, _⟩ := Array.getElem?_eq_some_iff.mp hb
      exact ⟨hlt, h.size_eq⟩
    | error e =>
      unfold Feed.next at hn
      split at hn
      · simp at hn
      · simp only [Prod.mk.injEq] at hn
        exact hn.2 ▸ h

/-- Reads while there is more, showing every buffer to `visit`. -/
def walk {σ : Type} (visit : σ → Bytes → σ) (s : σ) (f : Feed) : Except Failure σ × Feed :=
  if f.hasMore then
    match _h : f.next with
    | (.ok b, g) => walk visit (visit s b) g
    | (.error e, g) => (.error e, g)
  else (.ok s, f)
termination_by f.unread
decreasing_by have := unread_of_next _h; omega

/-- Reads while there is more and keeps what was read. -/
def drain (f : Feed) : Except Failure (Array Bytes) × Feed := f.walk Array.push #[]

/-! ## Actions

What a client may do with a feed it has been lent, as data, so that a program can be a list of
them. -/

inductive Action
  | next
  | hasMore
  | count
  | size
  | unread
  | drain
deriving DecidableEq, Repr

inductive Answer
  /-- The buffer that was read. -/
  | buffer (bytes : Bytes)
  | flag (b : Bool)
  | number (n : Nat)
  /-- All the buffers that were read, in order. -/
  | drained (buffers : Array Bytes)
deriving DecidableEq, Repr

def perform (f : Feed) : Action → Except Failure Answer × Feed
  | .next => let (r, f) := f.next; (r.map .buffer, f)
  | .hasMore => (.ok (.flag f.hasMore), f)
  | .count => (.ok (.number f.count), f)
  | .size => (.ok (.number f.size), f)
  | .unread => (.ok (.number f.unread), f)
  | .drain => let (r, f) := f.drain; (r.map .drained, f)

/-- What a borrower is shown of a feed: what it answered, and how it stands then. -/
def serve (action : Action) (f : Feed) : (Except Failure Answer × Status) × Feed :=
  let (result, f) := f.perform action
  ((result, f.status), f)

/-- Whether an action only looks. -/
def Action.isQuery : Action → Bool
  | .next | .drain => false
  | _ => true

end Feed

end BufferFeed

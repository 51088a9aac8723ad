import BufferFeed.Boundary.Act
import BufferFeed.IntRange

/-!
# The C surface

Four functions for C programs. Handles are plain 64-bit words, of which zero never stands for a live
feed; everything else that can go wrong is a return code. No panic leaves a function: it is
contained, logged, and answered with the function's fallback (`guarded`).

`next` says both what it returns and which bytes it wrote, from the destination's first byte on;
`Reading.onto` is what the memory there holds afterwards. The destination is looked at **before**
the handle, so a bad destination is reported for any handle and never costs a buffer.

`drain` is the loop that a C program writes with two of the functions: read while there is more. It
takes the destinations one by one and stops early at a code below zero. Its bound is the number of
buffers that the feed still has.
-/

namespace BufferFeed.CSurface

/-- Nothing is left to read. -/
def exhaustedCode : Int32 := -1

/-- The handle was never issued, or its feed has been disposed of. -/
def staleCode : Int32 := -2

/-- The length is negative, or the destination is null with room for something. -/
def invalidCode : Int32 := -3

/-- The code that reports a failure. -/
def codeOf : Failure → Int32
  | .exhausted => exhaustedCode
  | .stale _ => staleCode
  | .invalid _ | .other _ => invalidCode

/-- Contains a panic: it is logged, and the fallback is the answer. -/
def guarded {α : Type} (function : CFunction) (fallback : α) (body : Act α) : Act α := do
  match ← body.attempt with
  | .value a => return a
  | .failure f => Act.fail f
  | .panic _ =>
    Act.emit (.panicked function)
    return fallback

/-- Makes a feed from entropy; zero when it cannot. -/
def create (count : Int32) (size : UInt64) (key : Keystream.Key) : Act UInt64 :=
  guarded .create Handle.nullRaw <|
    Act.recover
      (do
        let n ← Act.ofExcept (IntRange.size count.toInt)
        let f ← Act.makeFreshFeed n size.toNat key
        let handle ← Act.register f
        return handle.raw)
      fun f => do
        Act.emit (.createFailed count size f)
        return Handle.nullRaw

/-- One while there is more, else zero; a stale handle reads as exhausted. -/
def hasNext (raw : UInt64) : Act Int32 :=
  guarded .hasNext 0 <|
    Act.recover
      (do
        let more ← Act.lend (.ofRaw raw) fun f => (f.hasMore, f)
        return if more then 1 else 0)
      fun f => do
        Act.emit (.failed .hasNext f)
        return 0

/-- How many bytes a destination takes; nothing when it is not one. Null takes no bytes. -/
def capacity? (d : Destination) : Option Nat :=
  if d.length < 0 then none
  else if d.length = 0 ∨ d.address ≠ 0 then some d.length.toInt.toNat
  else none

/-- The code returned, and the bytes written. -/
structure Reading where
  code : Int32
  written : Bytes
deriving DecidableEq, Repr

/-- The block of memory that begins at the destination, after the bytes were written. -/
def Reading.onto (r : Reading) (block : Bytes) : Bytes := r.written ++ block.drop r.written.length

/-- Copies the next buffer to the destination, as much of it as the destination takes. -/
def next (raw : UInt64) (d : Destination) : Act Reading :=
  guarded .next ⟨invalidCode, []⟩ <|
    match capacity? d with
    | none => do
      Act.emit (.destinationRejected d)
      return ⟨invalidCode, []⟩
    | some capacity =>
      Act.recover
        (do
          let result ← Act.lend (.ofRaw raw) Feed.next
          let buffer ← Act.ofExcept result
          let written := buffer.take capacity
          return ⟨Int32.ofNat written.length, written⟩)
        fun f => do
          unless f.isExhausted do Act.emit (.failed .next f)
          return ⟨codeOf f, []⟩

/-- Destroys the feed; a stale handle is logged and otherwise ignored. -/
def dispose (raw : UInt64) : Act Unit :=
  guarded .dispose () <|
    Act.recover (Act.release (.ofRaw raw)) fun f => Act.emit (.failed .dispose f)

/-- At most `fuel` reads, the `i`-th into the `i`-th destination. -/
def drainFrom (raw : UInt64) (d : Nat → Destination) : Nat → Nat → Act (List Reading)
  | 0, _ => return []
  | fuel + 1, i => do
    if (← hasNext raw) = 1 then
      let reading ← next raw (d i)
      if reading.code < 0 then return []
      return reading :: (← drainFrom raw d fuel (i + 1))
    else return []

/-- Reads while there is more, and gives the reads that succeeded. -/
def drain (raw : UInt64) (d : Nat → Destination) : Act (List Reading) := do
  let s ← Act.get
  let bound := (s.table.get? (.ofRaw raw)).elim 0 Feed.unread
  drainFrom raw d (bound + 1) 0

/-! ## Calls as data -/

inductive Call
  | create (count : Int32) (size : UInt64) (key : Keystream.Key)
  | hasNext (raw : UInt64)
  | next (raw : UInt64) (destination : Destination)
  | drain (raw : UInt64) (destination : Destination)
  | dispose (raw : UInt64)
deriving Repr

inductive Reply
  | created (raw : UInt64)
  | flag (n : Int32)
  | read (reading : Reading)
  | drained (readings : List Reading)
  | disposed
deriving Repr

def Call.act : Call → Act Reply
  | .create count size key => .created <$> CSurface.create count size key
  | .hasNext raw => .flag <$> CSurface.hasNext raw
  | .next raw d => .read <$> CSurface.next raw d
  | .drain raw d => .drained <$> CSurface.drain raw fun _ => d
  | .dispose raw => (fun _ => .disposed) <$> CSurface.dispose raw

end BufferFeed.CSurface

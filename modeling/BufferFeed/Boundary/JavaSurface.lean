import BufferFeed.Boundary.Act
import BufferFeed.IntRange

/-!
# The Java surface

Four native methods. A handle travels as a signed `long` of the same bits. What a method does is its
body; around each body stands the same guard. It turns a failure, and equally a panic, into an
exception in the virtual machine and answers with the method's fallback (`guarded`). When the
exception cannot be made pending, that is logged. An exception that is already pending is not
replaced.

`next` takes the buffer from the feed first and asks the virtual machine for an array after that. So
a read that the machine spoils has used up its buffer, and the buffers that follow come in order.
-/

namespace BufferFeed.JavaSurface

open Jvm (Fault)

/-- The class of the exception that reports a failure. -/
def className : Failure → String
  | .exhausted => "java/util/NoSuchElementException"
  | .stale _ => "java/lang/IllegalStateException"
  | .invalid _ => "java/lang/IllegalArgumentException"
  | .other _ => "java/lang/RuntimeException"

/-- The exception that reports a failure. -/
def exceptionOf (f : Failure) : Jvm.Throwable := ⟨className f, f.message⟩

/-- What a contained panic is reported as. -/
def panicFailure (method : JavaMethod) : Failure :=
  .other (.ofText ("panic in native " ++ method.name))

/-- Makes a failure known to Java, or else to the log. -/
def report (faults : List Fault) (f : Failure) : Act Unit := do
  match ← Act.onMachine faults (Jvm.raise (exceptionOf f)) with
  | .ok () => return
  | .error e => Act.emit (.raiseFailed (className f) e)

/-- Turns a failure and a panic into an exception, and answers with the fallback. -/
def guarded {α : Type} (faults : List Fault) (method : JavaMethod) (fallback : α) (body : Act α) :
    Act α := do
  match ← body.attempt with
  | .value a => return a
  | .failure f =>
    unless f.isExhausted do Act.emit (.methodFailed method f)
    report faults f
    return fallback
  | .panic _ =>
    Act.emit (.methodPanicked method)
    report faults (panicFailure method)
    return fallback

/-! ## The methods -/

inductive Call
  | create (count : Int32) (size : Int64) (key : Keystream.Key)
  | hasNext (long : Int64)
  | next (long : Int64)
  | dispose (long : Int64)
deriving Repr

inductive Reply
  | created (long : Int64)
  | flag (more : Bool)
  /-- The array with its contents; null when there is none. -/
  | array (contents : Option Bytes)
  | disposed
deriving DecidableEq, Repr

/-- The failure of a read whose array could not be made. -/
def allocationFailure (length : Nat) (e : Jvm.Error) : Failure :=
  .other (.ofText (s!"could not allocate byte[{length}]: " ++ e.message))

/-- Makes a feed from entropy. The count is looked at before the size. -/
def create (count : Int32) (size : Int64) (key : Keystream.Key) : Act Int64 := do
  let n ← Act.ofExcept (IntRange.size count.toInt)
  let bytes ← Act.ofExcept (IntRange.size size.toInt)
  let f ← Act.makeFreshFeed n bytes key
  let handle ← Act.register f
  return handle.long

/-- Whether there is more. -/
def hasNext (long : Int64) : Act Bool := Act.lend (.ofLong long) fun f => (f.hasMore, f)

/-- The next buffer in a new array. -/
def next (faults : List Fault) (long : Int64) : Act Bytes := do
  let result ← Act.lend (.ofLong long) Feed.next
  let buffer ← Act.ofExcept result
  match ← Act.onMachine faults (Jvm.byteArray buffer) with
  | .ok array => return array
  | .error e => Act.fail (allocationFailure buffer.length e)

/-- Destroys the feed. -/
def dispose (long : Int64) : Act Unit := Act.release (.ofLong long)

namespace Call

def method : Call → JavaMethod
  | .create .. => .create
  | .hasNext _ => .hasNext
  | .next _ => .next
  | .dispose _ => .dispose

/-- What a call does, before anything is contained. -/
def body (faults : List Fault) : Call → Act Reply
  | .create count size key => .created <$> JavaSurface.create count size key
  | .hasNext long => .flag <$> JavaSurface.hasNext long
  | .next long => (.array ∘ some) <$> JavaSurface.next faults long
  | .dispose long => (fun _ => .disposed) <$> JavaSurface.dispose long

/-- What a call answers when it has nothing to answer. -/
def fallback : Call → Reply
  | .create .. => .created Handle.nullRaw.toInt64
  | .hasNext _ => .flag false
  | .next _ => .array none
  | .dispose _ => .disposed

/-- A call in a virtual machine with these faults. -/
def act (faults : List Fault) (call : Call) : Act Reply :=
  guarded faults call.method call.fallback (call.body faults)

end Call

end BufferFeed.JavaSurface

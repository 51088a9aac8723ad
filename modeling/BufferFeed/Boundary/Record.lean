import BufferFeed.Failure
import BufferFeed.Boundary.Jvm

/-!
# Log records

Everything the library ever logs, as data. A record belongs to one of three targets: the table of
live feeds, the C surface or the Java surface. What is written is `line`; what a record means is the
constructor and its fields, and the laws about logs are stated over those.

A record of the Java surface, and a record of an error, is never the one at which an armed logger
panics (`Record.trips`): the surfaces log those while they contain a panic.
-/

namespace BufferFeed

inductive Level
  | debug
  | warn
  | error
deriving DecidableEq, Repr

def Level.text : Level → String
  | .debug => "DEBUG"
  | .warn => "WARN"
  | .error => "ERROR"

/-- The part of the library that a record comes from. -/
inductive Target
  | table
  | cSurface
  | javaSurface
deriving DecidableEq, Repr

def Target.text : Target → String
  | .table => "bench_iterator::registry"
  | .cSurface => "bench_iterator::ffi"
  | .javaSurface => "bench_iterator::jni::native_iterator"

/-- The functions of the C surface. -/
inductive CFunction
  | create
  | hasNext
  | next
  | dispose
deriving DecidableEq, Repr

/-- The name a C program calls the function by. -/
def CFunction.symbol : CFunction → String
  | .create => "iterator_create"
  | .hasNext => "iterator_has_next"
  | .next => "iterator_next"
  | .dispose => "iterator_dispose"

/-- The native methods of the Java surface. -/
inductive JavaMethod
  | create
  | hasNext
  | next
  | dispose
deriving DecidableEq, Repr

/-- The method with its class, as messages name it. -/
def JavaMethod.name : JavaMethod → String
  | .create => "NativeIterator.createIterator"
  | .hasNext => "NativeIterator.hasNext"
  | .next => "NativeIterator.next"
  | .dispose => "NativeIterator.disposeInternal"

/-- Where a C program wants bytes written, and how many it has room for. -/
structure Destination where
  address : UInt64
  length : Int32
deriving DecidableEq, Repr

inductive Record
  /-- A feed came to live in the table. -/
  | registered (handle : Handle) (count size : Nat)
  /-- A feed left the table for good. -/
  | released (handle : Handle) (unread count : Nat)
  /-- The C surface could not make a feed. -/
  | createFailed (count : Int32) (size : UInt64) (failure : Failure)
  /-- Another function of the C surface failed. -/
  | failed (function : CFunction) (failure : Failure)
  /-- A destination no bytes can be written to. -/
  | destinationRejected (destination : Destination)
  /-- A panic stopped at the C surface. -/
  | panicked (function : CFunction)
  /-- A native method failed. -/
  | methodFailed (method : JavaMethod) (failure : Failure)
  /-- A panic stopped at the Java surface. -/
  | methodPanicked (method : JavaMethod)
  /-- A failure did not reach Java as an exception. -/
  | raiseFailed (className : String) (error : Jvm.Error)
deriving DecidableEq, Repr

namespace Record

def level : Record → Level
  | .registered .. | .released .. => .debug
  | .createFailed .. | .failed .. | .destinationRejected .. | .methodFailed .. => .warn
  | .panicked .. | .methodPanicked .. | .raiseFailed .. => .error

def target : Record → Target
  | .registered .. | .released .. => .table
  | .createFailed .. | .failed .. | .destinationRejected .. | .panicked .. => .cSurface
  | .methodFailed .. | .methodPanicked .. | .raiseFailed .. => .javaSurface

def text : Record → String
  | .registered h count size =>
    "iterator/" ++ h.text ++ s!": registered {count} buffers of {size} bytes"
  | .released h unread count =>
    "iterator/" ++ h.text ++ s!": released with {unread} of {count} buffers unread"
  | .createFailed count size f =>
    CFunction.create.symbol ++ s!"({count.toInt}, {size.toNat}): " ++ f.message
  | .failed function f => function.symbol ++ ": " ++ f.message
  | .destinationRejected d =>
    CFunction.next.symbol ++ ": rejected destination " ++ Hex.text d.address.toNat ++
      s!" of {d.length.toInt} bytes"
  | .panicked function => function.symbol ++ ": caught panic at the C boundary"
  | .methodFailed method f => method.name ++ ": " ++ f.message
  | .methodPanicked method => method.name ++ ": caught panic"
  | .raiseFailed className error => "failed to raise " ++ className ++ ": " ++ error.message

/-- The record as it is written. -/
def line (r : Record) : String := r.level.text ++ " " ++ r.target.text ++ ": " ++ r.text

/-- Whether an armed logger panics at the record. -/
def trips (r : Record) : Bool := r.level != .error && r.target != .javaSurface

end Record

end BufferFeed

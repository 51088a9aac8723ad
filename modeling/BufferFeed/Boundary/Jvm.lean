import BufferFeed.Bytes

/-!
# The virtual machine on the other side

What the Java surface needs of a virtual machine: whether an exception is pending, classes by name,
raising an exception, and byte arrays. Each is one function of the machine's interface, and each
can go wrong in its own way; which ones do, during one call from Java, is a list of `Fault`s. One
thing goes wrong in any machine: an array is asked for with a 32-bit length, and none has a length
below zero.

Two compound operations are built on them. `byteArray` makes an array with given contents; `raise`
makes an exception pending unless one already is. In both, a function that makes something is
followed by a question whether an exception has become pending, and only then is the result looked
at; so an exception that was pending **before** the call is noticed there too. `raise` asks once
more at its start, and there alone a machine that cannot be asked counts as one without an
exception.

Every function that is reached leaves a `Call` that says what it was asked, and what was pending
when it was entered. The machine's answers do not depend on these records; laws about what is never
done to a pending exception do.
-/

namespace BufferFeed.Jvm

/-- An exception, by the name of its class and its message. -/
structure Throwable where
  className : String
  message : String
deriving DecidableEq, Repr

def Throwable.text (t : Throwable) : String := t.className ++ ": " ++ t.message

/-- The functions of the interface. References are given back without asking how that went, so
`deleteLocalRef` decides nothing and is never entered here. -/
inductive Function
  | exceptionCheck
  | findClass
  | throwNew
  | deleteLocalRef
  | newByteArray
  | setByteArrayRegion
deriving DecidableEq, Repr

def Function.name : Function → String
  | .exceptionCheck => "ExceptionCheck"
  | .findClass => "FindClass"
  | .throwNew => "ThrowNew"
  | .deleteLocalRef => "DeleteLocalRef"
  | .newByteArray => "NewByteArray"
  | .setByteArrayRegion => "SetByteArrayRegion"

/-- What can be wrong with a machine. -/
inductive Fault
  /-- The function is not there. -/
  | missing (function : Function)
  /-- A class is not given, and nothing is thrown. -/
  | nullClass
  /-- A class is not given, and the machine throws. -/
  | classNotFound
  /-- An array is not given, and nothing is thrown. -/
  | nullArray
  /-- An array is not given, and the machine throws. -/
  | outOfMemory
  /-- Raising an exception reports failure. -/
  | throwRefused
  /-- Writing to an array writes nothing, and the machine throws. -/
  | regionRefused
deriving DecidableEq, Repr

/-- Why an operation on the machine failed. -/
inductive Error
  | missing (function : Function)
  | nullResult (function : Function)
  | exceptionPending
  | throwFailed (code : Int)
deriving DecidableEq, Repr

def Error.message : Error → String
  | .missing f => "JNIEnv null method pointer for " ++ f.name
  | .nullResult f => "Null pointer in " ++ f.name ++ " result"
  | .exceptionPending => "Java exception was thrown"
  | .throwFailed code => s!"Throw failed with error code {code}"

/-- A function with what it is asked. -/
inductive Request
  | exceptionCheck
  | findClass (className : String)
  | throwNew (exception : Throwable)
  | newByteArray (length : Int32)
  /-- So many bytes go to an array, from its first place on. -/
  | setByteArrayRegion (length : Int32)
deriving DecidableEq, Repr

def Request.function : Request → Function
  | .exceptionCheck => .exceptionCheck
  | .findClass _ => .findClass
  | .throwNew _ => .throwNew
  | .newByteArray _ => .newByteArray
  | .setByteArrayRegion _ => .setByteArrayRegion

/-- A function that was reached, with what it was asked and the exception pending at that moment. -/
structure Call where
  request : Request
  pending : Option Throwable
deriving DecidableEq, Repr

def Call.function (c : Call) : Function := c.request.function

/-- A machine during one call from Java. -/
structure Machine where
  faults : List Fault
  pending : Option Throwable
  /-- The functions reached so far, in order. -/
  calls : List Call
deriving DecidableEq, Repr

/-- A machine at the start of a call. -/
def Machine.enter (faults : List Fault) (pending : Option Throwable) : Machine :=
  ⟨faults, pending, []⟩

/-- Something done with a machine. -/
abbrev Op (α : Type) := ExceptT Error (StateM Machine) α

/-! ## The functions -/

/-- What a machine with these faults throws of itself. A length below zero is refused before there
is any question of room. -/
def thrown? (faults : List Fault) : Request → Option Throwable
  | .findClass className =>
    if .classNotFound ∈ faults then some ⟨"java/lang/NoClassDefFoundError", className⟩ else none
  | .newByteArray length =>
    if length < 0 then some ⟨"java/lang/NegativeArraySizeException", toString length.toInt⟩
    else if .outOfMemory ∈ faults then some ⟨"java/lang/OutOfMemoryError", "Java heap space"⟩
    else none
  | .setByteArrayRegion _ =>
    if .regionRefused ∈ faults then some ⟨"java/lang/ArrayIndexOutOfBoundsException", "region"⟩
    else none
  | .exceptionCheck | .throwNew _ => none

/-- Enters a function of the interface, if it is there. What the machine throws in it is pending
then, in place of an exception that already was. -/
def enter (request : Request) : Op Unit := do
  let m ← get
  if .missing request.function ∈ m.faults then throw (.missing request.function)
  set (Machine.mk m.faults ((thrown? m.faults request).or m.pending)
    (m.calls ++ [⟨request, m.pending⟩]))

/-- Whether an exception is pending. -/
def exceptionCheck : Op Bool := do
  enter .exceptionCheck
  return (← get).pending.isSome

/-- Fails when an exception is pending. -/
def failIfPending : Op Unit := do
  if ← exceptionCheck then throw .exceptionPending

/-- Asks for something, notices an exception, then looks whether it was given. -/
def make (request : Request) (null : Fault) : Op Unit := do
  enter request
  failIfPending
  if null ∈ (← get).faults then throw (.nullResult request.function)

def findClass (className : String) : Op Unit := make (.findClass className) .nullClass

/-- Raises an exception of a class that was given. -/
def throwNew (t : Throwable) : Op Unit := do
  enter (.throwNew t)
  if .throwRefused ∈ (← get).faults then throw (.throwFailed (-1))
  modify fun m => { m with pending := some t }

def newByteArray (length : Int32) : Op Unit := make (.newByteArray length) .nullArray

/-- Writes a new array of this length, and gives what it then holds. An exception thrown on the way
is left for the caller in Java; the array stays as it was made, all zeros. -/
def setByteArrayRegion (length : Int32) (contents : Bytes) : Op Bytes := do
  enter (.setByteArrayRegion length)
  if .regionRefused ∈ (← get).faults then return List.replicate length.toInt.toNat 0
  return contents.take length.toInt.toNat

/-! ## Compound operations -/

/-- A new array with the contents, as far as the machine wrote them. Of their length the lowest 32
bits are passed on, read with a sign: from `2 ^ 31` bytes on another length is asked for. -/
def byteArray (contents : Bytes) : Op Bytes := do
  let length := Int32.ofNat contents.length
  newByteArray length
  setByteArrayRegion length contents

/-- Whether an exception is known to be pending: a machine that cannot be asked knows of none. -/
def knownPending : Op Bool := tryCatch exceptionCheck fun _ => return false

/-- Makes an exception pending unless one is. -/
def raise (t : Throwable) : Op Unit := do
  unless ← knownPending do
    findClass t.className
    throwNew t

end BufferFeed.Jvm

import BufferFeed.SlotTable
import BufferFeed.Feed
import BufferFeed.Boundary.Record

/-!
# What happens at the boundary

`Boundary` is all that one operation can leave behind for the next: the table of live feeds, whether
the logger is armed, the exception pending in the virtual machine, and the source of feeds made
inside the process. An `Act` runs from one boundary to another and has two outcomes to report
besides: how it ended (`Ending`), and what it logged or called on the way (`Event`).

An act ends with a value, with a `Failure`, or in a panic. The first ending that is not a value
stops what follows, but what was done before it **stays done**: the table is never rolled back. That
is the whole of what a panic does to the table, so one that strikes while the table is held leaves
it as good as before.

An armed logger panics once, at the first record that trips it, after the record is written.
-/

namespace BufferFeed

/-- What one operation leaves for the next. -/
structure Boundary where
  table : SlotTable Feed
  /-- Whether the logger panics at the next record that trips it. -/
  armed : Bool
  /-- The exception pending in the virtual machine. -/
  pending : Option Jvm.Throwable
  source : Source

/-- A process in which nothing has happened yet. -/
def Boundary.start (source : Source) : Boundary := ⟨.empty, false, none, source⟩

/-- How something ended. -/
inductive Ending (α : Type)
  | value (a : α)
  | failure (f : Failure)
  | panic (message : String)
deriving Repr

/-- What can be watched from outside while something happens. -/
inductive Event
  | logged (record : Record)
  | called (call : Jvm.Call)
deriving DecidableEq, Repr

def Event.record? : Event → Option Record
  | .logged r => some r
  | .called _ => none

def Event.call? : Event → Option Jvm.Call
  | .logged _ => none
  | .called c => some c

/-- The end of an act. -/
structure Run (α : Type) where
  ending : Ending α
  state : Boundary
  events : List Event

namespace Run

variable {α : Type}

/-- What was logged, in order. -/
def log (r : Run α) : List Record := r.events.filterMap Event.record?

/-- The functions of the virtual machine that were reached, in order. -/
def calls (r : Run α) : List Jvm.Call := r.events.filterMap Event.call?

end Run

def Act (α : Type) := Boundary → Run α

namespace Act

variable {α β : Type}

/-- Goes on from a run that ended with a value; any other ending is final. -/
def andThen (x : Act α) (f : α → Act β) : Act β := fun s =>
  let r := x s
  match r.ending with
  | .value a =>
    let q := f a r.state
    { q with events := r.events ++ q.events }
  | .failure e => ⟨.failure e, r.state, r.events⟩
  | .panic m => ⟨.panic m, r.state, r.events⟩

instance : Monad Act where
  pure a := fun s => ⟨.value a, s, []⟩
  bind := andThen

/-! ## Endings -/

def fail (f : Failure) : Act α := fun s => ⟨.failure f, s, []⟩

def panic (message : String) : Act α := fun s => ⟨.panic message, s, []⟩

def ofExcept : Except Failure α → Act α
  | .ok a => pure a
  | .error f => fail f

/-- How an act ends, as a value. -/
def attempt (x : Act α) : Act (Ending α) := fun s =>
  let r := x s
  ⟨.value r.ending, r.state, r.events⟩

/-- Goes on after a failure. A panic is let through. -/
def recover (x : Act α) (handle : Failure → Act α) : Act α := do
  match ← x.attempt with
  | .value a => return a
  | .failure f => handle f
  | .panic m => panic m

/-! ## State, log and virtual machine -/

def get : Act Boundary := fun s => ⟨.value s, s, []⟩

def set (s : Boundary) : Act Unit := fun _ => ⟨.value (), s, []⟩

/-- Writes a record. An armed logger is disarmed by a record that trips it, and panics. -/
def emit (r : Record) : Act Unit := fun s =>
  if s.armed && r.trips then
    ⟨.panic "logger panic", { s with armed := false }, [.logged r]⟩
  else ⟨.value (), s, [.logged r]⟩

/-- Runs an operation of a virtual machine that has these faults. -/
def onMachine (faults : List Jvm.Fault) (op : Jvm.Op α) : Act (Except Jvm.Error α) := fun s =>
  let (result, m) := op (.enter faults s.pending)
  ⟨.value result, { s with pending := m.pending }, m.calls.map .called⟩

/-! ## The table of live feeds -/

/-- A feed drawn from the source of the process. -/
def makeFeed (count size : Nat) : Act Feed := do
  let s ← get
  match Feed.generate count size .supplied s.source with
  | some (f, source) => set { s with source }; return f
  | none => panic Feed.overflowText

/-- A feed drawn from a source of its own, seeded with entropy. -/
def makeFreshFeed (count size : Nat) (key : Keystream.Key) : Act Feed :=
  match Feed.ofEntropy count size key with
  | some f => return f
  | none => panic Feed.overflowText

/-- Hands a feed over to the table, then logs that it lives there. -/
def register (f : Feed) : Act Handle := do
  let s ← get
  let (handle, table) := s.table.insert f
  set { s with table }
  emit (.registered handle f.count f.size)
  return handle

/-- Lends out the feed behind a handle. -/
def lend (h : Handle) (f : Feed → β × Feed) : Act β := do
  let s ← get
  let (result, table) := s.table.lend h f
  set { s with table }
  ofExcept result

/-- Takes a feed out of the table for good, then logs how far it was read. -/
def release (h : Handle) : Act Unit := do
  let s ← get
  let (result, table) := s.table.remove h
  set { s with table }
  let f ← ofExcept result
  emit (.released h f.unread f.count)

end Act

end BufferFeed

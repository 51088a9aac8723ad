import BufferFeed.Handle
import BufferFeed.Text.Quoted

/-!
# Failures

Four causes, and nothing else, can end an operation of this library without a result:

- a feed with nothing left to read (`exhausted`), which is the expected end of a walk;
- a handle that no live feed has (`stale`), which names the handle;
- an argument outside its range (`invalid`), which carries the text of the reason;
- something that went wrong elsewhere (`other`), of which only the `Trail` is left.

A trail is a chain of messages, the outermost context first. A trail made from another failure is
transparent: the failure's own message leads the chain and its own causes follow, so wrapping a
trail in a failure and that in a trail again changes nothing (`Trail.ofFailure_other`). That is
also why a wrapped end of a walk no longer counts as one (`Failure.isExhausted`): what is asked is
the cause at hand, not the causes below it.
-/

namespace BufferFeed

/-- A message with the messages of what caused it, nearest first. -/
structure Trail where
  message : String
  causes : List String
deriving DecidableEq, Repr

/-- Why an operation gave no result. -/
inductive Failure
  | exhausted
  | stale (handle : Handle)
  | invalid (reason : String)
  | other (trail : Trail)
deriving DecidableEq, Repr

namespace Failure

/-- The text a person reads. Handles are shown in hexadecimal. -/
def message : Failure → String
  | .exhausted => "No more elements in iterator"
  | .stale h => "Stale or unknown iterator handle: " ++ h.text
  | .invalid reason => "Invalid argument: " ++ reason
  | .other trail => trail.message

/-- The messages of the causes below this one, nearest first. -/
def causes : Failure → List String
  | .other trail => trail.causes
  | _ => []

/-- The message and all its causes on one line. -/
def oneLine (f : Failure) : String := ": ".intercalate (f.message :: f.causes)

/-- Whether this is the expected end of a walk rather than a misuse or a fault. -/
def isExhausted : Failure → Bool
  | .exhausted => true
  | _ => false

/-- The diagnostic form: the cause by name with its content, handles as plain decimals. There is
none for a trail, nor for a reason that cannot be quoted. -/
def diagnostic? : Failure → Option String
  | .exhausted => some "Exhausted"
  | .stale h => some ("StaleHandle(" ++ toString h.raw.toNat ++ ")")
  | .invalid reason => (Text.quoted? reason).map fun text => "InvalidArgument(" ++ text ++ ")"
  | .other _ => none

end Failure

namespace Trail

/-- A trail of one message. -/
def ofText (message : String) : Trail := ⟨message, []⟩

/-- The trail that a failure leaves: its own chain. -/
def ofFailure (f : Failure) : Trail := ⟨f.message, f.causes⟩

/-- What was being done when the trail was left becomes its outermost message. -/
def within (t : Trail) (context : String) : Trail := ⟨context, t.message :: t.causes⟩

@[simp]
theorem ofFailure_other (t : Trail) : ofFailure (.other t) = t := rfl

end Trail

end BufferFeed

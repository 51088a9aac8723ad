import BufferFeed.Boundary.Direct
import BufferFeed.Boundary.CSurface
import BufferFeed.Boundary.JavaSurface

/-!
# Programs at the boundary

A program is a list of steps, each of which comes from one of four sides: from within the process,
from a C program, from Java, or from the virtual machine itself. A step is performed on the boundary
that the steps before it left, whatever their endings were; a panic ends its step and nothing more.
-/

namespace BufferFeed.Boundary

inductive Step
  | direct (call : Direct.Call)
  | fromC (call : CSurface.Call)
  /-- A call from Java, in a virtual machine that has these faults for as long as it lasts. -/
  | fromJava (faults : List Jvm.Fault) (call : JavaSurface.Call)
  /-- The virtual machine has this exception pending. -/
  | throwing (exception : Jvm.Throwable)
  /-- The virtual machine has no exception pending. -/
  | clearing
deriving Repr

inductive Reply
  | direct (reply : Direct.Reply)
  | toC (reply : CSurface.Reply)
  | toJava (reply : JavaSurface.Reply)
  | done

/-- The act that a step is. -/
def Step.act : Step → Act Reply
  | .direct call => .direct <$> call.act
  | .fromC call => .toC <$> call.act
  | .fromJava faults call => .toJava <$> call.act faults
  | .throwing exception => do
    let s ← Act.get
    Act.set { s with pending := some exception }
    return .done
  | .clearing => do
    let s ← Act.get
    Act.set { s with pending := none }
    return .done

/-- Performs the steps in order, and shows the end of each. -/
def run (s : Boundary) : List Step → List (Run Reply)
  | [] => []
  | step :: steps =>
    let r := step.act s
    r :: r.state.run steps

/-- What a program leaves. -/
def after (s : Boundary) (steps : List Step) : Boundary :=
  steps.foldl (fun s step => (step.act s).state) s

/-- How many feeds live. -/
def live (s : Boundary) : Nat := s.table.size

end BufferFeed.Boundary

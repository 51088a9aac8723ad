import BufferFeed.Survey.Report

/-!
# The survey program

Reads the command line, draws a feed from the system's entropy, walks it, and prints what it saw and
how long that took. What is printed is decided in `Survey.Report`; here are only the clock, the
entropy and the streams.
-/

namespace BufferFeed.Survey

/-- Evaluates a value, and says how many nanoseconds that took. -/
def timed {α : Type} (value : Unit → α) : IO (α × Nat) := do
  let started ← IO.monoNanosNow
  let a ← IO.lazyPure value
  let ended ← IO.monoNanosNow
  return (a, ended - started)

/-- The outcome for a command line, with the report's figures. -/
def observe (arguments : List String) : IO (Outcome × (Report → Figures)) := do
  let untimed (r : Report) : Figures := r.figures 0 0
  match Request.ofArguments arguments with
  | .usage => return (.usage, untimed)
  | .refused what argument => return (.refused what argument, untimed)
  | .survey count size =>
    let seed ← IO.getRandomBytes 32
    let key := Keystream.Key.ofBytes seed.toList
    let (drawn, generatedIn) ← timed fun _ => Feed.ofEntropy count size key
    let (outcome, drainedIn) ← timed fun _ => Outcome.ofDrawn count size drawn
    return (outcome, fun r => r.figures generatedIn drainedIn)

end BufferFeed.Survey

def main (arguments : List String) : IO UInt32 := do
  let (outcome, figures) ← BufferFeed.Survey.observe arguments
  (outcome.lines figures).forM fun line => IO.println line
  if let some text := outcome.complaint? then IO.eprintln text
  return outcome.exitCode

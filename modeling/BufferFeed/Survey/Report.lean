import BufferFeed.Survey.Tally
import BufferFeed.Survey.Request

/-!
# Reports of a survey

A report has up to three lines: the feed's dimensions, the statistics of its bytes when there are
any, and the beginning of the first buffer when there is one. The dimensions are known beforehand.
Everything else depends on the contents or the clock and comes in as text (`Figures`), so the shape
of a report can be had without them.
-/

namespace BufferFeed.Survey

/-- A span of time in nanoseconds, in the largest unit that it fills, with no zeros at the end. -/
def spanText (nanoseconds : Nat) : String :=
  let inUnit (unit : Nat) (width : Nat) (name : String) : String :=
    let places := (Nat.toDigits 10 (nanoseconds % unit)).leftpad width '0'
    let kept := (places.reverse.dropWhile (· = '0')).reverse
    let fraction := if kept = [] then "" else "." ++ String.ofList kept
    toString (nanoseconds / unit) ++ fraction ++ name
  if 1000000000 ≤ nanoseconds then inUnit 1000000000 9 "s"
  else if 1000000 ≤ nanoseconds then inUnit 1000000 6 "ms"
  else if 1000 ≤ nanoseconds then inUnit 1000 3 "µs"
  else inUnit 1 0 "ns"

/-- The parts of a report that the request does not determine. -/
structure Figures where
  generatedIn : String
  drainedIn : String
  mean : String
  least : String
  most : String
  /-- The beginning of the first buffer in hexadecimal. -/
  preview : String
deriving DecidableEq, Repr

structure Report where
  count : Nat
  size : Nat
  tally : Tally
deriving Repr

namespace Report

/-- How many bytes of the first buffer are shown. -/
def previewBytes : Nat := 32

/-- The beginning of the first buffer, two digits a byte. -/
def preview (r : Report) : String := Hex.ofBytes ((r.tally.first.getD []).take previewBytes)

/-- What was measured. -/
def figures (r : Report) (generatedIn drainedIn : Nat) : Figures where
  generatedIn := spanText generatedIn
  drainedIn := spanText drainedIn
  mean := Decimal.twoPlaces r.tally.mean
  least := toString r.tally.least
  most := toString r.tally.most
  preview := r.preview

def dimensionsLine (r : Report) (f : Figures) : String :=
  s!"generated {r.count} x {r.size} bytes in {f.generatedIn}, drained in {f.drainedIn}"

def statisticsLine (f : Figures) : String :=
  s!"mean byte {f.mean} (uniform is 127.50), bucket counts {f.least}..{f.most}"

def previewLine (f : Figures) : String := "first buffer: " ++ f.preview

/-- The lines of the report, with the given figures. -/
def lines (r : Report) (f : Figures) : List String :=
  r.dimensionsLine f
    :: (if 0 < r.tally.total then [statisticsLine f] else [])
    ++ (if r.tally.first.isSome then [previewLine f] else [])

end Report

/-! ## The whole program -/

/-- How the survey program ends. -/
inductive Outcome
  | usage
  | refused (what : String) (argument : String)
  /-- The feed does not fit. -/
  | overflow
  /-- The walk failed. -/
  | failed (failure : Failure)
  | report (r : Report)

namespace Outcome

/-- Surveys a feed that was asked for with these dimensions; there is none when it does not fit. -/
def ofDrawn (count size : Nat) : Option Feed → Outcome
  | none => .overflow
  | some f =>
    match Tally.ofFeed f with
    | .error e => .failed e
    | .ok tally => .report ⟨count, size, tally⟩

/-- Only a feed that does not fit makes the process exit with a code of its own. -/
def exitCode : Outcome → UInt32
  | .overflow => 101
  | _ => 0

/-- What is written to the standard output. -/
def lines (figures : Report → Figures) : Outcome → List String
  | .usage => Request.usageLines
  | .report r => r.lines (figures r)
  | _ => []

/-- What is written to the standard error. -/
def complaint? : Outcome → Option String
  | .refused what argument => some (Request.refusal what argument)
  | .overflow => some Feed.overflowText
  | .failed e => some ("Error: " ++ e.message)
  | _ => none

end Outcome

/-- Surveys a feed of its own, drawn from entropy. -/
def perform (arguments : List String) (key : Keystream.Key) : Outcome :=
  match Request.ofArguments arguments with
  | .usage => .usage
  | .refused what argument => .refused what argument
  | .survey count size => .ofDrawn count size (Feed.ofEntropy count size key)

end BufferFeed.Survey

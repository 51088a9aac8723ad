import BufferFeed.Text.Decimal

/-!
# What a survey is asked for

The command line of the survey program: how many buffers, and of how many bytes. With fewer than two
arguments the program explains itself. Otherwise the first two are read in order, so of two
arguments that cannot be read the first is named; any further ones are ignored.
-/

namespace BufferFeed.Survey

inductive Request
  /-- Too few arguments. -/
  | usage
  /-- An argument that is no size: which one, and what it was. -/
  | refused (what : String) (argument : String)
  | survey (count size : Nat)
deriving DecidableEq, Repr

namespace Request

def ofArguments : List String → Request
  | first :: second :: _ =>
    match Decimal.size? first with
    | none => .refused "num_elements" first
    | some count =>
      match Decimal.size? second with
      | none => .refused "element_size" second
      | some size => .survey count size
  | _ => .usage

/-- The explanation printed for too few arguments. -/
def usageLines : List String :=
  ["Usage:", " cargo run --example drain <num_elements> <element_size>"]

/-- The complaint about an argument that is no size. -/
def refusal (what argument : String) : String :=
  "Error: invalid " ++ what ++ ": " ++ argument

end Request

end BufferFeed.Survey

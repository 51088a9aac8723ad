import BufferFeed.Shelf
import BufferFeed.SlotTable

/-!
# Custody

Feeds pass to and fro between a slot table and the hands of its client. In the table a feed answers
to a handle; taken out, it may be kept on a shelf, read there, and put back, when it answers to a
new handle. A feed is never copied on the way: what is on the shelf is not in the table.
-/

namespace BufferFeed

/-- The table, the feeds taken out of it, and the source that new feeds are drawn from. -/
structure Custody where
  table : SlotTable Feed
  kept : Shelf
  source : Source

namespace Custody

/-- Nothing made yet. -/
def start (source : Source) : Custody := ⟨.empty, .empty, source⟩

inductive Step
  /-- Makes a feed and hands it over to the table. -/
  | insert (count size : UInt64)
  /-- Acts on the feed behind a handle. -/
  | lend (handle : Handle) (action : Feed.Action)
  /-- Takes a feed out of the table, to be kept under a name or dropped. -/
  | remove (handle : Handle) (keepAs : Option String)
  /-- Hands a kept feed over to the table. -/
  | reinsert (name : String)
  /-- Acts on a kept feed. -/
  | act (name : String) (action : Feed.Action)
deriving Repr

inductive Reply
  | issued (handle : Handle)
  /-- The feed does not fit, and was not made. -/
  | overflow
  /-- No feed is kept under the name. -/
  | unknown
  /-- The handle was refused. -/
  | refused (failure : Failure)
  /-- What the feed behind the handle answered, and how it stands then. -/
  | lent (result : Except Failure Feed.Answer) (status : Feed.Status)
  | removed (status : Feed.Status)
  /-- What a kept feed answered. -/
  | answer (result : Except Failure Feed.Answer)

def perform (c : Custody) : Step → Reply × Custody
  | .insert count size =>
    match Feed.generate count.toNat size.toNat .supplied c.source with
    | some (f, source) =>
      let (handle, table) := c.table.insert f
      (.issued handle, { c with table, source })
    | none => (.overflow, c)
  | .lend handle action =>
    match c.table.lend handle (Feed.serve action) with
    | (.ok (result, status), table) => (.lent result status, { c with table })
    | (.error e, table) => (.refused e, { c with table })
  | .remove handle keepAs =>
    match c.table.remove handle with
    | (.ok f, table) =>
      let kept := match keepAs with
        | some name => c.kept.put name f
        | none => c.kept
      (.removed f.status, { c with table, kept })
    | (.error e, table) => (.refused e, { c with table })
  | .reinsert name =>
    match c.kept.get? name with
    | some f =>
      let (handle, table) := c.table.insert f
      (.issued handle, { c with table, kept := c.kept.erase name })
    | none => (.unknown, c)
  | .act name action =>
    match c.kept.get? name with
    | some f =>
      let (result, f) := f.perform action
      (.answer result, { c with kept := c.kept.put name f })
    | none => (.unknown, c)

/-- Performs the steps in order, and shows each reply with what the step left. -/
def run (c : Custody) : List Step → List (Reply × Custody)
  | [] => []
  | step :: steps =>
    let (reply, c) := c.perform step
    (reply, c) :: c.run steps

end Custody

end BufferFeed

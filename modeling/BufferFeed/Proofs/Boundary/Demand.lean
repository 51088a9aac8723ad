import BufferFeed.Boundary.Act
import BufferFeed.Proofs.Feed.Reading
import BufferFeed.Proofs.SlotTable.Run

/-!
# What is asked of the table

Whatever comes from whichever side, it asks one thing of the table of live feeds, or nothing
(`Demand`): to take in a new feed, to lend a feed out for one action, to give a feed up. What is
asked can be read off the call. What becomes of the table and of the source of feeds is then a
function of the two alone (`Demand.meet`): an armed logger, an exception that is pending and the
virtual machine have no say in it.

With each demand comes the record that a complete log has of it (`Demand.audit`): one for a feed
taken in, one for a feed given up, none otherwise. `Demand.change` says that the record names the
handle that the table issued or took back, so the log can stand for the history of the table.
-/

namespace BufferFeed

/-- What an operation can change for good. -/
structure Stock where
  table : SlotTable Feed
  source : Source

/-- The stock of a boundary. -/
def Boundary.stock (s : Boundary) : Stock := ⟨s.table, s.source⟩

/-- The boundary with another stock. -/
def Boundary.restock (s : Boundary) (k : Stock) : Boundary :=
  { s with table := k.table, source := k.source }

@[simp]
theorem Boundary.restock_stock (s : Boundary) : s.restock s.stock = s := rfl

@[simp]
theorem Boundary.armed_restock (s : Boundary) (k : Stock) : (s.restock k).armed = s.armed := rfl

/-- What a step can ask of the table. -/
inductive Demand
  | nothing
  /-- Takes in a feed drawn from the source of the process. -/
  | supply (count size : Nat)
  /-- Takes in a feed drawn from entropy. -/
  | supplyFresh (count size : Nat) (key : Keystream.Key)
  | lend (handle : Handle) (action : Feed.Action)
  | release (handle : Handle)

namespace Demand

/-- The stock once a demand is met. A demand that cannot be met changes nothing. -/
def meet : Demand → Stock → Stock
  | .nothing, k => k
  | .supply count size, k =>
    match Feed.generate count size .supplied k.source with
    | some (f, source) => ⟨(k.table.insert f).2, source⟩
    | none => k
  | .supplyFresh count size key, k =>
    match Feed.ofEntropy count size key with
    | some f => { k with table := (k.table.insert f).2 }
    | none => k
  | .lend handle action, k =>
    match k.table.get? handle with
    | some f => { k with table := k.table.setContent handle.index (some (f.perform action).2) }
    | none => k
  | .release handle, k =>
    match k.table.get? handle with
    | some _ => { k with table := k.table.vacate handle.index }
    | none => k

/-- The record of what the table took in or gave up. -/
def audit : Demand → Stock → Option Record
  | .supply count size, k =>
    match Feed.generate count size .supplied k.source with
    | some (f, _) => some (.registered (k.table.insert f).1 f.count f.size)
    | none => none
  | .supplyFresh count size key, k =>
    match Feed.ofEntropy count size key with
    | some f => some (.registered (k.table.insert f).1 f.count f.size)
    | none => none
  | .release handle, k =>
    match k.table.get? handle with
    | some f => some (.released handle f.unread f.count)
    | none => none
  | _, _ => none

theorem meet_lend_of_get?_eq_none {k : Stock} {h : Handle} (absent : k.table.get? h = none)
    (action : Feed.Action) : (lend h action).meet k = k := by
  simp only [meet, absent]

/-- An action that leaves the feed as it was leaves all as it was. -/
theorem meet_lend_of_unmoved {k : Stock} {h : Handle} {f : Feed}
    (found : k.table.get? h = some f) (action : Feed.Action)
    (unmoved : (f.perform action).2 = f) :
    (lend h action).meet k = k := by
  simp only [meet, found, unmoved, SlotTable.setContent_self found]

theorem meet_release_of_get?_eq_none {k : Stock} {h : Handle} (absent : k.table.get? h = none) :
    (release h).meet k = k := by
  simp only [meet, absent]

end Demand

/-! ## Handles in the log -/

/-- The handle of which a record says that it was issued. -/
def Record.issued? : Record → Option Handle
  | .registered h _ _ => some h
  | _ => none

/-- The handle of which a record says that it was taken back. -/
def Record.released? : Record → Option Handle
  | .released h _ _ => some h
  | _ => none

theorem Record.target_ne_table {r : Record} (h : r.target = .cSurface) : r.target ≠ .table := by
  rw [h]
  decide

/-- **What is asked of a table changes it as the log says.** -/
theorem Demand.change (d : Demand) (k : Stock) :
    k.table.Change ((d.audit k).toList.filterMap Record.issued?)
      ((d.audit k).toList.filterMap Record.released?) (d.meet k).table := by
  cases d with
  | nothing => exact .nothing
  | supply count size =>
    cases hmade : Feed.generate count size .supplied k.source with
    | none =>
      simp only [audit, meet, hmade]
      exact .nothing
    | some made =>
      simp only [audit, meet, hmade]
      exact .insert made.1
  | supplyFresh count size key =>
    cases hmade : Feed.ofEntropy count size key with
    | none =>
      simp only [audit, meet, hmade]
      exact .nothing
    | some f =>
      simp only [audit, meet, hmade]
      exact .insert f
  | lend h action =>
    cases found : k.table.get? h with
    | none =>
      simp only [audit, meet, found]
      exact .nothing
    | some f =>
      simp only [audit, meet, found]
      exact .rewrite found _
  | release h =>
    cases found : k.table.get? h with
    | none =>
      simp only [audit, meet, found]
      exact .nothing
    | some f =>
      simp only [audit, meet, found]
      exact .vacate found

end BufferFeed

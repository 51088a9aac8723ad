import BufferFeed.Proofs.Boundary.Steps
import BufferFeed.Proofs.SlotTable.Ledger

/-!
# The history of a program

The log of a program names every handle that was issued, in order, and every handle that was taken
back (`issued`, `released`). Nothing that happens to the table is missing from it, panics or not:
each step changes the table just as the step's own records say (`Step.change`). So the log is a
ledger of the table (`ledger_of_run`), for as long as the indices and the generations last.
-/

namespace BufferFeed

/-! ## Handles in a log -/

namespace Record

theorem filterMap_issued?_filter (log : List Record) :
    (log.filter (·.target = .table)).filterMap issued? = log.filterMap issued? := by
  rw [List.filterMap_filter]
  apply List.filterMap_congr
  intro r _
  cases r <;> rfl

theorem filterMap_released?_filter (log : List Record) :
    (log.filter (·.target = .table)).filterMap released? = log.filterMap released? := by
  rw [List.filterMap_filter]
  apply List.filterMap_congr
  intro r _
  cases r <;> rfl

end Record

namespace Boundary

/-- All that a program logs. -/
def log (s : Boundary) (steps : List Step) : List Record := (s.run steps).flatMap Run.log

/-- The handles that a program has been issued, in order. -/
def issued (s : Boundary) (steps : List Step) : List Handle :=
  (s.log steps).filterMap Record.issued?

/-- The handles that a program has given up, in order. -/
def released (s : Boundary) (steps : List Step) : List Handle :=
  (s.log steps).filterMap Record.released?

/-- Each item of a row has the property at the boundary that its step meets. -/
def Throughout {α : Type} (step : α → Step) (P : Boundary → α → Prop) (s : Boundary) :
    List α → Prop
  | [] => True
  | a :: rest => P s a ∧ Throughout step P ((step a).act s).state rest

/-- **A step changes the table as its own records say.** -/
theorem Step.change (step : Step) (s : Boundary) :
    s.table.Change ((step.act s).log.filterMap Record.issued?)
      ((step.act s).log.filterMap Record.released?) (step.act s).state.table := by
  have hchange := step.plan.demand.change s.stock
  rw [← step.stock_act, ← step.audit_act, Record.filterMap_issued?_filter,
    Record.filterMap_released?_filter] at hchange
  exact hchange

/-! ## Runs -/

section Runs

variable {s : Boundary} {step : Step} {steps : List Step}

theorem after_append (s : Boundary) (earlier later : List Step) :
    s.after (earlier ++ later) = (s.after earlier).after later := List.foldl_append

theorem log_cons (s : Boundary) (step : Step) (steps : List Step) :
    s.log (step :: steps) = (step.act s).log ++ (step.act s).state.log steps := List.flatMap_cons

theorem log_append (s : Boundary) (earlier later : List Step) :
    s.log (earlier ++ later) = s.log earlier ++ (s.after earlier).log later := by
  induction earlier generalizing s with
  | nil => rfl
  | cons step steps ih =>
    rw [List.cons_append, log_cons, ih, ← List.append_assoc, ← log_cons]
    rfl

theorem issued_cons (s : Boundary) (step : Step) (steps : List Step) :
    s.issued (step :: steps) =
      (step.act s).log.filterMap Record.issued? ++ (step.act s).state.issued steps := by
  rw [issued, log_cons, List.filterMap_append, issued]

theorem issued_append (s : Boundary) (earlier later : List Step) :
    s.issued (earlier ++ later) = s.issued earlier ++ (s.after earlier).issued later := by
  rw [issued, log_append, List.filterMap_append, issued, issued]

theorem released_cons (s : Boundary) (step : Step) (steps : List Step) :
    s.released (step :: steps) =
      (step.act s).log.filterMap Record.released? ++ (step.act s).state.released steps := by
  rw [released, log_cons, List.filterMap_append, released]

theorem released_append (s : Boundary) (earlier later : List Step) :
    s.released (earlier ++ later) = s.released earlier ++ (s.after earlier).released later := by
  rw [released, log_append, List.filterMap_append, released, released]

/-- **What a program does to the table is what its log says.** -/
theorem changes_after (s : Boundary) (steps : List Step) :
    s.table.Changes (s.issued steps) (s.released steps) (s.after steps).table := by
  induction steps generalizing s with
  | nil => exact .nothing
  | cons step steps ih =>
    rw [issued_cons, released_cons]
    exact .change (step.change s) (ih (step.act s).state)

theorem size_slots_after_le (s : Boundary) (steps : List Step) :
    s.table.slots.size ≤ (s.after steps).table.slots.size := (s.changes_after steps).size_le

theorem wellFormed_after (ht : s.table.WellFormed) (steps : List Step)
    (room : (s.after steps).table.slots.size < 2 ^ 32) : (s.after steps).table.WellFormed :=
  (s.changes_after steps).wellFormed ht room

/-- No program brings about a generation of zero. -/
theorem numbered_after (hs : s.table.Numbered) (steps : List Step) :
    (s.after steps).table.Numbered := (s.changes_after steps).numbered hs

/-- **The log of a program is a ledger of the table.** -/
theorem ledger_of_run (source : Source) (steps : List Step)
    (room : ((start source).after steps).table.slots.size < 2 ^ 32)
    (turns : ∀ i, ((start source).released steps).countP (fun h => h.index = i) < 2 ^ 32 - 1) :
    ((start source).after steps).table.Ledger ((start source).issued steps)
      ((start source).released steps) :=
  ((start source).changes_after steps).ledger room turns

end Runs

end Boundary

end BufferFeed

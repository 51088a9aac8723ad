import BufferFeed.Proofs.SlotTable.WellFormed

/-!
# Runs of a table

A run is a list of steps: values handed over, values lent out for any action at all, values taken
out. Handles are arguments like any other, so a run may name handles that were issued, that were
given up, or that never were.

`Change` is what one step can do to a table, whoever takes it: nothing, one value rewritten, one
value added, one slot vacated; with it come the handle that the step issues and the handle that it
takes back. `Changes` is one change after the other, and whatever each of the four keeps, they keep.
Every run is of this kind (`changes_after`).
-/

namespace BufferFeed.SlotTable

variable {α β : Type} {t u : SlotTable α}

/-! ## What one step can do -/

section Changes

variable {issued released : List Handle}

/-- The ways a table can change in one step, with the handles it issues and takes back by it. -/
inductive Change (t : SlotTable α) : List Handle → List Handle → SlotTable α → Prop
  | nothing : Change t [] [] t
  | rewrite {h : Handle} {a : α} (found : t.get? h = some a) (b : α) :
      Change t [] [] (t.setContent h.index (some b))
  | insert (a : α) : Change t [(t.insert a).1] [] (t.insert a).2
  | vacate {h : Handle} {a : α} (found : t.get? h = some a) : Change t [] [h] (t.vacate h.index)

theorem size_slots_insert (t : SlotTable α) (a : α) :
    t.slots.size ≤ (t.insert a).2.slots.size := by
  cases hf : t.free with
  | cons i rest =>
    simp only [insert, reserve, hf, size_slots_setContent]
    exact Nat.le_refl _
  | nil =>
    simp only [insert, reserve, hf, size_slots_setContent, Array.size_push]
    exact Nat.le_succ _

/-- A slot, once there, stays. -/
theorem Change.size_le (c : Change t issued released u) : t.slots.size ≤ u.slots.size := by
  cases c with
  | nothing => exact Nat.le_refl _
  | rewrite found b => exact Nat.le_of_eq (size_slots_setContent _ _ _).symm
  | insert a => exact size_slots_insert t a
  | vacate found => exact Nat.le_of_eq (size_slots_vacate _ _).symm

theorem Change.numbered (c : Change t issued released u) (ht : t.Numbered) : u.Numbered := by
  cases c with
  | nothing => exact ht
  | rewrite found b => exact ht.setContent _ _
  | insert a => exact ht.insert a
  | vacate found => exact ht.vacate _

/-- **One step keeps a table well formed**, as long as the indices last. -/
theorem Change.wellFormed (c : Change t issued released u) (ht : t.WellFormed)
    (room : u.slots.size < 2 ^ 32) : u.WellFormed := by
  have hsize := c.size_le
  cases c with
  | nothing => exact ht
  | rewrite found b => exact ht.setContent found b
  | insert a => exact ht.insert (Nat.lt_of_le_of_lt hsize room) a
  | vacate found => exact ht.vacate found

/-- A handle that is live is not the one that is issued. -/
theorem Change.notMem_of_get? (c : Change t issued released u) (ht : t.WellFormed)
    (room : u.slots.size < 2 ^ 32) {h : Handle} {a : α} (found : t.get? h = some a) :
    h ∉ issued := by
  have hsize := Nat.lt_of_le_of_lt c.size_le room
  cases c with
  | insert b =>
    rw [List.mem_singleton]
    rintro rfl
    rw [get?_insert_fresh ht hsize b] at found
    cases found
  | _ => exact List.not_mem_nil

/-- One change after the other, with all the handles that they issue and take back, in order. -/
inductive Changes : SlotTable α → List Handle → List Handle → SlotTable α → Prop
  | nothing {t : SlotTable α} : Changes t [] [] t
  | change {t u v : SlotTable α} {issued released news olds : List Handle}
      (first : Change t issued released u) (later : Changes u news olds v) :
      Changes t (issued ++ news) (released ++ olds) v

theorem Changes.size_le (c : Changes t issued released u) : t.slots.size ≤ u.slots.size := by
  induction c with
  | nothing => exact Nat.le_refl _
  | change first later ih => exact Nat.le_trans first.size_le ih

theorem Changes.numbered (c : Changes t issued released u) (ht : t.Numbered) : u.Numbered := by
  induction c with
  | nothing => exact ht
  | change first later ih => exact ih (first.numbered ht)

/-- **Changes keep a table well formed**, as long as the indices last. -/
theorem Changes.wellFormed (c : Changes t issued released u) (ht : t.WellFormed)
    (room : u.slots.size < 2 ^ 32) : u.WellFormed := by
  induction c with
  | nothing => exact ht
  | change first later ih =>
    exact ih (first.wellFormed ht (Nat.lt_of_le_of_lt later.size_le room)) room

end Changes

/-! ## Runs -/

inductive Step (α β : Type)
  /-- Hands a value over. -/
  | insert (a : α)
  /-- Lends out the value behind a handle. -/
  | lend (handle : Handle) (f : α → β × α)
  /-- Takes the value behind a handle out. -/
  | remove (handle : Handle)

inductive Reply (α β : Type)
  | issued (handle : Handle)
  | lent (result : Except Failure β)
  | removed (result : Except Failure α)

def perform (t : SlotTable α) : Step α β → Reply α β × SlotTable α
  | .insert a =>
    let (handle, t) := t.insert a
    (.issued handle, t)
  | .lend handle f =>
    let (result, t) := t.lend handle f
    (.lent result, t)
  | .remove handle =>
    let (result, t) := t.remove handle
    (.removed result, t)

/-- The table that a run leaves. -/
def after (t : SlotTable α) : List (Step α β) → SlotTable α
  | [] => t
  | step :: steps => (t.perform step).2.after steps

/-- The steps of a run, each with the reply it got. -/
def trace (t : SlotTable α) : List (Step α β) → List (Step α β × Reply α β)
  | [] => []
  | step :: steps => (step, (t.perform step).1) :: (t.perform step).2.trace steps

/-! ## Handles of a run -/

/-- The handle that an entry of a trace issues. -/
def issued? : Step α β × Reply α β → Option Handle
  | (_, .issued h) => some h
  | _ => none

/-- The handle that an entry of a trace takes back; a removal that was refused takes back none. -/
def released? : Step α β × Reply α β → Option Handle
  | (.remove h, .removed (.ok _)) => some h
  | _ => none

/-- The handles that a run is issued, in order. -/
def issued (t : SlotTable α) (steps : List (Step α β)) : List Handle :=
  (t.trace steps).filterMap issued?

/-- The handles that a run gives up, in order. -/
def released (t : SlotTable α) (steps : List (Step α β)) : List Handle :=
  (t.trace steps).filterMap released?

theorem issued_cons (t : SlotTable α) (step : Step α β) (steps : List (Step α β)) :
    t.issued (step :: steps) =
      (issued? (step, (t.perform step).1)).toList ++ (t.perform step).2.issued steps := by
  rw [SlotTable.issued, trace, List.filterMap_cons]
  cases issued? (step, (t.perform step).1) <;> rfl

theorem released_cons (t : SlotTable α) (step : Step α β) (steps : List (Step α β)) :
    t.released (step :: steps) =
      (released? (step, (t.perform step).1)).toList ++ (t.perform step).2.released steps := by
  rw [SlotTable.released, trace, List.filterMap_cons]
  cases released? (step, (t.perform step).1) <;> rfl

theorem after_append (t : SlotTable α) (earlier later : List (Step α β)) :
    t.after (earlier ++ later) = (t.after earlier).after later := by
  induction earlier generalizing t with
  | nil => rfl
  | cons step earlier ih => exact ih (t.perform step).2

theorem released_append (t : SlotTable α) (earlier later : List (Step α β)) :
    t.released (earlier ++ later) = t.released earlier ++ (t.after earlier).released later := by
  induction earlier generalizing t with
  | nil => rfl
  | cons step earlier ih =>
    rw [List.cons_append, released_cons, ih, ← List.append_assoc, ← released_cons]
    rfl

/-- **A step changes the table as its reply says.** -/
theorem perform_change (t : SlotTable α) (step : Step α β) :
    t.Change (issued? (step, (t.perform step).1)).toList
      (released? (step, (t.perform step).1)).toList (t.perform step).2 := by
  cases step with
  | insert a => exact .insert a
  | lend h f =>
    cases found : t.get? h with
    | some a =>
      simp only [perform, lend_of_get? found]
      exact .rewrite found _
    | none =>
      simp only [perform, lend_of_get?_eq_none found]
      exact .nothing
  | remove h =>
    cases found : t.get? h with
    | some a =>
      simp only [perform, remove_of_get? found]
      exact .vacate found
    | none =>
      simp only [perform, remove_of_get?_eq_none found]
      exact .nothing

theorem size_perform_le (t : SlotTable α) (step : Step α β) :
    t.slots.size ≤ (t.perform step).2.slots.size := (t.perform_change step).size_le

theorem changes_after (t : SlotTable α) (steps : List (Step α β)) :
    t.Changes (t.issued steps) (t.released steps) (t.after steps) := by
  induction steps generalizing t with
  | nil => exact .nothing
  | cons step steps ih =>
    rw [issued_cons, released_cons]
    exact .change (t.perform_change step) (ih (t.perform step).2)

theorem size_after_le (t : SlotTable α) (steps : List (Step α β)) :
    t.slots.size ≤ (t.after steps).slots.size := (t.changes_after steps).size_le

theorem WellFormed.perform (ht : t.WellFormed) (step : Step α β)
    (room : (t.perform step).2.slots.size < 2 ^ 32) : (t.perform step).2.WellFormed :=
  (t.perform_change step).wellFormed ht room

/-- **A run keeps a table well formed**, as long as the indices last. -/
theorem WellFormed.after (ht : t.WellFormed) (steps : List (Step α β))
    (room : (t.after steps).slots.size < 2 ^ 32) : (t.after steps).WellFormed :=
  (t.changes_after steps).wellFormed ht room

end BufferFeed.SlotTable

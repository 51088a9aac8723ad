import BufferFeed.Proofs.Feed.Reading
import BufferFeed.Proofs.SlotTable.Run

/-!
# What a table holds

A property of values that every value handed over has, and that every borrower gives back, is a
property of all that a table ever holds (`Holds`). With the table's own law this gives the
invariant of tables of feeds (`sound_of_run`): an exact free list, generations that are not zero,
well-formed feeds in the slots, and what follows for insertions, for the size and for emptiness.

A step of such a run is `Honest` when it deals in feeds that there can be. That is no promise about
well-formedness: a feed's fields are private to it, so clients cannot do otherwise.
-/

namespace BufferFeed.SlotTable

section Holds

variable {α β : Type} {t : SlotTable α} {P : α → Prop}

/-- Every value in the table has the property. -/
def Holds (t : SlotTable α) (P : α → Prop) : Prop := t.EverySlot fun s => ∀ a ∈ s.content, P a

theorem Holds.empty : (empty : SlotTable α).Holds P := EverySlot.empty

theorem Holds.get? (ht : t.Holds P) {h : Handle} {a : α} (found : t.get? h = some a) : P a :=
  ht _ _ (get?_eq_some_iff.mp found) a rfl

theorem Holds.setContent (ht : t.Holds P) (i : UInt32) {b : α} (hb : P b) :
    (t.setContent i (some b)).Holds P := by
  refine EverySlot.setContent ht i ?_
  rintro s - a ⟨⟩
  exact hb

theorem Holds.vacate (ht : t.Holds P) (i : UInt32) : (t.vacate i).Holds P := by
  refine EverySlot.vacate ht i ?_
  rintro s - a ⟨⟩

theorem Holds.insert (ht : t.Holds P) {b : α} (hb : P b) : (t.insert b).2.Holds P := by
  refine EverySlot.insert ht ?_ ?_
  · rintro a ⟨⟩
  · rintro s - a ⟨⟩
    exact hb

/-- What a step hands over has the property, and what it borrows keeps it. -/
def Step.Keeps (P : α → Prop) : Step α β → Prop
  | .insert a => P a
  | .lend _ f => ∀ a, P a → P (f a).2
  | .remove _ => True

theorem Holds.perform (ht : t.Holds P) {step : Step α β} (hstep : step.Keeps P) :
    (t.perform step).2.Holds P := by
  cases step with
  | insert a => exact ht.insert hstep
  | lend h f =>
    cases found : t.get? h with
    | some a =>
      simp only [SlotTable.perform, lend_of_get? found]
      exact ht.setContent _ (hstep a (ht.get? found))
    | none =>
      simp only [SlotTable.perform, lend_of_get?_eq_none found]
      exact ht
  | remove h =>
    cases found : t.get? h with
    | some a =>
      simp only [SlotTable.perform, remove_of_get? found]
      exact ht.vacate _
    | none =>
      simp only [SlotTable.perform, remove_of_get?_eq_none found]
      exact ht

theorem Holds.after (ht : t.Holds P) {steps : List (Step α β)} (hsteps : ∀ s ∈ steps, s.Keeps P) :
    (t.after steps).Holds P := by
  induction steps generalizing t with
  | nil => exact ht
  | cons step steps ih =>
    exact ih (ht.perform (hsteps step List.mem_cons_self))
      fun s hs => hsteps s (List.mem_cons_of_mem _ hs)

end Holds

/-! ## Insertions find a vacant slot -/

/-- The index that an insertion writes to is that of a slot, and the slot is vacant. -/
theorem WellFormed.reserve_vacant {α : Type} {t : SlotTable α} (ht : t.WellFormed)
    (room : t.slots.size < 2 ^ 32) :
    ∃ g, t.reserve.2.slots[t.reserve.1.toNat]? = some ⟨g, none⟩ := by
  cases hf : t.free with
  | cons i rest =>
    simp only [reserve, hf]
    exact ht.vacant_of_free_eq_cons hf
  | nil =>
    simp only [reserve, hf, toNat_ofNat_size room, Array.getElem?_push_size]
    exact ⟨1, rfl⟩

/-! ## Tables of feeds -/

section Feeds

variable {β : Type}

/-- A step that deals in feeds there can be. -/
def Step.Honest (step : Step Feed β) : Prop := step.Keeps Feed.Obtainable

/-- What can be relied on at every point of a run of a table of feeds. -/
structure Sound (t : SlotTable Feed) : Prop where
  free_nodup : t.free.Nodup
  mem_free_iff : ∀ i : Nat,
    i ∈ t.free.map UInt32.toNat ↔ ∃ s, t.slots[i]? = some s ∧ s.content = none
  generation_ne_zero : ∀ (i : Nat) (s : Slot Feed), t.slots[i]? = some s → s.generation ≠ 0
  feed_wellFormed : ∀ (i : Nat) (s : Slot Feed) (f : Feed), t.slots[i]? = some s →
    s.content = some f → f.cursor ≤ f.buffers.size ∧ ∀ b ∈ f.buffers, b.length = f.size
  /-- The index that an insertion writes to is that of a slot, and the slot is vacant. -/
  reserve_vacant : ∃ g, t.reserve.2.slots[t.reserve.1.toNat]? = some ⟨g, none⟩
  /-- No live feed is lost by an insertion. -/
  get?_insert : ∀ f h live, t.get? h = some live → (t.insert f).2.get? h = some live
  /-- The size is a difference that is exact. -/
  length_free_le : t.free.length ≤ t.slots.size
  size_eq : t.size = t.slots.countP fun s => s.content.isSome
  isEmpty_iff : t.isEmpty = true ↔ ∀ h, t.get? h = none

/-- **The invariant of tables of feeds.** It holds after every run from the empty table, whatever
handles the run names. -/
theorem sound_of_run (steps : List (Step Feed β)) (honest : ∀ step ∈ steps, step.Honest)
    (room : ((empty : SlotTable Feed).after steps).slots.size < 2 ^ 32) :
    ((empty : SlotTable Feed).after steps).Sound := by
  have ht : ((empty : SlotTable Feed).after steps).WellFormed := WellFormed.empty.after steps room
  have hheld : ((empty : SlotTable Feed).after steps).Holds Feed.Obtainable :=
    Holds.empty.after honest
  refine ⟨ht.free_nodup, ht.mem_free_iff, ht.numbered, ?_, ht.reserve_vacant room, ?_,
    ht.length_free_le, ht.size_eq_countP, ht.isEmpty_iff room⟩
  · intro i s f hs hc
    have hf := (hheld i s hs f hc).wellFormed
    exact ⟨hf.cursor_le, hf.size_eq⟩
  · intro f h live found
    rw [SlotTable.get?_insert ht room, if_neg]
    · exact found
    · rintro rfl
      rw [get?_insert_fresh ht room] at found
      cases found

/-- A feed is read and given up, and its handle and one forged for the vacant slot are refused. -/
def visit : List (Step Feed (Except Failure Bytes)) :=
  [.insert ⟨#[[1], [2]], 1, 0, .supplied⟩, .lend ⟨0, 1⟩ Feed.next, .remove ⟨0, 1⟩,
    .lend ⟨0, 1⟩ Feed.next, .remove ⟨0, 2⟩]

theorem honest_visit : ∀ step ∈ visit, step.Honest := by
  have hmade : (⟨#[[1], [2]], 1, 0, .supplied⟩ : Feed).Obtainable :=
    .made (show Feed.generate 2 1 .supplied ⟨.counting 1 1, 0⟩ =
      some (⟨#[[1], [2]], 1, 0, .supplied⟩, ⟨.counting 1 1, 2⟩) from rfl)
  have hnext : ∀ f : Feed, f.Obtainable → f.next.2.Obtainable := fun f hf => hf.used .next
  intro step hstep
  simp only [visit, List.mem_cons, List.not_mem_nil, or_false] at hstep
  rcases hstep with rfl | rfl | rfl | rfl | rfl
  · exact hmade
  · exact hnext
  · exact trivial
  · exact hnext
  · exact trivial

theorem sound_of_run_visit :
    (∀ step ∈ visit, step.Honest) ∧ ((empty : SlotTable Feed).after visit).slots.size < 2 ^ 32 ∧
      ((empty : SlotTable Feed).after visit).Sound :=
  have room : ((empty : SlotTable Feed).after visit).slots.size < 2 ^ 32 := by decide
  ⟨honest_visit, room, sound_of_run visit honest_visit room⟩

end Feeds

end BufferFeed.SlotTable

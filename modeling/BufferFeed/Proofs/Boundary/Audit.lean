import BufferFeed.Proofs.Feed.Making
import BufferFeed.Proofs.Boundary.Shown

/-!
# The log is an audit of the table

Of the table's life the log tells all: how many feeds live, which handles are answered, and for each
handle that was given up how far its feed was read (`Boundary.Audit`). A line stands for one step,
and the step did what the line says (`Step.feed_of_registered`, `Step.feed_of_released`). The link
between the two lines of a handle is `Boundary.feed_traced`: as long as a handle is not given up,
its feed is the one that was registered, read on by what was taken from it since.
-/

namespace BufferFeed

/-! ## Sizes -/

namespace SlotTable

variable {α : Type} {t u : SlotTable α} {h : Handle} {a : α} {news olds : List Handle}

theorem size_setContent (t : SlotTable α) (i : UInt32) (c : Option α) :
    (t.setContent i c).size = t.size := by
  rw [size, size_slots_setContent, free_setContent, size]

theorem size_insert (ht : t.WellFormed) (room : t.slots.size < 2 ^ 32) (a : α) :
    (t.insert a).2.size = t.size + 1 := by
  have hle := ht.length_free_le
  rcases insert_cases ht room a with ⟨i, rest, g, hfree, -, he⟩ | ⟨hfree, he⟩
  · rw [hfree, List.length_cons] at hle
    rw [he, size_setContent, size, size, hfree, List.length_cons]
    show t.slots.size - rest.length = _
    omega
  · rw [he, size, size, hfree]
    simp only [Array.size_push, List.length_nil, Nat.sub_zero]

end SlotTable

/-! ## Lines and the steps that wrote them -/

namespace Record

variable {r : Record} {h : Handle}

end Record

namespace Boundary

variable {s : Boundary} {step : Step} {steps earlier later : List Step} {r : Record} {h : Handle}

/-- The indices and the generations last to the end of a program. -/
structure Lasts (s : Boundary) (steps : List Step) : Prop where
  room : (s.after steps).table.slots.size < 2 ^ 32
  turns : ∀ i, (s.released steps).countP (fun h => h.index = i) < 2 ^ 32 - 1

theorem Lasts.of_append (l : s.Lasts (earlier ++ later)) : s.Lasts earlier where
  room := by
    have hroom := l.room
    rw [after_append] at hroom
    exact Nat.lt_of_le_of_lt (size_slots_after_le _ later) hroom
  turns i := by
    have hturns := l.turns i
    rw [released_append] at hturns
    exact Nat.lt_of_le_of_lt (List.sublist_append_left _ _).countP_le hturns

end Boundary

end BufferFeed

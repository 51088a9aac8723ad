import Mathlib.Algebra.Group.Nat.Defs
import BufferFeed.SlotTable

/-!
# Tables slot by slot

What every operation of a slot table does to the slots and to the values behind the handles, said
once. Laws about tables cite these and open no operation.

A slot that is addressed by a handle is given by `slots[h.index.toNat]?`, so "the slot exists" and
"the slot is this one" are one equation. Lending and removing change one slot or nothing; whether
they change anything is decided by `get?` alone (`lend_of_get?`, `remove_of_get?` and their
refusals).
-/

namespace BufferFeed

theorem Slot.nextGeneration_ne_zero (g : UInt32) : Slot.nextGeneration g ≠ 0 := by
  unfold nextGeneration
  split
  · decide
  · assumption

/-- Short of the last generation the next one is the next number. -/
theorem Slot.toNat_nextGeneration {g : UInt32} (h : g.toNat + 1 < 2 ^ 32) :
    (Slot.nextGeneration g).toNat = g.toNat + 1 := by
  have hadd : (g + 1).toNat = g.toNat + 1 := by
    rw [UInt32.toNat_add]
    exact Nat.mod_eq_of_lt h
  unfold nextGeneration
  rw [if_neg, hadd]
  intro h0
  rw [h0] at hadd
  exact Nat.succ_ne_zero _ hadd.symm

/-- Two handles of one slot and of one generation are one handle. -/
theorem Handle.eq_of_toNat_index {g h : Handle} (hi : g.index.toNat = h.index.toNat)
    (hg : g.generation = h.generation) : g = h := by
  cases g
  cases h
  simp only [Handle.mk.injEq]
  exact ⟨UInt32.toNat_inj.mp hi, hg⟩

namespace SlotTable

variable {α β : Type} {t : SlotTable α} {h : Handle} {a : α}

/-! ## Values behind handles -/

theorem slot?_eq_some_iff {s : Slot α} :
    t.slot? h = some s ↔ t.slots[h.index.toNat]? = some s ∧ s.generation = h.generation := by
  simp only [slot?, Option.filter_eq_some_iff, decide_eq_true_eq]

/-- **A handle is answered exactly by a filled slot of its own generation.** -/
theorem get?_eq_some_iff :
    t.get? h = some a ↔ t.slots[h.index.toNat]? = some ⟨h.generation, some a⟩ := by
  simp only [get?, Option.bind_eq_some_iff, slot?_eq_some_iff]
  constructor
  · rintro ⟨⟨g, c⟩, ⟨hs, rfl⟩, rfl⟩
    exact hs
  · intro hs
    exact ⟨_, ⟨hs, rfl⟩, rfl⟩

theorem get?_eq_none_iff :
    t.get? h = none ↔ ∀ a, t.slots[h.index.toNat]? ≠ some ⟨h.generation, some a⟩ := by
  simp only [Option.eq_none_iff_forall_ne_some, ne_eq, get?_eq_some_iff]

/-- What a handle has is in its slot. -/
theorem get?_congr {u : SlotTable α} (hs : u.slots[h.index.toNat]? = t.slots[h.index.toNat]?) :
    u.get? h = t.get? h := by
  apply Option.ext
  intro a
  rw [get?_eq_some_iff, get?_eq_some_iff, hs]

theorem get?_eq_none_of_generation_ne {s : Slot α} (hs : t.slots[h.index.toNat]? = some s)
    (hne : h.generation ≠ s.generation) : t.get? h = none := by
  rw [get?_eq_none_iff, hs]
  rintro a ⟨⟩
  exact hne rfl

theorem get?_eq_none_of_vacant {g : UInt32} (hs : t.slots[h.index.toNat]? = some ⟨g, none⟩) :
    t.get? h = none := by
  rw [get?_eq_none_iff, hs]
  rintro a ⟨⟩

@[simp]
theorem get?_empty (h : Handle) : (empty : SlotTable α).get? h = none := by
  simp only [get?_eq_none_iff, empty, List.getElem?_toArray, List.getElem?_nil, ne_eq,
    reduceCtorEq, not_false_eq_true, implies_true]

/-! ## Lending and removing -/

/-- Vacates a slot: its generation moves on, and its index becomes the newest free one. -/
def vacate (t : SlotTable α) (index : UInt32) : SlotTable α where
  slots := t.slots.modify index.toNat fun s => ⟨Slot.nextGeneration s.generation, none⟩
  free := index :: t.free

theorem lend_of_get? (found : t.get? h = some a) (f : α → β × α) :
    t.lend h f = (.ok (f a).1, t.setContent h.index (some (f a).2)) := by
  simp only [lend, found]

theorem lend_of_get?_eq_none (absent : t.get? h = none) (f : α → β × α) :
    t.lend h f = (.error (.stale h), t) := by
  simp only [lend, absent]

theorem remove_of_get? (found : t.get? h = some a) :
    t.remove h = (.ok a, t.vacate h.index) := by
  have hs := slot?_eq_some_iff.mpr ⟨get?_eq_some_iff.mp found, rfl⟩
  simp only [remove, hs, vacate]

/-- A removal is refused for want of the slot, of the generation or of a value alike. -/
theorem remove_of_get?_eq_none (absent : t.get? h = none) :
    t.remove h = (.error (.stale h), t) := by
  cases hs : t.slot? h with
  | none => simp only [remove, hs]
  | some s =>
    have hc : s.content = none := by simpa only [get?, hs, Option.bind_some] using absent
    simp only [remove, hs, hc]

/-! ## Slots afterwards -/

theorem getElem?_setContent (t : SlotTable α) (i : UInt32) (c : Option α) (j : Nat) :
    (t.setContent i c).slots[j]? =
      if i.toNat = j then t.slots[j]?.map fun s => ⟨s.generation, c⟩ else t.slots[j]? := by
  simp only [setContent, Array.getElem?_modify]

theorem getElem?_vacate (t : SlotTable α) (i : UInt32) (j : Nat) :
    (t.vacate i).slots[j]? =
      if i.toNat = j then t.slots[j]?.map fun s => ⟨Slot.nextGeneration s.generation, none⟩
      else t.slots[j]? := by
  simp only [vacate, Array.getElem?_modify]

@[simp]
theorem free_setContent (t : SlotTable α) (i : UInt32) (c : Option α) :
    (t.setContent i c).free = t.free := rfl

@[simp]
theorem size_slots_setContent (t : SlotTable α) (i : UInt32) (c : Option α) :
    (t.setContent i c).slots.size = t.slots.size := Array.size_modify

@[simp]
theorem free_vacate (t : SlotTable α) (i : UInt32) : (t.vacate i).free = i :: t.free := rfl

@[simp]
theorem size_slots_vacate (t : SlotTable α) (i : UInt32) :
    (t.vacate i).slots.size = t.slots.size := Array.size_modify

/-- Giving back what was lent out, unchanged, changes nothing. -/
theorem setContent_self (found : t.get? h = some a) : t.setContent h.index (some a) = t := by
  have hs := get?_eq_some_iff.mp found
  have hslots : (t.setContent h.index (some a)).slots = t.slots := by
    apply Array.ext_getElem?
    intro j
    rw [getElem?_setContent]
    split
    · rename_i hj
      rw [← hj, hs]
      rfl
    · rfl
  cases t
  exact congrArg (SlotTable.mk · _) hslots

/-- Of two contents for one slot the later one stays. -/
@[simp]
theorem setContent_setContent (t : SlotTable α) (i : UInt32) (c d : Option α) :
    (t.setContent i c).setContent i d = t.setContent i d := by
  have hslots : ((t.setContent i c).setContent i d).slots = (t.setContent i d).slots := by
    apply Array.ext_getElem?
    intro j
    simp only [getElem?_setContent]
    split
    · rw [Option.map_map]
      rfl
    · rfl
  exact congrArg (SlotTable.mk · _) hslots

/-! ## Values afterwards -/

/-- If two tables differ in one slot only, and no handle of this slot but one is answered by either
of them, then they differ behind this handle only. -/
theorem get?_of_slot_changed {u : SlotTable α} {o : Option α}
    (hslots : ∀ j, h.index.toNat ≠ j → u.slots[j]? = t.slots[j]?) (hh : u.get? h = o)
    (hnone : ∀ g : Handle, g.index.toNat = h.index.toNat → g.generation ≠ h.generation →
      u.get? g = none ∧ t.get? g = none) (g : Handle) :
    u.get? g = if g = h then o else t.get? g := by
  split
  · rename_i hg
    rw [hg, hh]
  · rename_i hg
    by_cases hi : h.index.toNat = g.index.toNat
    · have hgen : g.generation ≠ h.generation := fun he => hg (Handle.eq_of_toNat_index hi.symm he)
      obtain ⟨hu, ht⟩ := hnone g hi.symm hgen
      rw [hu, ht]
    · apply Option.ext
      intro c
      rw [get?_eq_some_iff, get?_eq_some_iff, hslots _ hi]

/-- A value that is written back stands behind the handle that it was lent out for, and behind no
other. -/
theorem get?_setContent (found : t.get? h = some a) (b : α) (g : Handle) :
    (t.setContent h.index (some b)).get? g = if g = h then some b else t.get? g := by
  have hs := get?_eq_some_iff.mp found
  have hnew : (t.setContent h.index (some b)).slots[h.index.toNat]? =
      some ⟨h.generation, some b⟩ := by
    rw [getElem?_setContent, if_pos rfl, hs]
    rfl
  refine get?_of_slot_changed ?_ (get?_eq_some_iff.mpr hnew) ?_ g
  · intro j hj
    rw [getElem?_setContent, if_neg hj]
  · intro g hi hgen
    rw [← hi] at hs hnew
    exact ⟨get?_eq_none_of_generation_ne hnew hgen, get?_eq_none_of_generation_ne hs hgen⟩

/-- A vacated slot answers no handle: neither the one it was vacated by nor, before it is filled
again, that of its next generation. -/
theorem get?_vacate (found : t.get? h = some a) (g : Handle) :
    (t.vacate h.index).get? g = if g = h then none else t.get? g := by
  have hs := get?_eq_some_iff.mp found
  have hnew : (t.vacate h.index).slots[h.index.toNat]? =
      some ⟨Slot.nextGeneration h.generation, none⟩ := by
    rw [getElem?_vacate, if_pos rfl, hs]
    rfl
  refine get?_of_slot_changed ?_ (get?_eq_none_of_vacant hnew) ?_ g
  · intro j hj
    rw [getElem?_vacate, if_neg hj]
  · intro g hi hgen
    rw [← hi] at hs hnew
    exact ⟨get?_eq_none_of_vacant hnew, get?_eq_none_of_generation_ne hs hgen⟩

end SlotTable

end BufferFeed

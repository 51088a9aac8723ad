import Mathlib.Data.List.Nodup
import BufferFeed.Proofs.SlotTable.Slotwise

/-!
# Well-formed tables

A slot table is well formed when its free list is exact: it names every vacant slot, no other index
and none twice, and no generation is zero. The two containers of a table are coupled by this alone.
Each operation keeps it, on success and on refusal, as long as the indices of the slots fit into
their 32 bits. The size is derived from it: what the free list does not name holds a value
(`size_eq_countP`).

`insert_cases` says everything an insertion into a well-formed table can do. The index it takes is
never that of a filled slot.

Generations stay clear of zero without any bound (`Numbered`), which is why that part stands alone.
-/

namespace BufferFeed.SlotTable

variable {α β : Type} {t : SlotTable α} {h : Handle} {a : α}

/-- No slot has the generation zero. -/
def Numbered (t : SlotTable α) : Prop :=
  ∀ (i : Nat) (s : Slot α), t.slots[i]? = some s → s.generation ≠ 0

structure WellFormed (t : SlotTable α) : Prop where
  numbered : t.Numbered
  free_nodup : t.free.Nodup
  /-- The free list has exactly the indices of the vacant slots. -/
  mem_free_iff : ∀ i, i ∈ t.free.map UInt32.toNat ↔ ∃ s, t.slots[i]? = some s ∧ s.content = none

/-! ## Properties of every slot -/

section EverySlot

variable {Q : Slot α → Prop}

/-- Every slot of the table has the property. -/
def EverySlot (t : SlotTable α) (Q : Slot α → Prop) : Prop :=
  ∀ (i : Nat) (s : Slot α), t.slots[i]? = some s → Q s

theorem EverySlot.empty : (empty : SlotTable α).EverySlot Q := by
  intro i s hs
  simp only [SlotTable.empty, List.getElem?_toArray, List.getElem?_nil, reduceCtorEq] at hs

theorem EverySlot.setContent (ht : t.EverySlot Q) (i : UInt32) {c : Option α}
    (hc : ∀ s, Q s → Q ⟨s.generation, c⟩) : (t.setContent i c).EverySlot Q := by
  intro j s hs
  rw [getElem?_setContent] at hs
  split at hs
  · obtain ⟨r, hr, rfl⟩ := Option.map_eq_some_iff.mp hs
    exact hc r (ht j r hr)
  · exact ht j s hs

theorem EverySlot.vacate (ht : t.EverySlot Q) (i : UInt32)
    (hv : ∀ s, Q s → Q ⟨Slot.nextGeneration s.generation, none⟩) : (t.vacate i).EverySlot Q := by
  intro j s hs
  rw [getElem?_vacate] at hs
  split at hs
  · obtain ⟨r, hr, rfl⟩ := Option.map_eq_some_iff.mp hs
    exact hv r (ht j r hr)
  · exact ht j s hs

theorem EverySlot.insert (ht : t.EverySlot Q) (hnew : Q ⟨1, none⟩) {a : α}
    (ha : ∀ s, Q s → Q ⟨s.generation, some a⟩) : (t.insert a).2.EverySlot Q := by
  have hreserve : t.reserve.2.EverySlot Q := by
    intro j s hs
    cases hf : t.free with
    | cons i rest =>
      simp only [reserve, hf] at hs
      exact ht j s hs
    | nil =>
      simp only [reserve, hf, Array.getElem?_push] at hs
      split at hs
      · cases hs
        exact hnew
      · exact ht j s hs
  exact hreserve.setContent _ ha

end EverySlot

/-! ## Generations -/

theorem Numbered.empty : (empty : SlotTable α).Numbered := EverySlot.empty

theorem Numbered.setContent (ht : t.Numbered) (i : UInt32) (c : Option α) :
    (t.setContent i c).Numbered :=
  EverySlot.setContent ht i fun _ hs => hs

theorem Numbered.vacate (ht : t.Numbered) (i : UInt32) : (t.vacate i).Numbered :=
  EverySlot.vacate ht i fun s _ => Slot.nextGeneration_ne_zero s.generation

theorem Numbered.insert (ht : t.Numbered) (a : α) : (t.insert a).2.Numbered := by
  have hnew : (1 : UInt32) ≠ 0 := by decide
  exact EverySlot.insert ht hnew fun _ hs => hs

/-- A handle of generation zero is no live handle. -/
theorem Numbered.get?_eq_none (ht : t.Numbered) (hg : h.generation = 0) : t.get? h = none := by
  rw [get?_eq_none_iff]
  intro a hs
  exact ht _ _ hs hg

/-! ## Insertions -/

/-- The index of a slot that is about to be appended. -/
theorem toNat_ofNat_size (room : t.slots.size < 2 ^ 32) :
    (UInt32.ofNat t.slots.size).toNat = t.slots.size := UInt32.toNat_ofNat_of_lt' room

/-- The slot at the newest end of the free list is vacant. -/
theorem WellFormed.vacant_of_free_eq_cons (ht : t.WellFormed) {i : UInt32} {rest : List UInt32}
    (hf : t.free = i :: rest) : ∃ g, t.slots[i.toNat]? = some ⟨g, none⟩ := by
  have hi : i.toNat ∈ t.free.map UInt32.toNat := by
    rw [hf]
    exact List.mem_cons_self
  obtain ⟨⟨g, c⟩, hs, rfl⟩ := (ht.mem_free_iff i.toNat).mp hi
  exact ⟨g, hs⟩

/-- **What an insertion does**: it fills the slot vacated last, or else appends a filled slot. -/
theorem insert_cases (ht : t.WellFormed) (room : t.slots.size < 2 ^ 32) (a : α) :
    (∃ i rest g, t.free = i :: rest ∧ t.slots[i.toNat]? = some ⟨g, none⟩ ∧
      t.insert a = (⟨i, g⟩, { t with free := rest }.setContent i (some a))) ∨
    (t.free = [] ∧
      t.insert a = (⟨UInt32.ofNat t.slots.size, 1⟩, ⟨t.slots.push ⟨1, some a⟩, []⟩)) := by
  cases hf : t.free with
  | cons i rest =>
    obtain ⟨g, hs⟩ := ht.vacant_of_free_eq_cons hf
    refine .inl ⟨i, rest, g, rfl, hs, ?_⟩
    simp only [insert, reserve, hf, generationOf, hs, Option.map_some, Option.getD_some]
  | nil =>
    refine .inr ⟨rfl, ?_⟩
    simp only [insert, reserve, hf, generationOf, setContent, toNat_ofNat_size room,
      Array.getElem?_push_size, Option.map_some, Option.getD_some, Prod.mk.injEq, true_and,
      SlotTable.mk.injEq, and_true]
    apply Array.ext_getElem?
    intro j
    rw [Array.getElem?_modify, Array.getElem?_push, Array.getElem?_push]
    split
    · rename_i hj
      rw [if_pos hj.symm, if_pos hj.symm]
      rfl
    · rename_i hj
      rw [if_neg (Ne.symm hj), if_neg (Ne.symm hj)]

/-- The slot that an insertion takes was vacant or was not there, and has the value afterwards;
every other slot stays as it is. -/
theorem getElem?_insert (ht : t.WellFormed) (room : t.slots.size < 2 ^ 32) (a : α) (j : Nat) :
    (t.insert a).2.slots[j]? =
      if (t.insert a).1.index.toNat = j then some ⟨(t.insert a).1.generation, some a⟩
      else t.slots[j]? := by
  rcases insert_cases ht room a with ⟨i, rest, g, _, hs, he⟩ | ⟨_, he⟩
  · rw [he, getElem?_setContent]
    split
    · rename_i hj
      rw [← hj, hs]
      rfl
    · rfl
  · rw [he]
    simp only [toNat_ofNat_size room, Array.getElem?_push, eq_comm (a := j)]

theorem getElem?_insert_index (ht : t.WellFormed) (room : t.slots.size < 2 ^ 32) (a : α) :
    t.slots[(t.insert a).1.index.toNat]? = some ⟨(t.insert a).1.generation, none⟩ ∨
      t.slots.size = (t.insert a).1.index.toNat ∧ (t.insert a).1.generation = 1 := by
  rcases insert_cases ht room a with ⟨i, rest, g, _, hs, he⟩ | ⟨_, he⟩
  · rw [he]
    exact .inl hs
  · rw [he]
    exact .inr ⟨(toNat_ofNat_size room).symm, rfl⟩

/-- Before an insertion no handle of the slot that it takes is live. -/
theorem get?_eq_none_of_insert_index (ht : t.WellFormed) (room : t.slots.size < 2 ^ 32) (a : α)
    {g : Handle} (hi : g.index.toNat = (t.insert a).1.index.toNat) : t.get? g = none := by
  rcases getElem?_insert_index ht room a with hs | ⟨hs, _⟩
  · rw [← hi] at hs
    exact get?_eq_none_of_vacant hs
  · rw [get?_eq_none_iff, hi, Array.getElem?_eq_none (Nat.le_of_eq hs)]
    rintro b ⟨⟩

/-- The handle that an insertion gives was not live. -/
theorem get?_insert_fresh (ht : t.WellFormed) (room : t.slots.size < 2 ^ 32) (a : α) :
    t.get? (t.insert a).1 = none :=
  get?_eq_none_of_insert_index ht room a rfl

/-- **An insertion adds the value behind its handle and leaves every live handle what it has.** -/
theorem get?_insert (ht : t.WellFormed) (room : t.slots.size < 2 ^ 32) (a : α) (g : Handle) :
    (t.insert a).2.get? g = if g = (t.insert a).1 then some a else t.get? g := by
  have hnew : (t.insert a).2.slots[(t.insert a).1.index.toNat]? =
      some ⟨(t.insert a).1.generation, some a⟩ := by
    rw [getElem?_insert ht room, if_pos rfl]
  refine get?_of_slot_changed ?_ (get?_eq_some_iff.mpr hnew) ?_ g
  · intro j hj
    rw [getElem?_insert ht room, if_neg hj]
  · intro g hi hgen
    rw [← hi] at hnew
    exact ⟨get?_eq_none_of_generation_ne hnew hgen, get?_eq_none_of_insert_index ht room a hi⟩

/-! ## Every operation keeps a table well formed -/

theorem WellFormed.empty : (empty : SlotTable α).WellFormed where
  numbered := .empty
  free_nodup := List.nodup_nil
  mem_free_iff i := by
    simp only [SlotTable.empty, List.map_nil, List.not_mem_nil, List.getElem?_toArray,
      List.getElem?_nil, reduceCtorEq, false_and, exists_false]

theorem WellFormed.nodup_map_free (ht : t.WellFormed) : (t.free.map UInt32.toNat).Nodup :=
  ht.free_nodup.map fun _ _ => UInt32.toNat_inj.mp

/-- A filled slot is not on the free list. -/
theorem WellFormed.index_notMem_free (ht : t.WellFormed) (found : t.get? h = some a) :
    h.index.toNat ∉ t.free.map UInt32.toNat := by
  intro hmem
  obtain ⟨s, hs, hc⟩ := (ht.mem_free_iff _).mp hmem
  rw [get?_eq_some_iff.mp found] at hs
  cases hs
  cases hc

theorem WellFormed.insert (ht : t.WellFormed) (room : t.slots.size < 2 ^ 32) (a : α) :
    (t.insert a).2.WellFormed := by
  refine ⟨ht.numbered.insert a, ?_, ?_⟩
  · rcases insert_cases ht room a with ⟨i, rest, g, hf, _, he⟩ | ⟨_, he⟩
    · rw [he]
      exact (List.nodup_cons.mp (hf ▸ ht.free_nodup)).2
    · rw [he]
      exact List.nodup_nil
  · intro j
    rw [getElem?_insert ht room]
    rcases insert_cases ht room a with ⟨i, rest, g, hf, _, he⟩ | ⟨hf, he⟩
    · have hnodup : (i.toNat :: rest.map UInt32.toNat).Nodup := by
        rw [← List.map_cons, ← hf]
        exact ht.nodup_map_free
      have hold := ht.mem_free_iff j
      rw [hf, List.map_cons, List.mem_cons] at hold
      simp only [he, free_setContent]
      split
      · rename_i hj
        subst hj
        simp only [(List.nodup_cons.mp hnodup).1, Option.some.injEq, exists_eq_left', reduceCtorEq]
      · rename_i hj
        rw [← hold]
        simp only [eq_comm (a := j), hj, false_or]
    · have hold := ht.mem_free_iff j
      rw [hf] at hold
      simp only [he]
      split
      · simp only [List.map_nil, List.not_mem_nil, Option.some.injEq, exists_eq_left', reduceCtorEq]
      · exact hold

theorem WellFormed.setContent (ht : t.WellFormed) (found : t.get? h = some a) (b : α) :
    (t.setContent h.index (some b)).WellFormed := by
  refine ⟨ht.numbered.setContent _ _, ht.free_nodup, ?_⟩
  intro j
  rw [free_setContent, ht.mem_free_iff, getElem?_setContent]
  split
  · rename_i hj
    rw [← hj, get?_eq_some_iff.mp found]
    simp only [Option.some.injEq, exists_eq_left', Option.map_some, reduceCtorEq]
  · rfl

theorem WellFormed.vacate (ht : t.WellFormed) (found : t.get? h = some a) :
    (t.vacate h.index).WellFormed := by
  have hnot := ht.index_notMem_free found
  refine ⟨ht.numbered.vacate _, ?_, ?_⟩
  · exact List.nodup_cons.mpr ⟨fun hmem => hnot (List.mem_map_of_mem hmem), ht.free_nodup⟩
  · intro j
    rw [free_vacate, List.map_cons, List.mem_cons, ht.mem_free_iff, getElem?_vacate]
    split
    · rename_i hj
      rw [← hj, get?_eq_some_iff.mp found]
      simp only [Option.map_some, Option.some.injEq, exists_eq_left', true_or]
    · rename_i hj
      simp only [eq_comm (a := j), hj, false_or]

/-! ## The size -/

/-- The indices of the vacant slots, counted up. -/
def vacant (t : SlotTable α) : List Nat :=
  (t.slots.toList.zipIdx.filter fun s => s.1.content.isNone).map Prod.snd

theorem mem_vacant {i : Nat} :
    i ∈ t.vacant ↔ ∃ s, t.slots[i]? = some s ∧ s.content = none := by
  simp only [vacant, List.mem_map, List.mem_filter, List.mem_zipIdx_iff_getElem?,
    Array.getElem?_toList, Option.isNone_iff_eq_none, Prod.exists, exists_eq_right]

theorem nodup_vacant (t : SlotTable α) : t.vacant.Nodup := by
  have hsub : t.vacant.Sublist (t.slots.toList.zipIdx.map Prod.snd) := List.filter_sublist.map _
  refine hsub.nodup ?_
  rw [List.zipIdx_map_snd]
  exact List.nodup_range'

theorem length_vacant (t : SlotTable α) :
    t.vacant.length = t.slots.countP fun s => s.content.isNone := by
  rw [vacant, List.length_map, ← List.countP_eq_length_filter, ← Array.countP_toList]
  conv_rhs => rw [← List.zipIdx_map_fst 0 t.slots.toList]
  rw [List.countP_map]
  rfl

/-- The free list is the vacant slots in some order. -/
theorem WellFormed.free_perm (ht : t.WellFormed) : (t.free.map UInt32.toNat).Perm t.vacant := by
  refine (List.perm_ext_iff_of_nodup ht.nodup_map_free t.nodup_vacant).mpr ?_
  intro i
  rw [ht.mem_free_iff, mem_vacant]

/-- What the slots are settles what is free. -/
theorem WellFormed.perm_free_of_slots_eq {u : SlotTable α} (hu : u.WellFormed) (ht : t.WellFormed)
    (hslots : u.slots = t.slots) : u.free.Perm t.free := by
  refine (List.perm_ext_iff_of_nodup hu.free_nodup ht.free_nodup).mpr fun i => ?_
  have hmem : ∀ l : List UInt32, i ∈ l ↔ i.toNat ∈ l.map UInt32.toNat := by
    intro l
    simp only [List.mem_map, UInt32.toNat_inj, exists_eq_right]
  rw [hmem, hmem, hu.mem_free_iff, ht.mem_free_iff, hslots]

theorem WellFormed.length_free (ht : t.WellFormed) :
    t.free.length = t.slots.countP fun s => s.content.isNone := by
  rw [← length_vacant, ← ht.free_perm.length_eq, List.length_map]

/-- The size is a difference that is exact. -/
theorem WellFormed.length_free_le (ht : t.WellFormed) : t.free.length ≤ t.slots.size := by
  rw [ht.length_free]
  exact Array.countP_le_size

/-- **The size of a table is the number of its filled slots.** -/
theorem WellFormed.size_eq_countP (ht : t.WellFormed) :
    t.size = t.slots.countP fun s => s.content.isSome := by
  have hsplit : t.slots.size = (t.slots.countP fun s => s.content.isNone) +
      t.slots.countP fun s => s.content.isSome := by
    rw [Array.size_eq_countP_add_countP (p := fun s => s.content.isNone)]
    congr 2
    funext s
    cases s.content <;> rfl
  rw [size, ht.length_free]
  omega

/-- **A table is empty exactly when no handle is live.** -/
theorem WellFormed.isEmpty_iff (ht : t.WellFormed) (room : t.slots.size < 2 ^ 32) :
    t.isEmpty = true ↔ ∀ h, t.get? h = none := by
  rw [isEmpty, beq_iff_eq, ht.size_eq_countP, Array.countP_eq_zero]
  constructor
  · intro hall h
    rw [get?_eq_none_iff]
    intro a hs
    exact hall _ (Array.mem_of_getElem? hs) rfl
  · intro hnone s hmem hsome
    obtain ⟨i, hs⟩ := Array.mem_iff_getElem?.mp hmem
    obtain ⟨a, ha⟩ := Option.isSome_iff_exists.mp hsome
    have hi : (UInt32.ofNat i).toNat = i :=
      UInt32.toNat_ofNat_of_lt' (Nat.lt_trans (Array.getElem?_eq_some_iff.mp hs).1 room)
    refine get?_eq_none_iff.mp (hnone ⟨UInt32.ofNat i, s.generation⟩) a ?_
    simp only [hi, hs, ← ha]

end BufferFeed.SlotTable

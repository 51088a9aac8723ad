import BufferFeed.Proofs.SlotTable.Run

/-!
# How a table numbers what it holds

A table chooses its handles by its free list and its generations, and by nothing else. `Numbering`
is just these two, and it is a machine of its own: it can issue a handle and retire a slot. What a
table does to its slots is what the machine does (`Change.turn`), and a step that does neither
leaves the numbering as it was, whatever becomes of the values.

What a step has done is read off the live handles before and after it (`deed?`), and not off its
reply, since a step may register a value and fail all the same.
-/

namespace BufferFeed.SlotTable

/-! ## Numberings -/

/-- The free list and the generations of a table. -/
structure Numbering where
  free : List UInt32
  generations : Array UInt32
deriving DecidableEq, Repr

/-- What a table is asked for that a numbering follows. -/
inductive Turn
  | registers
  | releases (handle : Handle)
deriving DecidableEq, Repr

/-- What has come of it. -/
inductive Deed
  | registered (handle : Handle)
  | released (handle : Handle)
deriving DecidableEq, Repr

namespace Deed

/-- What was asked for: of a registration, its handle is no part. -/
def turn : Deed → Turn
  | registered _ => .registers
  | released h => .releases h

/-- The handle that was issued. -/
def issued? : Deed → Option Handle
  | registered h => some h
  | released _ => none

end Deed

namespace Numbering

/-- The next handle, and the numbering once it is issued. -/
def issue (n : Numbering) : Handle × Numbering :=
  match n.free with
  | i :: rest => (⟨i, n.generations[i.toNat]?.getD 0⟩, { n with free := rest })
  | [] => (⟨UInt32.ofNat n.generations.size, 1⟩, { n with generations := n.generations.push 1 })

/-- The numbering once a slot is vacated. -/
def retire (n : Numbering) (i : UInt32) : Numbering :=
  ⟨i :: n.free, n.generations.modify i.toNat Slot.nextGeneration⟩

/-- What comes of a turn. -/
def take (n : Numbering) : Turn → Deed × Numbering
  | .registers => (.registered n.issue.1, n.issue.2)
  | .releases h => (.released h, n.retire h.index)

/-- What comes of turns taken one after the other, each with the numbering that it leaves. -/
def replay (n : Numbering) : List Turn → List (Deed × Numbering)
  | [] => []
  | turn :: turns => n.take turn :: (n.take turn).2.replay turns

end Numbering

variable {α : Type} {t u : SlotTable α} {news olds : List Handle} {h : Handle} {a : α}

/-- The numbering of a table. -/
def numbering (t : SlotTable α) : Numbering := ⟨t.free, t.slots.map Slot.generation⟩

@[simp]
theorem numbering_setContent (t : SlotTable α) (i : UInt32) (c : Option α) :
    (t.setContent i c).numbering = t.numbering := by
  refine congrArg (Numbering.mk t.free) (Array.ext_getElem? fun j => ?_)
  rw [Array.getElem?_map, Array.getElem?_map, getElem?_setContent]
  split
  · rw [Option.map_map]
    rfl
  · rfl

theorem numbering_vacate (t : SlotTable α) (i : UInt32) :
    (t.vacate i).numbering = t.numbering.retire i := by
  refine congrArg (Numbering.mk (i :: t.free)) (Array.ext_getElem? fun j => ?_)
  rw [Array.getElem?_map, getElem?_vacate, numbering, Array.getElem?_modify, Array.getElem?_map]
  split
  · rw [Option.map_map, Option.map_map]
    rfl
  · rfl

/-- **The handle that an insertion gives and the numbering it leaves follow from the numbering.** -/
theorem issue_numbering (ht : t.WellFormed) (room : t.slots.size < 2 ^ 32) (a : α) :
    t.numbering.issue = ((t.insert a).1, (t.insert a).2.numbering) := by
  rcases insert_cases ht room a with ⟨i, rest, g, hf, hs, he⟩ | ⟨hf, he⟩
  · rw [he, numbering_setContent]
    simp only [Numbering.issue, numbering, hf, Array.getElem?_map, hs, Option.map_some,
      Option.getD_some]
  · rw [he]
    simp only [Numbering.issue, numbering, hf, Array.size_map, Array.map_push]

/-! ## What was done -/

/-- The handles that are live, slot by slot. -/
def handles (t : SlotTable α) : List Handle :=
  t.slots.toList.zipIdx.filterMap fun x =>
    x.1.content.map fun _ => ⟨UInt32.ofNat x.2, x.1.generation⟩

theorem mem_handles (room : t.slots.size < 2 ^ 32) : h ∈ t.handles ↔ (t.get? h).isSome = true := by
  simp only [handles, List.mem_filterMap, List.mem_zipIdx_iff_getElem?, Array.getElem?_toList,
    Option.map_eq_some_iff, Prod.exists, Option.isSome_iff_exists, get?_eq_some_iff]
  constructor
  · rintro ⟨⟨g, c⟩, i, hs, a, rfl, rfl⟩
    have hi : (UInt32.ofNat i).toNat = i :=
      UInt32.toNat_ofNat_of_lt' (Nat.lt_trans (Array.getElem?_eq_some_iff.mp hs).1 room)
    exact ⟨a, by rw [hi, hs]⟩
  · rintro ⟨a, hs⟩
    exact ⟨_, _, hs, a, rfl, by rw [UInt32.ofNat_toNat]⟩

/-- What a step has done: a handle is live that was not, or one was live that is not. -/
def deed? (t u : SlotTable α) : Option Deed :=
  match u.handles.find? fun h => (t.get? h).isNone with
  | some h => some (.registered h)
  | none => (t.handles.find? fun h => (u.get? h).isNone).map .released

/-- Of handles that were live all along, none is found. -/
theorem find?_handles_eq_none (room : t.slots.size < 2 ^ 32)
    (hlive : ∀ g, (t.get? g).isSome = true → (u.get? g).isSome = true) :
    (t.handles.find? fun h => (u.get? h).isNone) = none := by
  rw [List.find?_eq_none]
  intro g hg hnone
  have hsome := hlive g ((mem_handles room).mp hg)
  rw [Option.isNone_iff_eq_none.mp hnone] at hsome
  cases hsome

/-- Where one handle is live in the first table only, it is found. -/
theorem find?_handles_eq_some (room : t.slots.size < 2 ^ 32) (found : t.get? h = some a)
    (hu : u.get? h = none) (hlive : ∀ g, g ≠ h → u.get? g = t.get? g) :
    (t.handles.find? fun h => (u.get? h).isNone) = some h := by
  cases hfind : t.handles.find? fun h => (u.get? h).isNone with
  | none =>
    have hmem : h ∈ t.handles := (mem_handles room).mpr (by rw [found]; rfl)
    exact absurd (by rw [hu]; rfl) (List.find?_eq_none.mp hfind h hmem)
  | some g =>
    have hsome := (mem_handles room).mp (List.mem_of_find?_eq_some hfind)
    have hnone : u.get? g = none :=
      Option.isNone_iff_eq_none.mp (List.find?_some (p := fun h => (u.get? h).isNone) hfind)
    by_cases hg : g = h
    · rw [hg]
    · rw [← hlive g hg, hnone] at hsome
      cases hsome

theorem deed?_setContent (room : t.slots.size < 2 ^ 32) (found : t.get? h = some a) (b : α) :
    deed? t (t.setContent h.index (some b)) = none := by
  have hsame : ∀ g, ((t.setContent h.index (some b)).get? g).isSome = (t.get? g).isSome := by
    intro g
    rw [get?_setContent found]
    split
    · rename_i hg
      rw [hg, found]
      rfl
    · rfl
  have hroom : (t.setContent h.index (some b)).slots.size < 2 ^ 32 := by
    rwa [size_slots_setContent]
  rw [deed?, find?_handles_eq_none hroom fun g hg => (hsame g).symm.trans hg,
    find?_handles_eq_none room fun g hg => (hsame g).trans hg]
  rfl

theorem deed?_insert (ht : t.WellFormed) (room : (t.insert a).2.slots.size < 2 ^ 32) :
    deed? t (t.insert a).2 = some (.registered (t.insert a).1) := by
  have hsize := Nat.lt_of_le_of_lt (size_slots_insert t a) room
  have hget := get?_insert ht hsize a
  have hnew : (t.insert a).2.get? (t.insert a).1 = some a := by rw [hget, if_pos rfl]
  rw [deed?, find?_handles_eq_some room hnew (get?_insert_fresh ht hsize a)
    fun g hg => by rw [hget, if_neg hg]]

theorem deed?_vacate (room : t.slots.size < 2 ^ 32) (found : t.get? h = some a) :
    deed? t (t.vacate h.index) = some (.released h) := by
  have hget := get?_vacate found
  have hroom : (t.vacate h.index).slots.size < 2 ^ 32 := by rwa [size_slots_vacate]
  have hnone : ((t.vacate h.index).handles.find? fun g => (t.get? g).isNone) = none := by
    refine find?_handles_eq_none hroom fun g hg => ?_
    rw [hget] at hg
    split at hg
    · cases hg
    · exact hg
  rw [deed?, hnone, find?_handles_eq_some room found (by rw [hget, if_pos rfl])
    fun g hg => by rw [hget, if_neg hg]]
  rfl

/-- **Whatever a step does, it takes a turn of the numbering or leaves the numbering as it was.** -/
theorem Change.turn (c : Change t news olds u) (ht : t.WellFormed)
    (room : u.slots.size < 2 ^ 32) :
    (deed? t u = none ∧ news = [] ∧ u.numbering = t.numbering) ∨
      ∃ deed, deed? t u = some deed ∧ news = deed.issued?.toList ∧
        t.numbering.take deed.turn = (deed, u.numbering) := by
  have hsize := Nat.lt_of_le_of_lt c.size_le room
  cases c with
  | nothing =>
    have hnone : (t.handles.find? fun h => (t.get? h).isNone) = none :=
      find?_handles_eq_none hsize fun _ hg => hg
    exact .inl ⟨by rw [deed?, hnone]; rfl, rfl, rfl⟩
  | rewrite found b => exact .inl ⟨deed?_setContent hsize found b, rfl, numbering_setContent _ _ _⟩
  | insert a =>
    refine .inr ⟨_, deed?_insert ht room, rfl, ?_⟩
    rw [Deed.turn, Numbering.take, issue_numbering ht hsize a]
  | vacate found =>
    refine .inr ⟨_, deed?_vacate hsize found, rfl, ?_⟩
    rw [Deed.turn, Numbering.take, numbering_vacate]

end BufferFeed.SlotTable

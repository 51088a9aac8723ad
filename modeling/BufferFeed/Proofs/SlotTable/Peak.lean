import Mathlib.Logic.Function.Iterate
import BufferFeed.Proofs.SlotTable.Run

/-!
# A table is as long as it was ever full

A table gets a new slot only when it has no vacant one, so it has just as many slots as it ever held
values at once (`size_slots_after`). One step makes the table as long as it was, or as long as it is
full then (`Change.size_slots_eq_max`); the peak of a run is the greatest of these over its steps.

The slots themselves last. A release moves the generation of its slot on, and nothing else does
(`Change.standing`). So a generation is told by the number of releases, and it does not go back as
long as these do not bring it behind the last generation.
-/

namespace BufferFeed

/-- Short of the last generation, generations count up. -/
theorem Slot.toNat_iterate_nextGeneration {g : UInt32} {n : Nat} (h : g.toNat + n < 2 ^ 32) :
    (Slot.nextGeneration^[n] g).toNat = g.toNat + n := by
  induction n with
  | zero => rfl
  | succ n ih =>
    have hn := ih (by omega)
    rw [Function.iterate_succ_apply', Slot.toNat_nextGeneration (by omega), hn, Nat.add_assoc]

namespace SlotTable

variable {α β : Type} {t u : SlotTable α} {news olds : List Handle} {h : Handle}

/-! ## The peak -/

/-- How many slots hold a value. -/
def held (t : SlotTable α) : Nat := t.slots.countP fun s => s.content.isSome

/-- The most values that the table holds at once, from now on to the end of a run. -/
def peak (t : SlotTable α) : List (Step α β) → Nat
  | [] => t.held
  | step :: steps => max t.held ((t.perform step).2.peak steps)

theorem held_le_size (t : SlotTable α) : t.held ≤ t.slots.size := Array.countP_le_size

theorem held_le_peak (t : SlotTable α) (steps : List (Step α β)) : t.held ≤ t.peak steps := by
  cases steps with
  | nil => exact Nat.le_refl _
  | cons step steps => exact Nat.le_max_left _ _

/-- Where no slot is free, all are filled. -/
theorem WellFormed.held_of_free_eq_nil (ht : t.WellFormed) (hf : t.free = []) :
    t.held = t.slots.size := by
  rw [held, ← ht.size_eq_countP, size, hf, List.length_nil, Nat.sub_zero]

/-- **A table grows only when no slot is free**, and then none is free afterwards. -/
theorem Change.size_eq_or_full (c : Change t news olds u) (ht : t.WellFormed)
    (room : t.slots.size < 2 ^ 32) :
    u.slots.size = t.slots.size ∨ t.free = [] ∧ u.free = [] := by
  cases c with
  | nothing => exact .inl rfl
  | rewrite found b => exact .inl (size_slots_setContent _ _ _)
  | vacate found => exact .inl (size_slots_vacate _ _)
  | insert a =>
    rcases insert_cases ht room a with ⟨i, rest, g, -, -, he⟩ | ⟨hf, he⟩
    · rw [he]
      exact .inl (size_slots_setContent _ _ _)
    · rw [he]
      exact .inr ⟨hf, rfl⟩

/-- A step leaves a table as long as it was, or as long as it is full. -/
theorem Change.size_slots_eq_max (c : Change t news olds u) (ht : t.WellFormed)
    (room : u.slots.size < 2 ^ 32) : u.slots.size = max t.slots.size u.held := by
  have hsize := c.size_le
  have hheld := u.held_le_size
  rcases c.size_eq_or_full ht (Nat.lt_of_le_of_lt hsize room) with heq | ⟨-, hfree⟩
  · omega
  · have hfull := (c.wellFormed ht room).held_of_free_eq_nil hfree
    omega

/-- **A run leaves a table as long as it was, or as long as it was full at the peak.** -/
theorem size_slots_after (ht : t.WellFormed) (steps : List (Step α β))
    (room : (t.after steps).slots.size < 2 ^ 32) :
    (t.after steps).slots.size = max t.slots.size (t.peak steps) := by
  induction steps generalizing t with
  | nil => exact (Nat.max_eq_left t.held_le_size).symm
  | cons step steps ih =>
    have hroom := Nat.lt_of_le_of_lt (size_after_le (t.perform step).2 steps) room
    have hfirst := (t.perform_change step).size_slots_eq_max ht hroom
    have hrest := ih (ht.perform step hroom) room
    have hnow := t.held_le_size
    have hnext := (t.perform step).2.held_le_peak steps
    rw [after, peak, hrest, hfirst]
    omega

/-- Where a slot is vacant, no step makes another. -/
theorem size_slots_perform_of_vacant (ht : t.WellFormed) (room : t.slots.size < 2 ^ 32)
    (step : Step α β) {i : Nat} {s : Slot α} (hs : t.slots[i]? = some s)
    (vacant : s.content = none) :
    (t.perform step).2.slots.size = t.slots.size := by
  refine ((t.perform_change step).size_eq_or_full ht room).resolve_right ?_
  rintro ⟨hfree, -⟩
  have hmem := (ht.mem_free_iff i).mpr ⟨s, hs, vacant⟩
  rw [hfree] at hmem
  exact List.not_mem_nil hmem

/-! ## The indices that are issued -/

theorem Change.index_lt (c : Change t news olds u) (ht : t.WellFormed)
    (room : u.slots.size < 2 ^ 32) (hi : h ∈ news) : h.index.toNat < u.slots.size := by
  have hsize := Nat.lt_of_le_of_lt c.size_le room
  cases c with
  | insert a =>
    rw [List.mem_singleton] at hi
    subst hi
    have hs := getElem?_insert ht hsize a (t.insert a).1.index.toNat
    rw [if_pos rfl] at hs
    exact (Array.getElem?_eq_some_iff.mp hs).1
  | _ => cases hi

theorem Changes.index_lt (c : Changes t news olds u) (ht : t.WellFormed)
    (room : u.slots.size < 2 ^ 32) (hi : h ∈ news) : h.index.toNat < u.slots.size := by
  induction c with
  | nothing => cases hi
  | change first later ih =>
    have hroom := Nat.lt_of_le_of_lt later.size_le room
    rcases List.mem_append.mp hi with hi | hi
    · exact Nat.lt_of_lt_of_le (first.index_lt ht hroom hi) later.size_le
    · exact ih (first.wellFormed ht hroom) room hi

/-! ## The generations -/

/-- The generation at which a slot stands: the first one, if it is yet to come. -/
def standing (t : SlotTable α) (i : Nat) : UInt32 := (t.slots[i]?.map Slot.generation).getD 1

theorem standing_of_getElem? {i : Nat} {s : Slot α} (hs : t.slots[i]? = some s) :
    t.standing i = s.generation := by
  rw [standing, hs]
  rfl

theorem standing_insert (ht : t.WellFormed) (room : t.slots.size < 2 ^ 32) (a : α) (i : Nat) :
    (t.insert a).2.standing i = t.standing i := by
  rw [standing, getElem?_insert ht room]
  split
  · rename_i hi
    subst hi
    -- the slot was vacant and keeps its generation, or it is new and begins with the first one
    rcases getElem?_insert_index ht room a with hs | ⟨hs, hg⟩
    · rw [standing_of_getElem? hs]
      rfl
    · rw [standing, Array.getElem?_eq_none (Nat.le_of_eq hs), hg]
      rfl
  · rfl

/-- **A release moves the generation of its slot on, and nothing else moves any.** -/
theorem Change.standing (c : Change t news olds u) (ht : t.WellFormed)
    (room : u.slots.size < 2 ^ 32) (i : Nat) :
    u.standing i =
      Slot.nextGeneration^[olds.countP fun h => h.index.toNat = i] (t.standing i) := by
  have hsize := Nat.lt_of_le_of_lt c.size_le room
  cases c with
  | nothing => rfl
  | insert a => exact standing_insert ht hsize a i
  | @rewrite g a found b =>
    show SlotTable.standing _ i = t.standing i
    rw [SlotTable.standing, getElem?_setContent]
    split
    · rename_i hi
      rw [← hi, standing_of_getElem? (get?_eq_some_iff.mp found), get?_eq_some_iff.mp found]
      rfl
    · rfl
  | @vacate g a found =>
    rw [SlotTable.standing, getElem?_vacate, List.countP_singleton]
    by_cases hi : g.index.toNat = i
    · subst hi
      rw [if_pos rfl, standing_of_getElem? (get?_eq_some_iff.mp found),
        get?_eq_some_iff.mp found, decide_eq_true rfl, if_pos rfl]
      rfl
    · rw [if_neg hi, decide_eq_false hi, if_neg Bool.false_ne_true]
      rfl

theorem Changes.standing (c : Changes t news olds u) (ht : t.WellFormed)
    (room : u.slots.size < 2 ^ 32) (i : Nat) :
    u.standing i =
      Slot.nextGeneration^[olds.countP fun h => h.index.toNat = i] (t.standing i) := by
  induction c with
  | nothing => rfl
  | change first later ih =>
    have hroom := Nat.lt_of_le_of_lt later.size_le room
    rw [ih (first.wellFormed ht hroom) room, first.standing ht hroom, List.countP_append,
      Nat.add_comm, Function.iterate_add_apply]

/-- A generation counts the releases of its slot, as long as they are fewer than generations. -/
theorem toNat_standing_after (steps : List (Step α β)) {i : Nat}
    (room : ((empty : SlotTable α).after steps).slots.size < 2 ^ 32)
    (turns : ((empty : SlotTable α).released steps).countP (fun h => h.index.toNat = i) <
      2 ^ 32 - 1) :
    (((empty : SlotTable α).after steps).standing i).toNat =
      1 + ((empty : SlotTable α).released steps).countP fun h => h.index.toNat = i := by
  have hone : ((empty : SlotTable α).standing i).toNat = 1 := rfl
  rw [((empty : SlotTable α).changes_after steps).standing .empty room,
    Slot.toNat_iterate_nextGeneration (by omega), hone]

/-- **A slot, once there, stays, and its generation does not go back**, as long as its releases are
fewer than the generations. -/
theorem generation_le_after (earlier later : List (Step α β)) {i : Nat} {s : Slot α}
    (room : ((empty : SlotTable α).after (earlier ++ later)).slots.size < 2 ^ 32)
    (hs : ((empty : SlotTable α).after earlier).slots[i]? = some s) :
    ∃ r, ((empty : SlotTable α).after (earlier ++ later)).slots[i]? = some r ∧
      (((empty : SlotTable α).released (earlier ++ later)).countP (fun h => h.index.toNat = i) <
        2 ^ 32 - 1 → s.generation ≤ r.generation) := by
  have hle := size_after_le ((empty : SlotTable α).after earlier) later
  rw [← after_append] at hle
  obtain ⟨hlt, -⟩ := Array.getElem?_eq_some_iff.mp hs
  have hr := Array.getElem?_eq_getElem (Nat.lt_of_lt_of_le hlt hle)
  refine ⟨_, hr, fun turns => ?_⟩
  have hroom := Nat.lt_of_le_of_lt hle room
  have hnow := toNat_standing_after (earlier ++ later) room turns
  rw [released_append, List.countP_append] at turns hnow
  have hthen := toNat_standing_after earlier (i := i) hroom (by omega)
  rw [standing_of_getElem? hs] at hthen
  rw [standing_of_getElem? hr] at hnow
  rw [UInt32.le_iff_toNat_le, hthen, hnow]
  omega

/-- **What was given up last is given out next**, with the next generation. -/
theorem insert_of_remove {a : α} (ht : t.WellFormed) (room : t.slots.size < 2 ^ 32)
    (removed : t.remove h = (.ok a, u)) (b : α) :
    (u.insert b).1 = ⟨h.index, Slot.nextGeneration h.generation⟩ := by
  cases found : t.get? h with
  | none =>
    rw [remove_of_get?_eq_none found] at removed
    cases removed
  | some c =>
    rw [remove_of_get? found] at removed
    cases removed
    have hu := ht.vacate found
    rcases insert_cases hu (Nat.lt_of_le_of_lt (Nat.le_of_eq (size_slots_vacate _ _)) room) b with
      ⟨i, rest, g, hf, hs, he⟩ | ⟨hf, -⟩
    · rw [free_vacate, List.cons.injEq] at hf
      obtain ⟨rfl, -⟩ := hf
      rw [getElem?_vacate, if_pos rfl, get?_eq_some_iff.mp found] at hs
      cases hs
      rw [he]
    · rw [free_vacate] at hf
      cases hf

/-! ## The whole account -/

/-- **A table has as many slots as it ever held values at once.** No handle has an index beyond
them; while one of them is vacant there is never another; they last, and so do their generations as
long as a slot is released less often than there are generations; and a slot that is given up is
taken again by the next insertion. -/
theorem slots_are_peak (steps : List (Step α β))
    (room : ((empty : SlotTable α).after steps).slots.size < 2 ^ 32) :
    let t := (empty : SlotTable α).after steps
    t.slots.size = (empty : SlotTable α).peak steps ∧
      (∀ h ∈ (empty : SlotTable α).issued steps,
        h.index.toNat < (empty : SlotTable α).peak steps) ∧
      (∀ (i : Nat) (s : Slot α), t.slots[i]? = some s → s.content = none →
        ∀ step : Step α β, (t.perform step).2.slots.size = t.slots.size) ∧
      (∀ earlier later, steps = earlier ++ later → ∀ (i : Nat) (s : Slot α),
        ((empty : SlotTable α).after earlier).slots[i]? = some s →
        ∃ r, t.slots[i]? = some r ∧
          (((empty : SlotTable α).released steps).countP (fun h => h.index.toNat = i) < 2 ^ 32 - 1 →
            s.generation ≤ r.generation)) ∧
      ∀ h a u, t.remove h = (.ok a, u) → ∀ b : α,
        (u.insert b).1 = ⟨h.index, Slot.nextGeneration h.generation⟩ := by
  intro t
  have ht : t.WellFormed := WellFormed.empty.after steps room
  have hsize : t.slots.size = (empty : SlotTable α).peak steps := by
    have hmax := size_slots_after (WellFormed.empty (α := α)) steps room
    rw [show (empty : SlotTable α).slots.size = 0 from rfl, Nat.zero_max] at hmax
    exact hmax
  refine ⟨hsize, ?_, ?_, ?_, ?_⟩
  · intro h hi
    rw [← hsize]
    exact ((empty : SlotTable α).changes_after steps).index_lt .empty room hi
  · exact fun i s hs vacant step => size_slots_perform_of_vacant ht room step hs vacant
  · rintro earlier later rfl i s hs
    exact generation_le_after earlier later room hs
  · exact fun h a u removed b => insert_of_remove ht room removed b

/-- Two values are held at once, then one, then two again, then none. -/
def tide : List (Step Nat Unit) :=
  [.insert 10, .insert 20, .remove ⟨0, 1⟩, .insert 30, .remove ⟨1, 1⟩, .remove ⟨0, 2⟩]

theorem slots_are_peak_tide :
    let t := (empty : SlotTable Nat).after tide
    t.slots.size < 2 ^ 32 ∧ t.slots.size = 2 ∧ t.held = 0 ∧
      (empty : SlotTable Nat).issued tide = [⟨0, 1⟩, ⟨1, 1⟩, ⟨0, 2⟩] ∧
      ∃ r, t.slots[0]? = some r ∧ 1 ≤ r.generation := by
  intro t
  have room : t.slots.size < 2 ^ 32 := by decide
  obtain ⟨hsize, -, -, hlast, -⟩ := slots_are_peak tide room
  obtain ⟨r, hr, hgeneration⟩ :=
    hlast [.insert 10] _ rfl 0 ⟨1, some 10⟩ rfl
  refine ⟨room, hsize, by decide, by decide, r, hr, hgeneration (by decide)⟩

end SlotTable

end BufferFeed

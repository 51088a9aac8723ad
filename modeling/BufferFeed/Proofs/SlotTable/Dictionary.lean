import Mathlib.Data.Finmap
import BufferFeed.Feed
import BufferFeed.Proofs.Notation
import BufferFeed.Proofs.SlotTable.Run

/-!
# A table as a dictionary

What a client can know of a slot table is a finite map from handles to values. `Dictionary.Move` is
that view as a machine of its own: it has keys and values, and no slot, generation or free list.
`Represents` ties the two. A step of a table is then a move of the dictionary that it represents
(`Represents.perform`), and a run of a table is a walk of dictionaries (`trace_is_walk`).

The one freedom of the machine is the key that an insertion chooses. It has to be no key, so what
was under other keys is never lost; it need not be a key that was never used. That no key is ever
used twice is a law about generations, and not this one.
-/

namespace BufferFeed.SlotTable

variable {α β : Type}

/-- A finite map from handles to values. -/
abbrev Dictionary (α : Type) := Finmap fun _ : Handle => α

/-- The moves of a dictionary: a step, the reply to it, and the dictionary that it leaves. -/
inductive Dictionary.Move (m : Dictionary α) : Step α β → Reply α β → Dictionary α → Prop
  | insert {a : α} {h : Handle} (fresh : h ∉ m) : Move m (.insert a) (.issued h) (m.insert h a)
  | lend {h : Handle} {a : α} {f : α → β × α} (found : m.lookup h = some a) :
      Move m (.lend h f) (.lent (.ok (f a).1)) (m.insert h (f a).2)
  | lendStale {h : Handle} {f : α → β × α} (absent : h ∉ m) :
      Move m (.lend h f) (.lent (.error (.stale h))) m
  | remove {h : Handle} {a : α} (found : m.lookup h = some a) :
      Move m (.remove h) (.removed (.ok a)) (m.erase h)
  | removeStale {h : Handle} (absent : h ∉ m) :
      Move m (.remove h) (.removed (.error (.stale h))) m

/-- One move after the other. -/
inductive Dictionary.Walk : Dictionary α → List (Step α β × Reply α β) → Dictionary α → Prop
  | stay {m : Dictionary α} : Walk m [] m
  | move {m n o : Dictionary α} {step : Step α β} {reply : Reply α β}
      {rest : List (Step α β × Reply α β)} (first : m.Move step reply n) (later : Walk n rest o) :
      Walk m ((step, reply) :: rest) o

/-- The table and the dictionary answer every handle alike. -/
def Represents (t : SlotTable α) (m : Dictionary α) : Prop := ∀ h, t.get? h = m.lookup h

variable {t : SlotTable α} {m : Dictionary α}

theorem Represents.notMem (r : t.Represents m) {h : Handle} (absent : t.get? h = none) : h ∉ m := by
  rw [← Finmap.lookup_eq_none, ← r h]
  exact absent

/-- A change behind one handle, made on both sides, keeps a representation. -/
theorem Represents.update (r : t.Represents m) {u : SlotTable α} {h : Handle} {a : α}
    (hu : ∀ g, u.get? g = if g = h then some a else t.get? g) : u.Represents (m.insert h a) := by
  intro g
  rw [hu]
  split
  · rename_i hg
    rw [hg, Finmap.lookup_insert]
  · rename_i hg
    rw [Finmap.lookup_insert_of_ne m hg, r g]

theorem Represents.delete (r : t.Represents m) {u : SlotTable α} {h : Handle}
    (hu : ∀ g, u.get? g = if g = h then none else t.get? g) : u.Represents (m.erase h) := by
  intro g
  rw [hu]
  split
  · rename_i hg
    rw [hg, Finmap.lookup_erase]
  · rename_i hg
    rw [Finmap.lookup_erase_ne hg, r g]

/-- **A step is a move.** -/
theorem Represents.perform (r : t.Represents m) (ht : t.WellFormed) (step : Step α β)
    (room : (t.perform step).2.slots.size < 2 ^ 32) :
    ∃ n, m.Move step (t.perform step).1 n ∧ (t.perform step).2.Represents n := by
  cases step with
  | insert a =>
    have hsize := Nat.lt_of_le_of_lt (t.size_perform_le (.insert a : Step α β)) room
    have fresh := r.notMem (get?_insert_fresh ht hsize a)
    exact ⟨_, .insert fresh, r.update (get?_insert ht hsize a)⟩
  | lend h f =>
    cases found : t.get? h with
    | some a =>
      simp only [SlotTable.perform, lend_of_get? found]
      exact ⟨_, .lend (r h ▸ found), r.update (get?_setContent found _)⟩
    | none =>
      simp only [SlotTable.perform, lend_of_get?_eq_none found]
      exact ⟨m, .lendStale (r.notMem found), r⟩
  | remove h =>
    cases found : t.get? h with
    | some a =>
      simp only [SlotTable.perform, remove_of_get? found]
      exact ⟨_, .remove (r h ▸ found), r.delete (get?_vacate found)⟩
    | none =>
      simp only [SlotTable.perform, remove_of_get?_eq_none found]
      exact ⟨m, .removeStale (r.notMem found), r⟩

/-- A run is a walk, from whatever a well-formed table represents. -/
theorem Represents.walk (r : t.Represents m) (ht : t.WellFormed) (steps : List (Step α β))
    (room : (t.after steps).slots.size < 2 ^ 32) :
    ∃ n, Dictionary.Walk m (t.trace steps) n ∧ (t.after steps).Represents n := by
  induction steps generalizing t m with
  | nil => exact ⟨m, .stay, r⟩
  | cons step steps ih =>
    have hstep := Nat.lt_of_le_of_lt (size_after_le (t.perform step).2 steps) room
    obtain ⟨n, hmove, hn⟩ := r.perform ht step hstep
    obtain ⟨o, hwalk, ho⟩ := ih hn (ht.perform step hstep) room
    exact ⟨o, .move hmove hwalk, ho⟩

theorem Represents.empty : (empty : SlotTable α).Represents (∅ : Dictionary α) := by
  intro h
  rw [get?_empty, Finmap.lookup_empty]

/-- **Slot tables are dictionaries.** Every reply of a run from the empty table is the dictionary's,
and what the table answers afterwards is what the dictionary then has. A raw value that is no key is
refused, by lending and by removing alike, with a failure that has just this raw value, and the
table is left as it was. -/
theorem trace_is_walk (steps : List (Step α β))
    (room : ((empty : SlotTable α).after steps).slots.size < 2 ^ 32) :
    let t := (empty : SlotTable α).after steps
    ∃ m : Dictionary α,
      Dictionary.Walk ∅ ((empty : SlotTable α).trace steps) m ∧
      (∀ h, t.get? h = m.lookup h) ∧
      ∀ raw, Handle.ofRaw raw ∉ m → ∃ h : Handle, h.raw = raw ∧
        (∀ f : α → β × α, t.lend (.ofRaw raw) f = (.error (.stale h), t)) ∧
        t.remove (.ofRaw raw) = (.error (.stale h), t) := by
  intro t
  obtain ⟨m, hwalk, hm⟩ := Represents.empty.walk .empty steps room
  refine ⟨m, hwalk, hm, fun raw absent => ⟨.ofRaw raw, Handle.raw_ofRaw raw, ?_, ?_⟩⟩
  · intro f
    exact lend_of_get?_eq_none (by rw [hm, Finmap.lookup_eq_none.mpr absent]) f
  · exact remove_of_get?_eq_none (by rw [hm, Finmap.lookup_eq_none.mpr absent])

/-- A feed comes and goes and another takes its slot; the handle of the first, and one forged for
the vacant slot, are tried in between. -/
def reuse : List (Step Feed (Except Failure Bytes)) :=
  [.insert ⟨#[[1], [2]], 1, 0, .supplied⟩, .lend ⟨0, 1⟩ Feed.next, .remove ⟨0, 1⟩,
    .lend ⟨0, 1⟩ Feed.next, .remove ⟨0, 2⟩, .insert ⟨#[[3]], 1, 0, .supplied⟩,
    .lend ⟨0, 2⟩ Feed.next]

theorem trace_is_walk_reuse :
    ((empty : SlotTable Feed).after reuse).slots.size < 2 ^ 32 ∧
    ∃ m : Dictionary Feed,
      Dictionary.Walk ∅ ((empty : SlotTable Feed).trace reuse) m ∧
      (∀ h, ((empty : SlotTable Feed).after reuse).get? h = m.lookup h) ∧
      ∀ raw, Handle.ofRaw raw ∉ m → ∃ h : Handle, h.raw = raw ∧
        (∀ f : Feed → Except Failure Bytes × Feed,
          ((empty : SlotTable Feed).after reuse).lend (.ofRaw raw) f =
            (.error (.stale h), (empty : SlotTable Feed).after reuse)) ∧
        ((empty : SlotTable Feed).after reuse).remove (.ofRaw raw) =
          (.error (.stale h), (empty : SlotTable Feed).after reuse) :=
  have room : ((empty : SlotTable Feed).after reuse).slots.size < 2 ^ 32 := by decide
  ⟨room, trace_is_walk reuse room⟩

end BufferFeed.SlotTable

import BufferFeed.Failure

/-!
# Slot tables

A slot table owns values and gives out a handle for each. A slot outlives its contents: when a value
is removed the slot's generation moves on, and the slot goes onto the free list, from whose newest
end the next insertion is served. Only when no slot is free does the table grow.

A handle is answered only when its slot exists, has the handle's generation **and** holds a value.
The last condition is not redundant: the handle with the next generation of a vacant slot can be
forged, and it must not be taken for an issued one. For the same reason a removal looks at the
contents before it moves the generation on, so a refused removal changes nothing.

A generation is never zero: a slot starts at one, and a generation that would wrap to zero moves to
one instead. Handles are told apart for as long as no slot has run through all its generations;
nothing here counts how often that happens.
-/

namespace BufferFeed

structure Slot (α : Type) where
  generation : UInt32
  content : Option α
deriving DecidableEq, Repr

/-- The generation after `g`, never zero. -/
def Slot.nextGeneration (g : UInt32) : UInt32 := if g + 1 = 0 then 1 else g + 1

structure SlotTable (α : Type) where
  slots : Array (Slot α)
  /-- The indices of the vacant slots, the newest first. -/
  free : List UInt32
deriving DecidableEq, Repr

namespace SlotTable

variable {α β : Type}

/-- The table without slots. -/
def empty : SlotTable α := ⟨#[], []⟩

/-! ## Looking -/

/-- The slot that a handle addresses, if it has the handle's generation. -/
def slot? (t : SlotTable α) (h : Handle) : Option (Slot α) :=
  t.slots[h.index.toNat]?.filter (·.generation = h.generation)

/-- The value that a handle stands for. -/
def get? (t : SlotTable α) (h : Handle) : Option α := (t.slot? h).bind Slot.content

/-- How many values the table holds. -/
def size (t : SlotTable α) : Nat := t.slots.size - t.free.length

def isEmpty (t : SlotTable α) : Bool := t.size == 0

/-! ## Changing -/

/-- Puts contents into a slot, keeping its generation. -/
def setContent (t : SlotTable α) (index : UInt32) (content : Option α) : SlotTable α :=
  { t with slots := t.slots.modify index.toNat fun s => { s with content := content } }

/-- A slot for the next value: the one vacated last, else a new one of generation one. -/
def reserve (t : SlotTable α) : UInt32 × SlotTable α :=
  match t.free with
  | index :: rest => (index, { t with free := rest })
  | [] => (UInt32.ofNat t.slots.size, { t with slots := t.slots.push ⟨1, none⟩ })

/-- The generation of a slot, and zero for a slot that does not exist. -/
def generationOf (t : SlotTable α) (index : UInt32) : UInt32 :=
  (t.slots[index.toNat]?.map Slot.generation).getD 0

/-- Hands a value over to the table. -/
def insert (t : SlotTable α) (a : α) : Handle × SlotTable α :=
  let (index, t) := t.reserve
  (⟨index, t.generationOf index⟩, t.setContent index (some a))

/-- Lends out the value behind a handle: `f` answers and says what the value has become. -/
def lend (t : SlotTable α) (h : Handle) (f : α → β × α) : Except Failure β × SlotTable α :=
  match t.get? h with
  | some a =>
    let (b, a) := f a
    (.ok b, t.setContent h.index (some a))
  | none => (.error (.stale h), t)

/-- Takes a value out of the table. No handle of its slot issued so far is answered afterwards. -/
def remove (t : SlotTable α) (h : Handle) : Except Failure α × SlotTable α :=
  match t.slot? h with
  | none => (.error (.stale h), t)
  | some slot =>
    match slot.content with
    | none => (.error (.stale h), t)
    | some a =>
      (.ok a,
        { slots := t.slots.modify h.index.toNat fun s => ⟨Slot.nextGeneration s.generation, none⟩
          free := h.index :: t.free })

end SlotTable

end BufferFeed

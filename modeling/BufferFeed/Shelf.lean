import BufferFeed.Feed

/-!
# Shelves

A shelf holds feeds under names, one feed a name. A feed put under a name replaces what was there;
a feed taken off the shelf is no longer on it.

`Shelf.Program` adds the source that every feed of a program is drawn from, in the order in which
the feeds are made, and the steps of such a program as data. A feed made from entropy draws from a
source of its own, so it does not move the shared one; nor does a feed that is refused.
-/

namespace BufferFeed

structure Shelf where
  entries : List (String × Feed)
deriving Repr

namespace Shelf

def empty : Shelf := ⟨[]⟩

/-- The feed under a name. -/
def get? (s : Shelf) (name : String) : Option Feed := s.entries.lookup name

/-- The shelf with nothing under the name. -/
def erase (s : Shelf) (name : String) : Shelf := ⟨s.entries.filter (·.1 ≠ name)⟩

/-- The shelf with the feed under the name. -/
def put (s : Shelf) (name : String) (f : Feed) : Shelf := ⟨(name, f) :: (s.erase name).entries⟩

@[simp]
theorem get?_empty (name : String) : empty.get? name = none := rfl

theorem get?_cons (key name : String) (f : Feed) (entries : List (String × Feed)) :
    (Shelf.mk ((key, f) :: entries)).get? name =
      if name = key then some f else (Shelf.mk entries).get? name := by
  simp only [get?]
  split
  · rename_i hname
    rw [hname, List.lookup_cons_self]
  · rename_i hname
    rw [List.lookup_cons, beq_false_of_ne hname]

theorem get?_put_self (s : Shelf) (name : String) (f : Feed) :
    (s.put name f).get? name = some f := by
  simp [get?, put]

theorem get?_erase (s : Shelf) (name other : String) :
    (s.erase name).get? other = if other = name then none else s.get? other := by
  cases s with
  | mk entries =>
    induction entries with
    | nil => simp only [erase, List.filter_nil, get?, List.lookup_nil, ite_self]
    | cons entry entries ih =>
      obtain ⟨key, f⟩ := entry
      simp only [erase] at ih
      by_cases hkey : key = name
      · simp only [erase, List.filter_cons, hkey, ne_eq, not_true_eq_false, decide_false,
          Bool.false_eq_true, if_false, ih, get?_cons]
        split <;> rfl
      · simp only [erase, List.filter_cons, ne_eq, hkey, not_false_eq_true, decide_true, if_true,
          get?_cons, ih]
        by_cases hother : other = key
        · rw [if_pos hother, if_pos hother, if_neg (hother ▸ hkey)]
        · rw [if_neg hother, if_neg hother]

theorem get?_put (s : Shelf) (name other : String) (f : Feed) :
    (s.put name f).get? other = if other = name then some f else s.get? other := by
  rw [put, get?_cons]
  split
  · rfl
  · rename_i hother
    exact (s.get?_erase name other).trans (if_neg hother)

/-! ## Programs over a shelf -/

inductive Step
  /-- Makes a feed from the shared source. -/
  | make (name : String) (count size : UInt64)
  /-- Makes a feed from entropy. -/
  | makeFresh (name : String) (count size : UInt64) (key : Keystream.Key)
  | act (name : String) (action : Feed.Action)
deriving Repr

inductive Reply
  | made
  /-- The feed does not fit, and was not made. -/
  | overflow
  /-- There is no feed under the name. -/
  | unknown
  | answer (result : Except Failure Feed.Answer)

/-- A shelf and the source its feeds are drawn from. -/
structure Program where
  shelf : Shelf
  source : Source

namespace Program

/-- An empty shelf before a source. -/
def start (source : Source) : Program := ⟨.empty, source⟩

def perform (p : Program) : Step → Reply × Program
  | .make name count size =>
    match Feed.generate count.toNat size.toNat .supplied p.source with
    | some (f, source) => (.made, ⟨p.shelf.put name f, source⟩)
    | none => (.overflow, p)
  | .makeFresh name count size key =>
    match Feed.ofEntropy count.toNat size.toNat key with
    | some f => (.made, { p with shelf := p.shelf.put name f })
    | none => (.overflow, p)
  | .act name action =>
    match p.shelf.get? name with
    | some f =>
      let (result, f) := f.perform action
      (.answer result, { p with shelf := p.shelf.put name f })
    | none => (.unknown, p)

/-- Performs the steps in order, and shows each reply with what the step left. -/
def run (p : Program) : List Step → List (Reply × Program)
  | [] => []
  | step :: steps =>
    let (reply, p) := p.perform step
    (reply, p) :: p.run steps

end Program

end Shelf

end BufferFeed

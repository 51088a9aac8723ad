import BufferFeed.Proofs.Boundary.History
import BufferFeed.Proofs.SlotTable.Numbering

/-!
# Handles follow the pattern of registrations and releases

Of a program, the `chronicle` keeps the steps that registered or released a feed, each with what it
did and the numbering that it left; all other steps are dropped. The `pattern` of a program is what
is left of the chronicle when the handles of the registrations and the numberings are forgotten.

It is all that the chronicle follows from (`chronicle_eq_replay`). So two programs of one pattern
have one chronicle, from whatever source their feeds are drawn, through whatever surface their steps
come, and whatever happens in between, failures and panics included.
-/

namespace BufferFeed.Boundary

open SlotTable (Deed Numbering Turn deed?)

variable {s : Boundary}

/-- What a program registers and releases, in order, each with the numbering that it leaves. -/
def chronicle (s : Boundary) : List Step → List (Deed × Numbering)
  | [] => []
  | step :: steps =>
    let t := (step.act s).state
    match deed? s.table t.table with
    | some deed => (deed, t.table.numbering) :: t.chronicle steps
    | none => t.chronicle steps

/-- That a program registers, and what it releases, in order. -/
def pattern (s : Boundary) (steps : List Step) : List Turn :=
  (s.chronicle steps).map fun x => x.1.turn

/-- **A chronicle is the numbering's replay of the pattern**, and its registrations are those that
are logged. -/
theorem chronicle_eq_replay (ht : s.table.WellFormed) (steps : List Step)
    (room : (s.after steps).table.slots.size < 2 ^ 32) :
    s.chronicle steps = s.table.numbering.replay (s.pattern steps) ∧
      s.issued steps = (s.chronicle steps).filterMap fun x => x.1.issued? := by
  -- by induction on the steps; a step is a turn of the numbering, or it is in no pattern
  induction steps generalizing s with
  | nil => exact ⟨rfl, rfl⟩
  | cons step steps ih =>
    have hroom := Nat.lt_of_le_of_lt (size_slots_after_le (step.act s).state steps) room
    obtain ⟨hreplay, hissued⟩ := ih ((step.change s).wellFormed ht hroom) room
    rcases (step.change s).turn ht hroom with ⟨hdeed, hnews, hsame⟩ | ⟨deed, hdeed, hnews, htake⟩
    · have hchronicle : s.chronicle (step :: steps) = (step.act s).state.chronicle steps := by
        rw [chronicle, hdeed]
      rw [pattern, issued_cons, hnews, hchronicle, ← hsame]
      exact ⟨hreplay, hissued⟩
    · have hchronicle : s.chronicle (step :: steps) =
          (deed, (step.act s).state.table.numbering) :: (step.act s).state.chronicle steps := by
        rw [chronicle, hdeed]
      refine ⟨?_, ?_⟩
      · rw [pattern, hchronicle, List.map_cons, Numbering.replay, htake]
        exact congrArg (List.cons _) hreplay
      · rw [issued_cons, hnews, hissued, hchronicle, List.filterMap_cons]
        cases deed.issued? <;> rfl

/-- **Handles follow the pattern of registrations and releases, and nothing else.** If two programs
register and release in the same order, and release the same handles, then each registration of the
one is issued the handle that it is issued in the other, and after each registration and each
release the free lists and the generations are the same. -/
theorem handles_follow_pattern (one other : Source) (steps others : List Step)
    (room : ((start one).after steps).table.slots.size < 2 ^ 32)
    (room' : ((start other).after others).table.slots.size < 2 ^ 32)
    (alike : (start one).pattern steps = (start other).pattern others) :
    (start one).chronicle steps = (start other).chronicle others ∧
      (start one).issued steps = (start other).issued others := by
  obtain ⟨hreplay, hissued⟩ := chronicle_eq_replay (s := start one) .empty steps room
  obtain ⟨hreplay', hissued'⟩ := chronicle_eq_replay (s := start other) .empty others room'
  have hchronicle : (start one).chronicle steps = (start other).chronicle others := by
    rw [hreplay, hreplay', alike]
    rfl
  refine ⟨hchronicle, ?_⟩
  rw [hissued, hissued', hchronicle]

/-- Two feeds are registered, the first is released, and another takes its slot. -/
def bare : List Step :=
  [.direct (.register 1 1), .direct (.register 2 1), .direct (.release ⟨0, 1⟩),
    .direct (.register 3 1)]

/-- The same through the surfaces, among steps that fail, read and panic: the logger strikes the
first creation and the release. -/
def ornate : List Step :=
  [.direct .armLogger, .fromC (.create 0 7 ⟨⟨0, 0, 0, 0⟩, ⟨0, 0, 0, 0⟩⟩), .fromC (.dispose 5),
    .direct (.register 3 2), .direct (.lendAndPanic ⟨1, 1⟩ .next),
    .fromJava [.nullArray] (.next 0x100000001), .direct .armLogger,
    .fromJava [] (.dispose 0x100000000), .fromC (.dispose 0x100000000),
    .fromJava [] (.create 0 9 ⟨⟨0, 0, 0, 0⟩, ⟨0, 0, 0, 0⟩⟩)]

theorem handles_follow_pattern_ornate :
    ((start ⟨.counting 0 1, 0⟩).after bare).table.slots.size < 2 ^ 32 ∧
      ((start ⟨.arithmetic 5 3, 2⟩).after ornate).table.slots.size < 2 ^ 32 ∧
      (start ⟨.counting 0 1, 0⟩).pattern bare = (start ⟨.arithmetic 5 3, 2⟩).pattern ornate ∧
      (start ⟨.arithmetic 5 3, 2⟩).issued ornate = [⟨0, 1⟩, ⟨1, 1⟩, ⟨0, 2⟩] := by
  have room : ((start ⟨.counting 0 1, 0⟩).after bare).table.slots.size < 2 ^ 32 := by decide
  have room' : ((start ⟨.arithmetic 5 3, 2⟩).after ornate).table.slots.size < 2 ^ 32 := by decide
  have alike : (start ⟨.counting 0 1, 0⟩).pattern bare =
      (start ⟨.arithmetic 5 3, 2⟩).pattern ornate := by decide
  have hissued : (start ⟨.counting 0 1, 0⟩).issued bare = [⟨0, 1⟩, ⟨1, 1⟩, ⟨0, 2⟩] := by decide
  have hsame := (handles_follow_pattern _ _ bare ornate room room' alike).2
  exact ⟨room, room', alike, hsame.symm.trans hissued⟩

end BufferFeed.Boundary

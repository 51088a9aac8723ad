import BufferFeed.Proofs.Boundary.Machine
import BufferFeed.Proofs.Boundary.Revival

/-!
# A read from Java, taken apart

A native read takes a buffer from its feed and then asks the machine for an array. Two things settle
it: what the feed has ahead, and whether the machine gives an array for it. By them the body of a
read is one of four (`body_next_cases`): there is no feed, or nothing ahead, and nothing is changed;
an array is answered; or it fails for want of one. In the last two the feed has moved on by one
buffer, and by the same buffer.
-/

namespace BufferFeed.JavaSurface

open Jvm (Fault)

variable {faults : List Fault} {s : Boundary}

/-! ## Delivering -/

/-- The exception that is pending once an array was given. -/
def afterWrite (faults : List Fault) (pending : Option Jvm.Throwable) : Option Jvm.Throwable :=
  if .regionRefused ∈ faults then some Jvm.regionError else pending

theorem deliver_of_given {b : Bytes}
    (given : Jvm.arrayError? faults s.pending b.length = none) :
    ∃ es, deliver faults b s =
      ⟨.value (Jvm.written faults b), { s with pending := afterWrite faults s.pending }, es⟩ := by
  obtain ⟨harray, hpending⟩ := Jvm.byteArray_of_given (m := .enter faults s.pending) given
  refine ⟨(handed faults b s.pending).2.calls.map .called, ?_⟩
  rw [deliver_apply, handed, harray, hpending]
  rfl

theorem deliver_of_error {b : Bytes} {e : Jvm.Error}
    (refused : Jvm.arrayError? faults s.pending b.length = some e) :
    ∃ pending es, deliver faults b s =
      ⟨.failure (allocationFailure b.length e), { s with pending := pending }, es⟩ := by
  have harray := Jvm.byteArray_of_error (m := .enter faults s.pending) refused
  refine ⟨(handed faults b s.pending).2.pending,
    (handed faults b s.pending).2.calls.map .called, ?_⟩
  rw [deliver_apply, handed, harray]

/-! ## Reading and delivering -/

namespace Call

variable {long : Int64} {f : Feed} {b : Bytes} {bs : List Bytes}

/-- The boundary behind a read that took a buffer. -/
def readFrom (s : Boundary) (h : Handle) (f : Feed) : Boundary :=
  { s with table := s.table.setContent h.index (some f.advanced) }

theorem run_readPlan (found : s.table.get? (.ofLong long) = some f) (h : f.ahead = b :: bs) :
    (readPlan long).run s = ⟨.value b, readFrom s (.ofLong long) f, []⟩ := by
  have hout : (readPlan long).outcome s.stock = (none, .value b) := by
    simp only [readPlan, Plan.lend, Boundary.stock, found, Feed.next_of_ahead_cons h]
  rw [Plan.run_of_silent (by rw [hout]), hout]
  simp only [readPlan, Plan.lend, Demand.meet, Boundary.stock, found, Feed.perform,
    Feed.next_of_ahead_cons h, Boundary.restock, readFrom]

/-- What was taken from the feed is what is delivered. -/
theorem body_next_of_ahead_cons (found : s.table.get? (.ofLong long) = some f)
    (h : f.ahead = b :: bs) :
    body faults (.next long) s =
      ((.array ∘ some) <$> deliver faults b) (readFrom s (.ofLong long) f) := by
  rw [body_next, Act.bind_of_value (run_readPlan found h)]
  rfl

theorem body_next_of_given (found : s.table.get? (.ofLong long) = some f)
    (h : f.ahead = b :: bs) (given : Jvm.arrayError? faults s.pending b.length = none) :
    ∃ es, body faults (.next long) s =
      ⟨.value (.array (some (Jvm.written faults b))),
        { readFrom s (.ofLong long) f with pending := afterWrite faults s.pending }, es⟩ := by
  obtain ⟨es, hdeliver⟩ := deliver_of_given (s := readFrom s (.ofLong long) f) given
  rw [body_next_of_ahead_cons found h, Act.map_apply, hdeliver]
  exact ⟨es, rfl⟩

theorem body_next_of_error {e : Jvm.Error} (found : s.table.get? (.ofLong long) = some f)
    (h : f.ahead = b :: bs) (refused : Jvm.arrayError? faults s.pending b.length = some e) :
    ∃ pending es, body faults (.next long) s =
      ⟨.failure (allocationFailure b.length e),
        { readFrom s (.ofLong long) f with pending := pending }, es⟩ := by
  obtain ⟨pending, es, hdeliver⟩ :=
    deliver_of_error (s := readFrom s (.ofLong long) f) refused
  rw [body_next_of_ahead_cons found h, Act.map_apply, hdeliver]
  exact ⟨pending, es, rfl⟩

theorem body_next_of_ahead_nil (found : s.table.get? (.ofLong long) = some f)
    (h : f.ahead = []) : body faults (.next long) s = ⟨.failure .exhausted, s, []⟩ := by
  have hout : (readPlan long).outcome s.stock = (none, .failure .exhausted) := by
    simp only [readPlan, Plan.lend, Boundary.stock, found, Feed.next_of_ahead_nil h]
  have hmeet : (readPlan long).demand.meet s.stock = s.stock := by
    refine Demand.meet_lend_of_unmoved found .next ?_
    simp only [Feed.perform, Feed.next_of_ahead_nil h]
  have hrun : (readPlan long).run s = ⟨.failure .exhausted, s, []⟩ := by
    rw [Plan.run_of_silent (by rw [hout]), hout, hmeet, Boundary.restock_stock]
  rw [body_next, Act.bind_of_failure hrun]

/-- **A read is one of four.** -/
theorem body_next_cases (faults : List Fault) (long : Int64) (s : Boundary) :
    (s.table.get? (.ofLong long) = none ∧
      body faults (.next long) s = ⟨.failure (.stale (.ofLong long)), s, []⟩) ∨
    (∃ f, s.table.get? (.ofLong long) = some f ∧ f.ahead = [] ∧
      body faults (.next long) s = ⟨.failure .exhausted, s, []⟩) ∨
    (∃ f b bs, s.table.get? (.ofLong long) = some f ∧ f.ahead = b :: bs ∧
      Jvm.arrayError? faults s.pending b.length = none ∧
      ∃ es, body faults (.next long) s =
        ⟨.value (.array (some (Jvm.written faults b))),
          { readFrom s (.ofLong long) f with pending := afterWrite faults s.pending }, es⟩) ∨
    ∃ f b bs e, s.table.get? (.ofLong long) = some f ∧ f.ahead = b :: bs ∧
      Jvm.arrayError? faults s.pending b.length = some e ∧
      ∃ pending es, body faults (.next long) s =
        ⟨.failure (allocationFailure b.length e),
          { readFrom s (.ofLong long) f with pending := pending }, es⟩ := by
  cases found : s.table.get? (.ofLong long) with
  | none =>
    obtain ⟨hbody, -, -⟩ :=
      (Boundary.refuses_of_get?_eq_none found).fromJava faults (.next long) rfl
    exact .inl ⟨rfl, hbody⟩
  | some f =>
    cases hahead : f.ahead with
    | nil => exact .inr (.inl ⟨f, rfl, hahead, body_next_of_ahead_nil found hahead⟩)
    | cons b bs =>
      cases harray : Jvm.arrayError? faults s.pending b.length with
      | none =>
        exact .inr (.inr (.inl ⟨f, b, bs, rfl, hahead, harray,
          body_next_of_given found hahead harray⟩))
      | some e =>
        exact .inr (.inr (.inr ⟨f, b, bs, e, rfl, hahead, harray,
          body_next_of_error found hahead harray⟩))

end Call

end BufferFeed.JavaSurface

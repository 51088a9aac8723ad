import BufferFeed.Proofs.Boundary.Exceptions
import BufferFeed.Proofs.Feed.Making

/-!
# The iterator behind both surfaces

A client makes an iterator, asks it whether there is more, reads, and disposes of it. Such an
operation is the same through either surface, and so is what it gives or why it fails: it has one
plan, in the words of neither surface (`Operation.plan`), and ends in one of seven ways
(`Operation.Ends`).

The surfaces put this plan into their own words. C turns a failure into a code or a zero, and a line
of the log (`plan_toC`). Java leaves it to the guard, which raises an exception (`plan_toJava`).
With a logger that is not armed and a machine without faults, what a client is answered is therefore
the wording of one ending (`ending_toC`, `act_toJava`).

Kept out is what only one of the surfaces takes: a size that is below zero when Java reads its bits,
and a destination that C rejects (`Admissible`).
-/

namespace BufferFeed

theorem Handle.ofLong_toInt64 (raw : UInt64) : ofLong raw.toInt64 = ofRaw raw := by
  rw [ofLong, UInt64.toUInt64_toInt64]

/-- What can be addressed can be made. -/
theorem Feed.exists_ofEntropy {count size : Nat} (fits : Fits count size) (key : Keystream.Key) :
    ∃ f, ofEntropy count size key = some f :=
  Option.ne_none_iff_exists'.mp fun h => ofEntropy_eq_none_iff.mp h fits

/-- A row of which a machine word counts the buffers can be addressed; so can the buffers, if there
are none or each of them is no larger than the largest block. -/
theorem Feed.fits_iff_of_nonneg {count : Int32} (h : 0 ≤ count) (size : Nat) :
    Fits count.toInt.toNat size ↔ count = 0 ∨ size ≤ 2 ^ 63 - 1 := by
  have hle : 0 ≤ count.toInt := Int32.le_iff_toInt_le.mp h
  have hlt : count.toInt < 2 ^ 31 := count.toInt_lt
  rw [← Int32.toInt_inj, Int32.toInt_zero]
  show count.toInt.toNat * 24 ≤ 2 ^ 63 - 1 ∧ (0 < count.toInt.toNat → size ≤ 2 ^ 63 - 1) ↔ _
  omega

namespace JavaSurface.Call

variable {s : Boundary} {call : Call}

/-- In a machine without faults a buffer that was read is delivered, if an array can be so long; so
the body of a method ends as its plan does. -/
theorem ending_body_of_sound (quiet : call.plan.fires s = false) (clear : s.pending = none)
    (small : ∀ b, call.due? s = some b → b.length < 2 ^ 31) :
    (call.body [] s).ending = (call.plan.outcome s.stock).2 := by
  by_cases hnext : ∃ long, call = .next long
  · obtain ⟨long, rfl⟩ := hnext
    rcases body_next_cases [] long s with ⟨absent, hbody⟩ | ⟨f, found, nothing, hbody⟩ |
      ⟨f, b, bs, found, more, -, es, hbody⟩ | ⟨f, b, bs, e, found, more, refused, -⟩
    · rw [hbody]
      simp only [plan, readPlan, Plan.map, Plan.lend, Boundary.stock, absent, Ending.map]
    · rw [hbody]
      simp only [plan, readPlan, Plan.map, Plan.lend, Boundary.stock, found,
        Feed.next_of_ahead_nil nothing, Ending.map]
    · have hwritten : Jvm.written [] b = b := by
        rw [Jvm.written_of_lt (small b (due?_of_ahead_cons found more)), if_neg List.not_mem_nil]
      rw [hbody, hwritten]
      simp only [plan, readPlan, Plan.map, Plan.lend, Boundary.stock, found,
        Feed.next_of_ahead_cons more, Ending.map, Function.comp_apply]
    · rw [clear, Jvm.arrayError?_of_sound (small b (due?_of_ahead_cons found more))] at refused
      cases refused
  · rw [body_of_not_next hnext, Plan.ending_run_of_not_fires quiet]

end JavaSurface.Call

/-! ## Operations -/

inductive Operation
  | create (count : Int32) (size : UInt64) (key : Keystream.Key)
  | hasNext (raw : UInt64)
  /-- A read. Java has no use for the destination. -/
  | next (raw : UInt64) (destination : Destination)
  | dispose (raw : UInt64)

/-- What an operation gives. -/
inductive Outcome
  | issued (handle : Handle)
  | flag (more : Bool)
  | buffer (bytes : Bytes)
  | disposed

namespace Outcome

/-- In the words of C. -/
def toC (capacity : Nat) : Outcome → CSurface.Reply
  | .issued handle => .created handle.raw
  | .flag more => .flag (if more then 1 else 0)
  | .buffer bytes => .read (.ofBuffer capacity bytes)
  | .disposed => .disposed

/-- In the words of Java. -/
def toJava : Outcome → JavaSurface.Reply
  | .issued handle => .created handle.long
  | .flag more => .flag more
  | .buffer bytes => .array (some bytes)
  | .disposed => .disposed

end Outcome

namespace Operation

/-- The operation as a call from C. -/
def toC : Operation → CSurface.Call
  | .create count size key => .create count size key
  | .hasNext raw => .hasNext raw
  | .next raw d => .next raw d
  | .dispose raw => .dispose raw

/-- The operation as a call from Java, with the same bits for every word. -/
def toJava : Operation → JavaSurface.Call
  | .create count size key => .create count size.toInt64 key
  | .hasNext raw => .hasNext raw.toInt64
  | .next raw _ => .next raw.toInt64
  | .dispose raw => .dispose raw.toInt64

/-- The handle that an operation names. -/
def handle? : Operation → Option Handle
  | .create .. => none
  | .hasNext raw | .next raw _ | .dispose raw => some (.ofRaw raw)

/-- Both surfaces take the operation. -/
def Admissible : Operation → Prop
  | .create _ size _ => size.toNat < 2 ^ 63
  | .next _ d => 0 ≤ d.length ∧ (d.length = 0 ∨ d.address ≠ 0)
  | .hasNext _ | .dispose _ => True

instance : (op : Operation) → Decidable op.Admissible
  | .create _ size _ => inferInstanceAs (Decidable (size.toNat < 2 ^ 63))
  | .next _ d => inferInstanceAs (Decidable (0 ≤ d.length ∧ (d.length = 0 ∨ d.address ≠ 0)))
  | .hasNext _ | .dispose _ => inferInstanceAs (Decidable True)

/-- What is planned, whichever surface it is for. -/
def plan : Operation → Plan Outcome
  | .create count size key =>
    Plan.given (IntRange.size count.toInt) fun n => (Plan.supplyFresh n size.toNat key).map .issued
  | .hasNext raw => Plan.lend (.ofRaw raw) .hasMore fun f => .value (.flag f.hasMore)
  | .next raw _ =>
    Plan.lend (.ofRaw raw) .next fun f =>
      match f.next.1 with
      | .ok buffer => .value (.buffer buffer)
      | .error e => .failure e
  | .dispose raw => (Plan.release (.ofRaw raw)).map fun _ => .disposed

/-- The ways for an operation on a table to end. -/
inductive Ends (k : Stock) : Operation → Ending Outcome → Prop
  | negative {count : Int32} {size : UInt64} {key : Keystream.Key} (h : count < 0) :
      Ends k (.create count size key)
        (.failure (.invalid "number too small to fit in target type"))
  | issued {count : Int32} {size : UInt64} {key : Keystream.Key} {f : Feed} (h : ¬ count < 0)
      (made : Feed.ofEntropy count.toInt.toNat size.toNat key = some f) :
      Ends k (.create count size key) (.value (.issued (k.table.insert f).1))
  | looked {raw : UInt64} {f : Feed} (found : k.table.get? (.ofRaw raw) = some f) :
      Ends k (.hasNext raw) (.value (.flag f.hasMore))
  | read {raw : UInt64} {d : Destination} {f : Feed} {b : Bytes} {bs : List Bytes}
      (found : k.table.get? (.ofRaw raw) = some f) (more : f.ahead = b :: bs) :
      Ends k (.next raw d) (.value (.buffer b))
  | finished {raw : UInt64} {d : Destination} {f : Feed}
      (found : k.table.get? (.ofRaw raw) = some f) (nothing : f.ahead = []) :
      Ends k (.next raw d) (.failure .exhausted)
  | disposed {raw : UInt64} {f : Feed} (found : k.table.get? (.ofRaw raw) = some f) :
      Ends k (.dispose raw) (.value .disposed)
  | unknown {op : Operation} {h : Handle} (names : op.handle? = some h)
      (absent : k.table.get? h = none) : Ends k op (.failure (.stale h))

variable {op : Operation} {k : Stock} {s : Boundary}

/-- The ways for an operation to end are the ways for its plan to end. There is no panic among them:
a feed whose size is a number to Java can be made. -/
theorem ends_plan (ok : op.Admissible) (k : Stock) : op.Ends k (op.plan.outcome k).2 := by
  cases op with
  | create count size key =>
    by_cases hneg : count < 0
    · have hcount : count.toInt < 0 := Int32.lt_iff_toInt_lt.mp hneg
      rw [plan, IntRange.size_of_neg hcount]
      exact .negative hneg
    · have hcount : 0 ≤ count := Int32.not_lt.mp hneg
      have hfits := (Feed.fits_iff_of_nonneg hcount size.toNat).mpr (.inr (Nat.le_sub_one_of_lt ok))
      obtain ⟨f, made⟩ := Feed.exists_ofEntropy hfits key
      rw [plan, IntRange.size_of_int32 hcount]
      simp only [Plan.given, Plan.map, Plan.supplyFresh, made]
      exact .issued hneg made
  | hasNext raw =>
    cases found : k.table.get? (.ofRaw raw) with
    | none =>
      simp only [plan, Plan.lend, found]
      exact .unknown rfl found
    | some f =>
      simp only [plan, Plan.lend, found]
      exact .looked found
  | next raw d =>
    cases found : k.table.get? (.ofRaw raw) with
    | none =>
      simp only [plan, Plan.lend, found]
      exact .unknown rfl found
    | some f =>
      cases hahead : f.ahead with
      | nil =>
        simp only [plan, Plan.lend, found, Feed.next_of_ahead_nil hahead]
        exact .finished found hahead
      | cons b bs =>
        simp only [plan, Plan.lend, found, Feed.next_of_ahead_cons hahead]
        exact .read found hahead
  | dispose raw =>
    cases found : k.table.get? (.ofRaw raw) with
    | none =>
      simp only [plan, Plan.release, Plan.map, found]
      exact .unknown rfl found
    | some f =>
      simp only [plan, Plan.release, Plan.map, found]
      exact .disposed found

/-! ## In the words of C -/

/-- How much of a buffer an operation takes. -/
def capacity : Operation → Nat
  | .next _ d => d.length.toInt.toNat
  | _ => 0

/-- What C logs of a failure. The expected end of a walk is not worth a line. -/
def warning : Operation → Failure → Option Record
  | .create count size _, f => some (.createFailed count size f)
  | .hasNext _, f => some (.failed .hasNext f)
  | .next .., f => if f.isExhausted then none else some (.failed .next f)
  | .dispose _, f => some (.failed .dispose f)

/-- What C answers to a failure. -/
def refusal : Operation → Failure → CSurface.Reply
  | .create .., _ => .created Handle.nullRaw
  | .hasNext _, _ => .flag 0
  | .next .., f => .read ⟨CSurface.codeOf f, []⟩
  | .dispose _, _ => .disposed

theorem capacity?_of_admissible {raw : UInt64} {d : Destination} (ok : (next raw d).Admissible) :
    CSurface.capacity? d = some d.length.toInt.toNat :=
  CSurface.capacity?_of_valid ok

/-- **C rescues the plan of an operation** from its failures. -/
theorem plan_toC (ok : op.Admissible) :
    op.toC.plan = (op.plan.map (Outcome.toC op.capacity)).rescue op.warning op.refusal := by
  cases op with
  | create count size key =>
    simp only [toC, CSurface.Call.plan, CSurface.createPlan, plan, Plan.map_rescue, Plan.map_given,
      Plan.map_map]
    rfl
  | hasNext raw =>
    simp only [toC, CSurface.Call.plan, CSurface.hasNextPlan, plan, Plan.map_rescue, Plan.map_lend]
    rfl
  | next raw d =>
    simp only [toC, CSurface.Call.plan, CSurface.nextPlan, capacity?_of_admissible ok, plan,
      Plan.map_rescue, Plan.map_lend]
    refine congrArg (fun p : Plan CSurface.Reply => p.rescue _ _) (congrArg (Plan.lend _ _) ?_)
    funext f
    cases f.next.1 <;> rfl
  | dispose raw =>
    simp only [toC, CSurface.Call.plan, CSurface.disposePlan, plan, Plan.map_rescue, Plan.map_map]
    rfl

/-- How C puts an ending. -/
def answerInC (op : Operation) : Ending Outcome → CSurface.Reply
  | .value outcome => outcome.toC op.capacity
  | .failure f => op.refusal f
  | .panic _ => op.toC.fallback

theorem ending_toC (ok : op.Admissible) (unarmed : s.armed = false) :
    (op.toC.act s).ending = .value (op.answerInC (op.plan.outcome s.stock).2) := by
  have hquiet : op.toC.plan.fires s = false := by rw [Plan.fires, unarmed, Bool.false_and]
  rw [CSurface.Call.ending_act_of_not_fires hquiet, plan_toC ok]
  cases hout : (op.plan.outcome s.stock).2 <;>
    simp only [Plan.rescue, Plan.map, hout, Ending.map, CSurface.contained, answerInC]

/-! ## In the words of Java -/

/-- **Java takes the plan of an operation as it is.** -/
theorem plan_toJava (ok : op.Admissible) : op.toJava.plan = op.plan.map Outcome.toJava := by
  cases op with
  | create count size key =>
    have hlt : size.toNat < 2 ^ 63 := ok
    have hsize : size.toInt64.toInt = size.toNat :=
      BitVec.toInt_eq_toNat_of_lt (x := size.toBitVec) (by show 2 * size.toNat < 2 ^ 64; omega)
    have hbytes : IntRange.size size.toInt64.toInt = .ok size.toNat := by
      rw [hsize, IntRange.size_of_nonneg (Int.natCast_nonneg _)
        (Int.le_sub_one_of_lt (Int.ofNat_lt.mpr size.toNat_lt)), Int.toNat_natCast]
    simp only [toJava, JavaSurface.Call.plan, JavaSurface.createPlan, plan, hbytes, Plan.map_given,
      Plan.map_map]
    rfl
  | hasNext raw =>
    simp only [toJava, JavaSurface.Call.plan, JavaSurface.hasNextPlan, plan, Handle.ofLong_toInt64,
      Plan.map_lend]
    rfl
  | next raw d =>
    simp only [toJava, JavaSurface.Call.plan, JavaSurface.readPlan, plan, Handle.ofLong_toInt64,
      Plan.map_lend]
    refine congrArg (Plan.lend _ _) ?_
    funext f
    cases f.next.1 <;> rfl
  | dispose raw =>
    simp only [toJava, JavaSurface.Call.plan, plan, Handle.ofLong_toInt64, Plan.map_map]
    rfl

/-- How Java puts an ending. -/
def answerInJava (op : Operation) (ending : Ending Outcome) : JavaSurface.Reply :=
  JavaSurface.answered op.toJava.fallback (ending.map Outcome.toJava)

theorem act_toJava (ok : op.Admissible) (unarmed : s.armed = false) (clear : s.pending = none)
    (small : ∀ b, op.toJava.due? s = some b → b.length < 2 ^ 31) :
    (op.toJava.act [] s).ending = .value (op.answerInJava (op.plan.outcome s.stock).2) ∧
      (op.toJava.act [] s).state.pending =
        JavaSurface.exception? op.toJava.method (op.plan.outcome s.stock).2 := by
  have hquiet : op.toJava.plan.fires s = false := by rw [Plan.fires, unarmed, Bool.false_and]
  have hbody : (op.toJava.body [] s).ending =
      (op.plan.outcome s.stock).2.map Outcome.toJava := by
    rw [JavaSurface.Call.ending_body_of_sound hquiet clear small, plan_toJava ok, Plan.map]
  refine ⟨?_, ?_⟩
  · rw [JavaSurface.Call.act, JavaSurface.ending_guarded, hbody]
    rfl
  · rw [JavaSurface.Call.pending_act_of_sound clear small, hbody, JavaSurface.exception?_map]

end Operation

end BufferFeed

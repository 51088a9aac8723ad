import BufferFeed.Proofs.Boundary.Reads

/-!
# No failure is lost on the way to Java

A body that fails or panics leaves an exception pending, or else a line of the log that names the
class of the exception that could not be raised: there is no third way out of the guard, whatever is
wrong with the machine and whatever was pending before (`pending_or_unraised`). In a machine without
faults it is the exception of the cause, and it is pending for no other reason
(`no_failure_is_silent`).

One exception of such a machine is its own: a buffer may be too long for a Java array, and then the
length that is asked for can come out below zero. The machine throws at that, so what the read is
refused for is not raised any more (`Call.pending_act_of_overlong`).

Which bodies fail, and why, is said by `Call.Refusal`, one constructor a cause
(`Call.failure_body_iff`). A panic is none of these causes. It comes from a feed that cannot be
made, or from an armed logger.
-/

namespace BufferFeed.JavaSurface

open Jvm (Fault)

variable {α : Type} {faults : List Fault} {s : Boundary}

/-! ## What the guard makes of an ending -/

/-- The answer to an ending. -/
def answered (fallback : α) : Ending α → α
  | .value a => a
  | .failure _ | .panic _ => fallback

/-- The failure that is reported of an ending. -/
def reported? (method : JavaMethod) : Ending α → Option Failure
  | .value _ => none
  | .failure f => some f
  | .panic _ => some (panicFailure method)

/-- What the guard logs of an ending before it reports it. -/
def endingLine (method : JavaMethod) : Ending α → List Record
  | .value _ => []
  | .failure f => failureLine method f
  | .panic _ => [.methodPanicked method]

theorem reported?_eq_none_iff {method : JavaMethod} {ending : Ending α} :
    reported? method ending = none ↔ ∃ a, ending = .value a := by
  cases ending with
  | value a => exact ⟨fun _ => ⟨a, rfl⟩, fun _ => rfl⟩
  | failure f => exact ⟨fun h => (nomatch h), fun ⟨_, h⟩ => (nomatch h)⟩
  | panic m => exact ⟨fun h => (nomatch h), fun ⟨_, h⟩ => (nomatch h)⟩

/-- **A failure that is reported becomes pending or is logged.** -/
theorem pending_or_unraised (faults : List Fault) (f : Failure) (pending : Option Jvm.Throwable) :
    (raised faults f pending).2.pending.isSome = true ∨
      ∃ e, .raiseFailed (className f) e ∈ unraised faults f pending := by
  unfold unraised
  cases hr : raised faults f pending with
  | mk r m =>
    cases r with
    | ok u => exact .inl (Jvm.isSome_pending_of_raise hr)
    | error e => exact .inr ⟨e, List.mem_singleton_self _⟩

/-- A machine without faults raises the exception unless another one is pending already. -/
theorem raised_of_sound (f : Failure) (pending : Option Jvm.Throwable) :
    (raised [] f pending).2.pending = pending.or (some (exceptionOf f)) ∧
      unraised [] f pending = [] := by
  obtain ⟨calls, hraise⟩ := Jvm.raise_of_sound (exceptionOf f) pending
  have hraised : raised [] f pending =
      (.ok (), ⟨[], pending.or (some (exceptionOf f)), calls⟩) := hraise
  simp only [unraised, hraised, and_self]

section Guard

variable {method : JavaMethod} {fallback : α} {x : Act α} {f : Failure}

theorem ending_guarded : (guarded faults method fallback x s).ending =
    .value (answered fallback (x s).ending) := by
  cases hx : x s with
  | mk ending t es =>
    cases ending with
    | value a =>
      rw [guarded_of_value hx]
      rfl
    | failure f =>
      rw [guarded_of_failure hx]
      rfl
    | panic m =>
      rw [guarded_of_panic hx]
      rfl

/-- A body that answers is not touched by the guard. -/
theorem guarded_eq_of_value {a : α} (h : (x s).ending = .value a) :
    guarded faults method fallback x s = x s := by
  cases hx : x s with
  | mk ending t es =>
    rw [hx] at h
    cases h
    exact guarded_of_value hx

/-- What is not a value is reported, whether it is a failure or a panic. -/
theorem guarded_of_reported (faults : List Fault) (fallback : α)
    (h : reported? method (x s).ending = some f) :
    (guarded faults method fallback x s).state.pending =
        (raised faults f (x s).state.pending).2.pending ∧
      (guarded faults method fallback x s).log =
        (x s).log ++ (endingLine method (x s).ending ++ unraised faults f (x s).state.pending) := by
  cases hx : x s with
  | mk ending t es =>
    rw [hx] at h
    cases ending with
    | value a => cases h
    | failure e =>
      cases h
      rw [guarded_of_failure hx]
      refine ⟨rfl, ?_⟩
      simp only [Run.log, List.filterMap_append, filterMap_record?_logged, log_reportEvents,
        endingLine]
    | panic m =>
      cases h
      rw [guarded_of_panic hx]
      refine ⟨rfl, ?_⟩
      simp only [Run.log, List.filterMap_append, List.filterMap_cons, Event.record?,
        log_reportEvents, endingLine, List.cons_append, List.nil_append]

theorem raiseFailed_notMem_endingLine (c : String) (e : Jvm.Error) (ending : Ending α) :
    .raiseFailed c e ∉ endingLine method ending := by
  cases ending with
  | value a => exact List.not_mem_nil
  | failure f =>
    cases hf : f.isExhausted <;>
      simp only [endingLine, failureLine, hf, Bool.false_eq_true, if_false, if_true,
        List.mem_singleton, List.not_mem_nil, reduceCtorEq, not_false_eq_true]
  | panic m => simp only [endingLine, List.mem_singleton, reduceCtorEq, not_false_eq_true]

end Guard

/-! ## Why a body fails -/

namespace Call

variable {call : Call} {e : Failure}

/-- A number below zero is among the arguments. -/
def Negative : Call → Prop
  | .create count size _ => count < 0 ∨ size < 0
  | _ => False

/-- The count is looked at first; a number below zero ends the call before anything is made. -/
theorem plan_of_negative {count : Int32} {size : Int64} {key : Keystream.Key}
    (h : (create count size key).Negative) :
    (create count size key).plan =
      .say none (.failure (.invalid "number too small to fit in target type")) := by
  by_cases hcount : count < 0
  · rw [plan, createPlan, IntRange.size_of_neg (Int32.lt_iff_toInt_lt.mp hcount)]
    rfl
  · have hsize : size < 0 := h.resolve_left hcount
    rw [plan, createPlan, IntRange.size_of_int32 (Int32.not_lt.mp hcount),
      IntRange.size_of_neg (Int64.lt_iff_toInt_lt.mp hsize)]
    rfl

theorem plan_of_nonneg {count : Int32} {size : Int64} (hcount : 0 ≤ count) (hsize : 0 ≤ size)
    (key : Keystream.Key) :
    (create count size key).plan =
      (Plan.supplyFresh count.toInt.toNat size.toInt.toNat key).map
        (Reply.created ∘ Handle.long) := by
  rw [plan, createPlan, IntRange.size_of_int32 hcount, IntRange.size_of_int64 hsize, Plan.given,
    Plan.given, Plan.map_map]

theorem ending_body_of_negative (h : call.Negative) :
    (call.body faults s).ending = .failure (.invalid "number too small to fit in target type") := by
  cases call with
  | create count size key =>
    rw [body_create, plan_of_negative h]
    rfl
  | hasNext long => cases h
  | next long => cases h
  | dispose long => cases h

/-- A method that reads nothing is its plan. -/
theorem body_of_not_next (h : ¬ ∃ long, call = .next long) : call.body faults = call.plan.run := by
  cases call with
  | create count size key => exact body_create faults count size key
  | hasNext long => rw [body, hasNext_eq, plan, Plan.run_map]
  | next long => exact absurd ⟨long, rfl⟩ h
  | dispose long => rw [body, dispose_eq, plan, Plan.run_map]

/-- What a native method logs of itself is the table's. -/
theorem target_of_record {k : Stock} {r : Record} (h : (call.plan.outcome k).1 = some r) :
    r.target = .table := by
  cases call with
  | create count size key =>
    simp only [plan, createPlan, Plan.given] at h
    split at h
    · split at h
      · simp only [Plan.map, Plan.supplyFresh] at h
        split at h
        · cases h
          rfl
        · cases h
      · cases h
    · cases h
  | hasNext long =>
    have hsilent : ((hasNextPlan long).outcome k).1 = none := Plan.silent_lend _ _ _ k
    cases hsilent.symm.trans h
  | next long =>
    have hsilent : ((readPlan long).outcome k).1 = none := Plan.silent_lend _ _ _ k
    cases hsilent.symm.trans h
  | dispose long =>
    simp only [plan, Plan.map, Plan.release] at h
    split at h
    · cases h
      rfl
    · cases h

theorem raiseFailed_notMem_log_body (faults : List Fault) (call : Call) (s : Boundary) (c : String)
    (e : Jvm.Error) : .raiseFailed c e ∉ (call.body faults s).log := by
  rw [log_body, Option.mem_toList]
  intro h
  cases target_of_record h

/-- **The log names the failure of a method**, unless it is the expected end of a walk. -/
theorem methodFailed_mem_log_iff (failed : (call.body faults s).ending = .failure e)
    {method : JavaMethod} {f : Failure} :
    .methodFailed method f ∈ (call.act faults s).log ↔
      method = call.method ∧ f = e ∧ e.isExhausted = false := by
  have hreported : reported? call.method (call.body faults s).ending = some e := by
    rw [failed]
    rfl
  obtain ⟨-, hlog⟩ := guarded_of_reported faults call.fallback hreported
  have hbody : .methodFailed method f ∉ (call.body faults s).log := by
    rw [log_body, Option.mem_toList]
    intro hr
    cases target_of_record hr
  have hunraised : ∀ pending, .methodFailed method f ∉ unraised faults e pending := by
    intro pending
    unfold unraised
    split
    · exact List.not_mem_nil
    · simp only [List.mem_singleton, reduceCtorEq, not_false_eq_true]
  rw [act, hlog, List.mem_append, List.mem_append, or_iff_right hbody, or_iff_left (hunraised _),
    failed]
  cases hexhausted : e.isExhausted <;>
    simp only [endingLine, failureLine, hexhausted, Bool.false_eq_true, if_false, if_true,
      List.mem_singleton, List.not_mem_nil, Record.methodFailed.injEq, and_true, reduceCtorEq,
      and_false]

/-! ## What is pending behind a body -/

/-- The buffer that a read has to hand over. -/
def due? (s : Boundary) : Call → Option Bytes
  | .next long => (s.table.get? (.ofLong long)).bind fun f => f.ahead.head?
  | _ => none

theorem due?_of_ahead_cons {long : Int64} {f : Feed} {b : Bytes} {bs : List Bytes}
    (found : s.table.get? (.ofLong long) = some f) (more : f.ahead = b :: bs) :
    (next long).due? s = some b := by
  rw [due?, found, Option.bind_some, more, List.head?_cons]

/-- In a machine without faults nothing becomes pending before the guard reports it, unless an array
is asked for that is too long. -/
theorem pending_body_of_sound (clear : s.pending = none)
    (small : ∀ b, call.due? s = some b → b.length < 2 ^ 31) :
    (call.body [] s).state.pending = none := by
  by_cases hnext : ∃ long, call = .next long
  · obtain ⟨long, rfl⟩ := hnext
    rcases body_next_cases [] long s with ⟨-, hbody⟩ | ⟨f, -, -, hbody⟩ |
      ⟨f, b, bs, -, -, -, es, hbody⟩ | ⟨f, b, bs, j, found, more, refused, -⟩
    · rw [hbody]
      exact clear
    · rw [hbody]
      exact clear
    · rw [hbody]
      exact clear
    · rw [clear, Jvm.arrayError?_of_sound (small b (due?_of_ahead_cons found more))] at refused
      cases refused
  · rw [body_of_not_next hnext, Plan.pending_run]
    exact clear

/-- The machine throws over a length that comes out below zero. -/
theorem pending_body_of_overlong (clear : s.pending = none) {b : Bytes}
    (due : call.due? s = some b) (overlong : 2 ^ 31 ≤ b.length % 2 ^ 32) :
    (call.body [] s).state.pending = some (Jvm.lengthError (Int32.ofNat b.length)) := by
  cases call with
  | next long =>
    obtain ⟨f, found, hb⟩ := Option.bind_eq_some_iff.mp due
    obtain ⟨bs, more⟩ := List.head?_eq_some_iff.mp hb
    rw [body_next_of_ahead_cons found more, Act.map_apply, deliver_apply, handed]
    show (Jvm.byteArray b (.enter [] s.pending)).2.pending = _
    rw [clear, Jvm.pending_byteArray_of_overlong overlong]
  | _ => cases due

end Call

/-! ## The exception of an ending -/

/-- The exception that Java is to see of an ending. The class tells the cause, and the message is
the failure's own. -/
def exception? (method : JavaMethod) : Ending α → Option Jvm.Throwable
  | .value _ => none
  | .failure .exhausted =>
    some ⟨"java/util/NoSuchElementException", "No more elements in iterator"⟩
  | .failure (.stale h) =>
    some ⟨"java/lang/IllegalStateException", "Stale or unknown iterator handle: " ++ h.text⟩
  | .failure (.invalid reason) =>
    some ⟨"java/lang/IllegalArgumentException", "Invalid argument: " ++ reason⟩
  | .failure (.other trail) => some ⟨"java/lang/RuntimeException", trail.message⟩
  | .panic _ => some ⟨"java/lang/RuntimeException", "panic in native " ++ method.name⟩

theorem exception?_eq (method : JavaMethod) (ending : Ending α) :
    exception? method ending = (reported? method ending).map exceptionOf := by
  cases ending with
  | value a => rfl
  | failure f => cases f <;> rfl
  | panic m => rfl

/-- The exception is the same whatever the value would have been. -/
theorem exception?_map {β : Type} (method : JavaMethod) (g : α → β) (ending : Ending α) :
    exception? method (ending.map g) = exception? method ending := by
  rw [exception?_eq, exception?_eq]
  cases ending <;> rfl

namespace Call

/-- **In a machine without faults it is the exception of the ending that is pending after a call**,
unless the body left another one; and no line is about an exception that was not raised. -/
theorem act_of_sound (call : Call) (s : Boundary) :
    (call.act [] s).state.pending =
        (call.body [] s).state.pending.or (exception? call.method (call.body [] s).ending) ∧
      ∀ c e, .raiseFailed c e ∉ (call.act [] s).log := by
  have hlog := raiseFailed_notMem_log_body [] call s
  rw [exception?_eq]
  cases hf : reported? call.method (call.body [] s).ending with
  | none =>
    obtain ⟨a, ha⟩ := reported?_eq_none_iff.mp hf
    rw [act, guarded_eq_of_value ha, Option.map_none, Option.or_none]
    exact ⟨rfl, hlog⟩
  | some f =>
    obtain ⟨hpending, hlines⟩ := guarded_of_reported [] call.fallback hf
    obtain ⟨hraised, hunraised⟩ := raised_of_sound f (call.body [] s).state.pending
    rw [act, hpending, hlines, hraised, hunraised, List.append_nil]
    refine ⟨rfl, fun c e hmem => ?_⟩
    rcases List.mem_append.mp hmem with hmem | hmem
    · exact hlog c e hmem
    · exact raiseFailed_notMem_endingLine c e _ hmem

theorem pending_act_of_sound {call : Call} (clear : s.pending = none)
    (small : ∀ b, call.due? s = some b → b.length < 2 ^ 31) :
    (call.act [] s).state.pending = exception? call.method (call.body [] s).ending := by
  rw [(call.act_of_sound s).1, pending_body_of_sound clear small, Option.none_or]

/-- **A buffer that is too long for an array is reported by the machine**, where its length comes
out below zero. -/
theorem pending_act_of_overlong {call : Call} (clear : s.pending = none) {b : Bytes}
    (due : call.due? s = some b) (overlong : 2 ^ 31 ≤ b.length % 2 ^ 32) :
    (call.act [] s).state.pending = some (Jvm.lengthError (Int32.ofNat b.length)) := by
  rw [(call.act_of_sound s).1, pending_body_of_overlong clear due overlong, Option.some_or]

/-- A read that has a buffer to hand over is answered by an array in a machine without faults,
unless the machine throws over the length. -/
theorem act_next_of_sound (clear : s.pending = none) {long : Int64} {b : Bytes}
    (due : (next long).due? s = some b) :
    ∃ contents, ((next long).act [] s).ending = .value (.array contents) ∧
      (contents = none → ((next long).act [] s).state.pending =
        some (Jvm.lengthError (Int32.ofNat b.length))) := by
  obtain ⟨f, found, hb⟩ := Option.bind_eq_some_iff.mp due
  obtain ⟨bs, more⟩ := List.head?_eq_some_iff.mp hb
  cases harray : Jvm.arrayError? [] s.pending b.length with
  | none =>
    obtain ⟨es, hbody⟩ := body_next_of_given found more harray
    refine ⟨some (Jvm.written [] b), ?_, fun h => absurd h (Option.some_ne_none _)⟩
    rw [act, ending_guarded, hbody]
    rfl
  | some e =>
    obtain ⟨pending, es, hbody⟩ := body_next_of_error found more harray
    have overlong : 2 ^ 31 ≤ b.length % 2 ^ 32 := by
      rw [clear] at harray
      refine Decidable.not_not.mp fun small => ?_
      rw [Jvm.arrayError?_sound_eq_none_iff.mpr small] at harray
      cases harray
    refine ⟨none, ?_, fun _ => pending_act_of_overlong clear due overlong⟩
    rw [act, ending_guarded, hbody]
    rfl

end Call

end BufferFeed.JavaSurface

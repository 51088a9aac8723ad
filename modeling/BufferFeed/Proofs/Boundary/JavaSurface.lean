import BufferFeed.Boundary.JavaSurface
import BufferFeed.Proofs.Boundary.Plan

/-!
# The plans of the Java surface

A native method is its body behind the guard, and the body is a plan, but for `next`: the buffer is
read by a plan, and delivering it is the machine's affair (`next_eq`). What the machine does changes
only which exception is pending. So the table and the logger are left as the plan leaves them,
whatever the machine does (`Call.stock_act`, `Call.armed_act`), and a body that fails or panics does
so before the machine is asked anything (`Call.body_of_not_value`).

The guard writes only records of the Java surface, at which no logger panics.
-/

namespace BufferFeed.JavaSurface

open Jvm (Fault)

variable {α : Type}

theorem onMachine_apply (faults : List Fault) (op : Jvm.Op α) (s : Boundary) :
    Act.onMachine faults op s =
      ⟨.value (op (.enter faults s.pending)).1,
        { s with pending := (op (.enter faults s.pending)).2.pending },
        (op (.enter faults s.pending)).2.calls.map .called⟩ := rfl

/-! ## Reporting -/

/-- What the machine makes of the exception that reports a failure. -/
def raised (faults : List Fault) (f : Failure) (pending : Option Jvm.Throwable) :
    Except Jvm.Error Unit × Jvm.Machine :=
  Jvm.raise (exceptionOf f) (.enter faults pending)

/-- The line about an exception that did not become pending. -/
def unraised (faults : List Fault) (f : Failure) (pending : Option Jvm.Throwable) : List Record :=
  match (raised faults f pending).1 with
  | .ok () => []
  | .error e => [.raiseFailed (className f) e]

/-- What can be watched of a report. -/
def reportEvents (faults : List Fault) (f : Failure) (pending : Option Jvm.Throwable) :
    List Event :=
  (raised faults f pending).2.calls.map .called ++ (unraised faults f pending).map .logged

theorem report_apply (faults : List Fault) (f : Failure) (s : Boundary) :
    report faults f s =
      ⟨.value (), { s with pending := (raised faults f s.pending).2.pending },
        reportEvents faults f s.pending⟩ := by
  have hmachine : Act.onMachine faults (Jvm.raise (exceptionOf f)) s =
      ⟨.value (raised faults f s.pending).1,
        { s with pending := (raised faults f s.pending).2.pending },
        (raised faults f s.pending).2.calls.map .called⟩ := onMachine_apply _ _ _
  rw [report, Act.bind_of_value hmachine]
  cases hr : (raised faults f s.pending).1 with
  | ok u => simp only [reportEvents, unraised, hr, pure, List.map_nil]
  | error e =>
    simp only [Act.emit_of_not_trips (r := .raiseFailed (className f) e) (Bool.and_false _),
      reportEvents, unraised, hr, List.map_cons, List.map_nil]

theorem report_bind_pure (faults : List Fault) (f : Failure) (a : α) (s : Boundary) :
    (report faults f >>= fun _ => pure a) s =
      ⟨.value a, { s with pending := (raised faults f s.pending).2.pending },
        reportEvents faults f s.pending⟩ := by
  rw [Act.bind_of_value (report_apply faults f s)]
  simp only [pure, List.append_nil]

theorem filterMap_record?_called (calls : List Jvm.Call) :
    (calls.map Event.called).filterMap Event.record? = [] := by
  rw [List.filterMap_map, List.filterMap_eq_nil_iff]
  exact fun _ _ => rfl

theorem filterMap_record?_logged (records : List Record) :
    (records.map Event.logged).filterMap Event.record? = records := by
  rw [List.filterMap_map]
  exact List.filterMap_some

theorem log_reportEvents (faults : List Fault) (f : Failure) (pending : Option Jvm.Throwable) :
    (reportEvents faults f pending).filterMap Event.record? = unraised faults f pending := by
  rw [reportEvents, List.filterMap_append, filterMap_record?_called, filterMap_record?_logged,
    List.nil_append]

/-! ## The guard -/

section Guard

variable {faults : List Fault} {method : JavaMethod} {fallback : α} {x : Act α} {s t : Boundary}
  {es : List Event}

/-- The line about a failure; the expected end of a walk has none. -/
def failureLine (method : JavaMethod) (f : Failure) : List Record :=
  if f.isExhausted then [] else [.methodFailed method f]

theorem guarded_of_value {a : α} (h : x s = ⟨.value a, t, es⟩) :
    guarded faults method fallback x s = ⟨.value a, t, es⟩ := by
  rw [guarded, Act.bind_of_value (Act.attempt_apply h)]
  simp only [pure, List.append_nil]

theorem guarded_of_failure {f : Failure} (h : x s = ⟨.failure f, t, es⟩) :
    guarded faults method fallback x s =
      ⟨.value fallback, { t with pending := (raised faults f t.pending).2.pending },
        es ++ ((failureLine method f).map .logged ++ reportEvents faults f t.pending)⟩ := by
  have hrest : (do
      unless f.isExhausted do Act.emit (.methodFailed method f)
      report faults f
      return fallback : Act α) t =
        ⟨.value fallback, { t with pending := (raised faults f t.pending).2.pending },
          (failureLine method f).map .logged ++ reportEvents faults f t.pending⟩ := by
    cases hf : f.isExhausted with
    | true =>
      simp only [failureLine, hf, if_true, List.map_nil, List.nil_append]
      exact report_bind_pure faults f fallback t
    | false =>
      have hline := Act.emit_of_not_trips (s := t) (r := .methodFailed method f) (Bool.and_false _)
      simp only [failureLine, hf, Bool.false_eq_true, if_false, List.map_cons, List.map_nil]
      rw [Act.bind_of_value hline, report_bind_pure]
  rw [guarded, Act.bind_of_value (Act.attempt_apply h)]
  simp only [hrest]

/-- A panic is logged, and reported as a failure of its own. -/
theorem guarded_of_panic {m : String} (h : x s = ⟨.panic m, t, es⟩) :
    guarded faults method fallback x s =
      ⟨.value fallback,
        { t with pending := (raised faults (panicFailure method) t.pending).2.pending },
        es ++ (.logged (.methodPanicked method) ::
          reportEvents faults (panicFailure method) t.pending)⟩ := by
  have hline := Act.emit_of_not_trips (s := t) (r := .methodPanicked method) (Bool.and_false _)
  rw [guarded, Act.bind_of_value (Act.attempt_apply h)]
  simp only [Act.bind_of_value hline, report_bind_pure, List.cons_append, List.nil_append]

/-- What a guarded body answers is its own value or the fallback. -/
theorem eq_fallback_or_value {a : α} (h : (guarded faults method fallback x s).ending = .value a) :
    a = fallback ∨ (x s).ending = .value a := by
  cases hx : x s with
  | mk ending t es =>
    cases ending with
    | value b =>
      rw [guarded_of_value hx] at h
      exact .inr h
    | failure f =>
      rw [guarded_of_failure hx] at h
      cases h
      exact .inl rfl
    | panic m =>
      rw [guarded_of_panic hx] at h
      cases h
      exact .inl rfl

/-- The guard changes nothing in the boundary but which exception is pending. -/
theorem state_guarded (faults : List Fault) (method : JavaMethod) (fallback : α) (x : Act α)
    (s : Boundary) :
    ∃ pending, (guarded faults method fallback x s).state =
      { (x s).state with pending := pending } := by
  cases hx : x s with
  | mk ending t es =>
    cases ending with
    | value a =>
      rw [guarded_of_value hx]
      exact ⟨t.pending, rfl⟩
    | failure f =>
      rw [guarded_of_failure hx]
      exact ⟨_, rfl⟩
    | panic m =>
      rw [guarded_of_panic hx]
      exact ⟨_, rfl⟩

theorem target_of_mem_unraised {f : Failure} {pending : Option Jvm.Throwable} {r : Record}
    (h : r ∈ unraised faults f pending) : r.target = .javaSurface := by
  unfold unraised at h
  split at h
  · cases h
  · rw [List.mem_singleton] at h
    rw [h]
    rfl

theorem target_of_mem_failureLine {f : Failure} {r : Record} (h : r ∈ failureLine method f) :
    r.target = .javaSurface := by
  unfold failureLine at h
  split at h
  · cases h
  · rw [List.mem_singleton] at h
    rw [h]
    rfl

/-- To what its body logs the guard adds lines of the Java surface only. -/
theorem log_guarded (faults : List Fault) (method : JavaMethod) (fallback : α) (x : Act α)
    (s : Boundary) :
    ∃ lines, (guarded faults method fallback x s).log = (x s).log ++ lines ∧
      ∀ r ∈ lines, r.target = .javaSurface := by
  cases hx : x s with
  | mk ending t es =>
    cases ending with
    | value a =>
      refine ⟨[], ?_, fun r hr => nomatch hr⟩
      rw [guarded_of_value hx, List.append_nil]
    | failure f =>
      refine ⟨failureLine method f ++ unraised faults f t.pending, ?_, ?_⟩
      · simp only [guarded_of_failure hx, Run.log, List.filterMap_append,
          filterMap_record?_logged, log_reportEvents]
      · intro r hr
        rcases List.mem_append.mp hr with hr | hr
        · exact target_of_mem_failureLine hr
        · exact target_of_mem_unraised hr
    | panic m =>
      refine ⟨.methodPanicked method :: unraised faults (panicFailure method) t.pending, ?_, ?_⟩
      · simp only [guarded_of_panic hx, Run.log, List.filterMap_append, List.filterMap_cons,
          Event.record?, log_reportEvents]
      · intro r hr
        rcases List.mem_cons.mp hr with rfl | hr
        · rfl
        · exact target_of_mem_unraised hr

end Guard

/-! ## The methods -/

def createPlan (count : Int32) (size : Int64) (key : Keystream.Key) : Plan Int64 :=
  Plan.given (IntRange.size count.toInt) fun n =>
    Plan.given (IntRange.size size.toInt) fun bytes =>
      (Plan.supplyFresh n bytes key).map Handle.long

def hasNextPlan (long : Int64) : Plan Bool :=
  Plan.lend (.ofLong long) .hasMore fun f => .value f.hasMore

/-- Takes the next buffer from the feed; it is not delivered yet. -/
def readPlan (long : Int64) : Plan Bytes :=
  Plan.lend (.ofLong long) .next fun f =>
    match f.next.1 with
    | .ok buffer => .value buffer
    | .error e => .failure e

/-- Hands a buffer over as an array. -/
def deliver (faults : List Fault) (buffer : Bytes) : Act Bytes := do
  match ← Act.onMachine faults (Jvm.byteArray buffer) with
  | .ok array => return array
  | .error e => Act.fail (allocationFailure buffer.length e)

theorem create_eq (count : Int32) (size : Int64) (key : Keystream.Key) :
    create count size key = (createPlan count size key).run := by
  unfold create createPlan
  rw [Plan.run_given]
  congr 1
  funext n
  rw [Plan.run_given]
  congr 1
  funext bytes
  rw [Plan.run_map, ← Plan.run_supplyFresh, ← bind_pure_comp, bind_assoc]

theorem hasNext_eq (long : Int64) : hasNext long = (hasNextPlan long).run := by
  have hrun := Plan.run_lend (.ofLong long) .hasMore (g := fun f => (f.hasMore, f)) (f := pure)
    (fun _ => rfl) fun _ => rfl
  rw [bind_pure] at hrun
  exact hrun

/-- Reading comes first, and delivering after that. -/
theorem next_eq (faults : List Fault) (long : Int64) :
    next faults long = (readPlan long).run >>= deliver faults := by
  have hrun := Plan.run_lend (.ofLong long) .next (g := Feed.next) (f := Act.ofExcept)
    (e := fun result =>
      match result with
      | .ok buffer => .value buffer
      | .error e => .failure e)
    (fun _ => rfl) fun result => by cases result <;> rfl
  have hread : (readPlan long).run = Act.lend (.ofLong long) Feed.next >>= Act.ofExcept :=
    hrun.symm
  rw [hread, bind_assoc]
  rfl

theorem dispose_eq (long : Int64) : dispose long = (Plan.release (.ofLong long)).run :=
  Plan.run_release _

/-- What the machine makes of a buffer that is handed over. -/
def handed (faults : List Fault) (buffer : Bytes) (pending : Option Jvm.Throwable) :
    Except Jvm.Error Bytes × Jvm.Machine :=
  Jvm.byteArray buffer (.enter faults pending)

/-- Delivering changes only which exception is pending, and logs nothing. -/
theorem deliver_apply (faults : List Fault) (buffer : Bytes) (s : Boundary) :
    deliver faults buffer s =
      ⟨match (handed faults buffer s.pending).1 with
        | .ok array => .value array
        | .error e => .failure (allocationFailure buffer.length e),
      { s with pending := (handed faults buffer s.pending).2.pending },
      (handed faults buffer s.pending).2.calls.map .called⟩ := by
  rw [deliver, Act.bind_of_value (onMachine_apply faults (Jvm.byteArray buffer) s), handed]
  cases (Jvm.byteArray buffer (.enter faults s.pending)).1 with
  | ok array => simp only [pure, List.append_nil]
  | error e => simp only [Act.fail, List.append_nil]

/-! ## Calls as data -/

namespace Call

/-- What is planned behind the guard, up to the delivery of a buffer. -/
def plan : Call → Plan Reply
  | .create count size key => (createPlan count size key).map .created
  | .hasNext long => (hasNextPlan long).map .flag
  | .next long => (readPlan long).map (.array ∘ some)
  | .dispose long => (Plan.release (.ofLong long)).map fun _ => .disposed

theorem proper_plan (call : Call) : call.plan.Proper := by
  cases call with
  | create count size key =>
    refine Plan.Proper.map (Plan.proper_given _ fun n => Plan.proper_given _ fun bytes => ?_) _
    exact (Plan.proper_supplyFresh _ _ _).map _
  | hasNext long => exact (Plan.proper_lend _ _ _).map _
  | next long => exact (Plan.proper_lend _ _ _).map _
  | dispose long => exact (Plan.proper_release _).map _

theorem body_create (faults : List Fault) (count : Int32) (size : Int64) (key : Keystream.Key) :
    body faults (.create count size key) = (plan (.create count size key)).run := by
  rw [body, create_eq, plan, Plan.run_map]

theorem body_next (faults : List Fault) (long : Int64) :
    body faults (.next long) =
      (readPlan long).run >>= fun buffer => (.array ∘ some) <$> deliver faults buffer := by
  rw [body, next_eq, ← bind_pure_comp, bind_assoc]
  rfl

/-- **A body is the run of its plan**, except that a buffer that was read is still to be
delivered. -/
theorem body_eq_or_delivered (faults : List Fault) (call : Call) (s : Boundary) :
    call.body faults s = call.plan.run s ∨
      ∃ a t, call.plan.run s = ⟨.value a, t, []⟩ ∧
        ∃ ending pending es, call.body faults s = ⟨ending, { t with pending := pending }, es⟩ ∧
          es.filterMap Event.record? = [] := by
  cases call with
  | create count size key =>
    rw [body_create]
    exact .inl rfl
  | hasNext long =>
    rw [body, hasNext_eq, plan, Plan.run_map]
    exact .inl rfl
  | dispose long =>
    rw [body, dispose_eq, plan, Plan.run_map]
    exact .inl rfl
  | next long =>
    have hread := Plan.run_of_silent (p := readPlan long) (s := s) (Plan.silent_lend _ _ _ _)
    rw [body_next, plan, Plan.run_map, Act.map_apply]
    cases hout : ((readPlan long).outcome s.stock).2 with
    | value buffer =>
      rw [hout] at hread
      refine .inr ⟨.array (some buffer), s.restock ((readPlan long).demand.meet s.stock), ?_, ?_⟩
      · rw [hread]
        rfl
      · rw [Act.bind_of_value hread, Act.map_apply, deliver_apply]
        exact ⟨_, _, _, rfl, filterMap_record?_called _⟩
    | failure e =>
      rw [hout] at hread
      rw [Act.bind_of_failure hread, hread]
      exact .inl rfl
    | panic m =>
      rw [hout] at hread
      rw [Act.bind_of_panic hread, hread]
      exact .inl rfl

theorem body_of_not_value {faults : List Fault} {call : Call} {s : Boundary}
    (h : ∀ a, (call.plan.run s).ending ≠ .value a) : call.body faults s = call.plan.run s := by
  rcases call.body_eq_or_delivered faults s with hsame | ⟨a, t, hrun, -⟩
  · exact hsame
  · exact absurd (by rw [hrun]) (h a)

theorem log_body (faults : List Fault) (call : Call) (s : Boundary) :
    (call.body faults s).log = (call.plan.outcome s.stock).1.toList := by
  rw [← Plan.log_run]
  rcases call.body_eq_or_delivered faults s with
    hsame | ⟨a, t, hrun, ending, pending, es, hbody, hes⟩
  · rw [hsame]
  · rw [hrun, hbody]
    exact hes

/-- **A call from Java leaves what its plan leaves**, whatever the machine does, except for which
exception is pending. -/
theorem state_act (faults : List Fault) (call : Call) (s : Boundary) :
    ∃ pending, (call.act faults s).state = { (call.plan.run s).state with pending := pending } := by
  obtain ⟨p, hp⟩ := state_guarded faults call.method call.fallback (call.body faults) s
  rcases call.body_eq_or_delivered faults s with hsame | ⟨a, t, hrun, ending, pending, es, hbody, -⟩
  · rw [hsame] at hp
    exact ⟨p, hp⟩
  · rw [hbody] at hp
    exact ⟨p, by rw [hrun, act, hp]⟩

theorem stock_act (faults : List Fault) (call : Call) (s : Boundary) :
    (call.act faults s).state.stock = call.plan.demand.meet s.stock := by
  obtain ⟨pending, hstate⟩ := call.state_act faults s
  rw [← Plan.stock_run, hstate]
  rfl

theorem armed_act (faults : List Fault) (call : Call) (s : Boundary) :
    (call.act faults s).state.armed = (s.armed && !call.plan.fires s) := by
  obtain ⟨pending, hstate⟩ := call.state_act faults s
  rw [← Plan.armed_run, hstate]

theorem log_act (faults : List Fault) (call : Call) (s : Boundary) :
    ∃ lines, (call.act faults s).log = (call.plan.outcome s.stock).1.toList ++ lines ∧
      ∀ r ∈ lines, r.target = .javaSurface := by
  rw [← log_body faults]
  exact log_guarded _ _ _ _ _

/-- A call whose record passes the logger ends with that record. -/
theorem log_act_of_record {faults : List Fault} {call : Call} {s : Boundary} {r : Record}
    (h : call.plan.fires s = false) (hr : (call.plan.outcome s.stock).1 = some r) :
    (call.act faults s).log = [r] := by
  obtain ⟨a, ha⟩ := call.proper_plan.settled hr
  have hlog := call.plan.log_run s
  rw [hr, Option.toList_some] at hlog
  rcases call.body_eq_or_delivered faults s with hsame | ⟨b, t, hrun, -⟩
  · rw [Plan.run_of_not_fires h, ha] at hsame
    rw [act, guarded_of_value hsame, ← hlog, Plan.run_of_not_fires h]
    rfl
  · -- a buffer that is delivered was read without a record
    rw [hrun] at hlog
    cases hlog

/-- A panic of the logger is contained, logged and reported. -/
theorem act_of_fires {call : Call} {s : Boundary} (h : call.plan.fires s = true)
    (faults : List Fault) :
    (call.act faults s).ending = .value call.fallback ∧
      (call.act faults s).log =
        (call.plan.outcome s.stock).1.toList ++
          .methodPanicked call.method :: unraised faults (panicFailure call.method) s.pending := by
  have hbody : call.body faults s = call.plan.run s := by
    apply body_of_not_value
    intro a ha
    rw [Plan.run_of_fires h] at ha
    cases ha
  rw [Plan.run_of_fires h] at hbody
  rw [act, guarded_of_panic hbody]
  refine ⟨rfl, ?_⟩
  simp only [Run.log, List.filterMap_append, Plan.log_events, List.filterMap_cons, Event.record?,
    log_reportEvents]
  rfl

end Call

end BufferFeed.JavaSurface

import BufferFeed.Proofs.Boundary.Exceptions
import BufferFeed.Proofs.Boundary.Taking

/-!
# No exception is masked

A virtual machine has one exception pending at most, so whoever makes another one pending masks it.
The machine does so when it throws; the library never does. A call from Java is followed here
function by function (`Jvm.Trace`): each function is entered with what the one before it left, and
with an exception pending only those are entered that may be (`Jvm.MayMeet`). Raising an exception
is not among them.

Two things follow for any trace. One that starts with an exception pending raises none, so it ends
with that exception or with one that the machine threw (`Jvm.Trace.of_some`). And what the machine
throws on the way starts such a trace (`Jvm.Trace.rest_of_thrown`).

Asking whether an exception is pending can fail, and the surface then takes it that none is. That
this masks nothing is the second question, the one behind the class: it fails as well, and comes
before the raising (`Jvm.clear_of_make`).
-/

namespace BufferFeed

namespace Jvm

variable {α β : Type} {faults : List Fault} {q : Request} {p o r : Option Throwable}
  {t : Throwable} {cs ds : List Call} {m n : Machine} {qs : List Request}

/-! ## What functions do to a pending exception -/

/-- The exceptions that a machine throws of itself. -/
inductive Thrown (faults : List Fault) : Request → Throwable → Prop
  | noClass (fault : .classNotFound ∈ faults) (className : String) :
      Thrown faults (.findClass className) (classError className)
  | belowZero {length : Int32} (below : length < 0) :
      Thrown faults (.newByteArray length) (lengthError length)
  | noMemory {length : Int32} (fault : .outOfMemory ∈ faults) (above : ¬ length < 0) :
      Thrown faults (.newByteArray length) memoryError
  | noRegion (fault : .regionRefused ∈ faults) (length : Int32) :
      Thrown faults (.setByteArrayRegion length) regionError

theorem thrown?_eq_some_iff : thrown? faults q = some t ↔ Thrown faults q t := by
  constructor
  · intro h
    unfold thrown? at h
    split at h
    · obtain ⟨fault, ht⟩ := Option.ite_none_right_eq_some.mp h
      cases ht
      exact .noClass fault _
    · split at h
      · cases h
        exact .belowZero ‹_›
      · obtain ⟨fault, ht⟩ := Option.ite_none_right_eq_some.mp h
        cases ht
        exact .noMemory fault ‹_›
    · obtain ⟨fault, ht⟩ := Option.ite_none_right_eq_some.mp h
      cases ht
      exact .noRegion fault _
    · cases h
    · cases h
  · intro h
    cases h with
    | noClass fault className => exact if_pos fault
    | belowZero below => exact if_pos below
    | noMemory fault above => exact (if_neg above).trans (if_pos fault)
    | noRegion fault length => exact if_pos fault

/-- What a function can leave pending of what was pending when it was entered. -/
inductive Leaves (faults : List Fault) (p : Option Throwable) : Request → Option Throwable → Prop
  | thrown {q : Request} {t : Throwable} (threw : Thrown faults q t) : Leaves faults p q (some t)
  /-- The library raised an exception. -/
  | raised (t : Throwable) : Leaves faults p (.throwNew t) (some t)
  | kept {q : Request} (calm : ∀ t, ¬ Thrown faults q t) : Leaves faults p q p

/-- Whether a function is ever entered while an exception is pending. -/
def MayMeet (faults : List Fault) : Function → Prop
  | .exceptionCheck | .newByteArray => True
  | .findClass => .missing .exceptionCheck ∈ faults
  | .throwNew | .setByteArrayRegion | .deleteLocalRef => False

/-- The calls lead from one pending exception to another. -/
inductive Trace (faults : List Fault) :
    Option Throwable → List Call → Option Throwable → Prop
  | done (p : Option Throwable) : Trace faults p [] p
  | enter {q : Request} {p o r : Option Throwable} {cs : List Call}
      (may : p.isSome = true → MayMeet faults q.function) (leaves : Leaves faults p q o)
      (rest : Trace faults o cs r) : Trace faults p (⟨q, p⟩ :: cs) r

namespace Trace

theorem append (h : Trace faults p cs o) (k : Trace faults o ds r) :
    Trace faults p (cs ++ ds) r := by
  induction h with
  | done p => exact k
  | enter may leaves rest ih => exact .enter may leaves (ih k)

theorem split (h : Trace faults p (cs ++ ds) r) :
    ∃ o, Trace faults p cs o ∧ Trace faults o ds r := by
  induction cs generalizing p with
  | nil => exact ⟨p, .done p, h⟩
  | cons c cs ih =>
    cases h with
    | enter may leaves rest =>
      obtain ⟨o, hcs, hds⟩ := ih rest
      exact ⟨o, .enter may leaves hcs, hds⟩

/-- **Nothing is raised over a pending exception.** -/
theorem pending_of_throwNew (h : Trace faults p cs r) {c : Call} (hc : c ∈ cs)
    (raises : c.function = .throwNew) : c.pending = none := by
  induction h with
  | done p => cases hc
  | @enter q p o r cs may leaves rest ih =>
    rcases List.mem_cons.mp hc with rfl | hc
    · cases p with
      | none => rfl
      | some t =>
        have hmay := may rfl
        rw [show q.function = .throwNew from raises] at hmay
        exact hmay.elim
    · exact ih hc

/-- **With an exception pending at the start nothing is raised**, and only the machine can put
another one in its place. -/
theorem of_some (h : Trace faults (some t) cs r) :
    (∀ c ∈ cs, c.function ≠ .throwNew) ∧
      (r = some t ∨ ∃ c ∈ cs, ∃ u, MayMeet faults c.function ∧ Thrown faults c.request u ∧
        r = some u) := by
  -- by induction on the calls: an exception is pending before each of them
  induction cs generalizing t with
  | nil =>
    cases h
    exact ⟨fun _ hc => (nomatch hc), .inl rfl⟩
  | cons c cs ih =>
    cases h with
    | @enter q p o r cs may leaves rest =>
      have hmay := may rfl
      have hfirst : q.function ≠ .throwNew := by
        intro hraises
        rw [hraises] at hmay
        exact hmay
      cases leaves with
      | raised t => exact hmay.elim
      | kept calm =>
        obtain ⟨hraise, hend⟩ := ih rest
        refine ⟨List.forall_mem_cons.mpr ⟨hfirst, hraise⟩, ?_⟩
        · rcases hend with rfl | ⟨c, hc, hthrown⟩
          · exact .inl rfl
          · exact .inr ⟨c, List.mem_cons_of_mem _ hc, hthrown⟩
      | @thrown q u threw =>
        obtain ⟨hraise, hend⟩ := ih rest
        refine ⟨List.forall_mem_cons.mpr ⟨hfirst, hraise⟩, .inr ?_⟩
        · rcases hend with rfl | ⟨c, hc, hthrown⟩
          · exact ⟨_, List.mem_cons_self, u, hmay, threw, rfl⟩
          · exact ⟨c, List.mem_cons_of_mem _ hc, hthrown⟩

/-- What the machine throws is pending before whatever follows. -/
theorem rest_of_thrown {c : Call} (h : Trace faults p (cs ++ c :: ds) r)
    (throws : Thrown faults c.request t) :
    ∃ u, Thrown faults c.request u ∧ Trace faults (some u) ds r := by
  obtain ⟨o, -, hrest⟩ := h.split
  cases hrest with
  | enter may leaves rest =>
    cases leaves with
    | thrown threw => exact ⟨_, threw, rest⟩
    | raised t => cases throws
    | kept calm => exact absurd throws (calm t)

end Trace

/-! ## Operations -/

/-- From one state of a machine to a later one, by asking some of these things. -/
structure Machine.Leads (m : Machine) (qs : List Request) (n : Machine) : Prop where
  faults_eq : n.faults = m.faults
  traced : ∃ cs, n.calls = m.calls ++ cs ∧ Trace m.faults m.pending cs n.pending ∧
    ∀ c ∈ cs, c.request ∈ qs

namespace Machine.Leads

theorem refl (m : Machine) (qs : List Request) : m.Leads qs m :=
  ⟨rfl, [], (List.append_nil _).symm, .done _, fun _ hc => nomatch hc⟩

theorem trans {l : Machine} (h : l.Leads qs m) (k : m.Leads qs n) : l.Leads qs n := by
  obtain ⟨hfaults, cs, hcs, htrace, hin⟩ := h
  obtain ⟨kfaults, ds, kds, ktrace, kin⟩ := k
  rw [hfaults] at kfaults ktrace
  refine ⟨kfaults, cs ++ ds, ?_, htrace.append ktrace, ?_⟩
  · rw [kds, hcs, List.append_assoc]
  · exact List.forall_mem_append.mpr ⟨hin, kin⟩

theorem asked (hq : q ∈ qs) (may : m.pending.isSome = true → MayMeet m.faults q.function)
    (leaves : Leaves m.faults m.pending q o) :
    m.Leads qs { m.reached q with pending := o } :=
  ⟨rfl, [⟨q, m.pending⟩], rfl, .enter may leaves (.done o), List.forall_mem_singleton.mpr hq⟩

/-- A function that is reached leaves what the machine throws in it, or else what was pending. -/
theorem reached (hq : q ∈ qs) (may : m.pending.isSome = true → MayMeet m.faults q.function) :
    m.Leads qs (m.reached q) := by
  have hleaves : Leaves m.faults m.pending q ((thrown? m.faults q).or m.pending) := by
    cases hthrown : thrown? m.faults q with
    | none => exact .kept fun t ht => nomatch hthrown.symm.trans (thrown?_eq_some_iff.mpr ht)
    | some t => exact .thrown (thrown?_eq_some_iff.mp hthrown)
  exact asked hq may hleaves

end Machine.Leads

theorem leads_make {null : Fault} (hq : q ∈ qs) (hask : .exceptionCheck ∈ qs)
    (may : m.pending.isSome = true → MayMeet m.faults q.function) :
    m.Leads qs (make q null m).2 := by
  have hreached : m.Leads qs (m.reached q) := .reached hq may
  have hasked : m.Leads qs ((m.reached q).reached .exceptionCheck) :=
    hreached.trans (.reached hask fun _ => trivial)
  rw [make_apply]
  split
  · exact .refl m qs
  · split
    · exact hreached
    · split
      · exact hasked
      · split <;> exact hasked

/-- **What was made was made with nothing pending**: the question behind it was answered with no. -/
theorem clear_of_make {null : Fault} {u : Unit} (h : make q null m = (.ok u, n)) :
    n.pending = none := by
  rw [make_apply] at h
  split at h
  · cases h
  · split at h
    · cases h
    · split at h
      · cases h
      · rename_i hcalm
        split at h
        · cases h
        · cases h
          exact Option.not_isSome_iff_eq_none.mp hcalm

/-- What an operation leads to, part by part. The second part has to go on from where the first one
ends well, and from nowhere else. -/
theorem leads_bind {x : Op α} {g : α → Op β} (hx : m.Leads qs (x m).2)
    (hg : ∀ a n, x m = (.ok a, n) → n.Leads qs (g a n).2) : m.Leads qs ((x >>= g) m).2 := by
  rw [bind_apply]
  cases h : x m with
  | mk result n =>
    rw [h] at hx
    cases result with
    | ok a => exact hx.trans (hg a n h)
    | error e => exact hx

/-- What is asked for an array of this length. -/
def delivering (length : Int32) : List Request :=
  [.newByteArray length, .exceptionCheck, .setByteArrayRegion length]

theorem leads_byteArray (contents : Bytes) (m : Machine) :
    m.Leads (delivering (Int32.ofNat contents.length)) (byteArray contents m).2 := by
  have hmem : .newByteArray (Int32.ofNat contents.length) ∈
      delivering (Int32.ofNat contents.length) ∧
    .exceptionCheck ∈ delivering (Int32.ofNat contents.length) ∧
    .setByteArrayRegion (Int32.ofNat contents.length) ∈
      delivering (Int32.ofNat contents.length) := by
    simp only [delivering, List.mem_cons, true_or, or_true, and_self]
  refine leads_bind (leads_make hmem.1 hmem.2.1 fun _ => trivial) ?_
  intro u n hmade
  have hclear := clear_of_make hmade
  rw [setByteArrayRegion_apply]
  split
  · exact .refl n _
  · refine .reached hmem.2.2 ?_
    rw [hclear]
    exact fun h => nomatch h

/-- What is asked in an attempt to raise an exception. -/
def raising (t : Throwable) : List Request :=
  [.exceptionCheck, .findClass t.className, .throwNew t]

theorem leads_throwNew (t : Throwable) (clear : m.pending = none) :
    m.Leads (raising t) (throwNew t m).2 := by
  have hmem : .throwNew t ∈ raising t := by
    simp only [raising, List.mem_cons, true_or, or_true]
  have hmay : m.pending.isSome = true → MayMeet m.faults .throwNew := by
    rw [clear]
    exact fun h => nomatch h
  rw [throwNew_apply]
  split
  · exact .refl m _
  · split
    · exact .reached hmem hmay
    · exact .asked hmem hmay (.raised t)

/-- **An attempt to raise an exception masks none**, in a machine that cannot be asked either. -/
theorem leads_raise (t : Throwable) (m : Machine) : m.Leads (raising t) (raise t m).2 := by
  have hmem : .exceptionCheck ∈ raising t ∧ .findClass t.className ∈ raising t := by
    simp only [raising, List.mem_cons, true_or, or_true, and_self]
  refine leads_bind ?_ ?_
  · rw [knownPending_apply]
    split
    · exact .refl m _
    · exact .reached hmem.1 fun _ => trivial
  · intro known n hknown
    rw [run_ite]
    split
    · exact .refl n _
    · rename_i hno
      -- a machine that could be asked has nothing pending; else the next question will fail too
      have hmay : n.pending.isSome = true → MayMeet n.faults .findClass := by
        intro hpending
        rw [knownPending_apply] at hknown
        split at hknown
        · cases hknown
          assumption
        · cases hknown
          exact absurd hpending hno
      refine leads_bind (leads_make hmem.2 hmem.1 hmay) ?_
      intro u k hmade
      exact leads_throwNew t (clear_of_make hmade)

end Jvm

/-! ## Acts -/

theorem filterMap_call?_logged (records : List Record) :
    (records.map Event.logged).filterMap Event.call? = [] := by
  rw [List.filterMap_map, List.filterMap_eq_nil_iff]
  exact fun _ _ => rfl

theorem filterMap_call?_called (calls : List Jvm.Call) :
    (calls.map Event.called).filterMap Event.call? = calls := by
  rw [List.filterMap_map]
  exact List.filterMap_some

namespace Act

variable {α β : Type} {faults : List Jvm.Fault} {x : Act α} {s : Boundary}

/-- The calls of an act lead from what was pending before it to what is pending after it. -/
def Traced (faults : List Jvm.Fault) (x : Act α) : Prop :=
  ∀ s, Jvm.Trace faults s.pending (x s).calls (x s).state.pending

theorem traced_pure (a : α) : Traced faults (pure a) := fun s => .done s.pending

theorem traced_fail (f : Failure) : Traced faults (fail f : Act α) := fun s => .done s.pending

theorem Traced.bind {g : α → Act β} (hx : x.Traced faults) (hg : ∀ a, (g a).Traced faults) :
    (x >>= g).Traced faults := by
  intro s
  have hs := hx s
  cases h : x s with
  | mk ending t es =>
    rw [h] at hs
    cases ending with
    | value a =>
      rw [bind_of_value h, Run.calls, List.filterMap_append]
      exact hs.append (hg a t)
    | failure f =>
      rw [bind_of_failure h]
      exact hs
    | panic m =>
      rw [bind_of_panic h]
      exact hs

theorem Traced.map (hx : x.Traced faults) (g : α → β) : (g <$> x).Traced faults := by
  intro s
  rw [map_apply]
  exact hx s

theorem Traced.attempt (hx : x.Traced faults) : x.attempt.Traced faults := hx

theorem traced_emit (r : Record) : (emit r).Traced faults := by
  intro s
  cases hfire : s.armed && r.trips with
  | true =>
    rw [emit_of_trips hfire]
    exact .done s.pending
  | false =>
    rw [emit_of_not_trips hfire]
    exact .done s.pending

theorem traced_onMachine {op : Jvm.Op α} {qs : List Jvm.Request}
    (leads : ∀ m : Jvm.Machine, m.Leads qs (op m).2) : (onMachine faults op).Traced faults := by
  intro s
  obtain ⟨-, cs, hcalls, htrace, -⟩ := leads (.enter faults s.pending)
  rw [JavaSurface.onMachine_apply, Run.calls, filterMap_call?_called, hcalls]
  exact htrace

end Act

theorem Plan.calls_run {α : Type} (p : Plan α) (s : Boundary) : (p.run s).calls = [] := by
  cases h : p.fires s with
  | true =>
    rw [run_of_fires h]
    exact filterMap_call?_logged _
  | false =>
    rw [run_of_not_fires h]
    exact filterMap_call?_logged _

/-- A plan has nothing to do with the machine. -/
theorem Plan.traced_run {α : Type} {faults : List Jvm.Fault} (p : Plan α) :
    p.run.Traced faults := by
  intro s
  rw [calls_run, pending_run]
  exact .done s.pending

namespace JavaSurface

open Jvm (Fault Throwable)

variable {α : Type} {faults : List Fault} {s : Boundary}

theorem traced_report (f : Failure) : (report faults f).Traced faults := by
  refine (Act.traced_onMachine (Jvm.leads_raise _)).bind fun result => ?_
  cases result with
  | ok u => exact Act.traced_pure ()
  | error e => exact Act.traced_emit _

/-- The guard masks nothing that its body leaves pending. -/
theorem traced_guarded {x : Act α} (hx : x.Traced faults) (method : JavaMethod) (fallback : α) :
    (guarded faults method fallback x).Traced faults := by
  refine hx.attempt.bind fun ending => ?_
  cases ending with
  | value a => exact Act.traced_pure a
  | failure f =>
    have hreport : (report faults f >>= fun _ => pure fallback).Traced faults :=
      (traced_report f).bind fun _ => Act.traced_pure fallback
    cases hf : f.isExhausted with
    | true =>
      simp only [hf, if_true]
      exact hreport
    | false =>
      simp only [hf, Bool.false_eq_true, if_false]
      exact (Act.traced_emit _).bind fun _ => hreport
  | panic m =>
    refine (Act.traced_emit _).bind fun _ => ?_
    exact (traced_report _).bind fun _ => Act.traced_pure fallback

theorem traced_deliver (buffer : Bytes) : (deliver faults buffer).Traced faults := by
  refine (Act.traced_onMachine (Jvm.leads_byteArray buffer)).bind fun result => ?_
  cases result with
  | ok array => exact Act.traced_pure array
  | error e => exact Act.traced_fail _

namespace Call

variable {call : Call}

theorem traced_body (faults : List Fault) (call : Call) : (call.body faults).Traced faults := by
  by_cases hnext : ∃ long, call = .next long
  · obtain ⟨long, rfl⟩ := hnext
    rw [body_next]
    exact (Plan.traced_run _).bind fun buffer => (traced_deliver buffer).map _
  · rw [body_of_not_next hnext]
    exact Plan.traced_run _

/-- **A call from Java is a trace**, whatever its faults, its arguments and its ending are. -/
theorem traced_act (faults : List Fault) (call : Call) : (call.act faults).Traced faults :=
  traced_guarded (traced_body faults call) _ _

end Call

/-! ## Where a function was reached from -/

/-- The guard reaches what an attempt to raise the exception reaches, when there is one. -/
theorem calls_guarded (faults : List Fault) (method : JavaMethod) (fallback : α) (x : Act α)
    (s : Boundary) :
    (guarded faults method fallback x s).calls =
      (x s).calls ++ (reported? method (x s).ending).elim [] fun f =>
        (raised faults f (x s).state.pending).2.calls := by
  have hreport : ∀ (f : Failure) (p : Option Throwable),
      (reportEvents faults f p).filterMap Event.call? = (raised faults f p).2.calls := by
    intro f p
    rw [reportEvents, List.filterMap_append, filterMap_call?_called, filterMap_call?_logged,
      List.append_nil]
  cases hx : x s with
  | mk ending t es =>
    cases ending with
    | value a =>
      rw [guarded_of_value hx]
      exact (List.append_nil _).symm
    | failure f =>
      rw [guarded_of_failure hx]
      simp only [Run.calls, List.filterMap_append, filterMap_call?_logged, hreport, List.nil_append,
        reported?, Option.elim_some]
    | panic m =>
      rw [guarded_of_panic hx]
      simp only [Run.calls, List.filterMap_append, List.filterMap_cons, Event.call?, hreport,
        reported?, Option.elim_some]

theorem request_of_mem_raised {f : Failure} {p : Option Throwable} {c : Jvm.Call}
    (hc : c ∈ (raised faults f p).2.calls) : c.request ∈ Jvm.raising (exceptionOf f) := by
  obtain ⟨-, cs, hcalls, -, hin⟩ := Jvm.leads_raise (exceptionOf f) (.enter faults p)
  rw [raised, hcalls] at hc
  exact hin c hc

theorem request_of_mem_handed {b : Bytes} {p : Option Throwable} {c : Jvm.Call}
    (hc : c ∈ (handed faults b p).2.calls) :
    c.request ∈ Jvm.delivering (Int32.ofNat b.length) := by
  obtain ⟨-, cs, hcalls, -, hin⟩ := Jvm.leads_byteArray b (.enter faults p)
  rw [handed, hcalls] at hc
  exact hin c hc

namespace Call

variable {call : Call} {c : Jvm.Call}

/-- Of the bodies, only that of a read which takes a buffer reaches the machine. -/
theorem taken_of_mem_calls_body (hc : c ∈ (call.body faults s).calls) :
    ∃ long b, call = .next long ∧
      (Boundary.Step.fromJava faults call).taken s (.ofLong long) = [b] ∧
      c.request ∈ Jvm.delivering (Int32.ofNat b.length) := by
  by_cases hnext : ∃ long, call = .next long
  · obtain ⟨long, rfl⟩ := hnext
    cases found : s.table.get? (.ofLong long) with
    | none =>
      rw [((Boundary.refuses_of_get?_eq_none found).fromJava faults _ rfl).1] at hc
      cases hc
    | some f =>
      cases more : f.ahead with
      | nil =>
        rw [body_next_of_ahead_nil found more] at hc
        cases hc
      | cons b bs =>
        refine ⟨long, b, rfl, ?_, ?_⟩
        · show Demand.taken (.lend (.ofLong long) .next) s.stock (.ofLong long) = [b]
          simp only [Demand.taken, if_true, Boundary.stock, found, Option.elim_some,
            Feed.taken_next, more, List.take_succ_cons, List.take_zero]
        · rw [body_next_of_ahead_cons found more, Act.map_apply, deliver_apply, Run.calls,
            filterMap_call?_called] at hc
          exact request_of_mem_handed hc
  · rw [body_of_not_next hnext, Plan.calls_run] at hc
    cases hc

/-- **An array is asked for only by a read that took a buffer**, and one as long as the buffer, as
far as 32 bits can tell. -/
theorem taken_of_newByteArray {length : Int32} (hc : c ∈ (call.act faults s).calls)
    (asks : c.request = .newByteArray length) :
    ∃ long b, call = .next long ∧
      (Boundary.Step.fromJava faults call).taken s (.ofLong long) = [b] ∧
      length = Int32.ofNat b.length := by
  rw [act, calls_guarded, List.mem_append] at hc
  rcases hc with hc | hc
  · obtain ⟨long, b, hcall, htaken, hin⟩ := taken_of_mem_calls_body hc
    refine ⟨long, b, hcall, htaken, ?_⟩
    simpa only [Jvm.delivering, asks, List.mem_cons, List.not_mem_nil,
      Jvm.Request.newByteArray.injEq, reduceCtorEq, or_false] using hin
  · cases hf : reported? call.method (call.body faults s).ending with
    | none =>
      rw [hf] at hc
      cases hc
    | some f =>
      rw [hf] at hc
      have hin := request_of_mem_raised hc
      simp only [asks, Jvm.raising, List.mem_cons, List.not_mem_nil, reduceCtorEq, or_false] at hin

end Call

/-- The library's exceptions and the machine's own are never the same. -/
theorem ne_exceptionOf_of_thrown {q : Jvm.Request} {t : Throwable}
    (threw : Jvm.Thrown faults q t) (f : Failure) : t ≠ exceptionOf f := by
  intro h
  have hname : t.className = className f := congrArg Throwable.className h
  cases threw with
  | noClass => cases f <;> simp only [Jvm.classError, className, String.reduceEq] at hname
  | belowZero => cases f <;> simp only [Jvm.lengthError, className, String.reduceEq] at hname
  | noMemory => cases f <;> simp only [Jvm.memoryError, className, String.reduceEq] at hname
  | noRegion => cases f <;> simp only [Jvm.regionError, className, String.reduceEq] at hname

/-- **The library masks no exception.** It raises one only where none is pending. So the exception
that was pending before a call is pending after it, unless the machine itself threw: at the array of
a read that took a buffer, for want of room or because the length came out below zero, or at a
class, where it could not be asked what is pending. And when the machine throws during a call, what
is pending in the end was thrown by the machine, and is none of the library's exceptions. -/
theorem masks_no_exception (s : Boundary) (faults : List Fault) (call : Call) :
    let r := call.act faults s
    (∀ c ∈ r.calls, c.function = .throwNew → c.pending = none) ∧
    (∀ t, s.pending = some t →
      r.state.pending = some t ∨
      (∃ long b, call = .next long ∧
        (Boundary.Step.fromJava faults call).taken s (.ofLong long) = [b] ∧
        (∃ c ∈ r.calls, c.request = .newByteArray (Int32.ofNat b.length)) ∧
        (.outOfMemory ∈ faults ∧ r.state.pending = some Jvm.memoryError ∨
          2 ^ 31 ≤ b.length % 2 ^ 32 ∧
            r.state.pending = some (Jvm.lengthError (Int32.ofNat b.length)))) ∨
      (.missing .exceptionCheck ∈ faults ∧ .classNotFound ∈ faults ∧
        (∃ c ∈ r.calls, c.function = .findClass) ∧
        ∃ name, r.state.pending = some (Jvm.classError name))) ∧
    ∀ earlier c later t, r.calls = earlier ++ c :: later → Jvm.Thrown faults c.request t →
      (∀ d ∈ later, d.function ≠ .throwNew) ∧
        (∃ d ∈ c :: later, ∃ u, Jvm.Thrown faults d.request u ∧ r.state.pending = some u) ∧
        ∀ f, r.state.pending ≠ some (exceptionOf f) := by
  intro r
  have htrace : Jvm.Trace faults s.pending r.calls r.state.pending := Call.traced_act faults call s
  refine ⟨fun c hc => htrace.pending_of_throwNew hc, ?_, ?_⟩
  · intro t ht
    rw [ht] at htrace
    obtain ⟨-, hsame | ⟨c, hc, u, hmay, hthrown, hend⟩⟩ := htrace.of_some
    · exact .inl hsame
    · -- of the functions that throw, two may be entered with an exception pending
      right
      rw [Jvm.Call.function] at hmay
      generalize hq : c.request = q at hmay hthrown
      cases hthrown with
      | noMemory fault above =>
        obtain ⟨long, b, hcall, htaken, rfl⟩ := Call.taken_of_newByteArray hc hq
        exact .inl ⟨long, b, hcall, htaken, ⟨c, hc, hq⟩, .inl ⟨fault, hend⟩⟩
      | belowZero below =>
        obtain ⟨long, b, hcall, htaken, rfl⟩ := Call.taken_of_newByteArray hc hq
        exact .inl ⟨long, b, hcall, htaken, ⟨c, hc, hq⟩, .inr ⟨Jvm.ofNat_neg_iff.mp below, hend⟩⟩
      | noClass fault name =>
        exact .inr ⟨hmay, fault, ⟨c, hc, congrArg Jvm.Request.function hq⟩, name, hend⟩
      | noRegion fault => exact hmay.elim
  · intro earlier c later t hcalls hthrown
    rw [hcalls] at htrace
    obtain ⟨u, hu, hrest⟩ := htrace.rest_of_thrown hthrown
    obtain ⟨hraise, hend⟩ := hrest.of_some
    have hlast : ∃ d ∈ c :: later, ∃ u, Jvm.Thrown faults d.request u ∧
        r.state.pending = some u := by
      rcases hend with hsame | ⟨d, hd, v, -, hv, hend⟩
      · exact ⟨c, List.mem_cons_self, u, hu, hsame⟩
      · exact ⟨d, List.mem_cons_of_mem _ hd, v, hv, hend⟩
    refine ⟨hraise, hlast, ?_⟩
    obtain ⟨d, -, v, hv, hend⟩ := hlast
    intro f hf
    exact ne_exceptionOf_of_thrown hv f (Option.some.inj (hend.symm.trans hf))

/-- One feed, and an exception pending. -/
def burdened : Boundary :=
  (Boundary.start ⟨.counting 0 1, 0⟩).after
    [.direct (.register 1 1), .throwing ⟨"java/lang/Error", "earlier"⟩]

/-- A read in a machine without memory, while an exception is pending: the machine's own takes its
place, and the failure of the read is not raised over that. -/
theorem masks_no_exception_burdened :
    let r := (Call.next 0x100000000).act [.outOfMemory] burdened
    burdened.pending = some ⟨"java/lang/Error", "earlier"⟩ ∧
      (∃ c ∈ r.calls, c.request = .newByteArray 1) ∧ r.state.pending = some Jvm.memoryError ∧
      (∀ d ∈ r.calls.tail, d.function ≠ .throwNew) ∧
      ∀ f, r.state.pending ≠ some (exceptionOf f) := by
  have hcalls : ((Call.next 0x100000000).act [.outOfMemory] burdened).calls =
      [] ++ ⟨.newByteArray 1, some ⟨"java/lang/Error", "earlier"⟩⟩ ::
        [⟨.exceptionCheck, some Jvm.memoryError⟩, ⟨.exceptionCheck, some Jvm.memoryError⟩] := by
    decide
  have hpending : ((Call.next 0x100000000).act [.outOfMemory] burdened).state.pending ≠
      some ⟨"java/lang/Error", "earlier"⟩ := by decide
  have htaken : (Boundary.Step.fromJava [.outOfMemory] (.next 0x100000000)).taken burdened
      (.ofLong 0x100000000) = [[0]] := by decide
  obtain ⟨-, hkept, hthrown⟩ := masks_no_exception burdened [.outOfMemory] (.next 0x100000000)
  obtain ⟨hraise, -, hown⟩ :=
    hthrown _ _ _ _ hcalls (.noMemory (List.mem_singleton_self _) (by decide))
  have hmemory : ((Call.next 0x100000000).act [.outOfMemory] burdened).state.pending =
      some Jvm.memoryError := by
    rcases hkept _ rfl with hsame | ⟨long, b, hcall, hb, -, ⟨-, hmemory⟩ | ⟨hlong, -⟩⟩ | ⟨hcheck, -⟩
    · exact absurd hsame hpending
    · exact hmemory
    · cases hcall
      cases htaken.symm.trans hb
      exact absurd hlong (by decide)
    · exact absurd hcheck (by decide)
  refine ⟨rfl, ?_, hmemory, ?_, hown⟩
  · rw [hcalls]
    exact ⟨_, List.mem_cons_self, rfl⟩
  · rw [hcalls]
    exact hraise

end JavaSurface

end BufferFeed

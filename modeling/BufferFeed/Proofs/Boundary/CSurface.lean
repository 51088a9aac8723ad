import BufferFeed.Boundary.CSurface
import BufferFeed.Proofs.Boundary.Plan

/-!
# The plans of the C surface

A function of the C surface is a plan behind the guard. The guard writes at an error's level, where
no logger panics; so it adds nothing to a run but the ending and a line (`guarded_run_of_fires`,
`guarded_run_of_value`), and leaves the boundary as the plan leaves it (`state_guarded`).
-/

namespace BufferFeed.CSurface

variable {α β : Type}

/-! ## The guard -/

/-- The ending behind the guard. -/
def contained (fallback : α) : Ending α → Ending α
  | .panic _ => .value fallback
  | .value a => .value a
  | .failure e => .failure e

/-- The line about a panic, if it came to one. -/
def panicLine (function : CFunction) : Ending α → List Record
  | .panic _ => [.panicked function]
  | .value _ | .failure _ => []

theorem eq_of_mem_panicLine {function : CFunction} {ending : Ending α} {r : Record}
    (h : r ∈ panicLine function ending) : r = .panicked function := by
  cases ending with
  | panic m => exact List.mem_singleton.mp h
  | value a => cases h
  | failure e => cases h

section Guard

variable {function : CFunction} {fallback : α} {x : Act α} {s t : Boundary} {es : List Event}

theorem guarded_of_value {a : α} (h : x s = ⟨.value a, t, es⟩) :
    guarded function fallback x s = ⟨.value a, t, es⟩ := by
  rw [guarded, Act.bind_of_value (Act.attempt_apply h)]
  simp only [pure, List.append_nil]

theorem guarded_of_failure {e : Failure} (h : x s = ⟨.failure e, t, es⟩) :
    guarded function fallback x s = ⟨.failure e, t, es⟩ := by
  rw [guarded, Act.bind_of_value (Act.attempt_apply h)]
  simp only [Act.fail, List.append_nil]

/-- A panic is contained: the function answers, and the line is added to the log. -/
theorem guarded_of_panic {m : String} (h : x s = ⟨.panic m, t, es⟩) :
    guarded function fallback x s = ⟨.value fallback, t, es ++ [.logged (.panicked function)]⟩ := by
  have hline : (t.armed && (Record.panicked function).trips) = false := Bool.and_false _
  rw [guarded, Act.bind_of_value (Act.attempt_apply h)]
  simp only [Act.emit_bind_pure, Act.closing, hline, Bool.false_eq_true, if_false]

theorem map_guarded (function : CFunction) (fallback : α) (g : α → β) (x : Act α) :
    g <$> guarded function fallback x = guarded function (g fallback) (g <$> x) := by
  funext s
  rw [Act.map_apply]
  cases hx : x s with
  | mk ending t es =>
    have hg : (g <$> x) s = ⟨ending.map g, t, es⟩ := by rw [Act.map_apply, hx]
    cases ending with
    | value a =>
      rw [guarded_of_value hx, guarded_of_value hg]
      rfl
    | failure e =>
      rw [guarded_of_failure hx, guarded_of_failure hg]
      rfl
    | panic m =>
      rw [guarded_of_panic hx, guarded_of_panic hg]
      rfl

/-- The guard changes nothing in the boundary. -/
theorem state_guarded (function : CFunction) (fallback : α) (x : Act α) (s : Boundary) :
    (guarded function fallback x s).state = (x s).state := by
  cases hx : x s with
  | mk ending t es =>
    cases ending with
    | value a => rw [guarded_of_value hx]
    | failure e => rw [guarded_of_failure hx]
    | panic m => rw [guarded_of_panic hx]

theorem ending_guarded (function : CFunction) (fallback : α) (x : Act α) (s : Boundary) :
    (guarded function fallback x s).ending = contained fallback (x s).ending := by
  cases hx : x s with
  | mk ending t es =>
    cases ending with
    | value a =>
      rw [guarded_of_value hx]
      rfl
    | failure e =>
      rw [guarded_of_failure hx]
      rfl
    | panic m =>
      rw [guarded_of_panic hx]
      rfl

/-- To what its body logs the guard adds the line about a panic, when it contained one. -/
theorem log_guarded (function : CFunction) (fallback : α) (x : Act α) (s : Boundary) :
    (guarded function fallback x s).log = (x s).log ++ panicLine function (x s).ending := by
  cases hx : x s with
  | mk ending t es =>
    cases ending with
    | value a =>
      rw [guarded_of_value hx]
      exact (List.append_nil _).symm
    | failure e =>
      rw [guarded_of_failure hx]
      exact (List.append_nil _).symm
    | panic m =>
      rw [guarded_of_panic hx, Run.log, List.filterMap_append]
      rfl

theorem guarded_run_of_fires {p : Plan α} (h : p.fires s = true) :
    guarded function fallback p.run s =
      ⟨.value fallback, { s.restock (p.demand.meet s.stock) with armed := false },
        p.events s.stock ++ [.logged (.panicked function)]⟩ :=
  guarded_of_panic (Plan.run_of_fires h)

theorem guarded_run_of_value {p : Plan α} {a : α} (h : p.fires s = false)
    (hv : (p.outcome s.stock).2 = .value a) :
    guarded function fallback p.run s =
      ⟨.value a, s.restock (p.demand.meet s.stock), p.events s.stock⟩ := by
  refine guarded_of_value ?_
  rw [Plan.run_of_not_fires h, hv]

/-- A guarded plan whose value is the fallback answers it whether or not the logger panics. -/
theorem ending_guarded_of_fallback {p : Plan α} (hout : (p.outcome s.stock).2 = .value fallback) :
    (guarded function fallback p.run s).ending = .value fallback := by
  cases hfires : p.fires s with
  | true => rw [guarded_run_of_fires hfires]
  | false => rw [guarded_run_of_value hfires hout]

/-- A plan that writes nothing is not touched by the guard. -/
theorem guarded_run_of_silent {p : Plan α} {a : α} (hout : p.outcome s.stock = (none, .value a)) :
    guarded function fallback p.run s = ⟨.value a, s.restock (p.demand.meet s.stock), []⟩ := by
  refine guarded_of_value ?_
  rw [Plan.run_of_silent (by rw [hout]), hout]

/-- A plan that only warns. An armed logger panics at the warning; the fallback is the answer. -/
theorem guarded_run_of_warning {p : Plan α} {r : Record} {a : α}
    (hout : p.outcome s.stock = (some r, .value a)) (trips : r.trips = true)
    (idle : p.demand.meet s.stock = s.stock) :
    guarded function fallback p.run s =
      ⟨.value (if s.armed then fallback else a), { s with armed := false },
        .logged r :: if s.armed then [.logged (.panicked function)] else []⟩ := by
  have hevents : p.events s.stock = [.logged r] := by
    rw [Plan.events, hout]
    rfl
  cases harmed : s.armed with
  | true =>
    have hfires : p.fires s = true := Plan.fires_iff.mpr ⟨harmed, r, by rw [hout], trips⟩
    rw [guarded_run_of_fires hfires, idle, hevents]
    rfl
  | false =>
    have hquiet : p.fires s = false := by rw [Plan.fires, harmed, Bool.false_and]
    have hsame : ({ s with armed := false } : Boundary) = s := by rw [← harmed]
    rw [guarded_run_of_value hquiet (by rw [hout]), idle, hevents, hsame]
    rfl

/-- The guard sees of its body only how it runs. -/
theorem guarded_congr {x y : Act α} (h : x s = y s) (function : CFunction) (fallback : α) :
    guarded function fallback x s = guarded function fallback y s := by
  cases hx : x s with
  | mk ending t es =>
    have hy := h.symm.trans hx
    cases ending with
    | value a => rw [guarded_of_value hx, guarded_of_value hy]
    | failure e => rw [guarded_of_failure hx, guarded_of_failure hy]
    | panic m => rw [guarded_of_panic hx, guarded_of_panic hy]

end Guard

/-! ## The functions -/

def createPlan (count : Int32) (size : UInt64) (key : Keystream.Key) : Plan UInt64 :=
  (Plan.given (IntRange.size count.toInt) fun n =>
    (Plan.supplyFresh n size.toNat key).map Handle.raw).rescue
      (fun f => some (.createFailed count size f)) fun _ => Handle.nullRaw

theorem createPlan_of_nonneg {count : Int32} (h : 0 ≤ count) (size : UInt64)
    (key : Keystream.Key) :
    createPlan count size key =
      ((Plan.supplyFresh count.toInt.toNat size.toNat key).map Handle.raw).rescue
        (fun f => some (.createFailed count size f)) fun _ => Handle.nullRaw := by
  rw [createPlan, IntRange.size_of_int32 h, Plan.given]

def hasNextPlan (raw : UInt64) : Plan Int32 :=
  (Plan.lend (.ofRaw raw) .hasMore fun f => .value (if f.hasMore then 1 else 0)).rescue
    (fun f => some (.failed .hasNext f)) fun _ => 0

/-- What is read from a buffer by a destination that takes so many bytes. -/
def Reading.ofBuffer (capacity : Nat) (buffer : Bytes) : Reading :=
  ⟨Int32.ofNat (buffer.take capacity).length, buffer.take capacity⟩

def nextPlan (raw : UInt64) (d : Destination) : Plan Reading :=
  match capacity? d with
  | none => .say (some (.destinationRejected d)) (.value ⟨invalidCode, []⟩)
  | some capacity =>
    (Plan.lend (.ofRaw raw) .next fun f =>
      match f.next.1 with
      | .ok buffer => .value (.ofBuffer capacity buffer)
      | .error e => .failure e).rescue
        (fun f => if f.isExhausted then none else some (.failed .next f)) fun f => ⟨codeOf f, []⟩

def disposePlan (raw : UInt64) : Plan Unit :=
  (Plan.release (.ofRaw raw)).rescue (fun f => some (.failed .dispose f)) fun _ => ()

theorem create_eq (count : Int32) (size : UInt64) (key : Keystream.Key) :
    create count size key = guarded .create Handle.nullRaw (createPlan count size key).run := by
  have hbody : (Plan.given (IntRange.size count.toInt) fun n =>
      (Plan.supplyFresh n size.toNat key).map Handle.raw).run =
        (do
          let n ← Act.ofExcept (IntRange.size count.toInt)
          let f ← Act.makeFreshFeed n size.toNat key
          let handle ← Act.register f
          return handle.raw) := by
    rw [Plan.run_given]
    congr 1
    funext n
    rw [Plan.run_map, ← Plan.run_supplyFresh, ← bind_pure_comp, bind_assoc]
  rw [createPlan, ← Plan.run_rescue, hbody, create]
  · exact Plan.proper_given _ fun n => (Plan.proper_supplyFresh _ _ _).map _
  · exact fun f => Act.emit_bind_pure _ _

theorem hasNext_eq (raw : UInt64) :
    hasNext raw = guarded .hasNext 0 (hasNextPlan raw).run := by
  have hbody := Plan.run_lend (.ofRaw raw) .hasMore (g := fun f => (f.hasMore, f))
    (f := fun more => pure (if more then (1 : Int32) else 0)) (fun _ => rfl) fun _ => rfl
  rw [hasNextPlan, ← Plan.run_rescue (Plan.proper_lend _ _ _) fun f => Act.emit_bind_pure _ _]
  exact congrArg (fun x => guarded .hasNext 0 (Act.recover x _)) hbody

theorem next_eq (raw : UInt64) (d : Destination) :
    next raw d = guarded .next ⟨invalidCode, []⟩ (nextPlan raw d).run := by
  unfold next nextPlan
  congr 1
  cases capacity? d with
  | none => exact Act.emit_bind_pure _ _
  | some capacity =>
    have hbody := Plan.run_lend (.ofRaw raw) .next (g := Feed.next)
      (f := fun result => do
        let buffer ← Act.ofExcept result
        return Reading.ofBuffer capacity buffer)
      (e := fun result =>
        match result with
        | .ok buffer => .value (.ofBuffer capacity buffer)
        | .error e => .failure e)
      (fun _ => rfl) (fun result => by cases result <;> rfl)
    have hhandle : ∀ f : Failure,
        (do
          unless f.isExhausted do Act.emit (.failed .next f)
          return (⟨codeOf f, []⟩ : Reading)) =
        Act.closing (if f.isExhausted then none else some (.failed .next f))
          (.value ⟨codeOf f, []⟩) := by
      intro f
      cases hf : f.isExhausted with
      | true => rfl
      | false => exact Act.emit_bind_pure _ _
    show Act.recover _ _ = (Plan.rescue _ _ _).run
    rw [← Plan.run_rescue (Plan.proper_lend _ _ _) hhandle]
    exact congrArg (fun x => Act.recover x _) hbody

theorem dispose_eq (raw : UInt64) :
    dispose raw = guarded .dispose () (disposePlan raw).run := by
  rw [disposePlan, ← Plan.run_rescue (Plan.proper_release _) fun f => Act.emit_eq _,
    ← Plan.run_release]
  rfl

end BufferFeed.CSurface

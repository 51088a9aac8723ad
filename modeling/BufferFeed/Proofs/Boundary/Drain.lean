import BufferFeed.Proofs.Boundary.Loop

/-!
# The loop as one call

Taken as one call, the loop of a C program is a plan behind the guard like the four functions,
although it calls two of them many times (`drain_eq`): at most one of its calls writes a record, and
that one is the last. With it every call from a C program is a plan behind the guard
(`Call.act_eq`).
-/

namespace BufferFeed.CSurface

variable {α β : Type}

/-! ## The plan of the loop -/

def drainPlan (raw : UInt64) (d : Destination) : Plan (List Reading) where
  demand :=
    match capacity? d with
    | some _ => .lend (.ofRaw raw) .drain
    | none => .nothing
  outcome k :=
    match k.table.get? (.ofRaw raw) with
    | none => (some (.failed .hasNext (.stale (.ofRaw raw))), .value [])
    | some f =>
      match capacity? d with
      | some capacity => (none, .value (f.ahead.map (.ofBuffer capacity)))
      | none => (if f.hasMore then some (.destinationRejected d) else none, .value [])

/-- The function in which a loop over a handle can panic. -/
def blamed (h : Handle) (k : Stock) : CFunction :=
  match k.table.get? h with
  | none => .hasNext
  | some _ => .next

section Drain

variable {raw : UInt64} {s : Boundary} {f : Feed} {d : Destination}

theorem drain_apply (raw : UInt64) (d : Nat → Destination) (s : Boundary) :
    drain raw d s =
      drainFrom raw d ((s.table.get? (.ofRaw raw)).elim 0 Feed.unread + 1) 0 s := rfl

/-- Over a live feed with valid destinations the bound is no bound. -/
theorem drain_of_valid {d : Nat → Destination} (found : s.table.get? (.ofRaw raw) = some f)
    (valid : ∀ i < f.unread, (d i).Valid) :
    drain raw d s =
      ⟨.value (f.ahead.mapIdx fun i b => .ofBuffer (d i).room b),
        { s with table := s.table.setContent (Handle.ofRaw raw).index (some f.finished) }, []⟩ := by
  have hvalid : ∀ i < f.unread, (d (0 + i)).Valid := by
    intro i hi
    rw [Nat.zero_add]
    exact valid i hi
  rw [drain_apply, found, Option.elim_some, drainFrom_of_get? found hvalid (Nat.lt_succ_self _)]
  simp only [Nat.zero_add]

/-- A guarded plan whose value is thrown away. -/
theorem guarded_run_discard {function : CFunction} {fallback a : α} {b : β} {p : Plan α}
    {q : Plan β} {t : Boundary} {es : List Event} (hq : q.run s = (p.map fun _ => b).run s)
    (h : guarded function fallback p.run s = ⟨.value a, t, es⟩) :
    guarded function b q.run s = ⟨.value b, t, es⟩ := by
  have hmap := congrFun (map_guarded function fallback (fun _ => b) p.run) s
  rw [guarded_congr hq, Plan.run_map, ← hmap, Act.map_apply, h]
  rfl

/-- The answer to a handle that is not live is zero, whatever the logger does. -/
theorem ending_hasNext_of_get?_eq_none (absent : s.table.get? (.ofRaw raw) = none) :
    (hasNext raw s).ending = .value 0 := by
  have hout : ((hasNextPlan raw).outcome s.stock).2 = .value 0 := by
    simp only [hasNextPlan, Plan.rescue, Plan.lend, Boundary.stock, absent]
  rw [hasNext_eq, ending_guarded_of_fallback hout]

/-- The answer to a destination that is none is the same, whatever the logger does. -/
theorem ending_next_of_capacity?_eq_none (hd : capacity? d = none) (raw : UInt64)
    (s : Boundary) : (next raw d s).ending = .value ⟨invalidCode, []⟩ := by
  have hout : ((nextPlan raw d).outcome s.stock).2 = .value ⟨invalidCode, []⟩ := by
    simp only [nextPlan, hd, Plan.say]
  rw [next_eq, ending_guarded_of_fallback hout]

/-- A loop over a handle that is not live ends with its first call. -/
theorem drain_of_get?_eq_none (absent : s.table.get? (.ofRaw raw) = none) (d : Destination) :
    drain raw (fun _ => d) s = guarded .hasNext [] (drainPlan raw d).run s := by
  have hplan : (drainPlan raw d).run s = ((hasNextPlan raw).map fun _ => []).run s := by
    refine Plan.run_congr ?_ ?_
    · simp only [drainPlan, hasNextPlan, Plan.map, Plan.rescue, Plan.lend, Boundary.stock, absent,
        Ending.map]
    · have hsame : (hasNextPlan raw).demand.meet s.stock = s.stock :=
        Demand.meet_lend_of_get?_eq_none (k := s.stock) absent .hasMore
      refine Eq.trans ?_ hsame.symm
      simp only [drainPlan]
      split
      · exact Demand.meet_lend_of_get?_eq_none (k := s.stock) absent .drain
      · rfl
  have hzero := ending_hasNext_of_get?_eq_none absent
  rw [drain_apply]
  cases hrun : hasNext raw s with
  | mk ending t es =>
    rw [hrun] at hzero
    cases hzero
    rw [drainFrom_of_no_more hrun (by decide), guarded_run_discard hplan (hasNext_eq raw ▸ hrun)]

/-- A loop whose destination is none ends with its first read, if there is anything to read. -/
theorem drain_of_capacity?_eq_none (found : s.table.get? (.ofRaw raw) = some f)
    (hd : capacity? d = none) :
    drain raw (fun _ => d) s = guarded .next [] (drainPlan raw d).run s := by
  have hmore := hasNext_of_get? found
  rw [drain_apply]
  cases hf : f.hasMore with
  | false =>
    have hout : (drainPlan raw d).outcome s.stock = (none, .value []) := by
      simp only [drainPlan, Boundary.stock, found, hd, hf, Bool.false_eq_true, if_false]
    have hmeet : (drainPlan raw d).demand.meet s.stock = s.stock := by
      simp only [drainPlan, hd, Demand.meet]
    rw [hf, if_neg Bool.false_ne_true] at hmore
    rw [drainFrom_of_no_more hmore (by decide), guarded_run_of_silent hout, hmeet,
      Boundary.restock_stock]
  | true =>
    have hplan : (drainPlan raw d).run s = ((nextPlan raw d).map fun _ => []).run s := by
      refine Plan.run_congr ?_ ?_
      · simp only [drainPlan, nextPlan, Plan.map, Plan.say, Boundary.stock, found, hd, hf, if_true,
          Ending.map]
      · simp only [drainPlan, nextPlan, Plan.map, Plan.say, hd]
    have hcode := ending_next_of_capacity?_eq_none hd raw s
    rw [hf, if_pos rfl] at hmore
    rw [drainFrom_of_more hmore]
    cases hrun : next raw d s with
    | mk ending t es =>
      rw [hrun] at hcode
      cases hcode
      rw [Act.bind_of_value hrun, if_pos (by decide),
        guarded_run_discard hplan (next_eq raw d ▸ hrun)]
      simp only [pure, List.append_nil]

/-- **A loop over a live handle reads all that is ahead** into a destination that is one. -/
theorem drain_of_get? {capacity : Nat} (found : s.table.get? (.ofRaw raw) = some f)
    (hd : capacity? d = some capacity) :
    drain raw (fun _ => d) s = guarded .next [] (drainPlan raw d).run s := by
  have hout : (drainPlan raw d).outcome s.stock =
      (none, .value (f.ahead.map (.ofBuffer capacity))) := by
    simp only [drainPlan, Boundary.stock, found, hd]
  obtain ⟨valid, rfl⟩ := capacity?_eq_some_iff.mp hd
  rw [drain_of_valid found fun _ _ => valid, guarded_run_of_silent hout]
  simp only [drainPlan, hd, Demand.meet, Boundary.stock, found, Feed.perform, Feed.drain_eq,
    Boundary.restock]
  congr 2
  exact List.ext_getElem? fun j => by rw [List.getElem?_mapIdx, List.getElem?_map]

/-- **The loop is one call**: a plan behind the guard. -/
theorem drain_eq (raw : UInt64) (d : Destination) (s : Boundary) :
    drain raw (fun _ => d) s =
      guarded (blamed (.ofRaw raw) s.stock) [] (drainPlan raw d).run s := by
  cases found : s.table.get? (.ofRaw raw) with
  | none =>
    simp only [blamed, Boundary.stock, found]
    exact drain_of_get?_eq_none found d
  | some f =>
    simp only [blamed, Boundary.stock, found]
    cases hd : capacity? d with
    | some capacity => exact drain_of_get? found hd
    | none => exact drain_of_capacity?_eq_none found hd

end Drain

/-! ## Calls as data -/

namespace Call

/-- What is planned behind the guard. -/
def plan : Call → Plan Reply
  | .create count size key => (createPlan count size key).map .created
  | .hasNext raw => (hasNextPlan raw).map .flag
  | .next raw d => (nextPlan raw d).map .read
  | .drain raw d => (drainPlan raw d).map .drained
  | .dispose raw => (disposePlan raw).map fun _ => .disposed

/-- What a call answers when a panic was contained. -/
def fallback : Call → Reply
  | .create .. => .created 0
  | .hasNext _ => .flag 0
  | .next .. => .read ⟨-3, []⟩
  | .drain .. => .drained []
  | .dispose _ => .disposed

/-- The function in which a call can panic. -/
def function : Call → Stock → CFunction
  | .create .., _ => .create
  | .hasNext _, _ => .hasNext
  | .next .., _ => .next
  | .drain raw _, k => blamed (.ofRaw raw) k
  | .dispose _, _ => .dispose

/-- **A call from a C program is its plan behind the guard.** -/
theorem act_eq (call : Call) (s : Boundary) :
    call.act s = guarded (call.function s.stock) call.fallback call.plan.run s := by
  cases call with
  | create count size key =>
    rw [act, create_eq, map_guarded, plan, Plan.run_map]
    rfl
  | hasNext raw =>
    rw [act, hasNext_eq, map_guarded, plan, Plan.run_map]
    rfl
  | next raw d =>
    rw [act, next_eq, map_guarded, plan, Plan.run_map]
    rfl
  | drain raw d =>
    have hmap := congrFun (map_guarded (blamed (.ofRaw raw) s.stock) [] Reply.drained
      (drainPlan raw d).run) s
    rw [act, Act.map_apply, drain_eq, ← Act.map_apply, hmap, plan, Plan.run_map]
    rfl
  | dispose raw =>
    rw [act, dispose_eq, map_guarded, plan, Plan.run_map]
    rfl

/-- What a call answers when no logger panics follows from the table and the source alone. -/
theorem ending_act_of_not_fires {call : Call} {s : Boundary} (h : call.plan.fires s = false) :
    (call.act s).ending = contained call.fallback (call.plan.outcome s.stock).2 := by
  rw [act_eq, ending_guarded, Plan.ending_run_of_not_fires h]

theorem log_act_of_not_fires {call : Call} {s : Boundary} (h : call.plan.fires s = false) :
    (call.act s).log =
      (call.plan.outcome s.stock).1.toList ++
        panicLine (call.function s.stock) (call.plan.outcome s.stock).2 := by
  rw [act_eq, log_guarded, Plan.log_run, Plan.ending_run_of_not_fires h]

/-! Every plan of a C call is a proper one. -/

theorem proper_createPlan (count : Int32) (size : UInt64) (key : Keystream.Key) :
    (createPlan count size key).Proper := by
  refine Plan.Proper.rescue (Plan.proper_given _ ?_) _ ?_
  · intro n
    exact (Plan.proper_supplyFresh _ _ _).map _
  · rintro f _ ⟨⟩
    exact Record.target_ne_table rfl

theorem proper_nextPlan (raw : UInt64) (d : Destination) : (nextPlan raw d).Proper := by
  unfold nextPlan
  split
  · refine Plan.proper_say _ ?_
    rintro _ ⟨⟩
    exact Record.target_ne_table rfl
  · refine Plan.Proper.rescue (Plan.proper_lend _ _ _) _ ?_
    intro f r hr
    split at hr
    · cases hr
    · cases hr
      exact Record.target_ne_table rfl

theorem proper_drainPlan (raw : UInt64) (d : Destination) : (drainPlan raw d).Proper := by
  have hvalue : ∀ k, ∃ readings, ((drainPlan raw d).outcome k).2 = .value readings := by
    intro k
    simp only [drainPlan]
    split
    · exact ⟨_, rfl⟩
    · split <;> exact ⟨_, rfl⟩
  have hrecord : ∀ k, ∀ r ∈ ((drainPlan raw d).outcome k).1, r.target ≠ .table := by
    intro k r hr
    simp only [drainPlan] at hr
    split at hr
    · cases hr
      exact Record.target_ne_table rfl
    · split at hr
      · cases hr
      · split at hr
        · cases hr
          exact Record.target_ne_table rfl
        · cases hr
  refine ⟨fun _ => hvalue _, ?_⟩
  intro k
  rw [Plan.filter_target_eq_nil (hrecord k)]
  simp only [drainPlan]
  split <;> rfl

theorem proper_plan (call : Call) : call.plan.Proper := by
  cases call with
  | create count size key => exact (proper_createPlan count size key).map _
  | hasNext raw =>
    refine (Plan.Proper.rescue (Plan.proper_lend _ _ _) _ ?_).map _
    rintro f _ ⟨⟩
    exact Record.target_ne_table rfl
  | next raw d => exact (proper_nextPlan raw d).map _
  | drain raw d => exact (proper_drainPlan raw d).map _
  | dispose raw =>
    refine (Plan.Proper.rescue (Plan.proper_release _) _ ?_).map _
    rintro f _ ⟨⟩
    exact Record.target_ne_table rfl

end Call

end BufferFeed.CSurface

import BufferFeed.Proofs.Boundary.Steps

/-!
# Panics and the table

A program is calmed by taking its panics out: the logger is never armed, and a borrower that would
panic only borrows (`calm`). The calm program keeps step with the program: after as many of their
steps as correspond, both have the same table, whichever steps panicked (`stock_after_calm`). What
else a panic can change is the ending and the log of the one step it strikes, and that is said too:
when an armed logger panics, and what the surfaces then answer and log.
-/

namespace BufferFeed

/-- An armed logger panics at what is logged by the table or by the C surface, errors apart. -/
theorem Record.trips_iff {r : Record} :
    r.trips = true ↔
      (r.level = .debug ∨ r.level = .warn) ∧ (r.target = .table ∨ r.target = .cSurface) := by
  unfold trips
  generalize r.level = level
  generalize r.target = target
  cases level <;> cases target <;> decide

/-- The function of the C surface that a call is; the loop is none, it is the client's own. -/
def CSurface.Call.exported? : CSurface.Call → Option CFunction
  | .create .. => some .create
  | .hasNext _ => some .hasNext
  | .next .. => some .next
  | .drain .. => none
  | .dispose _ => some .dispose

namespace Boundary

/-- The boundary with its logger disarmed. -/
def disarmed (s : Boundary) : Boundary := { s with armed := false }

/-- Whether the armed logger panics during a step: it is disarmed by that alone. -/
def Step.Fires (step : Step) (s : Boundary) : Prop :=
  s.armed = true ∧ (step.act s).state.armed = false

/-- What is left of a step when no panic is to come of it. -/
def Step.calm? : Step → Option Step
  | .direct .armLogger => none
  | .direct (.lendAndPanic handle action) => some (.direct (.lend handle action))
  | step => some step

/-- The program without its panics. -/
def calm (steps : List Step) : List Step := steps.filterMap Step.calm?

variable {s t : Boundary} {step calmed : Step}

/-! ## The two runs keep step -/

theorem Step.demand_of_calm?_eq_none (h : step.calm? = none) : step.plan.demand = .nothing := by
  cases step with
  | direct call =>
    cases call with
    | armLogger => rfl
    | _ => cases h
  | _ => cases h

theorem Step.demand_of_calm?_eq_some (h : step.calm? = some calmed) :
    calmed.plan.demand = step.plan.demand := by
  cases step with
  | direct call => cases call <;> cases h <;> rfl
  | _ =>
    cases h
    rfl

/-- **The calm program keeps step**: it has the same table and the same source all along. -/
theorem stock_after_calm (h : s.stock = t.stock) (steps : List Step) :
    (s.after steps).stock = (t.after (calm steps)).stock := by
  -- by induction on the steps; a step that is left out asks for nothing
  induction steps generalizing s t with
  | nil => exact h
  | cons step steps ih =>
    cases hcalm : step.calm? with
    | none =>
      rw [calm, List.filterMap_cons_none hcalm]
      refine ih ?_
      rw [step.stock_act, Step.demand_of_calm?_eq_none hcalm]
      exact h
    | some calmed =>
      rw [calm, List.filterMap_cons_some hcalm]
      refine ih ?_
      rw [step.stock_act, calmed.stock_act, Step.demand_of_calm?_eq_some hcalm, h]

theorem Step.enter_of_calm? (h : step.calm? = some calmed) (t : Boundary) :
    calmed.enter t = t := by
  cases step with
  | direct call => cases call <;> cases h <;> rfl
  | _ =>
    cases h
    rfl

/-- Nothing in a calm program arms the logger. -/
theorem unarmed_after_calm (unarmed : t.armed = false) (steps : List Step) :
    (t.after (calm steps)).armed = false := by
  induction steps generalizing t with
  | nil => exact unarmed
  | cons step steps ih =>
    cases hcalm : step.calm? with
    | none =>
      rw [calm, List.filterMap_cons_none hcalm]
      exact ih unarmed
    | some calmed =>
      rw [calm, List.filterMap_cons_some hcalm]
      refine ih ?_
      rw [calmed.armed_act, Step.enter_of_calm? hcalm, unarmed, Bool.false_and]

/-! ## What a step answers -/

theorem Step.not_fires_of_unarmed (unarmed : t.armed = false) (step : Step) :
    step.plan.fires t = false := by
  rw [Plan.fires, unarmed, Bool.false_and]

/-- **Where no logger panics, the answer and the log follow from the table and the source.** What
else Java's calls depend on is the machine's. -/
theorem Step.same_run (hst : s.stock = t.stock) (side : ∀ faults call, step ≠ .fromJava faults call)
    (silent : step.plan.fires s = false) (silent' : step.plan.fires t = false) :
    (step.act s).ending = (step.act t).ending ∧ (step.act s).log = (step.act t).log := by
  cases step with
  | direct call =>
    simp only [act, Act.ending_map, Act.log_map, Direct.Call.ending_act_of_not_fires silent,
      Direct.Call.ending_act_of_not_fires silent', Direct.Call.log_act, hst, and_self]
  | fromC call =>
    simp only [act, Act.ending_map, Act.log_map, CSurface.Call.ending_act_of_not_fires silent,
      CSurface.Call.ending_act_of_not_fires silent', CSurface.Call.log_act_of_not_fires silent,
      CSurface.Call.log_act_of_not_fires silent', hst, and_self]
  | fromJava faults call => exact absurd rfl (side faults call)
  | throwing exception | clearing => exact ⟨rfl, rfl⟩

/-- Where no panic strikes, the answer and the log are those of the calm step. -/
theorem Step.same_answer (hst : s.stock = t.stock) (unarmed : t.armed = false)
    (hcalm : step.calm? = some calmed) (side : ∀ faults call, step ≠ .fromJava faults call)
    (silent : step.plan.fires s = false)
    (unstruck : (step.act s).ending ≠ .panic "closure panic") :
    (step.act s).ending = (calmed.act t).ending ∧ (step.act s).log = (calmed.act t).log := by
  have hcalmed := Step.not_fires_of_unarmed unarmed calmed
  cases step with
  | direct call =>
    cases call with
    | armLogger => cases hcalm
    | lendAndPanic handle action =>
      cases hcalm
      have hending : ((Direct.Call.lendAndPanic handle action).act s).ending = _ :=
        Direct.Call.ending_act_of_not_fires silent
      have hlend : ((Direct.Call.lend handle action).act t).ending = _ :=
        Direct.Call.ending_act_of_not_fires hcalmed
      cases found : s.stock.table.get? handle with
      | some f =>
        -- the feed would have been lent out, and the borrower would have panicked
        refine absurd ?_ unstruck
        rw [act, Act.ending_map, hending]
        simp only [Direct.Call.plan, Plan.lend, found, Ending.map]
      | none =>
        simp only [act, Act.ending_map, Act.log_map, hending, hlend, Direct.Call.log_act, ← hst,
          Direct.Call.plan, Plan.lend, found, and_self]
    | _ =>
      cases hcalm
      exact same_run hst side silent hcalmed
  | fromJava faults call => exact absurd rfl (side faults call)
  | fromC call | throwing exception | clearing =>
    cases hcalm
    exact same_run hst side silent hcalmed

/-! ## When the logger panics, and what comes of it -/

theorem Step.fires_iff_logged (armed : s.armed = true) (step : Step) :
    step.Fires s ↔ ∃ r ∈ (step.act s.disarmed).log, r.trips = true := by
  obtain ⟨lines, hlog, hlines⟩ := step.log_act s.disarmed
  rw [Fires, fires_iff, Plan.fires_iff, hlog]
  constructor
  · rintro ⟨-, r, hr, trips⟩
    exact ⟨r, List.mem_append_left _ (Option.mem_toList.mpr hr), trips⟩
  · rintro ⟨r, hr, trips⟩
    rcases List.mem_append.mp hr with hr | hr
    · exact ⟨armed, r, Option.mem_toList.mp hr, trips⟩
    · rw [(hlines r hr).2] at trips
      cases trips

/-- A panic of the logger does not leave an exported function: it answers with its fallback, and
the line about the panic comes after what is logged without it. -/
theorem contained_fromC {call : CSurface.Call} {function : CFunction}
    (exported : call.exported? = some function) (fires : (Step.fromC call).Fires s) :
    ((Step.fromC call).act s).ending = .value (.toC call.fallback) ∧
      ((Step.fromC call).act s).log =
        ((Step.fromC call).act s.disarmed).log ++ [.panicked function] := by
  have hfires : call.plan.fires s = true := Step.fires_iff.mp fires
  have hquiet : call.plan.fires s.disarmed = false := Bool.false_and _
  have hfunction : call.function s.stock = function := by
    cases call <;> cases exported <;> rfl
  obtain ⟨-, r, hr, -⟩ := Plan.fires_iff.mp hfires
  obtain ⟨a, ha⟩ := call.proper_plan.settled hr
  have hlog : (call.act s).log =
      (call.plan.outcome s.stock).1.toList ++ [.panicked function] := by
    rw [call.act_eq, CSurface.log_guarded, Plan.log_run, Plan.run_of_fires hfires, hfunction]
    rfl
  have hcalm : (call.act s.disarmed).log = (call.plan.outcome s.stock).1.toList ++ [] := by
    rw [CSurface.Call.log_act_of_not_fires hquiet]
    exact congrArg _ (congrArg (CSurface.panicLine _) ha)
  refine ⟨?_, ?_⟩
  · rw [Step.act, Act.ending_map, call.act_eq, CSurface.guarded_run_of_fires hfires]
    rfl
  · rw [Step.act, Act.log_map, Act.log_map, hlog, hcalm, List.append_nil]

theorem contained_fromJava {faults : List Jvm.Fault} {call : JavaSurface.Call}
    (fires : (Step.fromJava faults call).Fires s) :
    ((Step.fromJava faults call).act s).ending = .value (.toJava call.fallback) ∧
      ∃ lines, (lines = [] ∨ ∃ e, lines = [.raiseFailed "java/lang/RuntimeException" e]) ∧
        ((Step.fromJava faults call).act s).log =
          ((Step.fromJava faults call).act s.disarmed).log ++
            .methodPanicked call.method :: lines := by
  have hfires : call.plan.fires s = true := Step.fires_iff.mp fires
  have hquiet : call.plan.fires s.disarmed = false := Bool.false_and _
  obtain ⟨-, r, hr, -⟩ := Plan.fires_iff.mp hfires
  obtain ⟨hending, hlog⟩ := JavaSurface.Call.act_of_fires hfires faults
  have hcalm : (call.act faults s.disarmed).log = [r] :=
    JavaSurface.Call.log_act_of_record hquiet hr
  refine ⟨?_, JavaSurface.unraised faults (JavaSurface.panicFailure call.method) s.pending, ?_, ?_⟩
  · rw [Step.act, Act.ending_map, hending]
    rfl
  · unfold JavaSurface.unraised
    split
    · exact .inl rfl
    · rename_i e _
      exact .inr ⟨e, rfl⟩
  · rw [Step.act, Act.log_map, Act.log_map, hlog, hcalm, hr]
    rfl

/-- **Panics never change what the table does.** A program and the same program without its panics
keep the same table. Where no panic strikes, the answers from within and from C and what is logged
are the same too. The armed logger panics just at what the table or the C surface logs, errors
apart; and then no exported function lets the panic out, and each answers zero, `false`, null or
nothing, but for a read by a C program, which answers `-3`. -/
theorem panics_change_nothing (source : Source) (done : List Step) (step : Step) :
    let s := (start source).after done
    let t := (start source).after (calm done)
    (s.table = t.table ∧ s.source = t.source ∧ s.live = t.live) ∧
      (∀ calmed, step.calm? = some calmed → (∀ faults call, step ≠ .fromJava faults call) →
        ¬ step.Fires s → (step.act s).ending ≠ .panic "closure panic" →
          (step.act s).ending = (calmed.act t).ending ∧
            (step.act s).log = (calmed.act t).log) ∧
      (s.armed = true →
        (step.Fires s ↔ ∃ r ∈ (step.act s.disarmed).log,
          (r.level = .debug ∨ r.level = .warn) ∧ (r.target = .table ∨ r.target = .cSurface))) ∧
      (∀ call function, step = .fromC call → call.exported? = some function → step.Fires s →
        (step.act s).ending = .value (.toC (match function with
          | .create => .created 0
          | .hasNext => .flag 0
          | .next => .read ⟨-3, []⟩
          | .dispose => .disposed)) ∧
        (step.act s).log = (step.act s.disarmed).log ++ [.panicked function]) ∧
      ∀ faults call, step = .fromJava faults call → step.Fires s →
        (step.act s).ending = .value (.toJava (match call with
          | .create .. => .created 0
          | .hasNext _ => .flag false
          | .next _ => .array none
          | .dispose _ => .disposed)) ∧
        ∃ lines, (lines = [] ∨ ∃ e, lines = [.raiseFailed "java/lang/RuntimeException" e]) ∧
          (step.act s).log =
            (step.act s.disarmed).log ++ .methodPanicked call.method :: lines := by
  have hst : ((start source).after done).stock = ((start source).after (calm done)).stock :=
    stock_after_calm rfl done
  have htable := congrArg Stock.table hst
  refine ⟨⟨htable, congrArg Stock.source hst, congrArg SlotTable.size htable⟩, ?_, ?_, ?_, ?_⟩
  · intro calmed hcalm side silent unstruck
    refine Step.same_answer hst (unarmed_after_calm rfl done) hcalm side ?_ unstruck
    rw [← Bool.not_eq_true, ← Step.fires_iff]
    exact silent
  · intro armed
    simp only [Step.fires_iff_logged armed, Record.trips_iff]
  · rintro call function rfl exported fires
    obtain ⟨hending, hlog⟩ := contained_fromC exported fires
    refine ⟨hending.trans ?_, hlog⟩
    cases call <;> cases exported <;> rfl
  · rintro faults call rfl fires
    obtain ⟨hending, hlines⟩ := contained_fromJava fires
    refine ⟨hending.trans ?_, hlines⟩
    cases call <;> rfl

/-- A disposal that an armed logger strikes has still disposed of the feed. -/
theorem panics_change_nothing_disposal :
    let s := (start ⟨.counting 0 1, 0⟩).after [.direct (.register 1 1), .direct .armLogger]
    let step := Step.fromC (.dispose (Handle.mk 0 1).raw)
    step.Fires s ∧ (step.act s).ending = .value (.toC .disposed) ∧
      (step.act s).log = [.released ⟨0, 1⟩ 1 1, .panicked .dispose] ∧
        (step.act s).state.live = 0 := by
  have fires : (Step.fromC (.dispose (Handle.mk 0 1).raw)).Fires
      ((start ⟨.counting 0 1, 0⟩).after [.direct (.register 1 1), .direct .armLogger]) := by
    exact ⟨by decide, by decide⟩
  have h := (panics_change_nothing ⟨.counting 0 1, 0⟩
    [.direct (.register 1 1), .direct .armLogger] _).2.2.2.1 _ .dispose rfl rfl fires
  exact ⟨fires, h.1, h.2.trans (by decide), by decide⟩

end Boundary

end BufferFeed

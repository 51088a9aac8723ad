import BufferFeed.Boundary.Program
import BufferFeed.Proofs.Boundary.Direct
import BufferFeed.Proofs.Boundary.Drain
import BufferFeed.Proofs.Boundary.JavaSurface

/-!
# Steps of a program

Whatever side a step comes from, it has a plan (`Step.plan`), and that decides three things: what
becomes of the table and of the source of feeds (`Step.stock_act`), whether an armed logger panics
(`Step.fires_iff`), and what is logged apart from the lines of the guards (`Step.log_act`). So a run
can be followed by the plans of its steps, with no eye to the surfaces.

Of the table's own records a step writes what the audit of its demand asks for, panics or not
(`Step.audit_act`).
-/

namespace BufferFeed.Boundary

namespace Step

/-- What is planned, behind whatever guard there is. -/
def plan : Step → Plan Reply
  | .direct call => call.plan.map .direct
  | .fromC call => call.plan.map .toC
  | .fromJava _ call => call.plan.map .toJava
  | .throwing _ | .clearing => .say none (.value .done)

theorem proper_plan (step : Step) : step.plan.Proper := by
  cases step with
  | direct call => exact call.proper_plan.map _
  | fromC call => exact call.proper_plan.map _
  | fromJava faults call => exact call.proper_plan.map _
  | throwing exception => exact Plan.proper_end _
  | clearing => exact Plan.proper_end _

/-- **A step does to the table and to the source what its plan does**, in whatever way it ends. -/
theorem stock_act (step : Step) (s : Boundary) :
    (step.act s).state.stock = step.plan.demand.meet s.stock := by
  cases step with
  | direct call =>
    rw [act, Act.state_map, call.act_eq, Plan.stock_run, call.stock_enter]
    rfl
  | fromC call =>
    rw [act, Act.state_map, call.act_eq, CSurface.state_guarded, Plan.stock_run]
    rfl
  | fromJava faults call =>
    rw [act, Act.state_map, call.stock_act]
    rfl
  | throwing exception => rfl
  | clearing => rfl

theorem stock_act_congr {s t : Boundary} (hst : s.stock = t.stock) (step : Step) :
    (step.act s).state.stock = (step.act t).state.stock := by
  rw [step.stock_act, step.stock_act, hst]

/-- The boundary on which a step's plan runs. -/
def enter : Step → Boundary → Boundary
  | .direct call, s => call.enter s
  | _, s => s

theorem enter_of_armed {s : Boundary} (armed : s.armed = true) (step : Step) :
    step.enter s = s := by
  cases step with
  | direct call => exact call.enter_of_armed armed
  | _ => rfl

/-- What arms the logger is the entry of a step, and what disarms it is a panic at its record. -/
theorem armed_act (step : Step) (s : Boundary) :
    (step.act s).state.armed = ((step.enter s).armed && !step.plan.fires (step.enter s)) := by
  cases step with
  | direct call =>
    rw [act, Act.state_map, call.act_eq, Plan.armed_run]
    rfl
  | fromC call =>
    rw [act, Act.state_map, call.act_eq, CSurface.state_guarded, Plan.armed_run]
    rfl
  | fromJava faults call =>
    rw [act, Act.state_map, call.armed_act]
    rfl
  | throwing exception =>
    rw [Plan.fires_of_silent (p := plan (.throwing exception)) rfl, Bool.not_false, Bool.and_true]
    rfl
  | clearing =>
    rw [Plan.fires_of_silent (p := plan .clearing) rfl, Bool.not_false, Bool.and_true]
    rfl

/-- **The logger panics exactly at a record of the plan that trips it.** -/
theorem fires_iff {step : Step} {s : Boundary} :
    s.armed = true ∧ (step.act s).state.armed = false ↔ step.plan.fires s = true := by
  constructor
  · rintro ⟨armed, spent⟩
    rw [armed_act, enter_of_armed armed, armed, Bool.true_and, Bool.not_eq_false'] at spent
    exact spent
  · intro fires
    have armed := Plan.armed_of_fires fires
    refine ⟨armed, ?_⟩
    rw [armed_act, enter_of_armed armed, fires, Bool.not_true, Bool.and_false]

/-- Apart from the record of its plan, a step logs only what the guards log. -/
theorem log_act (step : Step) (s : Boundary) :
    ∃ lines, (step.act s).log = (step.plan.outcome s.stock).1.toList ++ lines ∧
      ∀ r ∈ lines, r.target ≠ .table ∧ r.trips = false := by
  cases step with
  | direct call =>
    refine ⟨[], ?_, fun r hr => nomatch hr⟩
    rw [act, Act.log_map, call.act_eq, Plan.log_run, call.stock_enter, List.append_nil]
    rfl
  | fromC call =>
    have hlog := CSurface.log_guarded (call.function s.stock) call.fallback call.plan.run s
    rw [← call.act_eq, Plan.log_run] at hlog
    rw [act, Act.log_map]
    refine ⟨_, hlog, ?_⟩
    intro r hr
    rw [CSurface.eq_of_mem_panicLine hr]
    exact ⟨Record.target_ne_table rfl, rfl⟩
  | fromJava faults call =>
    obtain ⟨lines, hlog, hlines⟩ := call.log_act faults s
    refine ⟨lines, ?_, ?_⟩
    · rw [act, Act.log_map, hlog]
      rfl
    · intro r hr
      constructor
      · rw [hlines r hr]
        decide
      · rw [Record.trips, hlines r hr]
        exact Bool.and_false _
  | throwing exception => exact ⟨[], rfl, fun r hr => nomatch hr⟩
  | clearing => exact ⟨[], rfl, fun r hr => nomatch hr⟩

/-- **Of the table's own records, a step logs just those that its demand asks for.** -/
theorem audit_act (step : Step) (s : Boundary) :
    (step.act s).log.filter (·.target = .table) = (step.plan.demand.audit s.stock).toList := by
  obtain ⟨lines, hlog, hlines⟩ := step.log_act s
  have hnone : lines.filter (·.target = .table) = [] := by
    rw [List.filter_eq_nil_iff]
    exact fun r hr => by simpa using (hlines r hr).1
  rw [hlog, List.filter_append, hnone, List.append_nil, step.proper_plan.audited]

end Step

end BufferFeed.Boundary

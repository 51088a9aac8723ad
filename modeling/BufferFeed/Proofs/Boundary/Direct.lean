import BufferFeed.Boundary.Direct
import BufferFeed.Proofs.Boundary.Plan

/-!
# The plans of the calls from within

Every call from within the process is the run of a plan, a borrower's panic included: it is the
ending of a plan whose demand is the loan. Arming the logger asks for nothing; it is the one call
that changes the boundary before its plan runs (`Direct.Call.enter`).
-/

namespace BufferFeed.Direct.Call

def plan : Call → Plan Reply
  | .register count size => (Plan.supply count.toNat size.toNat).map .issued
  | .registerFresh count size key => (Plan.supplyFresh count.toNat size.toNat key).map .issued
  | .lend handle action =>
    Plan.lend handle action fun f => .value (.lent (f.serve action).1.1 (f.serve action).1.2)
  | .lendAndPanic handle action => Plan.lend handle action fun _ => .panic "closure panic"
  | .release handle => (Plan.release handle).map fun _ => .done
  | .live => ⟨.nothing, fun k => (none, .value (.number k.table.size))⟩
  | .armLogger => .say none (.value .done)

/-- The boundary on which a call's plan runs. -/
def enter : Call → Boundary → Boundary
  | .armLogger, s => { s with armed := true }
  | _, s => s

@[simp]
theorem stock_enter (call : Call) (s : Boundary) : (call.enter s).stock = s.stock := by
  cases call <;> rfl

/-- A logger that is armed already is not armed any further. -/
theorem enter_of_armed {s : Boundary} (armed : s.armed = true) (call : Call) :
    call.enter s = s := by
  cases call with
  | armLogger =>
    cases s
    cases armed
    rfl
  | _ => rfl

/-- **A call from within is the run of its plan.** -/
theorem act_eq (call : Call) (s : Boundary) : call.act s = call.plan.run (call.enter s) := by
  cases call with
  | register count size =>
    have hrun : (plan (.register count size)).run =
        (Act.makeFeed count.toNat size.toNat >>= Act.register) >>= fun h => pure (.issued h) := by
      rw [Plan.run_supply, bind_pure_comp]
      exact Plan.run_map _ _
    rw [bind_assoc] at hrun
    exact congrFun hrun.symm s
  | registerFresh count size key =>
    have hrun : (plan (.registerFresh count size key)).run =
        (Act.makeFreshFeed count.toNat size.toNat key >>= Act.register) >>=
          fun h => pure (.issued h) := by
      rw [Plan.run_supplyFresh, bind_pure_comp]
      exact Plan.run_map _ _
    rw [bind_assoc] at hrun
    exact congrFun hrun.symm s
  | lend h action =>
    have hrun := Plan.run_lend h action (g := Feed.serve action)
      (f := fun r => pure (Reply.lent r.1 r.2)) (fun _ => rfl) (fun _ => rfl)
    exact congrFun hrun s
  | lendAndPanic h action =>
    have hrun := Plan.run_lend h action (g := Feed.serve action)
      (f := fun _ => (Act.panic "closure panic" : Act Reply)) (fun _ => rfl) (fun _ => rfl)
    exact congrFun hrun s
  | release h =>
    have hrun := Plan.run_map (fun _ => Reply.done) (Plan.release h)
    rw [← Plan.run_release] at hrun
    exact congrFun hrun.symm s
  | live => rfl
  | armLogger => rfl

theorem log_act (call : Call) (s : Boundary) :
    (call.act s).log = (call.plan.outcome s.stock).1.toList := by
  rw [act_eq, Plan.log_run, stock_enter]

/-- What a call answers when no logger panics follows from the table and the source alone. -/
theorem ending_act_of_not_fires {call : Call} {s : Boundary} (h : call.plan.fires s = false) :
    (call.act s).ending = (call.plan.outcome s.stock).2 := by
  cases call with
  | armLogger => rfl
  | _ =>
    rw [act_eq]
    exact Plan.ending_run_of_not_fires h

theorem proper_plan (call : Call) : call.plan.Proper := by
  cases call with
  | register count size => exact (Plan.proper_supply _ _).map _
  | registerFresh count size key => exact (Plan.proper_supplyFresh _ _ _).map _
  | lend h action => exact Plan.proper_lend _ _ _
  | lendAndPanic h action => exact Plan.proper_lend _ _ _
  | release h => exact (Plan.proper_release h).map _
  | live => exact ⟨fun h => (nomatch h), fun _ => rfl⟩
  | armLogger => exact Plan.proper_end _

end BufferFeed.Direct.Call

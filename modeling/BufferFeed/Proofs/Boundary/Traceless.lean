import BufferFeed.Proofs.Boundary.Locality
import BufferFeed.Proofs.Boundary.Shown

/-!
# Steps that leave no trace

A step that only looks, and one that fails, can be left out of a program without anyone noticing
(`traceless_steps_leave_no_trace`). Which steps these are is said by `Step.Traceless`, one
constructor a reason. All reasons come to one: the demand of the step is met by leaving the stock as
it is (`Step.Traceless.meet`), whatever is answered and logged about it.

That is why a program without the step goes on as the one with it. What any other step does follows
from the stock alone, as long as no logger is armed and no virtual machine is asked
(`Step.same_run`).
-/

namespace BufferFeed

/-! ## What steps ask for -/

/-- An action that only looks leaves a feed as it was. -/
theorem Feed.perform_of_isQuery {action : Feed.Action} (looks : action.isQuery = true) (f : Feed) :
    (f.perform action).2 = f := by
  cases action with
  | next | drain => cases looks
  | _ => rfl

/-- A feed that does not fit is not made, and nothing is drawn for it. -/
theorem Demand.meet_supply_of_unfit {count size : Nat} (unfit : ¬ Feed.Fits count size)
    (k : Stock) : (supply count size).meet k = k := by
  simp only [meet, Feed.generate_eq_none_iff.mpr unfit]

theorem Demand.meet_supplyFresh_of_unfit {count size : Nat} (unfit : ¬ Feed.Fits count size)
    (key : Keystream.Key) (k : Stock) : (supplyFresh count size key).meet k = k := by
  simp only [meet, Feed.ofEntropy, Feed.generate_eq_none_iff.mpr unfit, Option.map_none]

namespace Boundary

namespace Step

/-- The loan that a step asks for: the handle, and what is done with the feed. -/
def loan? : Step → Option (Handle × Feed.Action)
  | .direct (.lend handle action) | .direct (.lendAndPanic handle action) => some (handle, action)
  | .fromC (.hasNext raw) => some (.ofRaw raw, .hasMore)
  | .fromC (.next raw _) => some (.ofRaw raw, .next)
  | _ => none

/-- The feed that a step from within the process or from C asks to be made: how many buffers, and of
what size. -/
def supply? : Step → Option (Int × Nat)
  | .direct (.register count size) | .direct (.registerFresh count size _) =>
    some (count.toNat, size.toNat)
  | .fromC (.create count size _) => some (count.toInt, size.toNat)
  | _ => none

/-- The reasons for which a step leaves no trace. -/
inductive Traceless (s : Boundary) (step : Step) : Prop
  /-- It asks how many feeds live. -/
  | live (asks : step = .direct .live)
  /-- It only looks at a feed. -/
  | query {h : Handle} {action : Feed.Action} (loan : step.loan? = some (h, action))
      (looks : action.isQuery = true)
  /-- Its handle is not live. -/
  | stale {h : Handle} (names : step.handle? = some h) (absent : s.table.get? h = none)
  /-- Its destination is none. -/
  | rejected {raw : UInt64} {d : Destination} (reads : step = .fromC (.next raw d))
      (invalid : ¬ d.Valid)
  /-- Its feed has nothing ahead. -/
  | exhausted {h : Handle} {f : Feed} (loan : step.loan? = some (h, .next))
      (found : s.table.get? h = some f) (nothing : f.ahead = [])
  /-- Its count is below zero. -/
  | negative {count : Int} {size : Nat} (supply : step.supply? = some (count, size))
      (below : count < 0)
  /-- Its feed does not fit. -/
  | overflow {count : Int} {size : Nat} (supply : step.supply? = some (count, size))
      (unfit : ¬ Feed.Fits count.toNat size)

/-- Whether a step comes from within the process or from C, and does not arm the logger. -/
def isPlain : Step → Bool
  | .direct .armLogger => false
  | .direct _ | .fromC _ => true
  | _ => false

variable {step : Step} {s t : Boundary} {h : Handle} {action : Feed.Action}

theorem demand_of_loan? (loan : step.loan? = some (h, action)) :
    step.plan.demand = .nothing ∨ step.plan.demand = .lend h action := by
  cases step with
  | direct call =>
    cases call with
    | lend g a | lendAndPanic g a =>
      cases loan
      exact .inr rfl
    | _ => cases loan
  | fromC call =>
    cases call with
    | hasNext raw =>
      cases loan
      exact .inr rfl
    | next raw d =>
      cases loan
      cases hd : CSurface.capacity? d with
      | none => exact .inl (CSurface.demand_nextPlan_of_none hd raw)
      | some capacity => exact .inr (CSurface.demand_nextPlan hd raw)
    | _ => cases loan
  | _ => cases loan

/-- A loan from which the feed comes back as it was leaves all as it was. -/
theorem meet_of_loan? (loan : step.loan? = some (h, action))
    (unmoved : ∀ f, s.table.get? h = some f → (f.perform action).2 = f) :
    step.plan.demand.meet s.stock = s.stock := by
  rcases demand_of_loan? loan with hd | hd
  · rw [hd]
    rfl
  · rw [hd]
    cases found : s.table.get? h with
    | none => exact Demand.meet_lend_of_get?_eq_none found action
    | some f => exact Demand.meet_lend_of_unmoved found action (unmoved f found)

/-- A feed that cannot be made leaves all as it was. -/
theorem meet_of_supply? {count : Int} {size : Nat} (supply : step.supply? = some (count, size))
    (void : count < 0 ∨ ¬ Feed.Fits count.toNat size) (k : Stock) :
    step.plan.demand.meet k = k := by
  cases step with
  | direct call =>
    cases call with
    | register n m =>
      cases supply
      exact Demand.meet_supply_of_unfit
        (void.resolve_left (Int.not_lt.mpr (Int.natCast_nonneg _))) k
    | registerFresh n m key =>
      cases supply
      exact Demand.meet_supplyFresh_of_unfit
        (void.resolve_left (Int.not_lt.mpr (Int.natCast_nonneg _))) key k
    | _ => cases supply
  | fromC call =>
    cases call with
    | create n m key =>
      cases supply
      show (CSurface.createPlan n m key).demand.meet k = k
      by_cases hneg : n.toInt < 0
      · rw [CSurface.createPlan, IntRange.size_of_neg hneg]
        rfl
      · have hcount : 0 ≤ n := Int32.le_iff_toInt_le.mpr (Int.not_lt.mp hneg)
        rw [CSurface.createPlan_of_nonneg hcount]
        exact Demand.meet_supplyFresh_of_unfit (void.resolve_left hneg) key k
    | _ => cases supply
  | _ => cases supply

/-- **Whatever the reason, the stock is left as it was.** -/
theorem Traceless.meet (traceless : step.Traceless s) :
    step.plan.demand.meet s.stock = s.stock := by
  cases traceless with
  | live asks =>
    rw [asks]
    rfl
  | query loan looks => exact meet_of_loan? loan fun f _ => f.perform_of_isQuery looks
  | stale names absent => exact meet_of_get?_eq_none absent names
  | @rejected raw d reads invalid =>
    have hd : CSurface.capacity? d = none :=
      Option.eq_none_iff_forall_ne_some.mpr fun n hn =>
        invalid (CSurface.capacity?_eq_some_iff.mp hn).1
    have hdemand : step.plan.demand = .nothing := by
      rw [reads]
      exact CSurface.demand_nextPlan_of_none hd raw
    rw [hdemand]
    rfl
  | exhausted loan found nothing =>
    refine meet_of_loan? loan fun g hg => ?_
    cases found.symm.trans hg
    simp only [Feed.perform, Feed.next_of_ahead_nil nothing]
  | negative supply below => exact meet_of_supply? supply (.inl below) _
  | overflow supply unfit => exact meet_of_supply? supply (.inr unfit) _

theorem ne_fromJava_of_isPlain (plain : step.isPlain = true) :
    ∀ faults call, step ≠ .fromJava faults call := by
  rintro faults call rfl
  cases plain

theorem unarmed_act_of_isPlain (plain : step.isPlain = true) (unarmed : s.armed = false) :
    (step.act s).state.armed = false := by
  refine unarmed_act unarmed ?_
  rintro rfl
  cases plain

end Step

/-! ## Programs with steps left out -/

/-- A program, and of each step whether it stays. -/
abbrev Draft := List (Step × Bool)

namespace Draft

/-- The program with all its steps. -/
def full (d : Draft) : List Step := d.map Prod.fst

/-- The program of the steps that stay. -/
def kept : Draft → List Step
  | [] => []
  | (step, true) :: d => step :: kept d
  | (_, false) :: d => kept d

end Draft

/-- What can be noticed of a step: how it ended, how many feeds live then, and what it logged. -/
def noticed (r : Run Reply) : Ending Reply × Nat × List Record := (r.ending, r.state.live, r.log)

/-- What the full program shows of the steps that stay. -/
def shown (s : Boundary) : Draft → List (Ending Reply × Nat × List Record)
  | [] => []
  | (step, true) :: d => noticed (step.act s) :: shown (step.act s).state d
  | (step, false) :: d => shown (step.act s).state d

variable {s t : Boundary} {step : Step} {draft : Draft}

/-- What can be noticed of a step follows from the stock. -/
theorem noticed_congr (plain : step.isPlain = true) (hst : s.stock = t.stock)
    (unarmed : s.armed = false) (unarmed' : t.armed = false) :
    noticed (step.act s) = noticed (step.act t) := by
  obtain ⟨hending, hlog⟩ := Step.same_run hst (Step.ne_fromJava_of_isPlain plain)
    (Step.not_fires_of_unarmed unarmed step) (Step.not_fires_of_unarmed unarmed' step)
  have hlive : (step.act s).state.live = (step.act t).state.live :=
    congrArg (fun k : Stock => k.table.size) (Step.stock_act_congr hst step)
  rw [noticed, noticed, hending, hlive, hlog]

/-- **Both programs have the same stock all along**, so they show the same of what stays. -/
theorem shown_eq_run (hst : s.stock = t.stock) (unarmed : s.armed = false)
    (unarmed' : t.armed = false) (plain : ∀ x ∈ draft, x.1.isPlain = true)
    (traceless : Throughout Prod.fst (fun s x => x.2 = false → x.1.Traceless s) s draft) :
    shown s draft = (t.run draft.kept).map noticed ∧
      (s.after draft.full).stock = (t.after draft.kept).stock := by
  -- by induction on the steps; a step left out moves the full program only, and not its stock
  induction draft generalizing s t with
  | nil => exact ⟨rfl, hst⟩
  | cons x draft ih =>
    obtain ⟨step, stays⟩ := x
    obtain ⟨hplain, hplains⟩ := List.forall_mem_cons.mp plain
    obtain ⟨hfirst, hrest⟩ := traceless
    cases stays with
    | true =>
      obtain ⟨hshown, hafter⟩ := ih (Step.stock_act_congr hst step)
        (Step.unarmed_act_of_isPlain hplain unarmed) (Step.unarmed_act_of_isPlain hplain unarmed')
        hplains hrest
      refine ⟨?_, hafter⟩
      show noticed (step.act s) :: shown (step.act s).state draft =
        noticed (step.act t) :: ((step.act t).state.run (Draft.kept draft)).map noticed
      rw [noticed_congr hplain hst unarmed unarmed', hshown]
    | false =>
      have hsame : (step.act s).state.stock = t.stock := by
        rw [step.stock_act, (hfirst rfl).meet, hst]
      exact ih hsame (Step.unarmed_act_of_isPlain hplain unarmed) unarmed' hplains hrest

/-- **Steps that only look or fail leave no trace.** Leave out any of them: every other step is
answered the same, with as many feeds live and the same lines in the log, and in the end the table
and the source are the same. -/
theorem traceless_steps_leave_no_trace (source : Source) (draft : Draft)
    (plain : ∀ x ∈ draft, x.1.isPlain = true)
    (traceless : Throughout Prod.fst (fun s x => x.2 = false → x.1.Traceless s) (start source)
      draft) :
    shown (start source) draft = ((start source).run draft.kept).map noticed ∧
      ((start source).after draft.full).table = ((start source).after draft.kept).table ∧
      ((start source).after draft.full).source = ((start source).after draft.kept).source := by
  obtain ⟨hshown, hstock⟩ := shown_eq_run rfl rfl rfl plain traceless
  exact ⟨hshown, congrArg Stock.table hstock, congrArg Stock.source hstock⟩

/-- A feed is made, read and given up, and another is made in its slot. Between these steps stands
one of each kind that can be left out. -/
def sketch : Draft :=
  [(.direct (.register 1 1), true), (.fromC (.hasNext 0x100000000), false),
    (.fromC (.next 0x100000000 ⟨0, 1⟩), false), (.direct (.lendAndPanic ⟨0, 1⟩ .next), true),
    (.fromC (.next 0x100000000 ⟨16, 1⟩), false),
    (.direct (.register 0x8000000000000000 1), false),
    (.fromC (.create (-1) 1 ⟨⟨0, 0, 0, 0⟩, ⟨0, 0, 0, 0⟩⟩), false),
    (.direct (.release ⟨0, 1⟩), true), (.fromC (.dispose 0x100000000), false),
    (.direct .live, false), (.direct (.register 2 1), true)]

theorem traceless_steps_leave_no_trace_sketch :
    sketch.kept.length = 4 ∧
      shown (start ⟨.counting 0 1, 0⟩) sketch =
        ((start ⟨.counting 0 1, 0⟩).run sketch.kept).map noticed ∧
      ((start ⟨.counting 0 1, 0⟩).after sketch.full).table =
        ⟨#[⟨2, some ⟨#[[1], [2]], 1, 0, .supplied⟩⟩], []⟩ := by
  have exhausted : Step.Traceless ((start ⟨.counting 0 1, 0⟩).after
      [.direct (.register 1 1), .direct (.lendAndPanic ⟨0, 1⟩ .next)])
      (.fromC (.next 0x100000000 ⟨16, 1⟩)) := by
    have found : ((start ⟨.counting 0 1, 0⟩).after
        [.direct (.register 1 1), .direct (.lendAndPanic ⟨0, 1⟩ .next)]).table.get?
          (.ofRaw 0x100000000) = some ⟨#[[0]], 1, 1, .supplied⟩ := by decide
    exact .exhausted rfl found rfl
  obtain ⟨hshown, htable, -⟩ := traceless_steps_leave_no_trace ⟨.counting 0 1, 0⟩ sketch (by decide)
    ⟨nofun, fun _ => .query rfl rfl, fun _ => .rejected rfl (by decide), nofun, fun _ => exhausted,
      fun _ => .overflow rfl (by decide), fun _ => .negative rfl (by decide), nofun,
      fun _ => .stale rfl (by decide), fun _ => .live rfl, nofun, trivial⟩
  refine ⟨rfl, hshown, ?_⟩
  rw [htable]
  decide

end Boundary

end BufferFeed

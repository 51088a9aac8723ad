import BufferFeed.Proofs.Notation
import BufferFeed.Proofs.Boundary.Answers

/-!
# Released handles stay dead

A handle that the table does not know is refused on every side, each in its own way, and asking
changes nothing (`Boundary.Refuses`). A released handle is never known again: no later registration
is issued it, however often its slot is filled anew.

That is for as long as the indices and the generations last. A handle of generation zero, the null
handle among them, is refused without any such proviso.
-/

namespace BufferFeed

variable {α : Type}

/-! ## The handle of a call -/

/-- The handle that a call names. -/
def Direct.Call.handle? : Direct.Call → Option Handle
  | .lend handle _ | .lendAndPanic handle _ | .release handle => some handle
  | _ => none

/-- The handle that a call names. -/
def CSurface.Call.handle? : CSurface.Call → Option Handle
  | .hasNext raw | .next raw _ | .drain raw _ | .dispose raw => some (.ofRaw raw)
  | .create .. => none

/-- The handle that a call names. -/
def JavaSurface.Call.handle? : JavaSurface.Call → Option Handle
  | .hasNext long | .next long | .dispose long => some (.ofLong long)
  | .create .. => none

/-- The handle that a step names. -/
def Boundary.Step.handle? : Boundary.Step → Option Handle
  | .direct call => call.handle?
  | .fromC call => call.handle?
  | .fromJava _ call => call.handle?
  | .throwing _ | .clearing => none

/-! ## Refusals -/

namespace Plan

variable {s : Boundary} {h : Handle}

/-- A plan that fails with nothing changed. -/
def Fails (p : Plan α) (k : Stock) (f : Failure) : Prop :=
  p.outcome k = (none, .failure f) ∧ p.demand.meet k = k

theorem Fails.run {p : Plan α} {f : Failure} (hp : p.Fails s.stock f) :
    p.run s = ⟨.failure f, s, []⟩ := by
  rw [run_of_silent (by rw [hp.1]), hp.1, hp.2, Boundary.restock_stock]

theorem lend_fails {k : Stock} (absent : k.table.get? h = none) (action : Feed.Action)
    (answer : Feed → Ending α) : (lend h action answer).Fails k (.stale h) :=
  ⟨by simp only [lend, absent], Demand.meet_lend_of_get?_eq_none absent action⟩

theorem release_fails {k : Stock} (absent : k.table.get? h = none) :
    (release h).Fails k (.stale h) :=
  ⟨by simp only [release, absent], Demand.meet_release_of_get?_eq_none absent⟩

theorem Fails.map {β : Type} {p : Plan α} {k : Stock} {f : Failure} (hp : p.Fails k f)
    (g : α → β) : (p.map g).Fails k f :=
  ⟨by simp only [Plan.map, hp.1, Ending.map], hp.2⟩

end Plan

namespace Boundary

variable {s : Boundary} {h : Handle}

/-- Refuses a handle on every side, and is not changed by it. -/
structure Refuses (s : Boundary) (h : Handle) : Prop where
  direct : ∀ call : Direct.Call, call.handle? = some h →
    call.act s = ⟨.failure (.stale h), s, []⟩
  /-- To a C program there is no more. -/
  hasNext : (CSurface.hasNext h.raw s).ending = .value 0
  /-- To a C program that has a destination, the handle is stale. -/
  next : ∀ d, CSurface.capacity? d ≠ none → s.armed = false →
    (CSurface.next h.raw d s).ending = .value ⟨-2, []⟩
  fromJava : ∀ (faults : List Jvm.Fault) (call : JavaSurface.Call), call.handle? = some h →
    call.body faults s = ⟨.failure (.stale h), s, []⟩ ∧
      (call.act faults s).ending = .value (match call with
        | .create .. => .created 0
        | .hasNext _ => .flag false
        | .next _ => .array none
        | .dispose _ => .disposed) ∧
      .methodFailed call.method (.stale h) ∈ (call.act faults s).log
  unchanged : ∀ step : Step, step.handle? = some h →
    (step.act s).state.table = s.table ∧ (step.act s).state.source = s.source

theorem direct_fails (absent : s.table.get? h = none) {call : Direct.Call}
    (names : call.handle? = some h) : call.plan.Fails s.stock (.stale h) := by
  cases call with
  | lend handle action =>
    cases names
    exact Plan.lend_fails absent _ _
  | lendAndPanic handle action =>
    cases names
    exact Plan.lend_fails absent _ _
  | release handle =>
    cases names
    exact (Plan.release_fails absent).map _
  | _ => cases names

theorem fromJava_fails (absent : s.table.get? h = none) {call : JavaSurface.Call}
    (names : call.handle? = some h) : call.plan.Fails s.stock (.stale h) := by
  cases call with
  | create count size key => cases names
  | hasNext long =>
    cases names
    exact (Plan.lend_fails absent _ _).map _
  | next long =>
    cases names
    exact (Plan.lend_fails absent _ _).map _
  | dispose long =>
    cases names
    exact (Plan.release_fails absent).map _

/-- A demand from a C program that names an unknown handle is met by doing nothing. -/
theorem meet_fromC (absent : s.table.get? h = none) {call : CSurface.Call}
    (names : call.handle? = some h) : call.plan.demand.meet s.stock = s.stock := by
  cases call with
  | create count size key => cases names
  | hasNext raw =>
    cases names
    exact Demand.meet_lend_of_get?_eq_none absent .hasMore
  | next raw d =>
    cases names
    simp only [CSurface.Call.plan, CSurface.nextPlan]
    split
    · rfl
    · exact Demand.meet_lend_of_get?_eq_none absent .next
  | drain raw d =>
    cases names
    simp only [CSurface.Call.plan, CSurface.drainPlan, Plan.map]
    split
    · exact Demand.meet_lend_of_get?_eq_none absent .drain
    · rfl
  | dispose raw =>
    cases names
    exact Demand.meet_release_of_get?_eq_none absent

theorem Step.meet_of_get?_eq_none {step : Step} (absent : s.table.get? h = none)
    (names : step.handle? = some h) : step.plan.demand.meet s.stock = s.stock := by
  cases step with
  | direct call => exact (direct_fails absent names).2
  | fromC call => exact meet_fromC absent names
  | fromJava faults call => exact (fromJava_fails absent names).2
  | throwing exception => cases names
  | clearing => cases names

/-- **A handle that the table does not know is refused on every side.** -/
theorem refuses_of_get?_eq_none (absent : s.table.get? h = none) : s.Refuses h where
  direct call names := by
    have hsame : call.enter s = s := by
      cases call with
      | armLogger => cases names
      | _ => rfl
    rw [call.act_eq, hsame, (direct_fails absent names).run]
  hasNext := CSurface.ending_hasNext_of_get?_eq_none (by rw [Handle.ofRaw_raw, absent])
  next d hd unarmed := by
    obtain ⟨capacity, hcapacity⟩ := Option.ne_none_iff_exists'.mp hd
    have hout : ((CSurface.nextPlan h.raw d).outcome s.stock).2 = .value ⟨-2, []⟩ := by
      simp only [CSurface.nextPlan, hcapacity, Handle.ofRaw_raw, Plan.rescue, Plan.lend,
        Boundary.stock, absent, CSurface.codeOf, CSurface.staleCode]
    have hfires : (CSurface.nextPlan h.raw d).fires s = false := by
      rw [Plan.fires, unarmed, Bool.false_and]
    rw [CSurface.next_eq, CSurface.guarded_run_of_value hfires hout]
  fromJava faults call names := by
    have hfails := fromJava_fails absent names
    have hbody : call.body faults s = ⟨.failure (.stale h), s, []⟩ := by
      rw [JavaSurface.Call.body_of_not_value, hfails.run]
      intro reply hvalue
      rw [hfails.run] at hvalue
      cases hvalue
    refine ⟨hbody, ?_, ?_⟩
    · rw [JavaSurface.Call.act, JavaSurface.guarded_of_failure hbody]
      cases call <;> rfl
    · rw [JavaSurface.Call.act, JavaSurface.guarded_of_failure hbody]
      exact List.mem_cons_self
  unchanged step names := by
    have hstock := step.stock_act s
    rw [step.meet_of_get?_eq_none absent names] at hstock
    exact ⟨congrArg Stock.table hstock, congrArg Stock.source hstock⟩

/-! ## What is refused for ever -/

/-- A handle of generation zero is refused by whatever a program leaves. -/
theorem refuses_of_generation_zero (source : Source) (steps : List Step) (hg : h.generation = 0) :
    ((start source).after steps).Refuses h :=
  refuses_of_get?_eq_none
    (SlotTable.Numbered.get?_eq_none (numbered_after (s := start source) .empty steps) hg)

/-- **No handle is ever revived.** As long as the indices and the generations last, a program is
issued no handle twice, and what it has released is refused from then on, whatever comes later. The
handles that it was answered are among those it was issued. A raw value without upper bits was never
issued, and is refused by every program. -/
theorem released_refused (source : Source) (earlier later : List Step) :
    let left := (start source).after (earlier ++ later)
    (∀ raw : UInt64, raw >>> 32 = 0 → left.Refuses (.ofRaw raw)) ∧
      ((start source).obtained (earlier ++ later)).Sublist
        ((start source).issued (earlier ++ later)) ∧
      (left.table.slots.size < 2 ^ 32 →
        (∀ i, ((start source).released (earlier ++ later)).countP (fun h => h.index = i) <
          2 ^ 32 - 1) →
        ((start source).issued (earlier ++ later)).Nodup ∧
          (∀ h ∈ (start source).issued (earlier ++ later), h.raw >>> 32 ≠ 0) ∧
          ∀ h ∈ (start source).released earlier, left.Refuses h) := by
  refine ⟨?_, obtained_sublist_issued _ _, ?_⟩
  · intro raw hraw
    apply refuses_of_generation_zero
    rw [Handle.ofRaw, hraw]
    rfl
  · intro room turns
    have l := ledger_of_run source _ room turns
    refine ⟨l.issued_nodup, ?_, ?_⟩
    · intro h hi hraw
      have hnumbered := numbered_after (s := start source) .empty (earlier ++ later)
      refine l.generation_ne_zero hnumbered hi ?_
      rw [← h.ofRaw_raw, Handle.ofRaw, hraw]
      rfl
    · intro h hr
      refine refuses_of_get?_eq_none (l.get?_eq_none_of_mem_released ?_)
      rw [released_append]
      exact List.mem_append_left _ hr

/-- A slot that is filled anew does not bring its first handle back. -/
theorem released_refused_after_reuse :
    (start ⟨.counting 0 1, 0⟩).issued
        ([.direct (.register 1 1), .direct (.release ⟨0, 1⟩)] ++ [.direct (.register 1 1)]) =
          [⟨0, 1⟩, ⟨0, 2⟩] ∧
      ((start ⟨.counting 0 1, 0⟩).after
        ([.direct (.register 1 1), .direct (.release ⟨0, 1⟩)] ++
          [.direct (.register 1 1)])).Refuses ⟨0, 1⟩ := by
  refine ⟨by decide, ((released_refused _ _ _).2.2 (by decide) ?_).2.2 _ (by decide)⟩
  intro i
  exact Nat.lt_of_le_of_lt List.countP_le_length (by decide)

end Boundary

end BufferFeed

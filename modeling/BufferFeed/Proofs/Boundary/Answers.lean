import BufferFeed.Proofs.Notation
import BufferFeed.Proofs.Boundary.History

/-!
# The handles that are answered

A client knows of a handle because a call answered it. Every handle that a program is answered is
one that its log says was issued, in the same order (`obtained_sublist_issued`). The converse fails,
and has to: where a logger panics at the record of a registration, the feed stays in the table and
nobody is told its handle.
-/

namespace BufferFeed

/-! ## What a plan hands out -/

namespace Plan

variable {α β : Type} {handle? : α → Option Handle}

/-- A handle that the plan hands out is the one of which its record says that it was issued. -/
def Names (p : Plan α) (handle? : α → Option Handle) : Prop :=
  ∀ k a h, (p.outcome k).2 = .value a → handle? a = some h →
    ∃ r, (p.outcome k).1 = some r ∧ r.issued? = some h

/-- Nothing is asked of a plan that hands out no handle. -/
theorem names_of_none {p : Plan α} (h : ∀ k a, (p.outcome k).2 = .value a → handle? a = none) :
    p.Names handle? := by
  intro k a g hvalue handed
  rw [h k a hvalue] at handed
  cases handed

/-- A notation of handles may leave some of them out. -/
theorem Names.mono {p : Plan α} {other? : α → Option Handle} (hp : p.Names handle?)
    (h : ∀ a g, other? a = some g → handle? a = some g) : p.Names other? :=
  fun k a g hvalue handed => hp k a g hvalue (h a g handed)

theorem Names.map {p : Plan β} {g : β → α} (hp : p.Names (handle? ∘ g)) :
    (p.map g).Names handle? := by
  intro k a h hvalue handed
  obtain ⟨b, hb, rfl⟩ := Ending.eq_value_of_map hvalue
  exact hp k b h hb handed

theorem names_given {r : Except Failure β} {p : β → Plan α} (hp : ∀ b, (p b).Names handle?) :
    (given r p).Names handle? := by
  cases r with
  | ok b => exact hp b
  | error f =>
    intro k a h hvalue
    cases hvalue

theorem Names.rescue {p : Plan α} (hp : p.Names handle?) {record : Failure → Option Record}
    {value : Failure → α} (hv : ∀ f, handle? (value f) = none) :
    (p.rescue record value).Names handle? := by
  intro k a h hvalue handed
  by_cases hf : ∃ f, (p.outcome k).2 = .failure f
  · obtain ⟨f, hf⟩ := hf
    rw [outcome_rescue_of_failure hf] at hvalue
    cases hvalue
    rw [hv] at handed
    cases handed
  · rw [outcome_rescue_of_not_failure (not_exists.mp hf)] at hvalue ⊢
    exact hp k a h hvalue handed

theorem names_supply (count size : Nat) : (supply count size).Names some := by
  intro k a h hvalue handed
  simp only [supply] at hvalue ⊢
  split at hvalue
  · cases hvalue
    exact ⟨_, rfl, handed⟩
  · cases hvalue

theorem names_supplyFresh (count size : Nat) (key : Keystream.Key) :
    (supplyFresh count size key).Names some := by
  intro k a h hvalue handed
  simp only [supplyFresh] at hvalue ⊢
  split at hvalue
  · cases hvalue
    exact ⟨_, rfl, handed⟩
  · cases hvalue

end Plan

/-! ## What a step hands out -/

namespace Boundary

/-- The handle that a reply hands out; the null handle is none. -/
def Reply.handle? : Reply → Option Handle
  | .direct (.issued h) => some h
  | .toC (.created raw) => if raw = Handle.nullRaw then none else some (.ofRaw raw)
  | .toJava (.created long) => if long = Handle.nullRaw.toInt64 then none else some (.ofLong long)
  | _ => none

namespace Step

variable {step : Step} {s : Boundary} {reply : Reply} {h : Handle}

theorem names_direct (call : Direct.Call) : call.plan.Names (Reply.handle? ∘ .direct) := by
  cases call with
  | register count size =>
    refine Plan.Names.map ?_
    exact Plan.names_supply _ _
  | registerFresh count size key =>
    refine Plan.Names.map ?_
    exact Plan.names_supplyFresh _ _ _
  | release h => exact Plan.Names.map (Plan.names_of_none fun _ _ _ => rfl)
  | lend h action =>
    refine Plan.names_of_none ?_
    intro k a hvalue
    simp only [Direct.Call.plan, Plan.lend] at hvalue
    split at hvalue
    · cases hvalue
      rfl
    · cases hvalue
  | lendAndPanic h action =>
    refine Plan.names_of_none ?_
    intro k a hvalue
    simp only [Direct.Call.plan, Plan.lend] at hvalue
    split at hvalue <;> cases hvalue
  | live | armLogger =>
    refine Plan.names_of_none ?_
    rintro k _ ⟨⟩
    rfl

theorem names_fromC (call : CSurface.Call) : call.plan.Names (Reply.handle? ∘ .toC) := by
  cases call with
  | create count size key =>
    refine Plan.Names.map (Plan.Names.rescue (Plan.names_given fun n => Plan.Names.map ?_) ?_)
    · refine (Plan.names_supplyFresh _ _ _).mono ?_
      intro g h handed
      simp only [Function.comp, Reply.handle?, Handle.ofRaw_raw] at handed
      split at handed
      · cases handed
      · exact handed
    · exact fun _ => rfl
  | _ => exact Plan.Names.map (Plan.names_of_none fun _ _ _ => rfl)

theorem names_fromJava (call : JavaSurface.Call) : call.plan.Names (Reply.handle? ∘ .toJava) := by
  cases call with
  | create count size key =>
    refine Plan.Names.map (Plan.names_given fun n => Plan.names_given fun bytes => ?_)
    refine Plan.Names.map ((Plan.names_supplyFresh _ _ _).mono ?_)
    intro g h handed
    simp only [Function.comp, Reply.handle?, Handle.ofLong_long] at handed
    split at handed
    · cases handed
    · exact handed
  | _ => exact Plan.Names.map (Plan.names_of_none fun _ _ _ => rfl)

theorem names_plan (step : Step) : step.plan.Names Reply.handle? := by
  cases step with
  | direct call => exact (names_direct call).map
  | fromC call => exact (names_fromC call).map
  | fromJava faults call => exact (names_fromJava call).map
  | throwing exception | clearing =>
    refine Plan.names_of_none ?_
    rintro k _ ⟨⟩
    rfl

/-- A handle that is answered is the plan's own answer: no guard answers one by itself. -/
theorem outcome_of_handed (answered : (step.act s).ending = .value reply)
    (handed : reply.handle? = some h) : (step.plan.outcome s.stock).2 = .value reply := by
  cases step with
  | direct call =>
    rw [act, Act.ending_map, call.act_eq] at answered
    obtain ⟨a, ha, rfl⟩ := Ending.eq_value_of_map answered
    have hvalue := Plan.outcome_of_run_value ha
    rw [call.stock_enter] at hvalue
    simp only [plan, Plan.map, hvalue, Ending.map]
  | fromC call =>
    rw [act, Act.ending_map, call.act_eq, CSurface.ending_guarded] at answered
    obtain ⟨a, ha, rfl⟩ := Ending.eq_value_of_map answered
    cases hrun : (call.plan.run s).ending with
    | value b =>
      rw [hrun] at ha
      cases ha
      simp only [plan, Plan.map, Plan.outcome_of_run_value hrun, Ending.map]
    | failure e =>
      rw [hrun] at ha
      cases ha
    | panic m =>
      rw [hrun] at ha
      cases ha
      cases call <;> cases handed
  | fromJava faults call =>
    rw [act, Act.ending_map] at answered
    obtain ⟨a, ha, rfl⟩ := Ending.eq_value_of_map answered
    rcases JavaSurface.eq_fallback_or_value ha with rfl | hbody
    · cases call <;> cases handed
    · cases call with
      | create count size key =>
        rw [JavaSurface.Call.body_create] at hbody
        simp only [plan, Plan.map, Plan.outcome_of_run_value hbody, Ending.map]
      | _ =>
        -- the other methods answer no handle
        rw [JavaSurface.Call.body, Act.ending_map] at hbody
        obtain ⟨b, -, rfl⟩ := Ending.eq_value_of_map hbody
        cases handed
  | throwing exception | clearing =>
    cases answered
    cases handed

theorem mem_issued_of_handed (answered : (step.act s).ending = .value reply)
    (handed : reply.handle? = some h) : h ∈ (step.act s).log.filterMap Record.issued? := by
  obtain ⟨r, hr, hissued⟩ :=
    step.names_plan s.stock reply h (outcome_of_handed answered handed) handed
  obtain ⟨lines, hlog, -⟩ := step.log_act s
  rw [hlog, hr, List.mem_filterMap]
  exact ⟨r, List.mem_cons_self, hissued⟩

/-- The handle that a step's end hands out. -/
def handed? (r : Run Reply) : Option Handle :=
  match r.ending with
  | .value reply => reply.handle?
  | .failure _ | .panic _ => none

theorem handed_sublist_issued (step : Step) (s : Boundary) :
    (handed? (step.act s)).toList.Sublist ((step.act s).log.filterMap Record.issued?) := by
  cases handed : handed? (step.act s) with
  | none => exact List.nil_sublist _
  | some h =>
    rw [Option.toList_some, List.singleton_sublist]
    unfold handed? at handed
    split at handed
    · rename_i reply answered
      exact mem_issued_of_handed answered handed
    · cases handed
    · cases handed

end Step

/-! ## What a program is answered -/

/-- The handles that a program was answered, in order. -/
def obtained (s : Boundary) (steps : List Step) : List Handle :=
  (s.run steps).filterMap Step.handed?

/-- **A program is answered no handle that was not issued**, and each as often as it was issued at
the most. -/
theorem obtained_sublist_issued (s : Boundary) (steps : List Step) :
    (s.obtained steps).Sublist (s.issued steps) := by
  induction steps generalizing s with
  | nil => exact List.nil_sublist _
  | cons step steps ih =>
    have hcons : s.obtained (step :: steps) =
        (Step.handed? (step.act s)).toList ++ (step.act s).state.obtained steps := by
      rw [obtained, run, List.filterMap_cons]
      cases Step.handed? (step.act s) <;> rfl
    rw [hcons, issued_cons]
    exact (step.handed_sublist_issued s).append (ih _)

end Boundary

end BufferFeed

import BufferFeed.Proofs.Boundary.Exceptions
import BufferFeed.Proofs.Boundary.Panics
import BufferFeed.Proofs.Boundary.Taking

/-!
# A step sees one feed

A step that names a handle asks for the feed behind it or for nothing, and what it comes to follows
from that feed (`Plan.About`). So its answer is the same on any two boundaries that have the same
behind the handle (`Step.answer_congr`), and so is what it leaves there (`Step.get?_act_congr`).
Nothing else of the table has a say in it, be it the slots of others, the free list or the source.

Three things apart from the table could have a say: an armed logger, the faults of a virtual
machine, and an exception that is pending in it. They are kept out by hypotheses (`Step.Sound`).
-/

namespace BufferFeed

variable {α β : Type} {h : Handle} {k l : Stock}

/-! ## Plans about one handle -/

namespace Plan

/-- The plan asks for what the handle has or for nothing, and comes to what follows from it. -/
structure About (p : Plan α) (h : Handle) : Prop where
  demand : p.demand = .nothing ∨ p.demand.handle? = some h
  outcome : ∀ {k l : Stock}, k.table.get? h = l.table.get? h → p.outcome k = p.outcome l

theorem about_say (record : Option Record) (ending : Ending α) (h : Handle) :
    (say record ending).About h :=
  ⟨.inl rfl, fun _ => rfl⟩

theorem about_lend (h : Handle) (action : Feed.Action) (answer : Feed → Ending α) :
    (lend h action answer).About h := by
  refine ⟨.inr rfl, fun hkl => ?_⟩
  simp only [lend, hkl]

theorem about_release (h : Handle) : (release h).About h := by
  refine ⟨.inr rfl, fun hkl => ?_⟩
  simp only [release, hkl]

theorem About.map {p : Plan α} (hp : p.About h) (g : α → β) : (p.map g).About h := by
  refine ⟨hp.demand, fun hkl => ?_⟩
  simp only [Plan.map, hp.outcome hkl]

theorem About.rescue {p : Plan α} (hp : p.About h) (record : Failure → Option Record)
    (value : Failure → α) : (p.rescue record value).About h := by
  refine ⟨hp.demand, fun hkl => ?_⟩
  simp only [Plan.rescue, hp.outcome hkl]

end Plan

theorem Direct.Call.about {call : Direct.Call} (names : call.handle? = some h) :
    call.plan.About h := by
  cases call with
  | lend g action | lendAndPanic g action =>
    cases names
    exact Plan.about_lend _ _ _
  | release g =>
    cases names
    exact (Plan.about_release _).map _
  | _ => cases names

theorem CSurface.about_nextPlan (raw : UInt64) (d : Destination) :
    (nextPlan raw d).About (.ofRaw raw) := by
  unfold nextPlan
  split
  · exact Plan.about_say _ _ _
  · exact (Plan.about_lend _ _ _).rescue _ _

theorem CSurface.about_drainPlan (raw : UInt64) (d : Destination) :
    (drainPlan raw d).About (.ofRaw raw) := by
  constructor
  · simp only [drainPlan]
    split
    · exact .inr rfl
    · exact .inl rfl
  · intro k l hkl
    simp only [drainPlan, hkl]

theorem CSurface.Call.about {call : CSurface.Call} (names : call.handle? = some h) :
    call.plan.About h := by
  cases call with
  | create count size key => cases names
  | hasNext raw =>
    cases names
    exact ((Plan.about_lend _ _ _).rescue _ _).map _
  | next raw d =>
    cases names
    exact (about_nextPlan raw d).map _
  | drain raw d =>
    cases names
    exact (about_drainPlan raw d).map _
  | dispose raw =>
    cases names
    exact ((Plan.about_release _).rescue _ _).map _

theorem JavaSurface.Call.about {call : JavaSurface.Call} (names : call.handle? = some h) :
    call.plan.About h := by
  cases call with
  | create count size key => cases names
  | hasNext long | next long =>
    cases names
    exact (Plan.about_lend _ _ _).map _
  | dispose long =>
    cases names
    exact (Plan.about_release _).map _

/-- **A body follows from the feed behind its handle** and from what the machine is: its faults, and
the exception that is pending in it. -/
theorem JavaSurface.Call.body_congr {call : JavaSurface.Call} {s t : Boundary}
    (faults : List Jvm.Fault) (names : call.handle? = some h)
    (hst : s.table.get? h = t.table.get? h) (quiet : call.plan.fires s = false)
    (quiet' : call.plan.fires t = false) (same : s.pending = t.pending) :
    (call.body faults s).ending = (call.body faults t).ending ∧
      (call.body faults s).state.pending = (call.body faults t).state.pending := by
  by_cases hnext : ∃ long, call = .next long
  · obtain ⟨long, rfl⟩ := hnext
    cases names
    cases found : t.table.get? (.ofLong long) with
    | none =>
      rw [found] at hst
      rw [((Boundary.refuses_of_get?_eq_none hst).fromJava faults _ rfl).1,
        ((Boundary.refuses_of_get?_eq_none found).fromJava faults _ rfl).1]
      exact ⟨rfl, same⟩
    | some f =>
      rw [found] at hst
      cases hahead : f.ahead with
      | nil =>
        rw [body_next_of_ahead_nil hst hahead, body_next_of_ahead_nil found hahead]
        exact ⟨rfl, same⟩
      | cons b bs =>
        simp only [body_next_of_ahead_cons hst hahead, body_next_of_ahead_cons found hahead,
          Act.ending_map, Act.state_map, deliver_apply, readFrom, same, and_self]
  · rw [body_of_not_next hnext, Plan.ending_run_of_not_fires quiet,
      Plan.ending_run_of_not_fires quiet', Plan.pending_run, Plan.pending_run,
      (about names).outcome (k := s.stock) (l := t.stock) hst]
    exact ⟨rfl, same⟩

/-! ## What a demand leaves behind its handle -/

namespace Demand

theorem get?_meet_lend (h : Handle) (action : Feed.Action) (k : Stock) :
    ((lend h action).meet k).table.get? h =
      (k.table.get? h).map fun f => (f.perform action).2 := by
  cases found : k.table.get? h with
  | none => simp only [meet, found, Option.map_none]
  | some f =>
    simp only [meet, found, Option.map_some]
    exact (SlotTable.get?_setContent found _ h).trans (if_pos rfl)

theorem get?_meet_release (h : Handle) (k : Stock) :
    ((release h).meet k).table.get? h = none := by
  cases found : k.table.get? h with
  | none => simp only [meet, found]
  | some f =>
    simp only [meet, found]
    exact (SlotTable.get?_vacate found h).trans (if_pos rfl)

theorem get?_meet_congr {d : Demand} (about : d = .nothing ∨ d.handle? = some h)
    (hkl : k.table.get? h = l.table.get? h) :
    (d.meet k).table.get? h = (d.meet l).table.get? h := by
  rcases about with rfl | hd
  · exact hkl
  · cases d with
    | lend g action =>
      cases hd
      rw [get?_meet_lend, get?_meet_lend, hkl]
    | release g =>
      cases hd
      rw [get?_meet_release, get?_meet_release]
    | _ => cases hd

end Demand

/-! ## Steps -/

namespace Boundary.Step

variable {step : Step} {s t : Boundary}

theorem about (names : step.handle? = some h) : step.plan.About h := by
  cases step with
  | direct call => exact (Direct.Call.about names).map _
  | fromC call => exact (CSurface.Call.about names).map _
  | fromJava faults call => exact (JavaSurface.Call.about names).map _
  | throwing exception | clearing => cases names

/-- **What a step leaves behind the handle that it names follows from what was there.** -/
theorem get?_act_congr (names : step.handle? = some h)
    (hst : s.table.get? h = t.table.get? h) :
    (step.act s).state.table.get? h = (step.act t).state.table.get? h := by
  have hmeet := Demand.get?_meet_congr (k := s.stock) (l := t.stock) (about names).demand hst
  rw [← step.stock_act, ← step.stock_act] at hmeet
  exact hmeet

/-- Only arming arms the logger. -/
theorem unarmed_act (unarmed : s.armed = false) (quiet : step ≠ .direct .armLogger) :
    (step.act s).state.armed = false := by
  have henter : step.enter s = s := by
    cases step with
    | direct call =>
      cases call with
      | armLogger => exact absurd rfl quiet
      | _ => rfl
    | _ => rfl
  rw [armed_act, henter, unarmed, Bool.false_and]

/-- A call from Java comes from a machine without faults that has nothing pending. -/
def Sound (step : Step) (s : Boundary) : Prop :=
  ∀ faults call, step = .fromJava faults call → faults = [] ∧ s.pending = none

/-- What a client gets of a step: how it ended and, of a call from Java, what is pending then. -/
def answer (step : Step) (s : Boundary) : Ending Reply × Option Jvm.Throwable :=
  ((step.act s).ending,
    match step with
    | .fromJava .. => (step.act s).state.pending
    | _ => none)

/-- **The answer to a step follows from what is behind the handle that it names.** -/
theorem answer_congr (names : step.handle? = some h) (hst : s.table.get? h = t.table.get? h)
    (unarmed : s.armed = false) (unarmed' : t.armed = false) (sound : step.Sound s)
    (sound' : step.Sound t) : step.answer s = step.answer t := by
  have hs := not_fires_of_unarmed unarmed step
  have ht := not_fires_of_unarmed unarmed' step
  cases step with
  | direct call =>
    have hout := (Direct.Call.about names).outcome (k := s.stock) (l := t.stock) hst
    simp only [answer, act, Act.ending_map, Direct.Call.ending_act_of_not_fires hs,
      Direct.Call.ending_act_of_not_fires ht, hout]
  | fromC call =>
    have hout := (CSurface.Call.about names).outcome (k := s.stock) (l := t.stock) hst
    simp only [answer, act, Act.ending_map, CSurface.Call.ending_act_of_not_fires hs,
      CSurface.Call.ending_act_of_not_fires ht, hout]
  | fromJava faults call =>
    obtain ⟨rfl, clear⟩ := sound _ _ rfl
    obtain ⟨-, clear'⟩ := sound' _ _ rfl
    obtain ⟨hbody, hleft⟩ := JavaSurface.Call.body_congr [] names hst hs ht
      (clear.trans clear'.symm)
    have hending : (call.act [] s).ending = (call.act [] t).ending := by
      rw [JavaSurface.Call.act, JavaSurface.ending_guarded, JavaSurface.ending_guarded, hbody]
    have hpending : (call.act [] s).state.pending = (call.act [] t).state.pending := by
      rw [(call.act_of_sound s).1, (call.act_of_sound t).1, hbody, hleft]
    simp only [answer, act, Act.ending_map, Act.state_map, hending, hpending]
  | throwing exception | clearing => cases names

end Boundary.Step

end BufferFeed

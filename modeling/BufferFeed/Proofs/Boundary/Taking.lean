import BufferFeed.Proofs.Boundary.Revival

/-!
# What is taken from a feed

What an action takes from a feed is what is no longer ahead of it (`Feed.ReadOn.perform`). Which
action a step performs, and behind which handle, is its demand; so what a program takes from the
feed behind a handle can be listed step by step (`Boundary.taken`), the loans of a borrower who then
panics and the reads that a machine spoils among them.

The law of a run: as long as a handle is neither issued anew nor taken back, the feed behind it is
the same feed, and what was ahead of it is what was taken and then what is ahead now
(`Boundary.readOn_after`).
-/

namespace BufferFeed

/-! ## By one step -/

namespace Demand

/-- The handle that a demand is about. -/
def handle? : Demand → Option Handle
  | .lend h _ | .release h => some h
  | _ => none

/-- The buffers that a demand takes from the feed behind a handle. -/
def taken (d : Demand) (k : Stock) (h : Handle) : List Bytes :=
  match d with
  | .lend g action => if g = h then (k.table.get? h).elim [] (·.taken action) else []
  | _ => []

theorem taken_of_handle?_ne {d : Demand} {h : Handle} (hd : d.handle? ≠ some h) (k : Stock) :
    d.taken k h = [] := by
  cases d with
  | lend g action => exact if_neg fun hg => hd (congrArg some hg)
  | _ => rfl

end Demand

namespace SlotTable

variable {α : Type} {t : SlotTable α} {h : Handle} {a : α}

/-- Reserving a slot neither fills a slot nor empties one. -/
theorem getElem?_reserve (t : SlotTable α) (i : Nat) (g : UInt32) (a : α) :
    t.reserve.2.slots[i]? = some ⟨g, some a⟩ ↔ t.slots[i]? = some ⟨g, some a⟩ := by
  cases hf : t.free with
  | cons j rest => simp only [reserve, hf]
  | nil =>
    simp only [reserve, hf, Array.getElem?_push]
    split
    · rename_i hi
      rw [hi, Array.getElem?_eq_none (Nat.le_refl _)]
      simp only [Option.some.injEq, Slot.mk.injEq, reduceCtorEq, and_false]
    · rfl

/-- An insertion that is not given a handle leaves this handle what it has. No more has to be known
of the table. -/
theorem get?_insert_of_ne (b : α) (hne : (t.insert b).1 ≠ h) :
    (t.insert b).2.get? h = t.get? h := by
  apply Option.ext
  intro a
  rw [get?_eq_some_iff, get?_eq_some_iff, ← getElem?_reserve t, insert, getElem?_setContent]
  split
  · rename_i hi
    -- the slot that is filled has another generation than the handle
    have hgen : ∀ s, t.reserve.2.slots[h.index.toNat]? = some s → s.generation ≠ h.generation := by
      intro s hs hg
      refine hne (Handle.eq_of_toNat_index hi ?_)
      simp only [insert, generationOf, hi, hs, Option.map_some, Option.getD_some, hg]
    constructor
    · intro hs
      obtain ⟨s, hs, he⟩ := Option.map_eq_some_iff.mp hs
      exact absurd (congrArg Slot.generation he) (hgen s hs)
    · intro hs
      exact absurd rfl (hgen _ hs)
  · rfl

end SlotTable

variable {k : Stock} {h : Handle} {f : Feed}

/-- **Short of an issue of the handle, a demand for another one leaves it what it has.** -/
theorem Demand.get?_meet_of_ne {d : Demand} (other : d.handle? ≠ some h)
    (unissued : h ∉ (d.audit k).toList.filterMap Record.issued?) :
    (d.meet k).table.get? h = k.table.get? h := by
  cases d with
  | nothing => rfl
  | supply count size =>
    cases hmade : Feed.generate count size .supplied k.source with
    | none => simp only [meet, hmade]
    | some made =>
      simp only [audit, hmade, Option.toList_some, List.filterMap_cons, Record.issued?,
        List.filterMap_nil, List.mem_singleton] at unissued
      simp only [meet, hmade]
      exact SlotTable.get?_insert_of_ne _ (Ne.symm unissued)
  | supplyFresh count size key =>
    cases hmade : Feed.ofEntropy count size key with
    | none => simp only [meet, hmade]
    | some made =>
      simp only [audit, hmade, Option.toList_some, List.filterMap_cons, Record.issued?,
        List.filterMap_nil, List.mem_singleton] at unissued
      simp only [meet, hmade]
      exact SlotTable.get?_insert_of_ne _ (Ne.symm unissued)
  | lend g action =>
    have hg : h ≠ g := fun hg => other (congrArg some hg.symm)
    cases lent : k.table.get? g with
    | none => simp only [meet, lent]
    | some e =>
      simp only [meet, lent]
      exact (SlotTable.get?_setContent lent _ h).trans (if_neg hg)
  | release g =>
    have hg : h ≠ g := fun hg => other (congrArg some hg.symm)
    cases given : k.table.get? g with
    | none => simp only [meet, given]
    | some e =>
      simp only [meet, given]
      exact (SlotTable.get?_vacate given h).trans (if_neg hg)

/-- **Short of an issue or a release of the handle, its feed is only read on.** -/
theorem Demand.readOn (d : Demand) (found : k.table.get? h = some f)
    (unissued : h ∉ (d.audit k).toList.filterMap Record.issued?)
    (unreleased : h ∉ (d.audit k).toList.filterMap Record.released?) :
    ∃ g, (d.meet k).table.get? h = some g ∧ f.ReadOn (d.taken k h) g := by
  by_cases hd : d.handle? = some h
  · cases d with
    | lend g action =>
      cases hd
      simp only [meet, taken, found, if_true, Option.elim_some]
      exact ⟨_, (SlotTable.get?_setContent found _ h).trans (if_pos rfl), .perform f action⟩
    | release g =>
      cases hd
      simp only [audit, found, Option.toList_some, List.filterMap_cons, Record.released?,
        List.filterMap_nil, List.mem_singleton, not_true_eq_false] at unreleased
    | _ => cases hd
  · rw [taken_of_handle?_ne hd, get?_meet_of_ne hd unissued]
    exact ⟨f, found, .refl f⟩

namespace Boundary

/-- The buffers that a step takes from the feed behind a handle. -/
def Step.taken (step : Step) (s : Boundary) (h : Handle) : List Bytes :=
  step.plan.demand.taken s.stock h

/-- The buffers that a program takes from the feed behind a handle, in order. -/
def taken (s : Boundary) : List Step → Handle → List Bytes
  | [], _ => []
  | step :: steps, h => step.taken s h ++ (step.act s).state.taken steps h

variable {s : Boundary} {step : Step} {steps : List Step}

theorem Step.readOn (found : s.table.get? h = some f)
    (unissued : h ∉ (step.act s).log.filterMap Record.issued?)
    (unreleased : h ∉ (step.act s).log.filterMap Record.released?) :
    ∃ g, (step.act s).state.table.get? h = some g ∧ f.ReadOn (step.taken s h) g := by
  rw [← Record.filterMap_issued?_filter, step.audit_act] at unissued
  rw [← Record.filterMap_released?_filter, step.audit_act] at unreleased
  have hread := step.plan.demand.readOn (k := s.stock) found unissued unreleased
  rw [← step.stock_act] at hread
  exact hread

/-- **A feed whose handle stays its own is read on by what is taken from it.** -/
theorem readOn_after (found : s.table.get? h = some f) (unissued : h ∉ s.issued steps)
    (unreleased : h ∉ s.released steps) :
    ∃ g, (s.after steps).table.get? h = some g ∧ f.ReadOn (s.taken steps h) g := by
  induction steps generalizing s f with
  | nil => exact ⟨f, found, .refl f⟩
  | cons step steps ih =>
    rw [issued_cons, List.mem_append, not_or] at unissued
    rw [released_cons, List.mem_append, not_or] at unreleased
    obtain ⟨g, hg, hfirst⟩ := Step.readOn found unissued.1 unreleased.1
    obtain ⟨e, he, hrest⟩ := ih hg unissued.2 unreleased.2
    exact ⟨e, he, hfirst.trans hrest⟩

/-- **A live handle is not issued anew** before it is given up, as long as the indices last. -/
theorem unissued_of_unreleased (ht : s.table.WellFormed) (found : s.table.get? h = some f)
    (unreleased : h ∉ s.released steps) (room : (s.after steps).table.slots.size < 2 ^ 32) :
    h ∉ s.issued steps := by
  induction steps generalizing s f with
  | nil => exact List.not_mem_nil
  | cons step steps ih =>
    rw [released_cons, List.mem_append, not_or] at unreleased
    have hroom := Nat.lt_of_le_of_lt (size_slots_after_le (step.act s).state steps) room
    have hchange := step.change s
    have hfirst := hchange.notMem_of_get? ht hroom found
    obtain ⟨g, hg, -⟩ := Step.readOn found hfirst unreleased.1
    rw [issued_cons, List.mem_append, not_or]
    exact ⟨hfirst, ih (hchange.wellFormed ht hroom) hg unreleased.2 room⟩

/-! ## By steps on other handles -/

theorem handle?_demand_given {α β : Type} {r : Except Failure β} {p : β → Plan α}
    (hp : ∀ b, (p b).demand.handle? = none) : (Plan.given r p).demand.handle? = none := by
  cases r with
  | ok b => exact hp b
  | error f => rfl

/-- What a step's demand is about is the handle that the step names. -/
theorem Step.handle?_of_demand (hd : step.plan.demand.handle? = some h) :
    step.handle? = some h := by
  cases step with
  | direct call => cases call <;> exact hd
  | fromC call =>
    cases call with
    | create count size key =>
      have hnone : (CSurface.createPlan count size key).demand.handle? = none :=
        handle?_demand_given fun n => rfl
      cases hnone.symm.trans hd
    | next raw d =>
      simp only [plan, CSurface.Call.plan, CSurface.nextPlan, Plan.map] at hd
      split at hd
      · cases hd
      · exact hd
    | drain raw d =>
      simp only [plan, CSurface.Call.plan, CSurface.drainPlan, Plan.map] at hd
      split at hd
      · exact hd
      · cases hd
    | _ => exact hd
  | fromJava faults call =>
    cases call with
    | create count size key =>
      have hnone : (JavaSurface.createPlan count size key).demand.handle? = none :=
        handle?_demand_given fun n => handle?_demand_given fun bytes => rfl
      cases hnone.symm.trans hd
    | _ => exact hd
  | throwing exception | clearing => cases hd

/-- A step that does not name a handle takes nothing from its feed. -/
theorem Step.taken_of_handle?_ne (other : step.handle? ≠ some h) (s : Boundary) :
    step.taken s h = [] :=
  Demand.taken_of_handle?_ne (fun hd => other (handle?_of_demand hd)) s.stock

/-- What a step takes back is the handle that it names. -/
theorem Step.handle?_of_released (hr : h ∈ (step.act s).log.filterMap Record.released?) :
    step.handle? = some h := by
  rw [← Record.filterMap_released?_filter, step.audit_act, List.mem_filterMap] at hr
  obtain ⟨r, hr, hreleased⟩ := hr
  rw [Option.mem_toList] at hr
  apply handle?_of_demand
  cases hd : step.plan.demand with
  | nothing =>
    rw [hd] at hr
    cases hr
  | lend g action =>
    rw [hd] at hr
    cases hr
  | supply count size =>
    simp only [hd, Demand.audit] at hr
    split at hr
    · cases hr
      cases hreleased
    · cases hr
  | supplyFresh count size key =>
    simp only [hd, Demand.audit] at hr
    split at hr
    · cases hr
      cases hreleased
    · cases hr
  | release g =>
    simp only [hd, Demand.audit] at hr
    split at hr
    · cases hr
      exact hreleased
    · cases hr

/-- **A step on another handle leaves this one what it has**, unless it is issued this one. -/
theorem Step.get?_act_of_other (other : step.handle? ≠ some h)
    (unissued : h ∉ (step.act s).log.filterMap Record.issued?) :
    (step.act s).state.table.get? h = s.table.get? h := by
  rw [← Record.filterMap_issued?_filter, step.audit_act] at unissued
  have hmeet := Demand.get?_meet_of_ne (k := s.stock) (fun hd => other (handle?_of_demand hd))
    unissued
  rw [← step.stock_act] at hmeet
  exact hmeet

end Boundary

end BufferFeed

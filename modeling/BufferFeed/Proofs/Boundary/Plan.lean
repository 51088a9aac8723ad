import BufferFeed.Proofs.Boundary.Acts
import BufferFeed.Proofs.Boundary.Demand

/-!
# Acts that go by a plan

All that the surfaces do with the table has one shape: something is asked of it, at most one record
is written, and there is an ending. A `Plan` is that shape, and `Plan.run` is the act. The record
comes last, so a logger that panics at it takes nothing back: it only puts its panic in the place of
the ending (`Plan.stock_run`).

The demand, the record and the ending depend on the table and the source alone. So all that an armed
logger can change is said here, once for every act that is the run of a plan.

Two more things hold of the plans of this library (`Plan.Proper`): a record goes with a value, never
with a failure or a panic; and of the table's own records, a plan writes what the audit of its
demand asks for, neither more nor less.
-/

namespace BufferFeed

variable {α β γ : Type}

structure Plan (α : Type) where
  demand : Demand
  /-- The record that is written, if any, and the ending that a silent logger leaves. -/
  outcome : Stock → Option Record × Ending α

namespace Plan

/-- Meets the demand, then writes the record and ends. -/
def run (p : Plan α) : Act α := fun s =>
  Act.closing (p.outcome s.stock).1 (p.outcome s.stock).2 (s.restock (p.demand.meet s.stock))

/-- Whether the logger panics at the plan's record. -/
def fires (p : Plan α) (s : Boundary) : Bool := s.armed && (p.outcome s.stock).1.any Record.trips

/-- The record as events. -/
def events (p : Plan α) (k : Stock) : List Event := (p.outcome k).1.toList.map .logged

theorem log_events (p : Plan α) (k : Stock) :
    (p.events k).filterMap Event.record? = (p.outcome k).1.toList := by
  cases hr : (p.outcome k).1 <;>
    simp only [events, hr, Option.toList_none, Option.toList_some, List.map_nil, List.map_cons,
      List.filterMap_nil, List.filterMap_cons, Event.record?]

theorem fires_of_silent {p : Plan α} {s : Boundary} (h : (p.outcome s.stock).1 = none) :
    p.fires s = false := by
  rw [fires, h, Option.any_none, Bool.and_false]

theorem events_of_silent {p : Plan α} {k : Stock} (h : (p.outcome k).1 = none) :
    p.events k = [] := by
  rw [events, h, Option.toList_none, List.map_nil]

theorem run_of_fires {p : Plan α} {s : Boundary} (h : p.fires s = true) :
    p.run s = ⟨.panic "logger panic",
      { s.restock (p.demand.meet s.stock) with armed := false }, p.events s.stock⟩ := by
  unfold run events
  unfold fires at h
  cases hr : (p.outcome s.stock).1 with
  | none =>
    rw [hr, Option.any_none, Bool.and_false] at h
    cases h
  | some r =>
    rw [hr, Option.any_some] at h
    simp only [Act.closing, Boundary.armed_restock, h, if_true, Option.toList_some, List.map_cons,
      List.map_nil]

/-- With a logger that does not panic, a plan ends as it says. -/
theorem run_of_not_fires {p : Plan α} {s : Boundary} (h : p.fires s = false) :
    p.run s =
      ⟨(p.outcome s.stock).2, s.restock (p.demand.meet s.stock), p.events s.stock⟩ := by
  unfold run events
  unfold fires at h
  cases hr : (p.outcome s.stock).1 with
  | none => rfl
  | some r =>
    rw [hr, Option.any_some] at h
    simp only [Act.closing, Boundary.armed_restock, h, Bool.false_eq_true, if_false,
      Option.toList_some, List.map_cons, List.map_nil]

theorem ending_run_of_not_fires {p : Plan α} {s : Boundary} (h : p.fires s = false) :
    (p.run s).ending = (p.outcome s.stock).2 := by
  rw [run_of_not_fires h]

/-- A run that has a value has the plan's. -/
theorem outcome_of_run_value {p : Plan α} {s : Boundary} {a : α}
    (h : (p.run s).ending = .value a) : (p.outcome s.stock).2 = .value a := by
  cases hf : p.fires s with
  | true =>
    rw [run_of_fires hf] at h
    cases h
  | false => rw [← ending_run_of_not_fires hf, h]

/-- Where nothing is written, no logger panics. -/
theorem run_of_silent {p : Plan α} {s : Boundary} (h : (p.outcome s.stock).1 = none) :
    p.run s = ⟨(p.outcome s.stock).2, s.restock (p.demand.meet s.stock), []⟩ := by
  rw [run_of_not_fires (fires_of_silent h), events_of_silent h]

theorem run_congr {p q : Plan α} {s : Boundary} (ho : p.outcome s.stock = q.outcome s.stock)
    (hm : p.demand.meet s.stock = q.demand.meet s.stock) : p.run s = q.run s := by
  simp only [run, ho, hm]

/-- **A plan's demand is met whether or not the logger panics.** -/
@[simp]
theorem stock_run (p : Plan α) (s : Boundary) : (p.run s).state.stock = p.demand.meet s.stock := by
  cases h : p.fires s with
  | true =>
    rw [run_of_fires h]
    rfl
  | false =>
    rw [run_of_not_fires h]
    rfl

/-- Which exception is pending is no affair of a plan. -/
theorem pending_run (p : Plan α) (s : Boundary) : (p.run s).state.pending = s.pending := by
  cases h : p.fires s with
  | true =>
    rw [run_of_fires h]
    rfl
  | false =>
    rw [run_of_not_fires h]
    rfl

theorem fires_iff {p : Plan α} {s : Boundary} :
    p.fires s = true ↔
      s.armed = true ∧ ∃ r, (p.outcome s.stock).1 = some r ∧ r.trips = true := by
  rw [fires, Bool.and_eq_true, Option.any_eq_true]

theorem armed_of_fires {p : Plan α} {s : Boundary} (h : p.fires s = true) : s.armed = true :=
  (Bool.and_eq_true_iff.mp h).1

@[simp]
theorem log_run (p : Plan α) (s : Boundary) : (p.run s).log = (p.outcome s.stock).1.toList := by
  cases h : p.fires s with
  | true =>
    rw [run_of_fires h]
    exact p.log_events s.stock
  | false =>
    rw [run_of_not_fires h]
    exact p.log_events s.stock

/-- The logger is spent exactly when it panics. -/
theorem armed_run (p : Plan α) (s : Boundary) :
    (p.run s).state.armed = (s.armed && !p.fires s) := by
  cases h : p.fires s with
  | true => rw [run_of_fires h, Bool.not_true, Bool.and_false]
  | false =>
    rw [run_of_not_fires h, Bool.not_false, Bool.and_true]
    rfl

/-! ## Plans from plans -/

/-- Asks nothing. -/
def say (record : Option Record) (ending : Ending α) : Plan α :=
  ⟨.nothing, fun _ => (record, ending)⟩

/-- Goes by a plan if there is something to go on, and asks nothing if there is not. -/
def given (r : Except Failure β) (p : β → Plan α) : Plan α :=
  match r with
  | .ok b => p b
  | .error f => say none (.failure f)

/-- The same plan with another value. -/
def map (g : α → β) (p : Plan α) : Plan β :=
  ⟨p.demand, fun k => ((p.outcome k).1, (p.outcome k).2.map g)⟩

/-- Turns a failure into a record and a value. -/
def rescue (p : Plan α) (record : Failure → Option Record) (value : Failure → α) : Plan α :=
  ⟨p.demand, fun k =>
    match (p.outcome k).2 with
    | .failure f => (record f, .value (value f))
    | e => ((p.outcome k).1, e)⟩

theorem map_map (g : α → β) (h : β → γ) (p : Plan α) : (p.map g).map h = p.map (h ∘ g) := by
  simp only [map, Ending.map_map]

theorem map_given (g : α → γ) (r : Except Failure β) (p : β → Plan α) :
    (given r p).map g = given r fun b => (p b).map g := by
  cases r <;> rfl

theorem map_rescue (g : α → β) (p : Plan α) (record : Failure → Option Record)
    (value : Failure → α) :
    (p.rescue record value).map g = (p.map g).rescue record (g ∘ value) := by
  simp only [map, rescue, mk.injEq, true_and]
  funext k
  cases (p.outcome k).2 <;> rfl

structure Proper (p : Plan α) : Prop where
  /-- A record is written only where there is a value. -/
  settled : ∀ {k : Stock} {r : Record}, (p.outcome k).1 = some r → ∃ a, (p.outcome k).2 = .value a
  /-- Of the table's own records, just those are written that the demand asks for. -/
  audited : ∀ k : Stock,
    (p.outcome k).1.toList.filter (·.target = .table) = (p.demand.audit k).toList

theorem Proper.silent_of_failure {p : Plan α} (hp : p.Proper) {k : Stock} {f : Failure}
    (h : (p.outcome k).2 = .failure f) : (p.outcome k).1 = none := by
  rw [Option.eq_none_iff_forall_ne_some]
  intro r hr
  obtain ⟨a, ha⟩ := hp.settled hr
  rw [h] at ha
  cases ha

theorem run_given (r : Except Failure β) (p : β → Plan α) :
    (given r p).run = Act.ofExcept r >>= fun b => (p b).run := by
  cases r with
  | ok b => exact (pure_bind b fun b => (p b).run).symm
  | error f => rfl

theorem run_map (g : α → β) (p : Plan α) : (p.map g).run = g <$> p.run := by
  funext s
  rw [Act.map_apply]
  have hfires : (p.map g).fires s = p.fires s := rfl
  cases h : p.fires s with
  | true =>
    rw [run_of_fires h, run_of_fires (hfires.trans h)]
    rfl
  | false =>
    rw [run_of_not_fires h, run_of_not_fires (hfires.trans h)]
    rfl

theorem outcome_rescue_of_failure {p : Plan α} {k : Stock} {f : Failure}
    (h : (p.outcome k).2 = .failure f) (record : Failure → Option Record) (value : Failure → α) :
    (p.rescue record value).outcome k = (record f, .value (value f)) := by
  simp only [rescue, h]

theorem outcome_rescue_of_not_failure {p : Plan α} {k : Stock}
    (h : ∀ f, (p.outcome k).2 ≠ .failure f) (record : Failure → Option Record)
    (value : Failure → α) : (p.rescue record value).outcome k = p.outcome k := by
  cases hout : p.outcome k with
  | mk r e =>
    cases e with
    | failure f => exact absurd (by rw [hout]) (h f)
    | value a => simp only [rescue, hout]
    | panic m => simp only [rescue, hout]

theorem run_rescue {p : Plan α} (hp : p.Proper) {record : Failure → Option Record}
    {value : Failure → α} {handle : Failure → Act α}
    (hh : ∀ f, handle f = Act.closing (record f) (.value (value f))) :
    p.run.recover handle = (p.rescue record value).run := by
  funext s
  by_cases hf : ∃ f, (p.outcome s.stock).2 = .failure f
  · obtain ⟨f, hf⟩ := hf
    have hrun : p.run s = ⟨.failure f, s.restock (p.demand.meet s.stock), []⟩ := by
      simp only [run, hf, hp.silent_of_failure hf, Act.closing]
    rw [Act.recover_of_failure hrun, hh]
    simp only [run, outcome_rescue_of_failure hf, List.nil_append]
    rfl
  · have hout := outcome_rescue_of_not_failure (not_exists.mp hf) record value
    have hsame : (p.rescue record value).run s = p.run s := by
      simp only [run, hout]
      rfl
    rw [hsame]
    apply Act.recover_of_not_failure
    intro e he
    cases h : p.fires s with
    | true =>
      rw [run_of_fires h] at he
      cases he
    | false =>
      rw [run_of_not_fires h] at he
      exact hf ⟨e, he⟩

/-- Records from elsewhere are none of the table's. -/
theorem filter_target_eq_nil {record : Option Record} (h : ∀ r ∈ record, r.target ≠ .table) :
    record.toList.filter (·.target = .table) = [] := by
  cases record with
  | none => rfl
  | some r => exact List.filter_cons_of_neg (by simpa using h r rfl)

theorem proper_say {record : Option Record} (a : α) (h : ∀ r ∈ record, r.target ≠ .table) :
    (say record (.value a)).Proper where
  settled _ := ⟨a, rfl⟩
  audited _ := filter_target_eq_nil h

theorem proper_end (ending : Ending α) : (say none ending).Proper where
  settled h := nomatch h
  audited _ := rfl

theorem proper_given (r : Except Failure β) {p : β → Plan α} (hp : ∀ b, (p b).Proper) :
    (given r p).Proper := by
  cases r with
  | ok b => exact hp b
  | error f => exact proper_end _

theorem Proper.map {p : Plan α} (hp : p.Proper) (g : α → β) : (p.map g).Proper where
  settled {k r} hr := by
    obtain ⟨a, ha⟩ := hp.settled (k := k) hr
    exact ⟨g a, by simp only [Plan.map, ha, Ending.map]⟩
  audited := hp.audited

/-- What is logged of a failure is not the table's. -/
theorem Proper.rescue {p : Plan α} (hp : p.Proper) {record : Failure → Option Record}
    (value : Failure → α) (hr : ∀ f, ∀ r ∈ record f, r.target ≠ .table) :
    (p.rescue record value).Proper := by
  constructor
  · intro k r h
    by_cases hf : ∃ f, (p.outcome k).2 = .failure f
    · obtain ⟨f, hf⟩ := hf
      rw [outcome_rescue_of_failure hf]
      exact ⟨value f, rfl⟩
    · rw [outcome_rescue_of_not_failure (not_exists.mp hf)] at h ⊢
      exact hp.settled h
  · intro k
    by_cases hf : ∃ f, (p.outcome k).2 = .failure f
    · obtain ⟨f, hf⟩ := hf
      have haudit := hp.audited k
      rw [hp.silent_of_failure hf] at haudit
      rw [outcome_rescue_of_failure hf, filter_target_eq_nil (hr f)]
      exact haudit
    · rw [outcome_rescue_of_not_failure (not_exists.mp hf)]
      exact hp.audited k

/-! ## The plans of the table's own operations -/

/-- Lends a feed out for an action; the feed as it was lent decides the ending. -/
def lend (h : Handle) (action : Feed.Action) (answer : Feed → Ending α) : Plan α :=
  ⟨.lend h action, fun k =>
    match k.table.get? h with
    | some f => (none, answer f)
    | none => (none, .failure (.stale h))⟩

theorem map_lend (g : α → β) (h : Handle) (action : Feed.Action) (answer : Feed → Ending α) :
    (lend h action answer).map g = lend h action fun f => (answer f).map g := by
  simp only [map, lend, mk.injEq, true_and]
  funext k
  cases k.table.get? h <;> rfl

def release (h : Handle) : Plan Unit :=
  ⟨.release h, fun k =>
    match k.table.get? h with
    | some f => (some (.released h f.unread f.count), .value ())
    | none => (none, .failure (.stale h))⟩

def supply (count size : Nat) : Plan Handle :=
  ⟨.supply count size, fun k =>
    match Feed.generate count size .supplied k.source with
    | some (f, _) =>
      (some (.registered (k.table.insert f).1 f.count f.size), .value (k.table.insert f).1)
    | none => (none, .panic Feed.overflowText)⟩

def supplyFresh (count size : Nat) (key : Keystream.Key) : Plan Handle :=
  ⟨.supplyFresh count size key, fun k =>
    match Feed.ofEntropy count size key with
    | some f =>
      (some (.registered (k.table.insert f).1 f.count f.size), .value (k.table.insert f).1)
    | none => (none, .panic Feed.overflowText)⟩

theorem run_lend (h : Handle) (action : Feed.Action) {g : Feed → β × Feed} {f : β → Act α}
    {e : β → Ending α} (hg : ∀ x, (g x).2 = (x.perform action).2)
    (hf : ∀ b, f b = Act.closing none (e b)) :
    Act.lend h g >>= f = (lend h action fun x => e (g x).1).run := by
  funext s
  cases found : s.table.get? h with
  | some x =>
    rw [Act.bind_of_value (Act.lend_of_get? found g), hf]
    simp only [Act.closing, hg, run, lend, Boundary.stock, found, Demand.meet, Boundary.restock,
      List.append_nil]
  | none =>
    rw [Act.bind_of_failure (Act.lend_of_get?_eq_none found g)]
    simp only [run, lend, Boundary.stock, found, Demand.meet, Act.closing, Boundary.restock]

theorem run_release (h : Handle) : Act.release h = (release h).run := by
  funext s
  cases found : s.table.get? h with
  | some f =>
    simp only [Act.release, bind, Act.andThen, Act.get, Act.set, SlotTable.remove_of_get? found,
      Act.ofExcept, pure, run, release, Boundary.stock, found, Demand.meet, Boundary.restock,
      List.nil_append]
    rfl
  | none =>
    simp only [Act.release, bind, Act.andThen, Act.get, Act.set,
      SlotTable.remove_of_get?_eq_none found, Act.ofExcept, Act.fail, run, release, Boundary.stock,
      found, Demand.meet, Act.closing, Boundary.restock, List.append_nil]

/-- Registering is an insertion and its record. -/
theorem register_eq (f : Feed) (s : Boundary) :
    Act.register f s =
      Act.closing (some (.registered (s.table.insert f).1 f.count f.size))
        (.value (s.table.insert f).1) { s with table := (s.table.insert f).2 } := by
  rw [← Act.emit_bind_pure]
  rfl

theorem run_supply (count size : Nat) :
    (Act.makeFeed count size >>= Act.register) = (supply count size).run := by
  funext s
  cases hmade : Feed.generate count size .supplied s.source with
  | none =>
    have hmake : Act.makeFeed count size s = ⟨.panic Feed.overflowText, s, []⟩ := by
      simp only [Act.makeFeed, bind, Act.andThen, Act.get, hmade, Act.panic, List.append_nil]
    rw [Act.bind_of_panic hmake]
    simp only [run, supply, Boundary.stock, hmade, Act.closing, Demand.meet, Boundary.restock]
  | some made =>
    have hmake : Act.makeFeed count size s = ⟨.value made.1, { s with source := made.2 }, []⟩ := by
      simp only [Act.makeFeed, bind, Act.andThen, Act.get, hmade, Act.set, pure, List.append_nil]
    rw [Act.bind_of_value hmake]
    simp only [register_eq, run, supply, Boundary.stock, hmade, Demand.meet, Boundary.restock,
      List.nil_append]

theorem run_supplyFresh (count size : Nat) (key : Keystream.Key) :
    (Act.makeFreshFeed count size key >>= Act.register) = (supplyFresh count size key).run := by
  funext s
  cases hmade : Feed.ofEntropy count size key with
  | none =>
    have hmake : Act.makeFreshFeed count size key s = ⟨.panic Feed.overflowText, s, []⟩ := by
      simp only [Act.makeFreshFeed, hmade, Act.panic]
    rw [Act.bind_of_panic hmake]
    simp only [run, supplyFresh, Boundary.stock, hmade, Act.closing, Demand.meet, Boundary.restock]
  | some f =>
    have hmake : Act.makeFreshFeed count size key s = ⟨.value f, s, []⟩ := by
      simp only [Act.makeFreshFeed, hmade, pure]
    rw [Act.bind_of_value hmake]
    simp only [register_eq, run, supplyFresh, Boundary.stock, hmade, Demand.meet, Boundary.restock,
      List.nil_append]

theorem silent_lend (h : Handle) (action : Feed.Action) (answer : Feed → Ending α) (k : Stock) :
    ((lend h action answer).outcome k).1 = none := by
  simp only [lend]
  split <;> rfl

theorem proper_lend (h : Handle) (action : Feed.Action) (answer : Feed → Ending α) :
    (lend h action answer).Proper where
  settled {k r} hr := by
    rw [silent_lend] at hr
    cases hr
  audited k := by
    rw [silent_lend]
    rfl

theorem proper_release (h : Handle) : (release h).Proper where
  settled {k r} hr := by
    simp only [release] at hr ⊢
    split at hr
    · exact ⟨(), rfl⟩
    · cases hr
  audited k := by
    cases found : k.table.get? h with
    | none =>
      simp only [release, Demand.audit, found]
      rfl
    | some f =>
      simp only [release, Demand.audit, found]
      rfl

theorem proper_supply (count size : Nat) : (supply count size).Proper where
  settled {k r} hr := by
    simp only [supply] at hr ⊢
    split at hr
    · exact ⟨_, rfl⟩
    · cases hr
  audited k := by
    cases hmade : Feed.generate count size .supplied k.source with
    | none =>
      simp only [supply, Demand.audit, hmade]
      rfl
    | some made =>
      simp only [supply, Demand.audit, hmade]
      rfl

theorem proper_supplyFresh (count size : Nat) (key : Keystream.Key) :
    (supplyFresh count size key).Proper where
  settled {k r} hr := by
    simp only [supplyFresh] at hr ⊢
    split at hr
    · exact ⟨_, rfl⟩
    · cases hr
  audited k := by
    cases hmade : Feed.ofEntropy count size key with
    | none =>
      simp only [supplyFresh, Demand.audit, hmade]
      rfl
    | some f =>
      simp only [supplyFresh, Demand.audit, hmade]
      rfl

end Plan

end BufferFeed

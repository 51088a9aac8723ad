import BufferFeed.Proofs.Boundary.Audit
import BufferFeed.Proofs.Boundary.Operations

/-!
# Making a feed through a surface

A creation gives a word in place of a handle, and zero in place of none. Zero is never a handle,
since no slot has the generation zero; so the word alone tells a client whether there is a feed now
(`creation_all_or_nothing`). If there is, the handle is new in every sense (`Boundary.Gained`), and
if there is not, nothing has changed and there is a line about it.

The surfaces differ in what they take. C takes a size without sign, and one that is too large for a
buffer is a panic that the guard contains, unless there is to be no buffer. Java takes a size with a
sign, and the bits of one that is too large are below zero; so all that it refuses it refuses as an
argument, and no panic comes of it.
-/

namespace BufferFeed

namespace Handle

variable {h : Handle}

theorem raw_ne_zero (hg : h.generation ≠ 0) : h.raw ≠ 0 := by
  intro hraw
  rw [← h.ofRaw_raw, hraw] at hg
  exact hg rfl

theorem long_ne_zero (hg : h.generation ≠ 0) : h.long ≠ 0 := by
  intro hlong
  rw [← h.ofLong_long, hlong] at hg
  exact hg rfl

end Handle

theorem SlotTable.generation_insert_ne_zero {α : Type} {t : SlotTable α} (ht : t.WellFormed)
    (room : t.slots.size < 2 ^ 32) (a : α) : (t.insert a).1.generation ≠ 0 := by
  have hs := getElem?_insert ht room a (t.insert a).1.index.toNat
  rw [if_pos rfl] at hs
  exact ht.numbered.insert a _ _ hs

namespace Boundary

variable {s t : Boundary} {count size : Nat} {key : Keystream.Key} {f : Feed}

/-- By the second boundary the process has gained a feed, all of it unread, behind a handle that
was not live and had never been issued. -/
structure Gained (s : Boundary) (issued : List Handle) (t : Boundary) (h : Handle)
    (count size : Nat) : Prop where
  unlive : s.table.get? h = none
  unissued : h ∉ issued
  named : ∃ f, t.table.get? h = some f ∧ f.count = count ∧ f.size = size ∧ f.unread = count
  live_eq : t.live = s.live + 1
  others : ∀ g, g ≠ h → t.table.get? g = s.table.get? g

theorem gained_of_insert {source : Source} {done : List Step} (lasts : (start source).Lasts done)
    (made : Feed.ofEntropy count size key = some f)
    (htable : t.table = (((start source).after done).table.insert f).2) :
    ((start source).after done).Gained ((start source).issued done) t
      (((start source).after done).table.insert f).1 count size := by
  have ht := wellFormed_after (s := start source) .empty done lasts.room
  have ledger := ledger_of_run source done lasts.room lasts.turns
  have hget := SlotTable.get?_insert ht lasts.room f
  obtain ⟨rest, hmade⟩ := Feed.exists_generate_of_ofEntropy made
  have hcount := Feed.count_of_generate hmade
  refine ⟨SlotTable.get?_insert_fresh ht lasts.room f, ledger.insert_notMem ht lasts.room f,
    ⟨f, ?_, hcount, Feed.size_of_generate hmade, ?_⟩, ?_, fun g hg => ?_⟩
  · rw [htable, hget, if_pos rfl]
  · rw [Feed.unread, Feed.cursor_of_generate hmade, Nat.sub_zero]
    exact hcount
  · rw [live, htable, SlotTable.size_insert ht lasts.room]
    rfl
  · rw [htable, hget, if_neg hg]

end Boundary

/-! ## Through C -/

namespace CSurface

variable {count : Int32} {size : UInt64} {key : Keystream.Key} {s : Boundary} {f : Feed}

/-- What a creation through C comes to, when its answer is this word. -/
structure Creation (s : Boundary) (issued : List Handle) (count : Int32) (size : UInt64)
    (r : Run UInt64) (raw : UInt64) : Prop where
  ending_eq : r.ending = .value raw
  ne_zero_iff : raw ≠ 0 ↔ 0 ≤ count ∧ (count = 0 ∨ size.toNat ≤ 2 ^ 63 - 1)
  gained : raw ≠ 0 → s.Gained issued r.state (.ofRaw raw) count.toInt.toNat size.toNat
  unchanged : raw = 0 → r.state.table = s.table
  /-- A count below zero is warned of. -/
  refused : count < 0 →
    r.log = [.createFailed count size (.invalid "number too small to fit in target type")] ∧
      r.log.map Record.level = [.warn]
  /-- Else it was a panic. -/
  contained : raw = 0 → ¬ count < 0 →
    r.log = [.panicked .create] ∧ r.log.map Record.level = [.error]

theorem create_of_negative (h : count < 0) (size : UInt64) (key : Keystream.Key)
    (unarmed : s.armed = false) :
    create count size key s = ⟨.value 0, s,
      [.logged (.createFailed count size
        (.invalid "number too small to fit in target type"))]⟩ := by
  have hcount := IntRange.size_of_neg (Int32.lt_iff_toInt_lt.mp h)
  have hout : (createPlan count size key).outcome s.stock =
      (some (.createFailed count size (.invalid "number too small to fit in target type")),
        .value Handle.nullRaw) := by
    rw [createPlan, hcount]
    rfl
  have hmeet : (createPlan count size key).demand.meet s.stock = s.stock := by
    rw [createPlan, hcount]
    rfl
  have hsame : ({ s with armed := false } : Boundary) = s := by rw [← unarmed]
  rw [create_eq, guarded_run_of_warning hout rfl hmeet, unarmed, hsame]
  rfl

theorem create_of_unfit (h : 0 ≤ count)
    (unmade : Feed.ofEntropy count.toInt.toNat size.toNat key = none) :
    create count size key s = ⟨.value 0, s, [.logged (.panicked .create)]⟩ := by
  have hout : (createPlan count size key).outcome s.stock =
      (none, .panic Feed.overflowText) := by
    simp only [createPlan_of_nonneg h, Plan.rescue, Plan.map, Plan.supplyFresh, unmade, Ending.map]
  have hmeet : (createPlan count size key).demand.meet s.stock = s.stock := by
    simp only [createPlan_of_nonneg h, Plan.rescue, Plan.map, Plan.supplyFresh, Demand.meet, unmade]
  have hrun := Plan.run_of_silent (congrArg Prod.fst hout)
  rw [hout, hmeet, Boundary.restock_stock] at hrun
  rw [create_eq, guarded_of_panic hrun]
  rfl

theorem create_of_made (h : 0 ≤ count)
    (made : Feed.ofEntropy count.toInt.toNat size.toNat key = some f) (unarmed : s.armed = false) :
    create count size key s = ⟨.value (s.table.insert f).1.raw,
      { s with table := (s.table.insert f).2 },
      [.logged (.registered (s.table.insert f).1 f.count f.size)]⟩ := by
  have hquiet : (createPlan count size key).fires s = false := by
    rw [Plan.fires, unarmed, Bool.false_and]
  have hout : (createPlan count size key).outcome s.stock =
      (some (.registered (s.table.insert f).1 f.count f.size),
        .value (s.table.insert f).1.raw) := by
    simp only [createPlan_of_nonneg h, Plan.rescue, Plan.map, Plan.supplyFresh, made, Ending.map,
      Boundary.stock]
  rw [create_eq, guarded_run_of_value hquiet (congrArg Prod.snd hout), Plan.events, hout]
  simp only [createPlan_of_nonneg h, Plan.rescue, Plan.map, Plan.supplyFresh, Demand.meet, made,
    Boundary.stock, Boundary.restock, Option.toList_some, List.map_cons, List.map_nil]

theorem creation_of_lasts {source : Source} {done : List Boundary.Step}
    (lasts : (Boundary.start source).Lasts done)
    (unarmed : ((Boundary.start source).after done).armed = false) (count : Int32) (size : UInt64)
    (key : Keystream.Key) :
    ∃ raw, Creation ((Boundary.start source).after done) ((Boundary.start source).issued done) count
      size (create count size key ((Boundary.start source).after done)) raw := by
  by_cases hneg : count < 0
  · rw [create_of_negative hneg size key unarmed]
    exact ⟨0, rfl, iff_of_false (fun h => h rfl) fun h => Int32.not_lt.mpr h.1 hneg,
      fun h => absurd rfl h, fun _ => rfl, fun _ => ⟨rfl, rfl⟩, fun _ h => absurd hneg h⟩
  have hcount : 0 ≤ count := Int32.not_lt.mp hneg
  have hfits := Feed.fits_iff_of_nonneg hcount size.toNat
  cases hmade : Feed.ofEntropy count.toInt.toNat size.toNat key with
  | none =>
    have hunfit : ¬ (count = 0 ∨ size.toNat ≤ 2 ^ 63 - 1) :=
      fun h => Feed.ofEntropy_eq_none_iff.mp hmade (hfits.mpr h)
    rw [create_of_unfit hcount hmade]
    exact ⟨0, rfl, iff_of_false (fun h => h rfl) fun h => hunfit h.2, fun h => absurd rfl h,
      fun _ => rfl, fun h => absurd h hneg, fun _ _ => ⟨rfl, rfl⟩⟩
  | some f =>
    have hfit : count = 0 ∨ size.toNat ≤ 2 ^ 63 - 1 := by
      refine hfits.mp (not_not.mp fun h => ?_)
      cases hmade.symm.trans (Feed.ofEntropy_eq_none_iff.mpr h)
    have hraw := Handle.raw_ne_zero (SlotTable.generation_insert_ne_zero
      (Boundary.wellFormed_after .empty done lasts.room) lasts.room f)
    rw [create_of_made hcount hmade unarmed]
    refine ⟨_, rfl, iff_of_true hraw ⟨hcount, hfit⟩, fun _ => ?_, fun h => absurd h hraw,
      fun h => absurd h hneg, fun h => absurd h hraw⟩
    rw [Handle.ofRaw_raw]
    exact Boundary.gained_of_insert lasts hmade rfl

end CSurface

/-! ## Through Java -/

namespace JavaSurface.Call

open Jvm (Fault)

variable {count : Int32} {size : Int64} {key : Keystream.Key} {s : Boundary} {f : Feed}

/-- What a creation through Java comes to, when its answer is this word. -/
structure Creation (s : Boundary) (issued : List Handle) (faults : List Fault) (count : Int32)
    (size : Int64) (r : Run Reply) (long : Int64) : Prop where
  ending_eq : r.ending = .value (.created long)
  ne_zero_iff : long ≠ 0 ↔ 0 ≤ count ∧ 0 ≤ size
  gained : long ≠ 0 → s.Gained issued r.state (.ofLong long) count.toInt.toNat size.toInt.toNat
  unchanged : long = 0 → r.state.table = s.table
  /-- A number below zero is warned of. -/
  refused : long = 0 → ∃ line ∈ r.log, line.level = .warn ∧
    line = .methodFailed .create (.invalid "number too small to fit in target type")
  /-- In a machine without faults it is an exception for Java. -/
  raised : long = 0 → faults = [] → s.pending = none → r.state.pending =
    some ⟨"java/lang/IllegalArgumentException",
      "Invalid argument: number too small to fit in target type"⟩

theorem create_of_made (hcount : 0 ≤ count) (hsize : 0 ≤ size)
    (made : Feed.ofEntropy count.toInt.toNat size.toInt.toNat key = some f)
    (unarmed : s.armed = false) (faults : List Fault) :
    (create count size key).body faults s = ⟨.value (.created (s.table.insert f).1.long),
      { s with table := (s.table.insert f).2 },
      [.logged (.registered (s.table.insert f).1 f.count f.size)]⟩ := by
  have hquiet : (create count size key).plan.fires s = false := by
    rw [Plan.fires, unarmed, Bool.false_and]
  rw [body_create, Plan.run_of_not_fires hquiet, plan_of_nonneg hcount hsize]
  simp only [Plan.events, Plan.map, Plan.supplyFresh, Demand.meet, made, Ending.map, Boundary.stock,
    Boundary.restock, Option.toList_some, List.map_cons, List.map_nil, Function.comp_apply]

/-- A creation with a number below zero asks nothing of the table, and the method says so in the
log; in a machine without faults Java sees the exception for an argument. -/
theorem act_of_negative (h : (create count size key).Negative) (faults : List Fault) :
    let r := (create count size key).act faults s
    r.ending = .value (.created 0) ∧ r.state.table = s.table ∧
      .methodFailed .create (.invalid "number too small to fit in target type") ∈ r.log ∧
      (faults = [] → s.pending = none → r.state.pending =
        some ⟨"java/lang/IllegalArgumentException",
          "Invalid argument: number too small to fit in target type"⟩) := by
  intro r
  have hbody : ((create count size key).body faults s).ending =
      .failure (.invalid "number too small to fit in target type") := ending_body_of_negative h
  refine ⟨?_, ?_, (methodFailed_mem_log_iff hbody).mpr ⟨rfl, rfl, rfl⟩, ?_⟩
  · have hending : r.ending = .value (answered (create count size key).fallback
        ((create count size key).body faults s).ending) := ending_guarded
    rw [hending, hbody]
    rfl
  · have hstock := (create count size key).stock_act faults s
    rw [plan_of_negative h] at hstock
    exact congrArg Stock.table hstock
  · rintro rfl clear
    have hdue : (create count size key).due? s = none := rfl
    rw [pending_act_of_sound clear fun b due => (nomatch hdue.symm.trans due), hbody]
    rfl

theorem not_negative_iff : ¬ (create count size key).Negative ↔ 0 ≤ count ∧ 0 ≤ size := by
  show ¬ (count < 0 ∨ size < 0) ↔ _
  rw [not_or, Int32.not_lt, Int64.not_lt]

theorem creation_of_lasts {source : Source} {done : List Boundary.Step}
    (lasts : (Boundary.start source).Lasts done)
    (unarmed : ((Boundary.start source).after done).armed = false) (count : Int32) (size : Int64)
    (key : Keystream.Key) (faults : List Fault) :
    (∀ message, ((create count size key).body faults ((Boundary.start source).after done)).ending ≠
      .panic message) ∧
    ∃ long, Creation ((Boundary.start source).after done) ((Boundary.start source).issued done)
      faults count size ((create count size key).act faults ((Boundary.start source).after done))
      long := by
  by_cases hneg : (create count size key).Negative
  · obtain ⟨hending, htable, hline, hraised⟩ :=
      act_of_negative (s := (Boundary.start source).after done) hneg faults
    refine ⟨fun message hpanic => ?_, 0, hending, iff_of_false (fun h => h rfl) fun h =>
      not_negative_iff.mpr h hneg, fun h => absurd rfl h, fun _ => htable,
      fun _ => ⟨_, hline, rfl, rfl⟩, fun _ => hraised⟩
    rw [ending_body_of_negative hneg] at hpanic
    cases hpanic
  · obtain ⟨hcount, hsize⟩ := not_negative_iff.mp hneg
    have hsizelt : size.toInt < 2 ^ 63 := size.toInt_lt
    obtain ⟨f, hmade⟩ := Feed.exists_ofEntropy
      ((Feed.fits_iff_of_nonneg hcount size.toInt.toNat).mpr (.inr (by omega))) key
    have hlong := Handle.long_ne_zero (SlotTable.generation_insert_ne_zero
      (Boundary.wellFormed_after .empty done lasts.room) lasts.room f)
    have hbody := create_of_made hcount hsize hmade unarmed faults
    refine ⟨fun message hpanic => ?_, ?_⟩
    · rw [hbody] at hpanic
      cases hpanic
    · rw [act, guarded_of_value hbody]
      refine ⟨_, rfl, iff_of_true hlong ⟨hcount, hsize⟩, fun _ => ?_, fun h => absurd h hlong,
        fun h => absurd h hlong, fun h => absurd h hlong⟩
      rw [Handle.ofLong_long]
      exact Boundary.gained_of_insert lasts hmade rfl

end JavaSurface.Call

/-! ## Through either -/

namespace Boundary

open Jvm (Fault)

/-- **A creation makes a feed or leaves all as it was, and its answer tells which.** Through C it
makes one unless the count is below zero or a buffer could not be addressed, and the latter is a
panic that the guard contains. Through Java it makes one unless the count or the size is below zero,
and it never panics. -/
theorem creation_all_or_nothing (source : Source) (done : List Step)
    (lasts : (start source).Lasts done) (unarmed : ((start source).after done).armed = false)
    (count : Int32) (key : Keystream.Key) :
    let s := (start source).after done
    let issued := (start source).issued done
    (∀ size, ∃ raw,
      CSurface.Creation s issued count size (CSurface.create count size key s) raw) ∧
    ∀ size (faults : List Fault),
      let call := JavaSurface.Call.create count size key
      (∀ message, (call.body faults s).ending ≠ .panic message) ∧
        ∃ long, JavaSurface.Call.Creation s issued faults count size (call.act faults s) long :=
  ⟨fun size => CSurface.creation_of_lasts lasts unarmed count size key,
    fun size faults => JavaSurface.Call.creation_of_lasts lasts unarmed count size key faults⟩

/-- A feed was registered and released, and its slot is free. -/
def vacated : List Step := [.direct (.register 1 1), .direct (.release ⟨0, 1⟩)]

/-- With no buffer a size is only a number, and Java reads its bits as one below zero. -/
theorem creation_all_or_nothing_vacated :
    let s := (start ⟨.counting 0 1, 0⟩).after vacated
    (start ⟨.counting 0 1, 0⟩).Lasts vacated ∧ s.armed = false ∧
      (∃ raw, raw ≠ 0 ∧
        (CSurface.create 0 0x8000000000000000 (.ofBytes []) s).ending = .value raw) ∧
      ((JavaSurface.Call.create 0 (-0x8000000000000000) (.ofBytes [])).act [] s).ending =
        .value (.created 0) := by
  intro s
  have lasts : (start ⟨.counting 0 1, 0⟩).Lasts vacated := by
    refine ⟨by decide, fun i => ?_⟩
    exact Nat.lt_of_le_of_lt List.countP_le_length (by decide)
  have unarmed : s.armed = false := by decide
  obtain ⟨hC, hJava⟩ := creation_all_or_nothing _ vacated lasts unarmed 0 (.ofBytes [])
  obtain ⟨raw, made⟩ := hC 0x8000000000000000
  obtain ⟨-, long, refused⟩ := hJava (-0x8000000000000000) []
  have hraw : raw ≠ 0 := made.ne_zero_iff.mpr ⟨by decide, .inl rfl⟩
  have hlong : long = 0 := by
    refine not_not.mp fun h => ?_
    exact absurd (refused.ne_zero_iff.mp h).2 (by decide)
  refine ⟨lasts, unarmed, ⟨raw, hraw, made.ending_eq⟩, ?_⟩
  rw [← hlong]
  exact refused.ending_eq

end Boundary

end BufferFeed

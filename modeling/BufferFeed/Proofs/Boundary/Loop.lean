import BufferFeed.Proofs.Boundary.CSurface

/-!
# The loop of a C program

A C program reads a feed to its end by asking for more and reading, in turns (`Loop`). Nothing
bounds the turns; the relation says what comes of them, and it is a function (`Loop.unique`). Over a
live feed with valid destinations the loop ends, and has read every buffer ahead of the cursor, in
order, each into its destination (`loop_of_get?`). It logs nothing on the way.

The loop that the surface counts as one of its calls looks at the code of each read as well, and has
a bound on its turns. Where no read fails, that is the same loop (`drainFrom_of_loop`).
-/

namespace BufferFeed

/-- A destination that bytes can be written to. Null has room for none. -/
def Destination.Valid (d : Destination) : Prop := 0 ≤ d.length ∧ (d.length = 0 ∨ d.address ≠ 0)

instance (d : Destination) : Decidable d.Valid := by
  unfold Destination.Valid
  infer_instance

/-- How many bytes a destination has room for. -/
def Destination.room (d : Destination) : Nat := d.length.toInt.toNat

namespace CSurface

theorem capacity?_eq_some_iff {d : Destination} {capacity : Nat} :
    capacity? d = some capacity ↔ d.Valid ∧ d.room = capacity := by
  have hneg : d.length < 0 ↔ ¬ 0 ≤ d.length := by
    rw [Int32.lt_iff_toInt_lt, Int32.le_iff_toInt_le, Int.not_le]
  unfold capacity? Destination.Valid Destination.room
  by_cases hlength : d.length < 0
  · simp only [hlength, if_true, reduceCtorEq, hneg.mp hlength, false_and]
  · have hle : 0 ≤ d.length := by
      rw [hneg, not_not] at hlength
      exact hlength
    by_cases haddress : d.length = 0 ∨ d.address ≠ 0
    · simp only [hlength, if_false, haddress, if_true, Option.some.injEq, hle, true_and]
    · simp only [hlength, if_false, haddress, reduceCtorEq, and_false, false_and]

theorem capacity?_of_valid {d : Destination} (valid : d.Valid) : capacity? d = some d.room :=
  capacity?_eq_some_iff.mpr ⟨valid, rfl⟩

/-! ## On a live feed -/

section Live

variable {raw : UInt64} {s : Boundary} {f : Feed} {d : Destination} {capacity : Nat}

theorem hasNext_of_get? (found : s.table.get? (.ofRaw raw) = some f) :
    hasNext raw s = ⟨.value (if f.hasMore then 1 else 0), s, []⟩ := by
  have hout : (hasNextPlan raw).outcome s.stock =
      (none, .value (if f.hasMore then 1 else 0)) := by
    simp only [hasNextPlan, Plan.rescue, Plan.lend, Boundary.stock, found]
  have hmeet : (hasNextPlan raw).demand.meet s.stock = s.stock :=
    Demand.meet_lend_of_unmoved found .hasMore rfl
  rw [hasNext_eq, guarded_run_of_silent hout, hmeet, Boundary.restock_stock]

theorem next_of_ahead_nil (found : s.table.get? (.ofRaw raw) = some f)
    (hd : capacity? d = some capacity) (h : f.ahead = []) :
    next raw d s = ⟨.value ⟨exhaustedCode, []⟩, s, []⟩ := by
  have hout : (nextPlan raw d).outcome s.stock = (none, .value ⟨exhaustedCode, []⟩) := by
    simp only [nextPlan, hd, Plan.rescue, Plan.lend, Boundary.stock, found,
      Feed.next_of_ahead_nil h, Failure.isExhausted, if_true, codeOf]
  have hmeet : (nextPlan raw d).demand.meet s.stock = s.stock := by
    simp only [nextPlan, hd]
    refine Demand.meet_lend_of_unmoved found .next ?_
    simp only [Feed.perform, Feed.next_of_ahead_nil h]
  rw [next_eq, guarded_run_of_silent hout, hmeet, Boundary.restock_stock]

theorem next_of_ahead_cons {b : Bytes} {bs : List Bytes}
    (found : s.table.get? (.ofRaw raw) = some f) (hd : capacity? d = some capacity)
    (h : f.ahead = b :: bs) :
    next raw d s = ⟨.value (.ofBuffer capacity b),
      { s with table := s.table.setContent (Handle.ofRaw raw).index (some f.advanced) }, []⟩ := by
  have hout : (nextPlan raw d).outcome s.stock = (none, .value (.ofBuffer capacity b)) := by
    simp only [nextPlan, hd, Plan.rescue, Plan.lend, Boundary.stock, found,
      Feed.next_of_ahead_cons h]
  rw [next_eq, guarded_run_of_silent hout]
  simp only [nextPlan, hd, Plan.rescue, Plan.lend, Demand.meet, Boundary.stock, found,
    Feed.perform, Feed.next_of_ahead_cons h, Boundary.restock]

/-- A destination takes no more bytes than a code can count. -/
theorem capacity_lt (hd : capacity? d = some capacity) : capacity < 2 ^ 31 := by
  have hlt : d.length.toInt < 2 ^ 31 := d.length.toInt_lt
  unfold capacity? at hd
  split at hd
  · cases hd
  · split at hd
    · cases hd
      omega
    · cases hd

/-- A read that succeeds is told from a failure by its code. -/
theorem Reading.not_code_ofBuffer_neg (hd : capacity? d = some capacity) (b : Bytes) :
    ¬ (Reading.ofBuffer capacity b).code < 0 := by
  have hlt : (b.take capacity).length < 2 ^ 31 :=
    Nat.lt_of_le_of_lt (List.length_take_le _ _) (capacity_lt hd)
  rw [Int32.lt_iff_toInt_lt]
  simp only [Reading.ofBuffer, Int32.toInt_ofNat_of_lt hlt, Int32.toInt_zero]
  omega

theorem Reading.code_ofBuffer_ne (hd : capacity? d = some capacity) (b : Bytes) {code : Int32}
    (negative : code < 0) : (Reading.ofBuffer capacity b).code ≠ code := by
  rintro rfl
  exact Reading.not_code_ofBuffer_neg hd b negative

/-- One turn of the loop when there is no more. -/
theorem drainFrom_of_no_more {t : Boundary} {n : Int32} {es : List Event}
    (h : hasNext raw s = ⟨.value n, t, es⟩) (no : n ≠ 1) (d : Nat → Destination) (fuel i : Nat) :
    drainFrom raw d (fuel + 1) i s = ⟨.value [], t, es⟩ := by
  rw [drainFrom, Act.bind_of_value h, if_neg no]
  simp only [pure, List.append_nil]

/-- One turn of the loop when there is more. -/
theorem drainFrom_of_more (h : hasNext raw s = ⟨.value 1, s, []⟩) (d : Nat → Destination)
    (fuel i : Nat) :
    drainFrom raw d (fuel + 1) i s =
      (do
        let reading ← next raw (d i)
        if reading.code < 0 then return []
        return reading :: (← drainFrom raw d fuel (i + 1)) : Act (List Reading)) s := by
  rw [drainFrom, Act.bind_of_value h, if_pos rfl]
  rfl

end Live

/-! ## The loop -/

/-- What comes of the loop `while has_next = 1, next` from its `i`-th turn on: the reads, what is
left behind, and what could be watched. -/
inductive Loop (raw : UInt64) (d : Nat → Destination) :
    Nat → Boundary → List Reading → Boundary → List Event → Prop
  | stop {i : Nat} {s t : Boundary} {n : Int32} {es : List Event}
      (asked : hasNext raw s = ⟨.value n, t, es⟩) (no : n ≠ 1) : Loop raw d i s [] t es
  | turn {i : Nat} {s t u v : Boundary} {es fs gs : List Event} {reading : Reading}
      {readings : List Reading} (asked : hasNext raw s = ⟨.value 1, t, es⟩)
      (read : next raw (d i) t = ⟨.value reading, u, fs⟩)
      (rest : Loop raw d (i + 1) u readings v gs) :
      Loop raw d i s (reading :: readings) v (es ++ fs ++ gs)

section Loops

variable {raw : UInt64} {d : Nat → Destination} {i : Nat} {s t u : Boundary} {f : Feed}
  {readings others : List Reading} {es fs : List Event}

/-- **The loop has one outcome at most.** -/
theorem Loop.unique (h : Loop raw d i s readings t es) (k : Loop raw d i s others u fs) :
    others = readings ∧ u = t ∧ fs = es := by
  induction h generalizing others u fs with
  | stop asked no =>
    cases k with
    | stop asked' no' =>
      cases asked.symm.trans asked'
      exact ⟨rfl, rfl, rfl⟩
    | turn asked' read' rest' =>
      cases asked.symm.trans asked'
      exact absurd rfl no
  | turn asked read rest ih =>
    cases k with
    | stop asked' no' =>
      cases asked.symm.trans asked'
      exact absurd rfl no'
    | turn asked' read' rest' =>
      cases asked.symm.trans asked'
      cases read.symm.trans read'
      obtain ⟨rfl, rfl, rfl⟩ := ih rest'
      exact ⟨rfl, rfl, rfl⟩

/-- **The loop reads all that is ahead**, if it is given valid destinations for that. -/
theorem loop_of_get? (found : s.table.get? (.ofRaw raw) = some f)
    (valid : ∀ j < f.unread, (d (i + j)).Valid) :
    Loop raw d i s (f.ahead.mapIdx fun j b => .ofBuffer (d (i + j)).room b)
      { s with table := s.table.setContent (Handle.ofRaw raw).index (some f.finished) } [] := by
  rw [← Feed.length_ahead] at valid
  -- by induction on what is ahead: one turn reads one buffer
  generalize hbs : f.ahead = bs at valid ⊢
  induction bs generalizing f s i with
  | nil =>
    have hmore := hasNext_of_get? found
    rw [Feed.hasMore_of_ahead_nil hbs, if_neg Bool.false_ne_true] at hmore
    rw [Feed.finished_of_ahead_nil hbs, SlotTable.setContent_self found, List.mapIdx_nil]
    exact .stop hmore (by decide)
  | cons b bs ih =>
    have hmore := hasNext_of_get? found
    rw [Feed.hasMore_of_ahead_cons hbs, if_pos rfl] at hmore
    have hread := next_of_ahead_cons found (capacity?_of_valid (valid 0 (Nat.succ_pos _))) hbs
    have hrest : f.advanced.ahead = bs := by rw [Feed.ahead_advanced, hbs, List.tail_cons]
    have hfound := SlotTable.get?_setContent found f.advanced (.ofRaw raw)
    rw [if_pos rfl] at hfound
    have htail := ih (i := i + 1)
      (s := { s with table := s.table.setContent (Handle.ofRaw raw).index (some f.advanced) })
      hfound hrest fun j hj => by
        rw [Nat.add_right_comm]
        exact valid (j + 1) (Nat.succ_lt_succ hj)
    simp only [Feed.finished_advanced hbs, SlotTable.setContent_setContent] at htail
    rw [List.mapIdx_cons]
    simp only [Nat.add_assoc, Nat.add_comm 1] at htail ⊢
    exact .turn hmore hread htail

/-! ## The loop that is one call -/

/-- Where no read fails, the loop that looks at the codes is the loop that does not. -/
theorem drainFrom_of_loop {fuel : Nat} (h : Loop raw d i s readings t es)
    (succeeded : ∀ r ∈ readings, ¬ r.code < 0) (enough : readings.length < fuel) :
    drainFrom raw d fuel i s = ⟨.value readings, t, es⟩ := by
  induction h generalizing fuel with
  | stop asked no =>
    obtain ⟨fuel, rfl⟩ := Nat.exists_eq_add_one_of_ne_zero (Nat.ne_zero_of_lt enough)
    exact drainFrom_of_no_more asked no d fuel _
  | turn asked read rest ih =>
    obtain ⟨fuel, rfl⟩ := Nat.exists_eq_add_one_of_ne_zero (Nat.ne_zero_of_lt enough)
    obtain ⟨hcode, hcodes⟩ := List.forall_mem_cons.mp succeeded
    have htail := ih hcodes (Nat.lt_of_succ_lt_succ enough)
    rw [drainFrom, Act.bind_of_value asked, if_pos rfl, Act.bind_of_value read, if_neg hcode,
      Act.bind_of_value htail]
    simp only [pure, List.append_nil, List.append_assoc]

/-- **A bounded loop reads all that is ahead**, when it is given valid destinations and enough
turns. -/
theorem drainFrom_of_get? {fuel : Nat} (found : s.table.get? (.ofRaw raw) = some f)
    (valid : ∀ j < f.unread, (d (i + j)).Valid) (enough : f.unread < fuel) :
    drainFrom raw d fuel i s =
      ⟨.value (f.ahead.mapIdx fun j b => .ofBuffer (d (i + j)).room b),
        { s with table := s.table.setContent (Handle.ofRaw raw).index (some f.finished) }, []⟩ := by
  refine drainFrom_of_loop (loop_of_get? found valid) ?_ ?_
  · intro r hr
    obtain ⟨j, hj, rfl⟩ := List.mem_mapIdx.mp hr
    rw [Feed.length_ahead] at hj
    exact Reading.not_code_ofBuffer_neg (capacity?_of_valid (valid j hj)) _
  · rw [List.length_mapIdx, Feed.length_ahead]
    exact enough

end Loops

end CSurface

end BufferFeed

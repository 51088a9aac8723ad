import BufferFeed.Proofs.Boundary.Exhaustion

/-!
# A read into memory

What a read by a C program does, in every state that a process can be in, for every word in place of
a handle and every destination. Three things are looked at, in this order: the destination, the
handle, and what is left to read (`Next`). A read that stops at one of them gives a code below zero,
writes nothing and leaves the table as it was. Otherwise the code counts the bytes that were
written, and the feed has come one buffer further; so a client knows by the sign of the code whether
it did (`next_in_order`).

A buffer without bytes and a destination without room are read like any other, and the code is zero.
An armed logger is the one thing that can put another code in the place of the reason: it panics at
the warning about a handle, and the guard answers as for a bad destination.
-/

namespace BufferFeed

/-- A destination that no bytes can be written to. -/
def Destination.Bad (d : Destination) : Prop := d.length < 0 ∨ d.address = 0 ∧ 0 < d.length

instance (d : Destination) : Decidable d.Bad :=
  inferInstanceAs (Decidable (d.length < 0 ∨ d.address = 0 ∧ 0 < d.length))

theorem Destination.valid_iff_not_bad {d : Destination} : d.Valid ↔ ¬ d.Bad := by
  have hpos : 0 < d.length ↔ ¬ d.length < 0 ∧ d.length ≠ 0 := by
    rw [Int32.not_lt, Int32.lt_iff_le_and_ne, ne_comm]
  rw [Valid, Bad, hpos, ← Int32.not_lt]
  tauto

namespace CSurface

variable {raw : UInt64} {d : Destination} {s : Boundary} {f : Feed}

/-- The line of a warning, and that of the panic which an armed logger makes of it. -/
def warned (r : Record) (armed : Bool) : List Event :=
  .logged r :: if armed then [.logged (.panicked .next)] else []

/-- What a read that succeeds has done: the code, the bytes that are in memory afterwards, and the
feed. -/
structure Copied (raw : UInt64) (d : Destination) (s : Boundary) (f : Feed) (b : Bytes)
    (reading : Reading) : Prop where
  buffer : f.buffers[f.cursor]? = some b ∧ b.length = f.size
  run_eq : next raw d s = ⟨.value reading,
    { s with table :=
      s.table.setContent (Handle.ofRaw raw).index (some { f with cursor := f.cursor + 1 }) }, []⟩
  code_eq : reading.code.toInt = min (f.size : Int) d.length.toInt
  code_bounds : 0 ≤ reading.code.toInt ∧ reading.code.toInt ≤ 2 ^ 31 - 1
  written_eq : reading.written = b.take reading.code.toInt.toNat
  written_null : d.address = 0 → reading.written = []
  /-- A block that is as long as the destination has new bytes up to the code, and its own from
  there on. -/
  onto : ∀ block : Bytes, d.length.toInt ≤ block.length →
    (reading.onto block).length = block.length ∧
    ∀ i : Nat, (reading.onto block)[i]? = if i < reading.code.toInt then b[i]? else block[i]?
  /-- Of all handles this one alone has another feed, its own, one buffer further. -/
  get?_eq : ∀ h, (next raw d s).state.table.get? h =
    if h = .ofRaw raw then some { f with cursor := f.cursor + 1 } else s.table.get? h

/-- What a read does, by what it looks at. -/
structure Next (raw : UInt64) (d : Destination) (s : Boundary) : Prop where
  rejected : d.Bad → next raw d s = ⟨.value ⟨-3, []⟩, { s with armed := false },
    warned (.destinationRejected d) s.armed⟩
  stale : ¬ d.Bad → s.table.get? (.ofRaw raw) = none →
    next raw d s = ⟨.value ⟨if s.armed then -3 else -2, []⟩, { s with armed := false },
      warned (.failed .next (.stale (.ofRaw raw))) s.armed⟩
  exhausted : ¬ d.Bad → ∀ f, s.table.get? (.ofRaw raw) = some f → f.unread = 0 →
    next raw d s = ⟨.value ⟨-1, []⟩, s, []⟩
  copied : ¬ d.Bad → ∀ f, s.table.get? (.ofRaw raw) = some f → f.unread ≠ 0 →
    ∃ b reading, Copied raw d s f b reading

theorem next_of_bad (bad : d.Bad) (raw : UInt64) (s : Boundary) :
    next raw d s = ⟨.value ⟨-3, []⟩, { s with armed := false },
      warned (.destinationRejected d) s.armed⟩ := by
  have hnone : capacity? d = none := by
    refine Option.eq_none_iff_forall_ne_some.mpr fun capacity hd => ?_
    exact Destination.valid_iff_not_bad.mp (capacity?_eq_some_iff.mp hd).1 bad
  have hout : (nextPlan raw d).outcome s.stock =
      (some (.destinationRejected d), .value ⟨invalidCode, []⟩) := by
    simp only [nextPlan, hnone, Plan.say]
  have hmeet : (nextPlan raw d).demand.meet s.stock = s.stock := by
    simp only [nextPlan, hnone, Plan.say, Demand.meet]
  rw [next_eq, guarded_run_of_warning hout rfl hmeet, ite_self]
  rfl

theorem next_of_get?_eq_none (valid : d.Valid) (absent : s.table.get? (.ofRaw raw) = none) :
    next raw d s = ⟨.value ⟨if s.armed then -3 else -2, []⟩, { s with armed := false },
      warned (.failed .next (.stale (.ofRaw raw))) s.armed⟩ := by
  have hd := capacity?_of_valid valid
  have hout : (nextPlan raw d).outcome s.stock =
      (some (.failed .next (.stale (.ofRaw raw))), .value ⟨staleCode, []⟩) := by
    simp only [nextPlan, hd, Plan.rescue, Plan.lend, Boundary.stock, absent, Failure.isExhausted,
      Bool.false_eq_true, if_false, codeOf]
  have hmeet : (nextPlan raw d).demand.meet s.stock = s.stock := by
    simp only [nextPlan, hd]
    exact Demand.meet_lend_of_get?_eq_none (k := s.stock) absent .next
  rw [next_eq, guarded_run_of_warning hout rfl hmeet]
  cases s.armed <;> rfl

/-- What is written is put over the beginning of a block, and the rest of the block stays. -/
theorem getElem?_onto {reading : Reading} {block : Bytes} (i : Nat) :
    (reading.onto block)[i]? =
      if i < reading.written.length then reading.written[i]? else block[i]? := by
  rw [Reading.onto, List.getElem?_append, List.getElem?_drop]
  split
  · rfl
  · rename_i hi
    rw [Nat.add_sub_cancel' (Nat.not_lt.mp hi)]

/-- A block that has room for what is written is as long as before, and it has the bytes of the
buffer as far as they were taken. -/
theorem onto_ofBuffer {capacity : Nat} {b block : Bytes} (room : capacity ≤ block.length) :
    ((Reading.ofBuffer capacity b).onto block).length = block.length ∧
      ∀ i : Nat, ((Reading.ofBuffer capacity b).onto block)[i]? =
        if i < min capacity b.length then b[i]? else block[i]? := by
  have hcount : (Reading.ofBuffer capacity b).written.length = min capacity b.length :=
    List.length_take
  refine ⟨?_, fun i => ?_⟩
  · rw [Reading.onto, List.length_append, List.length_drop, hcount]
    omega
  · rw [getElem?_onto, hcount]
    split
    · rename_i hi
      exact (List.getElem?_take ..).trans (if_pos (Nat.lt_of_lt_of_le hi (Nat.min_le_left _ _)))
    · rfl

theorem copied_of_ahead_cons {b : Bytes} {bs : List Bytes}
    (held : s.table.Holds Feed.Obtainable) (valid : d.Valid)
    (found : s.table.get? (.ofRaw raw) = some f) (more : f.ahead = b :: bs) :
    Copied raw d s f b (.ofBuffer d.room b) := by
  have hrun := next_of_ahead_cons found (capacity?_of_valid valid) more
  have hmem : b ∈ f.ahead := by
    rw [more]
    exact List.mem_cons_self
  have hlength : b.length = f.size := held.length_of_mem_ahead found hmem
  have hroom : (d.room : Int) = d.length.toInt :=
    Int.toNat_of_nonneg (Int32.le_iff_toInt_le.mp valid.1)
  have hlt : d.room < 2 ^ 31 := capacity_lt (capacity?_of_valid valid)
  -- one number counts the bytes: the code is it, and so many were written
  have hcode : (Reading.ofBuffer d.room b).code.toInt = (min d.room b.length : Nat) := by
    rw [toInt_code_ofBuffer valid, Nat.min_comm]
  refine ⟨⟨?_, hlength⟩, hrun, ?_, ?_, ?_, ?_, ?_, ?_⟩
  · rw [← Feed.head?_ahead, more, List.head?_cons]
  · rw [hcode, hlength, ← hroom]
    omega
  · rw [hcode]
    omega
  · rw [hcode, Int.toNat_natCast, ← List.take_eq_take_min]
    rfl
  · intro hnull
    obtain hzero | hne := valid.2
    · rw [Reading.ofBuffer, Destination.room, hzero]
      rfl
    · exact absurd hnull hne
  · intro block hblock
    rw [← hroom] at hblock
    rw [hcode]
    simp only [Int.ofNat_lt]
    exact onto_ofBuffer (Int.ofNat_le.mp hblock)
  · intro h
    rw [hrun]
    exact SlotTable.get?_setContent found f.advanced h

theorem next_of_held (held : s.table.Holds Feed.Obtainable) : Next raw d s where
  rejected bad := next_of_bad bad raw s
  stale good absent := next_of_get?_eq_none (Destination.valid_iff_not_bad.mpr good) absent
  exhausted good f found done := by
    have nothing : f.ahead = [] := List.eq_nil_of_length_eq_zero (f.length_ahead.trans done)
    have valid := Destination.valid_iff_not_bad.mpr good
    exact next_of_ahead_nil found (capacity?_of_valid valid) nothing
  copied good f found unread := by
    rw [← Feed.length_ahead] at unread
    obtain ⟨b, bs, more⟩ := List.exists_cons_of_length_pos (Nat.pos_of_ne_zero unread)
    have valid := Destination.valid_iff_not_bad.mpr good
    exact ⟨b, _, copied_of_ahead_cons held valid found more⟩

/-- A read by which no feed moves has a code below zero, and one by which a feed moves has not. -/
theorem Next.nonneg_iff (law : Next raw d s) :
    ∃ reading, (next raw d s).ending = .value reading ∧
      (0 ≤ reading.code ↔ (next raw d s).state.table ≠ s.table) ∧
      (reading.code < 0 → reading.written = []) := by
  by_cases bad : d.Bad
  · rw [law.rejected bad]
    exact ⟨_, rfl, iff_of_false (by decide) fun h => h rfl, fun _ => rfl⟩
  cases found : s.table.get? (.ofRaw raw) with
  | none =>
    rw [law.stale bad found]
    refine ⟨_, rfl, iff_of_false ?_ fun h => h rfl, fun _ => rfl⟩
    cases s.armed <;> decide
  | some f =>
    by_cases hunread : f.unread = 0
    · rw [law.exhausted bad f found hunread]
      exact ⟨_, rfl, iff_of_false (by decide) fun h => h rfl, fun _ => rfl⟩
    · obtain ⟨b, reading, copied⟩ := law.copied bad f found hunread
      have hcode : 0 ≤ reading.code := Int32.le_iff_toInt_le.mpr copied.code_bounds.1
      refine ⟨reading, by rw [copied.run_eq], iff_of_true hcode ?_, fun hneg => ?_⟩
      · intro hsame
        have hget := copied.get?_eq (.ofRaw raw)
        rw [hsame, if_pos rfl, found, Option.some.injEq] at hget
        exact Nat.succ_ne_self f.cursor (congrArg Feed.cursor hget).symm
      · rw [Int32.lt_iff_toInt_lt, Int32.toInt_zero] at hneg
        exact absurd copied.code_bounds.1 (Int.not_le.mpr hneg)

/-- **A read looks at the destination, then at the handle, then at what is left**, whatever has
happened in the process before. It always answers; and the feed has come one buffer further exactly
if the code is not below zero. -/
theorem next_in_order (source : Source) (done : List Boundary.Step) (raw : UInt64)
    (d : Destination) :
    let s := (Boundary.start source).after done
    Next raw d s ∧
      ∃ reading, (next raw d s).ending = .value reading ∧
        (0 ≤ reading.code ↔ (next raw d s).state.table ≠ s.table) ∧
        (reading.code < 0 → reading.written = []) := by
  intro s
  have law : Next raw d s := next_of_held (Boundary.obtainable_after .empty done)
  exact ⟨law, law.nonneg_iff⟩

/-- Of the only buffer the destination takes one byte; and then nothing is left. -/
theorem next_in_order_cut :
    let made : List Boundary.Step := [.direct (.register 1 2)]
    let read : Boundary.Step := .fromC (.next 0x100000000 ⟨16, 1⟩)
    let s := (Boundary.start ⟨.counting 1 1, 0⟩).after made
    let t := (Boundary.start ⟨.counting 1 1, 0⟩).after (made ++ [read])
    (∃ reading, (next 0x100000000 ⟨16, 1⟩ s).ending = .value reading ∧ reading.code.toInt = 1 ∧
      reading.written = [1] ∧ (next 0x100000000 ⟨16, 1⟩ s).state.table.get? ⟨0, 1⟩ =
        some ⟨#[[1, 2]], 2, 1, .supplied⟩) ∧
    next 0x100000000 ⟨16, 1⟩ t = ⟨.value ⟨-1, []⟩, t, []⟩ := by
  intro made read s t
  have good : ¬ Destination.Bad ⟨16, 1⟩ := by decide
  obtain ⟨live, -⟩ := next_in_order ⟨.counting 1 1, 0⟩ made 0x100000000 ⟨16, 1⟩
  obtain ⟨finished, -⟩ := next_in_order ⟨.counting 1 1, 0⟩ (made ++ [read]) 0x100000000 ⟨16, 1⟩
  have found : s.table.get? (.ofRaw 0x100000000) = some ⟨#[[1, 2]], 2, 0, .supplied⟩ := by decide
  have found' : t.table.get? (.ofRaw 0x100000000) = some ⟨#[[1, 2]], 2, 1, .supplied⟩ := by decide
  obtain ⟨b, reading, copied⟩ := live.copied good _ found (by decide)
  obtain ⟨hb, -⟩ := copied.buffer
  cases hb
  have hcode : reading.code.toInt = 1 := copied.code_eq
  have hwritten : reading.written = [1] := by
    rw [copied.written_eq, hcode]
    rfl
  refine ⟨⟨reading, by rw [copied.run_eq], hcode, hwritten, copied.get?_eq ⟨0, 1⟩⟩, ?_⟩
  exact finished.exhausted good _ found' rfl

end CSurface

end BufferFeed

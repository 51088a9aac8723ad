import BufferFeed.Proofs.Boundary.Audit
import BufferFeed.Proofs.Boundary.Surfaces

/-!
# A feed that a C program drains

What the loop of a C program gets out of a live feed (`CSurface.Drained`), and what becomes of the
handle then (`CSurface.Exhausted`). The loop ends because asking and reading look at one cursor, and
each read moves it, one that copies nothing among them; it loses nothing because no read fails while
there is more.

That the feed has been read to its end is for good. Whatever happens to it later takes nothing from
it, for there is nothing ahead; so the handle answers the same until it is given up.
-/

namespace BufferFeed.CSurface

variable {raw : UInt64} {d : Nat → Destination} {s : Boundary} {f : Feed}

/-- What the loop over a feed comes to: it has these reads, and leaves the boundary that is named
last. -/
structure Drained (raw : UInt64) (d : Nat → Destination) (s : Boundary) (f : Feed)
    (readings : List Reading) (t : Boundary) : Prop where
  /-- The loop ends, in this way and in no other, and there is nothing to be watched of it. -/
  loop : ∀ rs u es, Loop raw d 0 s rs u es ↔ rs = readings ∧ u = t ∧ es = []
  /-- So does the loop that is one call. -/
  call : drain raw d s = ⟨.value readings, t, []⟩
  length_eq : readings.length = f.unread
  /-- Each read gets its buffer, as far as the destination has room for it. -/
  delivered : ∀ (i : Nat) (r : Reading), readings[i]? = some r →
    ∃ b, f.buffers[f.cursor + i]? = some b ∧ r.written = b.take (d i).room ∧
      r.code.toInt = min f.size (d i).room
  /-- Where there is room for all of each buffer, the loop gets what the feed's own loop gets. -/
  whole : (∀ i < f.unread, f.size ≤ (d i).room) →
    f.drain.1 = .ok (readings.map Reading.written).toArray
  finished : t.table.get? (.ofRaw raw) = some f.finished
  live_eq : t.live = s.live
  others : ∀ g, g ≠ .ofRaw raw → t.table.get? g = s.table.get? g

/-- What a handle answers whose feed has been read to its end. -/
structure Exhausted (raw : UInt64) (s : Boundary) : Prop where
  hasNext : hasNext raw s = ⟨.value 0, s, []⟩
  next : ∀ d : Destination, d.Valid → next raw d s = ⟨.value ⟨-1, []⟩, s, []⟩
  /-- A loop, whatever its destinations are, reads nothing. -/
  loop : ∀ d rs u es, Loop raw d 0 s rs u es ↔ rs = [] ∧ u = s ∧ es = []

/-- What the loop reads, each buffer into its own destination. -/
def readings (d : Nat → Destination) (f : Feed) : List Reading :=
  f.ahead.mapIdx fun i b => .ofBuffer (d i).room b

/-- The code of a read counts the bytes that it wrote. -/
theorem toInt_code_ofBuffer {e : Destination} (valid : e.Valid) (b : Bytes) :
    (Reading.ofBuffer e.room b).code.toInt = min b.length e.room := by
  have hlt : (b.take e.room).length < 2 ^ 31 :=
    Nat.lt_of_le_of_lt (List.length_take_le _ _) (capacity_lt (capacity?_of_valid valid))
  rw [Reading.ofBuffer, Int32.toInt_ofNat_of_lt hlt, List.length_take, Nat.min_comm]

theorem getElem?_readings {i : Nat} {r : Reading} (hr : (readings d f)[i]? = some r) :
    ∃ b, f.buffers[f.cursor + i]? = some b ∧ b ∈ f.ahead ∧ i < f.unread ∧
      r = .ofBuffer (d i).room b := by
  rw [readings, List.getElem?_mapIdx] at hr
  obtain ⟨b, hb, rfl⟩ := Option.map_eq_some_iff.mp hr
  obtain ⟨hi, -⟩ := List.getElem?_eq_some_iff.mp hb
  rw [Feed.length_ahead] at hi
  refine ⟨b, ?_, List.mem_of_getElem? hb, hi, rfl⟩
  rw [← Feed.getElem?_ahead]
  exact hb

/-- Where no buffer is cut short, what was written is what was ahead. -/
theorem written_readings (room : ∀ i b, f.ahead[i]? = some b → b.length ≤ (d i).room) :
    (readings d f).map Reading.written = f.ahead := by
  apply List.ext_getElem?
  intro i
  rw [List.getElem?_map, readings, List.getElem?_mapIdx, Option.map_map]
  cases hb : f.ahead[i]? with
  | none => rfl
  | some b =>
    rw [Option.map_some]
    exact congrArg some (List.take_of_length_le (room i b hb))

/-- **The loop over a live feed reads it to its end.** -/
theorem drained_of_get? (held : s.table.Holds Feed.Obtainable)
    (found : s.table.get? (.ofRaw raw) = some f) (valid : ∀ i < f.unread, (d i).Valid) :
    Drained raw d s f (readings d f) (drain raw d s).state := by
  have hcall := drain_of_valid found valid
  have hloop : Loop raw d 0 s (readings d f)
      { s with table := s.table.setContent (Handle.ofRaw raw).index (some f.finished) } [] := by
    have hvalid : ∀ i < f.unread, (d (0 + i)).Valid := by
      intro i hi
      rw [Nat.zero_add]
      exact valid i hi
    have h := loop_of_get? found hvalid
    simp only [Nat.zero_add] at h
    exact h
  rw [congrArg Run.state hcall]
  constructor
  case loop =>
    intro rs u es
    constructor
    · exact hloop.unique
    · rintro ⟨rfl, rfl, rfl⟩
      exact hloop
  case call => exact hcall
  case length_eq => rw [readings, List.length_mapIdx, Feed.length_ahead]
  case delivered =>
    intro i r hr
    obtain ⟨b, hb, hmem, hi, rfl⟩ := getElem?_readings hr
    refine ⟨b, hb, rfl, ?_⟩
    rw [toInt_code_ofBuffer (valid i hi), held.length_of_mem_ahead found hmem]
  case whole =>
    intro hroom
    rw [Feed.drain_eq, written_readings]
    intro i b hb
    obtain ⟨hi, -⟩ := List.getElem?_eq_some_iff.mp hb
    rw [Feed.length_ahead] at hi
    rw [held.length_of_mem_ahead found (List.mem_of_getElem? hb)]
    exact hroom i hi
  case finished =>
    rw [SlotTable.get?_setContent found, if_pos rfl]
  case live_eq => exact SlotTable.size_setContent _ _ _
  case others =>
    intro g hg
    rw [SlotTable.get?_setContent found, if_neg hg]

theorem exhausted_of_ahead_nil (found : s.table.get? (.ofRaw raw) = some f)
    (nothing : f.ahead = []) : Exhausted raw s := by
  have hmore := hasNext_of_get? found
  rw [Feed.hasMore_of_ahead_nil nothing, if_neg Bool.false_ne_true] at hmore
  refine ⟨hmore, ?_, ?_⟩
  · intro d valid
    exact next_of_ahead_nil found (capacity?_of_valid valid) nothing
  · intro d rs u es
    have hloop : Loop raw d 0 s [] s [] := .stop hmore (by decide)
    constructor
    · exact hloop.unique
    · rintro ⟨rfl, rfl, rfl⟩
      exact hloop

/-- **Once a feed is read to its end, it stays so** until its handle is given up. -/
theorem exhausted_after {steps : List Boundary.Step} (found : s.table.get? (.ofRaw raw) = some f)
    (nothing : f.ahead = []) (unissued : .ofRaw raw ∉ s.issued steps)
    (unreleased : .ofRaw raw ∉ s.released steps) : Exhausted raw (s.after steps) := by
  obtain ⟨g, hg, hread⟩ := Boundary.readOn_after found unissued unreleased
  have hsplit := hread.ahead_eq
  rw [nothing] at hsplit
  exact exhausted_of_ahead_nil hg (List.append_eq_nil_iff.mp hsplit.symm).2

/-- **Draining through the C surface ends and loses nothing.** The loop over a live feed makes one
read for each buffer ahead, in order, and each gets its buffer as far as its destination has room.
Afterwards there is nothing more, whatever happens, until the handle is given up. A step that is
issued the handle anew is none on another handle; before the indices are used up there is none
(`Boundary.unissued_of_unreleased`). -/
theorem drain_loses_nothing (source : Source) (done : List Boundary.Step) {raw : UInt64} {f : Feed}
    (d : Nat → Destination)
    (found : ((Boundary.start source).after done).table.get? (.ofRaw raw) = some f)
    (valid : ∀ i < f.unread, (d i).Valid) :
    let s := (Boundary.start source).after done
    let t := (drain raw d s).state
    Drained raw d s f (readings d f) t ∧
      ∀ later, .ofRaw raw ∉ t.issued later → .ofRaw raw ∉ t.released later →
        Exhausted raw (t.after later) := by
  intro s t
  have hdrained : Drained raw d s f (readings d f) t :=
    drained_of_get? (Boundary.obtainable_after .empty done) found valid
  exact ⟨hdrained, fun later => exhausted_after hdrained.finished f.ahead_finished⟩

/-- One feed of two buffers. -/
def stocked : Boundary := (Boundary.start ⟨.counting 1 1, 0⟩).after [.direct (.register 2 2)]

/-- Room for one byte at first, and then for none. -/
def scant (i : Nat) : Destination := if i = 0 then ⟨16, 1⟩ else ⟨0, 0⟩

/-- A buffer that is cut short and one that there is no room for are both read. Then another feed is
registered, and the drained one is lent out. -/
theorem drain_loses_nothing_scant :
    let t := (drain 0x100000000 scant stocked).state
    let later : List Boundary.Step := [.direct (.register 1 1), .direct (.lend ⟨0, 1⟩ .next)]
    stocked.table.get? (.ofRaw 0x100000000) = some ⟨#[[1, 2], [3, 4]], 2, 0, .supplied⟩ ∧
      Loop 0x100000000 scant 0 stocked [⟨1, [1]⟩, ⟨0, []⟩] t [] ∧
      (t.after later).live = 2 ∧ Exhausted 0x100000000 (t.after later) := by
  have found : stocked.table.get? (.ofRaw 0x100000000) =
      some ⟨#[[1, 2], [3, 4]], 2, 0, .supplied⟩ := by decide
  obtain ⟨hdrained, hafter⟩ := drain_loses_nothing ⟨.counting 1 1, 0⟩ [.direct (.register 2 2)]
    scant found (by decide)
  refine ⟨found, ?_, by decide, hafter _ (by decide) (by decide)⟩
  exact (hdrained.loop _ _ _).mpr ⟨rfl, rfl, rfl⟩

end BufferFeed.CSurface

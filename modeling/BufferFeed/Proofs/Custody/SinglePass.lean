import Mathlib.Data.List.Dedup
import BufferFeed.Proofs.Custody.Places
import BufferFeed.Proofs.Feed.Making

/-!
# A feed is read in one pass

However often a feed is taken out of the table, kept, read there and handed over again, under
whatever handles, and whatever happens to other feeds in between: its buffers come once each and in
the order in which they were drawn, and how it stands is settled by how many have come
(`read_in_one_pass`).

The law has two halves. A feed is never in two places, so that nobody reads it twice; and a read at
the place where it is takes what is ahead of it. For the first half the feeds are counted at all
places at once (`Accounted`), and the handles that were given up are no longer answered.
-/

namespace BufferFeed

/-- The names under which there is a feed. -/
def Shelf.names (s : Shelf) : List String := (s.entries.map Prod.fst).dedup

theorem Shelf.count_names (s : Shelf) (name : String) :
    s.names.count name = if (s.get? name).isSome then 1 else 0 := by
  have hiff : name ∈ s.entries.map Prod.fst ↔ (s.get? name).isSome = true := by
    simp only [get?, List.lookup_isSome_iff, List.mem_map, beq_iff_eq, eq_comm (a := name)]
  rw [names, List.count_dedup]
  simp only [hiff]

namespace Custody

variable {c : Custody} {f g : Feed} {q : Place} {count size : Nat} {got : List Bytes}

/-! ## How a feed stands -/

/-- How a feed stands at a place when so many of the buffers it was made with have been read. -/
structure Standing (c : Custody) (q : Place) (f g : Feed) (count size read : Nat) : Prop where
  found : c.feedAt? q = some g
  buffers_eq : g.buffers = f.buffers
  cursor_eq : g.cursor = read
  hasMore_eq : g.hasMore = decide (read < count)
  /-- What is unread is a difference that is exact. -/
  unread_eq : g.unread + read = count
  count_eq : g.count = count
  size_eq : g.size = size
  result_eq : ∀ step action, step.ask? = some (q, action) →
    (c.perform step).1.result? = some (g.perform action).1
  next_of_lt : read < count →
    ∃ b, f.buffers[read]? = some b ∧ (g.perform .next).1 = .ok (.buffer b)
  next_of_eq : read = count → (g.perform .next).1 = .error .exhausted
  /-- A read that fails changes nothing. -/
  unchanged_of_eq : read = count → ∀ step, step.ask? = some (q, .next) →
    (c.perform step).2.table = c.table ∧ (c.perform step).2.source = c.source ∧
      ∀ name, (c.perform step).2.kept.get? name = c.kept.get? name

theorem result?_of_ask? {step : Step} {action : Feed.Action} (found : c.feedAt? q = some g)
    (asked : step.ask? = some (q, action)) :
    (c.perform step).1.result? = some (g.perform action).1 := by
  cases step with
  | lend handle _ =>
    cases asked
    simp only [perform, SlotTable.lend_of_get? found]
    rfl
  | act name _ =>
    cases asked
    have hname : c.kept.get? name = some g := found
    simp only [perform, hname]
    rfl
  | _ => cases asked

/-- To ask a feed what does not change it changes nothing. -/
theorem unchanged_of_ask? {step : Step} {action : Feed.Action} (found : c.feedAt? q = some g)
    (asked : step.ask? = some (q, action)) (idle : (g.perform action).2 = g) :
    (c.perform step).2.table = c.table ∧ (c.perform step).2.source = c.source ∧
      ∀ name, (c.perform step).2.kept.get? name = c.kept.get? name := by
  cases step with
  | lend handle _ =>
    cases asked
    simp only [perform, SlotTable.lend_of_get? found, Feed.serve, idle]
    exact ⟨SlotTable.setContent_self found, trivial, fun _ => trivial⟩
  | act name _ =>
    cases asked
    have hname : c.kept.get? name = some g := found
    simp only [perform, hname, idle]
    refine ⟨trivial, trivial, fun other => ?_⟩
    rw [Shelf.get?_put]
    split
    · rename_i hother
      rw [hother, hname]
    · rfl
  | _ => cases asked

/-- What was read on from a feed that was just made is how far its cursor has come. -/
theorem standing_of_readOn {origin : Origin} {drawn rest : Source}
    (made : Feed.generate count size origin drawn = some (f, rest)) (moved : f.ReadOn got g)
    (found : c.feedAt? q = some g) : c.Standing q f g count size got.length := by
  have hbuffers := moved.buffers_eq
  have hcount : f.buffers.size = count := Feed.count_of_generate made
  have hcursor : g.cursor = got.length := by
    rw [moved.eq_moved, Feed.cursor_of_generate made, Nat.zero_add]
  have hahead : f.ahead.length = got.length + g.ahead.length := by
    rw [moved.ahead_eq, List.length_append]
  rw [Feed.length_ahead, Feed.length_ahead, Feed.unread, hcount, Feed.cursor_of_generate made,
    Nat.sub_zero] at hahead
  have hexhausted : got.length = count → g.next = (.error .exhausted, g) := by
    intro hread
    refine Feed.next_of_not_hasMore ?_
    rw [Feed.hasMore, hbuffers, hcount, hcursor, hread]
    exact decide_eq_false (Nat.lt_irrefl _)
  refine ⟨found, hbuffers, hcursor, ?_, ?_, ?_, moved.size_eq.trans (Feed.size_of_generate made),
    fun _ _ => result?_of_ask? found, ?_, ?_, ?_⟩
  · rw [Feed.hasMore, hbuffers, hcount, hcursor]
  · omega
  · rw [Feed.count, hbuffers, hcount]
  · intro hread
    obtain ⟨b, hb⟩ : ∃ b, f.buffers[got.length]? = some b :=
      ⟨_, Array.getElem?_eq_getElem (hcount.symm ▸ hread)⟩
    have hnext : g.next = (.ok b, { g with cursor := g.cursor + 1 }) :=
      Feed.next_eq_ok_iff.mpr ⟨by rw [hbuffers, hcursor, hb], rfl⟩
    refine ⟨b, hb, ?_⟩
    simp only [Feed.perform, hnext]
    rfl
  · intro hread
    simp only [Feed.perform, hexhausted hread]
    rfl
  · intro hread step asked
    refine unchanged_of_ask? found asked ?_
    simp only [Feed.perform, hexhausted hread]

/-! ## All feeds are accounted for -/

/-- The feeds of a run are in different places, and the table answers for those it was given and
has not given back. -/
structure Accounted (c : Custody) (places : List Place) (seen : List (Step × Reply)) : Prop where
  count_eq : ∀ x, x ≠ .dropped → places.count x = if (c.feedAt? x).isSome then 1 else 0
  issued_nodup : (seen.flatMap issued).Nodup
  released_nodup : (seen.flatMap released).Nodup
  released_subset : ∀ h ∈ seen.flatMap released, h ∈ seen.flatMap issued
  live_iff : ∀ h, (c.feedAt? (.live h)).isSome = true ↔
    h ∈ seen.flatMap issued ∧ h ∉ seen.flatMap released

/-- A feed that can be reached is one of those that are tallied. -/
theorem Tallies.exists_of_feedAt? {places : List Place} (l : c.Tallies places)
    (found : c.feedAt? q = some f) : ∃ i : Nat, places[i]? = some q := by
  refine List.mem_iff_getElem?.mp (List.count_pos_iff.mp ?_)
  rw [l q (ne_dropped found), found]
  exact Nat.one_pos

/-- The feeds that were made elsewhere are on the shelf. -/
theorem tallies_opening (kept : Shelf) (source : Source) :
    (opening kept source).Tallies (kept.names.map .kept) := by
  have hinj : Function.Injective Place.kept := fun _ _ h => Place.kept.inj h
  intro x hx
  cases x with
  | live h =>
    have hnot : .live h ∉ kept.names.map Place.kept := by
      rw [List.mem_map]
      rintro ⟨name, -, hname⟩
      cases hname
    rw [List.count_eq_zero.mpr hnot]
    simp only [feedAt?, opening, SlotTable.get?_empty, Option.isSome_none, Bool.false_eq_true,
      if_false]
  | kept name =>
    rw [List.count_map_of_injective _ _ hinj, Shelf.count_names]
    rfl
  | dropped => exact absurd rfl hx

theorem accounted_after (kept : Shelf) (source : Source) (steps : List Step)
    (room : ((opening kept source).after steps).table.slots.size < 2 ^ 32)
    (turns : ∀ i, (((opening kept source).trace steps).flatMap released).countP
      (fun h => h.index = i) < 2 ^ 32 - 1) :
    ((opening kept source).after steps).Accounted
      (whereabouts (kept.names.map .kept) ((opening kept source).trace steps))
      ((opening kept source).trace steps) := by
  have ledger := ((opening kept source).changes_after steps).ledger room turns
  have heffects := effects_after (c := opening kept source) .empty steps room
  refine ⟨heffects.tallies (tallies_opening kept source), ledger.issued_nodup,
    ledger.released_nodup, ?_, ledger.isSome_get?_iff⟩
  intro h hreleased
  obtain ⟨s, hs, hpast⟩ := (ledger.mem_released_iff h).mp hreleased
  exact (ledger.mem_issued_iff h).mpr ⟨s, hs, .inl hpast⟩

/-! ## One pass -/

/-- **A feed is read in one pass.** From wherever it is when it was made: the buffers that come of
it, wherever it is carried, are its first ones in order, and each of its size. Unless it was dropped
it is found where it was carried to, with its buffers as they were drawn, and all that it shows is
settled by how many have come: the next read gives the buffer of that number, or fails without a
trace when there is none. Of all feeds no two are in one place, and no handle is issued or given up
twice. -/
theorem read_in_one_pass (kept : Shelf) (source : Source) (earlier later : List Step) (p : Place)
    (count size : Nat) (origin : Origin) (drawn rest : Source) (f : Feed)
    (made : Feed.generate count size origin drawn = some (f, rest))
    (found : ((opening kept source).after earlier).feedAt? p = some f)
    (room : ((opening kept source).after (earlier ++ later)).table.slots.size < 2 ^ 32)
    (turns : ∀ i, (((opening kept source).trace (earlier ++ later)).flatMap released).countP
      (fun h => h.index = i) < 2 ^ 32 - 1) :
    let s := opening kept source
    let c := s.after (earlier ++ later)
    let seen := (s.after earlier).trace later
    let got := p.got seen
    let q := p.after seen
    let places := whereabouts (kept.names.map .kept)
    got = f.buffers.toList.take got.length ∧
    (∀ b ∈ got, b.length = size) ∧
    got.length ≤ count ∧
    (q ≠ .dropped → ∃ g, c.Standing q f g count size got.length) ∧
    c.Accounted (places (s.trace (earlier ++ later))) (s.trace (earlier ++ later)) ∧
    ∃ i : Nat, (places (s.trace earlier))[i]? = some p ∧
      (places (s.trace (earlier ++ later)))[i]? = some q := by
  intro s c seen got q places
  have hc : c = (s.after earlier).after later := after_append s earlier later
  have hfinal : ((s.after earlier).after later).table.slots.size < 2 ^ 32 := by
    rw [← hc]
    exact room
  have hroom := Nat.lt_of_le_of_lt ((s.after earlier).changes_after later).size_le hfinal
  have hearlier : (s.after earlier).table.WellFormed :=
    (s.changes_after earlier).wellFormed .empty hroom
  have htallies := (effects_after (c := s) .empty earlier hroom).tallies
    (tallies_opening kept source)
  obtain ⟨i, hi⟩ := htallies.exists_of_feedAt? found
  obtain ⟨g, hgot, hcarried⟩ := (effects_after hearlier later hfinal).readOn found
  have hrow : f.buffers.toList = got ++ g.ahead := by
    rw [← hgot.ahead_eq, Feed.ahead, Feed.cursor_of_generate made, List.drop_zero]
  have hlength : got.length + g.ahead.length = count := by
    rw [← List.length_append, ← hrow, Array.length_toList]
    exact Feed.count_of_generate made
  refine ⟨?_, ?_, ?_, ?_, accounted_after kept source _ room turns, i, hi, ?_⟩
  · rw [hrow, List.take_left]
  · intro b hb
    rw [(Feed.wellFormed_of_generate made).size_eq b, Feed.size_of_generate made]
    rw [← Array.mem_toList_iff, hrow]
    exact List.mem_append_left _ hb
  · omega
  · intro hq
    rw [hc]
    exact ⟨g, standing_of_readOn made hgot (hcarried.resolve_left hq)⟩
  · show (whereabouts (kept.names.map .kept) (s.trace (earlier ++ later)))[i]? = some q
    rw [trace_append, whereabouts, List.foldl_append]
    exact getElem?_whereabouts hi seen

/-- A feed of two buffers is read in the table, taken out and read outside, while another takes its
slot; handed over again it has no more, and its first handle is refused. -/
def roundTrip : List Step :=
  [.lend ⟨0, 1⟩ .next, .remove ⟨0, 1⟩ (some "a"), .act "a" .next, .insert 1 1, .reinsert "a",
    .lend ⟨0, 1⟩ .next, .lend ⟨0, 2⟩ .next, .lend ⟨1, 1⟩ .next]

theorem read_in_one_pass_roundTrip :
    let s := opening .empty ⟨.counting 1 1, 0⟩
    let seen := (s.after [.insert 2 1]).trace roundTrip
    (Place.live ⟨0, 1⟩).got seen = [[1], [2]] ∧ (Place.live ⟨0, 1⟩).after seen = .live ⟨1, 1⟩ ∧
      ∃ g, (s.after (.insert 2 1 :: roundTrip)).Standing (.live ⟨1, 1⟩)
        ⟨#[[1], [2]], 1, 0, .supplied⟩ g 2 1 2 := by
  intro s seen
  have hgot : (Place.live ⟨0, 1⟩).got seen = [[1], [2]] := by decide
  have hafter : (Place.live ⟨0, 1⟩).after seen = .live ⟨1, 1⟩ := by decide
  have turns : ∀ i, ((s.trace (.insert 2 1 :: roundTrip)).flatMap released).countP
      (fun h => h.index = i) < 2 ^ 32 - 1 := by
    intro i
    exact Nat.lt_of_le_of_lt List.countP_le_length (by decide)
  obtain ⟨-, -, -, hstanding, -⟩ := read_in_one_pass .empty ⟨.counting 1 1, 0⟩ [.insert 2 1]
    roundTrip (.live ⟨0, 1⟩) 2 1 .supplied ⟨.counting 1 1, 0⟩ ⟨.counting 1 1, 2⟩
    ⟨#[[1], [2]], 1, 0, .supplied⟩ rfl (by decide) (by decide) turns
  have hplace : (Place.live ⟨0, 1⟩).after seen ≠ .dropped := by
    rw [hafter]
    exact (nomatch ·)
  obtain ⟨g, hg⟩ := hstanding hplace
  refine ⟨hgot, hafter, g, ?_⟩
  have hstands : (s.after (.insert 2 1 :: roundTrip)).Standing ((Place.live ⟨0, 1⟩).after seen)
      ⟨#[[1], [2]], 1, 0, .supplied⟩ g 2 1 ((Place.live ⟨0, 1⟩).got seen).length := hg
  rw [hafter, hgot] at hstands
  exact hstands

end Custody

end BufferFeed

import Mathlib.Algebra.BigOperators.Fin
import Mathlib.Algebra.BigOperators.Ring.Finset
import Mathlib.Algebra.Order.Ring.Nat
import Mathlib.Algebra.Order.BigOperators.Group.List
import Mathlib.Order.Bounds.Basic
import BufferFeed.Survey.Report
import BufferFeed.Proofs.Feed.Reading

/-!
# A survey accounts for every byte

A tally has a count for each byte value. `Covers` says that the counts are those of the given bytes,
and every number in a report follows from it: the total is how many bytes there are, the weight is
their sum, and the least and the greatest count lie on either side of the even share. That a walk
covers all the buffers of its feed is one induction over the buffers, with the bytes of each counted
in turn (`covers_foldl_add`).

A report has statistics when there is a byte, and a preview when there is a buffer. These are not
the same: the buffers of a feed may be empty, and the preview of an empty buffer has no digits.

Counts, total and weight are natural numbers here. What a program adds up to them only grows, so
that the sums fit into 64 bits says that none of the steps to them overflows.
-/

namespace BufferFeed

/-- What `n` texts of one length come to. -/
theorem Bytes.length_flatten {n : Nat} {bs : List Bytes} (h : ∀ b ∈ bs, b.length = n) :
    bs.flatten.length = bs.length * n := by
  have hlengths : ∀ m ∈ bs.map List.length, m = n := by
    intro m hm
    obtain ⟨b, hb, rfl⟩ := List.mem_map.mp hm
    exact h b hb
  rw [List.length_flatten, List.sum_eq_card_nsmul _ n hlengths, List.length_map, smul_eq_mul]

/-- No byte is more than 255. -/
theorem Bytes.sum_toNat_le (bytes : Bytes) : (bytes.map UInt8.toNat).sum ≤ bytes.length * 255 := by
  have hle : ∀ n ∈ bytes.map UInt8.toNat, n ≤ 255 := by
    intro n hn
    obtain ⟨b, -, rfl⟩ := List.mem_map.mp hn
    exact Nat.le_of_lt_succ b.toNat_lt
  have hsum := List.sum_le_card_nsmul _ 255 hle
  rwa [List.length_map, smul_eq_mul] at hsum

/-- Bytes can be summed up value by value. -/
theorem Bytes.sum_map_toNat (bytes : Bytes) (g : Nat → Nat) :
    (bytes.map fun b => g b.toNat).sum =
      ∑ v : Fin 256, (bytes.map UInt8.toNat).count v.val * g v.val := by
  have hsum := Finset.sum_list_map_count (bytes.map UInt8.toNat) g
  rw [List.map_map] at hsum
  rw [Fin.sum_univ_eq_sum_range fun v => (bytes.map UInt8.toNat).count v * g v]
  refine hsum.trans (Finset.sum_subset ?_ ?_)
  · intro v hv
    obtain ⟨b, -, rfl⟩ := List.mem_map.mp (List.mem_toFinset.mp hv)
    exact Finset.mem_range.mpr b.toNat_lt
  · intro v _ hv
    rw [List.mem_toFinset, ← List.count_eq_zero] at hv
    rw [hv, smul_eq_mul, Nat.zero_mul]

/-- A byte is written as two numerals, the sixteens and the ones. -/
theorem Hex.pairs_eq_flatMap (bytes : Bytes) :
    Hex.pairs bytes =
      bytes.flatMap fun b => [Nat.digitChar (b.toNat / 16), Nat.digitChar (b.toNat % 16)] := by
  have hdigit : ∀ d : Fin 16, Hex.digit d = Nat.digitChar d := by decide
  induction bytes with
  | nil => rfl
  | cons b bytes ih =>
    have hb : b.toNat < 256 := b.toNat_lt
    rw [Hex.pairs, ih, List.flatMap_cons, hdigit ⟨b.toNat / 16, by omega⟩,
      hdigit ⟨b.toNat % 16, by omega⟩]
    rfl

namespace Survey

namespace Tally

variable {t : Tally} {bytes : Bytes} {i : Nat}

/-! ## Counting -/

/-- The counts are those of these bytes. -/
def Covers (t : Tally) (bytes : Bytes) : Prop :=
  ∀ (i : Nat) (_ : i < 256), t.counts[i] = (bytes.map UInt8.toNat).count i

theorem getElem_countByte (counts : Vector Nat 256) (b : UInt8) (hi : i < 256) :
    (countByte counts b)[i] = counts[i] + if b.toNat = i then 1 else 0 := by
  rw [countByte, Vector.getElem_set]
  split
  · rename_i h
    subst h
    rfl
  · rfl

theorem getElem_foldl_countByte (bytes : Bytes) (counts : Vector Nat 256) (hi : i < 256) :
    (bytes.foldl countByte counts)[i] = counts[i] + (bytes.map UInt8.toNat).count i := by
  induction bytes generalizing counts with
  | nil => rfl
  | cons b bytes ih =>
    rw [List.foldl_cons, ih, getElem_countByte counts b hi, List.map_cons, List.count_cons]
    simp only [beq_iff_eq]
    omega

theorem counts_foldl_add (buffers : List Bytes) (t : Tally) :
    (buffers.foldl add t).counts = buffers.flatten.foldl countByte t.counts := by
  induction buffers generalizing t with
  | nil => rfl
  | cons b buffers ih => rw [List.foldl_cons, ih, List.flatten_cons, List.foldl_append, add]

/-- The first buffer is kept, and none after it. -/
theorem first_foldl_add (buffers : List Bytes) (t : Tally) :
    (buffers.foldl add t).first = (t.first <|> buffers.head?) := by
  induction buffers generalizing t with
  | nil =>
    rw [List.foldl_nil]
    cases t.first <;> rfl
  | cons b buffers ih =>
    rw [List.foldl_cons, ih, add]
    cases t.first <;> rfl

/-- A count of the buffers can be kept beside their tally. -/
theorem foldl_add_counted (buffers : List Bytes) (n : Nat) (t : Tally) :
    buffers.foldl (fun s b => (s.1 + 1, s.2.add b)) (n, t) =
      (n + buffers.length, buffers.foldl add t) := by
  induction buffers generalizing n t with
  | nil => rfl
  | cons b buffers ih =>
    rw [List.foldl_cons, ih, List.foldl_cons, List.length_cons, Nat.add_assoc, Nat.add_comm 1]

/-- **A walk covers the bytes of all its buffers.** -/
theorem covers_foldl_add (buffers : List Bytes) :
    (buffers.foldl add empty).Covers buffers.flatten := by
  intro i hi
  simp only [counts_foldl_add, getElem_foldl_countByte _ _ hi, empty, Vector.getElem_replicate,
    Nat.zero_add]

/-! ## What the counts come to -/

theorem Covers.toList_counts (h : t.Covers bytes) :
    t.counts.toList = List.ofFn fun v : Fin 256 => (bytes.map UInt8.toNat).count v.val := by
  apply List.ext_getElem
  · rw [Vector.length_toList, List.length_ofFn]
  · intro i hi _
    rw [Vector.length_toList] at hi
    rw [Vector.getElem_toList, List.getElem_ofFn, h i hi]

theorem Covers.total_eq (h : t.Covers bytes) : t.total = bytes.length := by
  have hsum := Bytes.sum_map_toNat bytes fun _ => 1
  simp only [Nat.mul_one, List.map_const', List.sum_replicate, smul_eq_mul] at hsum
  rw [total, ← List.sum_eq_foldr, h.toList_counts, List.sum_ofFn, hsum]

theorem Covers.weight_eq (h : t.Covers bytes) : t.weight = (bytes.map UInt8.toNat).sum := by
  have hlist : (t.counts.toList.mapIdx fun value n => value * n) =
      List.ofFn fun v : Fin 256 => (bytes.map UInt8.toNat).count v.val * v.val := by
    rw [h.toList_counts]
    apply List.ext_getElem
    · rw [List.length_mapIdx, List.length_ofFn, List.length_ofFn]
    · intro i _ _
      rw [List.getElem_mapIdx, List.getElem_ofFn, List.getElem_ofFn, Nat.mul_comm]
  rw [weight, hlist, ← List.sum_eq_foldr, List.sum_ofFn]
  exact (Bytes.sum_map_toNat bytes id).symm

theorem Covers.getElem? (h : t.Covers bytes) (v : UInt8) :
    t.counts[v.toNat]? = some (bytes.count v) := by
  have hv : v.toNat < 256 := v.toNat_lt
  rw [Vector.getElem?_eq_getElem hv, h v.toNat hv,
    List.count_map_of_injective _ _ fun a b => UInt8.toNat_inj.mp]

/-- What occurs in the row of counts is how often some byte occurs. -/
theorem Covers.mem_counts_iff (h : t.Covers bytes) {n : Nat} :
    n ∈ t.counts.toList ↔ n ∈ Set.range fun v : UInt8 => bytes.count v := by
  rw [List.mem_iff_getElem?, Set.mem_range]
  constructor
  · rintro ⟨i, hi⟩
    rw [Vector.getElem?_toList] at hi
    obtain ⟨hlt, -⟩ := Vector.getElem?_eq_some_iff.mp hi
    have hv : (UInt8.ofNat i).toNat = i := UInt8.toNat_ofNat_of_lt' hlt
    rw [← hv, h.getElem?] at hi
    exact ⟨_, Option.some.inj hi⟩
  · rintro ⟨v, rfl⟩
    exact ⟨v.toNat, by rw [Vector.getElem?_toList, h.getElem?]⟩

theorem Covers.isLeast (h : t.Covers bytes) :
    IsLeast (Set.range fun v : UInt8 => bytes.count v) t.least := by
  cases hmin : t.counts.toList.min? with
  | none =>
    have hlength := t.counts.length_toList
    rw [List.min?_eq_none_iff.mp hmin] at hlength
    cases hlength
  | some m =>
    obtain ⟨hm, hle⟩ := List.min?_eq_some_iff.mp hmin
    rw [least, hmin, Option.getD_some]
    exact ⟨h.mem_counts_iff.mp hm, fun n hn => hle n (h.mem_counts_iff.mpr hn)⟩

theorem Covers.isGreatest (h : t.Covers bytes) :
    IsGreatest (Set.range fun v : UInt8 => bytes.count v) t.most := by
  cases hmax : t.counts.toList.max? with
  | none =>
    have hlength := t.counts.length_toList
    rw [List.max?_eq_none_iff.mp hmax] at hlength
    cases hlength
  | some m =>
    obtain ⟨hm, hle⟩ := List.max?_eq_some_iff.mp hmax
    rw [most, hmax, Option.getD_some]
    exact ⟨h.mem_counts_iff.mp hm, fun n hn => hle n (h.mem_counts_iff.mpr hn)⟩

/-- The rarest byte does not occur more often than on average. -/
theorem Covers.least_mul_le (h : t.Covers bytes) : t.least * 256 ≤ bytes.length := by
  have hsum := List.card_nsmul_le_sum t.counts.toList t.least
    fun n hn => h.isLeast.2 (h.mem_counts_iff.mp hn)
  rw [Vector.length_toList, smul_eq_mul, List.sum_eq_foldr] at hsum
  rw [← h.total_eq, Nat.mul_comm]
  exact hsum

/-- The commonest byte does not occur less often than on average. -/
theorem Covers.le_most_mul (h : t.Covers bytes) : bytes.length ≤ t.most * 256 := by
  have hsum := List.sum_le_card_nsmul t.counts.toList t.most
    fun n hn => h.isGreatest.2 (h.mem_counts_iff.mp hn)
  rw [Vector.length_toList, smul_eq_mul, List.sum_eq_foldr] at hsum
  rw [← h.total_eq, Nat.mul_comm]
  exact hsum

end Tally

/-! ## What a report says -/

variable {f : Feed}

/-- The tally of a whole feed. -/
def tallied (f : Feed) : Tally := f.buffers.toList.foldl Tally.add .empty

/-- All the bytes of a feed, in order. -/
def contents (f : Feed) : Bytes := f.buffers.toList.flatten

theorem length_contents (wellFormed : f.WellFormed) : (contents f).length = f.count * f.size := by
  rw [contents, Bytes.length_flatten fun b hb => wellFormed.size_eq b (Array.mem_toList_iff.mp hb)]
  rfl

/-- A survey of a fresh feed reads every buffer once. -/
theorem walk_counted (fresh : f.cursor = 0) :
    f.walk (fun s b => (s.1 + 1, s.2.add b)) (0, Tally.empty) =
      (.ok (f.count, tallied f), { f with cursor := f.count }) := by
  have hfinished : f.finished = { f with cursor := f.count } := by
    rw [Feed.finished, fresh, Nat.zero_max, Feed.count]
  rw [Feed.walk_eq, Feed.ahead_of_cursor_eq_zero fresh, Tally.foldl_add_counted, hfinished,
    Array.length_toList, Nat.zero_add]
  rfl

theorem ofFeed_of_fresh (fresh : f.cursor = 0) : Tally.ofFeed f = .ok (tallied f) := by
  rw [Tally.ofFeed, Feed.walk_eq, Feed.ahead_of_cursor_eq_zero fresh]
  rfl

theorem first_tallied (f : Feed) : (tallied f).first = f.buffers[0]? := by
  rw [tallied, Tally.first_foldl_add, List.head?_eq_getElem?, Array.getElem?_toList]
  rfl

/-- The preview of a feed's first buffer. -/
theorem preview_tallied (wellFormed : f.WellFormed) (h : 0 < f.buffers.size) :
    Report.preview ⟨f.count, f.size, tallied f⟩ =
      String.ofList ((f.buffers[0].take (min f.size 32)).flatMap fun b =>
        [Nat.digitChar (b.toNat / 16), Nat.digitChar (b.toNat % 16)]) := by
  have hlength : f.buffers[0].length = f.size := wellFormed.size_eq _ (Array.getElem_mem h)
  have htake : f.buffers[0].take Report.previewBytes = f.buffers[0].take (min f.size 32) := by
    rw [List.take_eq_take_iff, hlength, Report.previewBytes]
    omega
  rw [Report.preview, first_tallied, Array.getElem?_eq_getElem h, Option.getD_some, htake,
    Hex.ofBytes, Hex.pairs_eq_flatMap]

/-- The numbers of a tally, for a feed of which every byte was counted. -/
structure Accounted (f : Feed) (t : Tally) : Prop where
  total_eq : t.total = f.count * f.size
  counts_eq : ∀ v : UInt8, t.counts[v.toNat]? = some ((contents f).count v)
  weight_eq : t.weight = ((contents f).map UInt8.toNat).sum
  weight_le : t.weight ≤ 255 * (f.count * f.size)
  isLeast : IsLeast (Set.range fun v : UInt8 => (contents f).count v) t.least
  isGreatest : IsGreatest (Set.range fun v : UInt8 => (contents f).count v) t.most
  /-- The even share is at least the least count and at most the greatest. -/
  share : t.least * 256 ≤ f.count * f.size ∧ f.count * f.size ≤ t.most * 256

theorem accounted_tallied (wellFormed : f.WellFormed) : Accounted f (tallied f) := by
  have hcovers : (tallied f).Covers (contents f) := Tally.covers_foldl_add _
  have hlength := length_contents wellFormed
  exact {
    total_eq := hcovers.total_eq.trans hlength
    counts_eq := hcovers.getElem?
    weight_eq := hcovers.weight_eq
    weight_le := by
      rw [hcovers.weight_eq, ← hlength, Nat.mul_comm]
      exact Bytes.sum_toNat_le _
    isLeast := hcovers.isLeast
    isGreatest := hcovers.isGreatest
    share := hlength ▸ ⟨hcovers.least_mul_le, hcovers.le_most_mul⟩ }

theorem total_tallied_pos (wellFormed : f.WellFormed) :
    0 < (tallied f).total ↔ 0 < f.count ∧ 0 < f.size := by
  rw [(accounted_tallied wellFormed).total_eq]
  simp only [Nat.pos_iff_ne_zero, Nat.mul_ne_zero_iff]

theorem isSome_first_tallied : (tallied f).first.isSome ↔ 0 < f.count := by
  rw [first_tallied, isSome_getElem?]
  rfl

/-- **A survey accounts for every byte.** A feed of which nothing was read yet is read to its end,
one buffer after the other, without a failure. The tally is then that of all its bytes, its sums fit
into 64 bits when there are fewer than `2 ^ 56` bytes, and the report has the mean, the least and
the greatest count when there is a byte, and the preview when there is a buffer, be it empty. -/
theorem every_byte_accounted_for {f : Feed} (fresh : f.cursor = 0) (wellFormed : f.WellFormed)
    (small : f.count * f.size < 2 ^ 56) (generatedIn drainedIn : Nat) :
    ∃ tally : Tally,
      f.walk (fun s b => (s.1 + 1, s.2.add b)) (0, Tally.empty) =
          (.ok (f.count, tally), { f with cursor := f.count }) ∧
        Accounted f tally ∧ tally.total < 2 ^ 64 ∧ tally.weight < 2 ^ 64 ∧
        let outcome := Outcome.ofDrawn f.count f.size (some f)
        let report : Report := ⟨f.count, f.size, tally⟩
        let mean := tally.weight.toUInt64.toFloat / tally.total.toUInt64.toFloat
        outcome = .report report ∧ outcome.complaint? = none ∧
          outcome.lines (fun r => r.figures generatedIn drainedIn) =
            ("generated " ++ toString f.count ++ " x " ++ toString f.size ++ " bytes in " ++
              spanText generatedIn ++ ", drained in " ++ spanText drainedIn)
              :: (if 0 < f.count ∧ 0 < f.size then
                ["mean byte " ++ Decimal.twoPlaces mean ++ " (uniform is 127.50), bucket counts " ++
                  toString tally.least ++ ".." ++ toString tally.most]
              else [])
              ++ (if h : 0 < f.count then
                ["first buffer: " ++ String.ofList ((f.buffers[0].take (min f.size 32)).flatMap
                  fun b => [Nat.digitChar (b.toNat / 16), Nat.digitChar (b.toNat % 16)])]
              else []) := by
  have haccounted := accounted_tallied wellFormed
  have htotal := haccounted.total_eq
  have hweight := haccounted.weight_le
  have houtcome : Outcome.ofDrawn f.count f.size (some f) =
      .report ⟨f.count, f.size, tallied f⟩ := by
    rw [Outcome.ofDrawn, ofFeed_of_fresh fresh]
  refine ⟨tallied f, walk_counted fresh, haccounted, by omega, by omega, houtcome, ?_, ?_⟩
  · rw [houtcome]
    rfl
  · simp only [houtcome, Outcome.lines, Report.lines, total_tallied_pos wellFormed,
      isSome_first_tallied]
    congr 1
    split
    · rename_i h
      rw [Report.previewLine, Report.figures, preview_tallied wellFormed h]
    · rfl

/-- Two buffers of two bytes: four bytes in all, and the preview shows the first two. -/
theorem every_byte_accounted_for_couple :
    let f : Feed := ⟨#[[1, 2], [3, 255]], 2, 0, .supplied⟩
    f.cursor = 0 ∧ f.WellFormed ∧ f.count * f.size < 2 ^ 56 ∧
      ∃ tally : Tally, Outcome.ofDrawn 2 2 (some f) = .report ⟨2, 2, tally⟩ ∧
        tally.total = 4 ∧ tally.weight = 261 ∧
        ((Outcome.ofDrawn 2 2 (some f)).lines fun r => r.figures 0 0).getLast? =
          some "first buffer: 0102" := by
  have wellFormed : Feed.WellFormed ⟨#[[1, 2], [3, 255]], 2, 0, .supplied⟩ :=
    ⟨Nat.zero_le _, by decide⟩
  obtain ⟨tally, -, haccounted, -, -, houtcome, -, hlines⟩ :=
    every_byte_accounted_for rfl wellFormed (by decide) 0 0
  refine ⟨rfl, wellFormed, by decide, tally, houtcome, haccounted.total_eq,
    haccounted.weight_eq, ?_⟩
  refine (congrArg List.getLast? hlines).trans ?_
  rfl

end Survey

end BufferFeed

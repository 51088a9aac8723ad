import Mathlib.Algebra.Order.Floor.Div
import BufferFeed.Feed

/-!
# What a feed is made of

A feed takes its buffers from a source one after the other, and each of them starts at a fresh word:
what a fill leaves of its last word is dropped. So where the bytes of a buffer stand in the stream
follows from the position at which the feed was begun and from the buffer's number
(`Source.draw_eq`), and a feed moves its source on by whole words, so many for each buffer.

`generate_eq_some_iff` says all that making a feed can do.
-/

namespace BufferFeed

namespace WordStream

/-- The first `n` bytes of the words from word `k` on. -/
def bytesFrom (s : WordStream) (k n : Nat) : Bytes :=
  ((List.range' k (n ⌈/⌉ s.width)).flatMap s.word).take n

theorem cover_eq_ceilDiv (s : WordStream) (n : Nat) : s.cover n = n ⌈/⌉ s.width :=
  (Nat.ceilDiv_eq_add_pred_div n s.width).symm

end WordStream

namespace Source

/-- The source so many words further on. -/
def skip (s : Source) (k : Nat) : Source := { s with position := s.position + k }

@[simp]
theorem skip_zero (s : Source) : s.skip 0 = s := rfl

@[simp]
theorem skip_skip (s : Source) (j k : Nat) : (s.skip j).skip k = s.skip (j + k) := by
  simp only [skip, Nat.add_assoc]

@[simp]
theorem stream_skip (s : Source) (k : Nat) : (s.skip k).stream = s.stream := rfl

theorem fill_eq (s : Source) (n : Nat) :
    s.fill n = (s.stream.bytesFrom s.position n, s.skip (n ⌈/⌉ s.stream.width)) := by
  simp only [fill, WordStream.words_eq, WordStream.cover_eq_ceilDiv, WordStream.bytesFrom, skip]

/-- **Every buffer that is drawn starts at a fresh word**, the first at the source's position. -/
theorem draw_eq (s : Source) (size count : Nat) (drawn : Array Bytes) :
    s.draw size count drawn =
      (drawn ++ Array.ofFn fun i : Fin count =>
        s.stream.bytesFrom (s.position + i * (size ⌈/⌉ s.stream.width)) size,
      s.skip (count * (size ⌈/⌉ s.stream.width))) := by
  -- by induction on the buffers to come; the first of them moves the others on
  induction count generalizing s drawn with
  | zero => simp only [draw, Array.ofFn_zero, Array.append_empty, Nat.zero_mul, skip_zero]
  | succ count ih =>
    simp only [draw, fill_eq, ih, stream_skip, skip_skip, Prod.mk.injEq]
    refine ⟨?_, ?_⟩
    · apply Array.toList_inj.mp
      simp only [Array.toList_append, Array.toList_push, Array.toList_ofFn, List.ofFn_succ,
        List.append_assoc, List.singleton_append, Fin.val_zero, Nat.zero_mul, Nat.add_zero,
        Fin.val_succ, skip, Nat.succ_mul]
      congr 2
      refine congrArg List.ofFn (funext fun i => ?_)
      rw [Nat.add_assoc, Nat.add_comm (size ⌈/⌉ s.stream.width)]
    · rw [Nat.succ_mul, Nat.add_comm]

end Source

namespace Feed

variable {count size : Nat} {origin : Origin} {source rest : Source} {f : Feed}

/-- **What making a feed comes to**, when it is not refused. -/
theorem generate_eq_some_iff :
    generate count size origin source = some (f, rest) ↔
      Fits count size ∧
        f = ⟨Array.ofFn fun i : Fin count =>
          source.stream.bytesFrom (source.position + i * (size ⌈/⌉ source.stream.width)) size,
          size, 0, origin⟩ ∧
        rest = source.skip (count * (size ⌈/⌉ source.stream.width)) := by
  simp only [generate, Source.draw_eq, Array.empty_append, Option.ite_none_right_eq_some,
    Option.some.injEq, Prod.mk.injEq, eq_comm (a := f), eq_comm (a := rest)]

/-- All of a feed that was just made is ahead. -/
theorem cursor_of_generate (h : generate count size origin source = some (f, rest)) :
    f.cursor = 0 := by
  obtain ⟨-, rfl, -⟩ := generate_eq_some_iff.mp h
  rfl

/-- A feed from entropy is one that was generated. -/
theorem exists_generate_of_ofEntropy {key : Keystream.Key}
    (h : ofEntropy count size key = some f) :
    ∃ rest, generate count size .entropy (Source.ofKey key) = some (f, rest) := by
  obtain ⟨made, hmade, rfl⟩ := Option.map_eq_some_iff.mp h
  exact ⟨made.2, hmade⟩

theorem ofEntropy_eq_none_iff {key : Keystream.Key} :
    ofEntropy count size key = none ↔ ¬ Fits count size := by
  rw [ofEntropy, Option.map_eq_none_iff, generate_eq_none_iff]

theorem count_of_generate (h : generate count size origin source = some (f, rest)) :
    f.count = count := by
  obtain ⟨-, rfl, -⟩ := generate_eq_some_iff.mp h
  exact Array.size_ofFn

theorem size_of_generate (h : generate count size origin source = some (f, rest)) :
    f.size = size := by
  obtain ⟨-, rfl, -⟩ := generate_eq_some_iff.mp h
  rfl

/-- **Where the bytes of a buffer come from.** -/
theorem getElem?_buffers_of_generate (h : generate count size origin source = some (f, rest))
    {i : Nat} (hi : i < count) :
    f.buffers[i]? =
      some
        (source.stream.bytesFrom (source.position + i * (size ⌈/⌉ source.stream.width)) size) := by
  obtain ⟨-, rfl, -⟩ := generate_eq_some_iff.mp h
  rw [Array.getElem?_ofFn, dif_pos hi]

end Feed

end BufferFeed

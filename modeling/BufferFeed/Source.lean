import BufferFeed.Source.Keystream

/-!
# Sources of bytes

A source is an endless stream of words and a position in it. Every word of a stream has the same
width in bytes. To fill `n` bytes, a source takes as many words as cover them, writes each word's
bytes in order and **drops what is left of the last one**: the next fill starts at a fresh word. So
the position counts words, never bytes, and a fill of nothing takes nothing.

What the words are does not matter for any of this. Four streams are at hand: two of single bytes,
one of double words, and the keystream. Which stream a feed was filled from is not recorded in the
feed.
-/

namespace BufferFeed

/-- An endless stream of words of one width. A run of words may be made in another way than word by
word, as long as it comes to the same bytes. -/
structure WordStream where
  /-- Bytes in a word. -/
  width : Nat
  width_pos : 0 < width
  /-- The bytes of word `k`. -/
  word : Nat → Bytes
  length_word : ∀ k, (word k).length = width
  /-- The bytes of the `n` words from word `k` on. -/
  words : Nat → Nat → Bytes
  words_eq : ∀ k n, words k n = (List.range' k n).flatMap word

namespace WordStream

attribute [simp] length_word

/-! ## The streams at hand -/

/-- A stream that is made word by word. -/
def ofWord {width : Nat} (width_pos : 0 < width) (word : Nat → Bytes)
    (length_word : ∀ k, (word k).length = width) : WordStream where
  width := width
  width_pos := width_pos
  word := word
  length_word := length_word
  words k n := (List.range' k n).flatMap word
  words_eq _ _ := rfl

/-- Single bytes counting up from `start` by `step`, around the byte. -/
def counting (start step : UInt8) : WordStream :=
  ofWord Nat.one_pos (fun k => [start + UInt8.ofNat k * step]) fun _ => rfl

/-- The bytes of `data` over and over; zeros if there are none. -/
def repeating (data : Bytes) : WordStream :=
  ofWord Nat.one_pos (fun k => [data.getD (k % data.length) 0]) fun _ => rfl

/-- Double words counting up from `start` by `step`, around the double word. -/
def arithmetic (start step : UInt64) : WordStream :=
  ofWord (Nat.zero_lt_succ 7) (fun k => Bytes.ofWord64 (start + UInt64.ofNat k * step))
    fun _ => rfl

/-- The words of the keystream generator under a key, each block of them computed once. -/
def keystream (key : Keystream.Key) : WordStream where
  width := 4
  width_pos := Nat.zero_lt_succ 3
  word k := Bytes.ofWord32 (Keystream.word key k)
  length_word _ := rfl
  words k n := (Keystream.words key k n).flatMap Bytes.ofWord32
  words_eq k n := by
    rw [Keystream.words_eq_map_word, List.flatMap_map]

/-! ## Runs of words -/

/-- A run of words has all their bytes. -/
@[simp]
theorem length_words (s : WordStream) (k n : Nat) : (s.words k n).length = n * s.width := by
  rw [words_eq]
  induction n generalizing k with
  | zero => simp
  | succ n ih => simp [List.range'_succ, ih, Nat.succ_mul, Nat.add_comm]

/-- How many words cover `n` bytes. -/
def cover (s : WordStream) (n : Nat) : Nat := (n + s.width - 1) / s.width

theorem le_cover_mul_width (s : WordStream) (n : Nat) : n ≤ s.cover n * s.width := by
  have hsplit := Nat.div_add_mod' (n + s.width - 1) s.width
  have hrest := Nat.mod_lt (n + s.width - 1) s.width_pos
  rw [cover]
  omega

@[simp]
theorem cover_zero (s : WordStream) : s.cover 0 = 0 := by
  have hpos := s.width_pos
  exact Nat.div_eq_of_lt (by omega)

end WordStream

/-- A stream and the number of its words already taken. -/
structure Source where
  stream : WordStream
  position : Nat := 0

namespace Source

/-- The source that a key seeds, at its start. -/
def ofKey (key : Keystream.Key) : Source := ⟨.keystream key, 0⟩

/-- The next `n` bytes, and the source behind the words that were taken for them. -/
def fill (s : Source) (n : Nat) : Bytes × Source :=
  let taken := s.stream.cover n
  ((s.stream.words s.position taken).take n, { s with position := s.position + taken })

@[simp]
theorem length_fill (s : Source) (n : Nat) : (s.fill n).1.length = n := by
  simp [fill, List.length_take, s.stream.le_cover_mul_width n]

@[simp]
theorem fill_zero (s : Source) : s.fill 0 = ([], s) := by simp [fill]

/-- `count` fills of `size` bytes, one after the other, put behind the buffers already drawn. -/
def draw (s : Source) (size : Nat) : Nat → Array Bytes → Array Bytes × Source
  | 0, drawn => (drawn, s)
  | count + 1, drawn =>
    let (buffer, s) := s.fill size
    s.draw size count (drawn.push buffer)

/-- Drawing adds as many buffers as were asked for. -/
@[simp]
theorem size_draw (s : Source) (size count : Nat) (drawn : Array Bytes) :
    (s.draw size count drawn).1.size = drawn.size + count := by
  induction count generalizing s drawn with
  | zero => rfl
  | succ count ih => simp only [draw, ih, Array.size_push]; omega

/-- Drawing adds only buffers of the size asked for. -/
theorem length_of_mem_draw {s : Source} {size count : Nat} {drawn : Array Bytes}
    (h : ∀ b ∈ drawn, b.length = size) : ∀ b ∈ (s.draw size count drawn).1, b.length = size := by
  induction count generalizing s drawn with
  | zero => exact h
  | succ count ih =>
    refine ih fun b hb => ?_
    rcases Array.mem_push.mp hb with hb | rfl
    · exact h b hb
    · exact length_fill s size

end Source

end BufferFeed

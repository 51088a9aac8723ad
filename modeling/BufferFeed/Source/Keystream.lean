import BufferFeed.Bytes

/-!
# The keystream generator

A 256-bit key determines an endless stream of 32-bit words. The stream is made of blocks of sixteen
words; block `k` is the ChaCha permutation with twelve rounds of the matrix

    constants
    key, first half
    key, second half
    counter low, counter high, 0, 0

added to that matrix, where the 64-bit counter is `k`. Rounds are written on whole rows: a round
mixes the four columns at once, and between two rounds the rows are turned against each other so
that the diagonals stand in the columns.

`word` says what the stream is, one word at a time. `words` computes a run of it block by block;
`words_eq_map_word` is why the two may be used for each other. What is not claimed anywhere is that
the stream looks random.
-/

namespace BufferFeed.Keystream

/-- The word turned left by `k` bits. -/
def rotate (w k : UInt32) : UInt32 := w <<< k ||| w >>> (32 - k)

/-! ## Rows and matrices -/

structure Row where
  a : UInt32
  b : UInt32
  c : UInt32
  d : UInt32
deriving DecidableEq, Repr

namespace Row

def map (f : UInt32 → UInt32) (r : Row) : Row := ⟨f r.a, f r.b, f r.c, f r.d⟩

def zip (f : UInt32 → UInt32 → UInt32) (r s : Row) : Row :=
  ⟨f r.a s.a, f r.b s.b, f r.c s.c, f r.d s.d⟩

/-- Every lane takes the next lane's word. -/
def turn (r : Row) : Row := ⟨r.b, r.c, r.d, r.a⟩

def toList (r : Row) : List UInt32 := [r.a, r.b, r.c, r.d]

end Row

structure Matrix where
  top : Row
  upper : Row
  lower : Row
  bottom : Row
deriving DecidableEq, Repr

namespace Matrix

/-- One round on the four columns. -/
def mix (m : Matrix) : Matrix :=
  let top := m.top.zip (· + ·) m.upper
  let bottom := (m.bottom.zip (· ^^^ ·) top).map (rotate · 16)
  let lower := m.lower.zip (· + ·) bottom
  let upper := (m.upper.zip (· ^^^ ·) lower).map (rotate · 12)
  let top := top.zip (· + ·) upper
  let bottom := (bottom.zip (· ^^^ ·) top).map (rotate · 8)
  let lower := lower.zip (· + ·) bottom
  let upper := (upper.zip (· ^^^ ·) lower).map (rotate · 7)
  ⟨top, upper, lower, bottom⟩

/-- Brings the diagonals into the columns. -/
def shear (m : Matrix) : Matrix :=
  ⟨m.top, m.upper.turn, m.lower.turn.turn, m.bottom.turn.turn.turn⟩

/-- Brings the diagonals back. -/
def unshear (m : Matrix) : Matrix :=
  ⟨m.top, m.upper.turn.turn.turn, m.lower.turn.turn, m.bottom.turn⟩

/-- A round on the columns, then one on the diagonals. -/
def doubleRound (m : Matrix) : Matrix := m.mix.shear.mix.unshear

/-- Twelve rounds. -/
def permute (m : Matrix) : Matrix :=
  m.doubleRound.doubleRound.doubleRound.doubleRound.doubleRound.doubleRound

def add (m n : Matrix) : Matrix :=
  ⟨m.top.zip (· + ·) n.top, m.upper.zip (· + ·) n.upper, m.lower.zip (· + ·) n.lower,
    m.bottom.zip (· + ·) n.bottom⟩

def toList (m : Matrix) : List UInt32 :=
  m.top.toList ++ m.upper.toList ++ m.lower.toList ++ m.bottom.toList

end Matrix

/-! ## Keys -/

/-- The eight words of a key. -/
structure Key where
  first : Row
  second : Row
deriving DecidableEq, Repr

namespace Key

/-- The key that 32 bytes spell; a shorter string counts as padded with zeros. -/
def ofBytes (bs : Bytes) : Key :=
  ⟨⟨bs.word32At 0, bs.word32At 4, bs.word32At 8, bs.word32At 12⟩,
    ⟨bs.word32At 16, bs.word32At 20, bs.word32At 24, bs.word32At 28⟩⟩

/-- The congruential step that a short seed is stretched with. -/
def stretch (s : UInt64) : UInt64 := s * 6364136223846793005 + 11634580027462260723

/-- The word shown for a state of the stretching generator: the high bits folded together and
turned right by the topmost five. -/
def shown (s : UInt64) : UInt32 :=
  let folded : UInt32 := (((s >>> 18) ^^^ s) >>> 27).toUInt32
  let turns : UInt32 := (s >>> 59).toUInt32
  rotate folded (32 - turns)

/-- The key that a 64-bit seed stands for: eight states of the stretching generator, each as the
word it shows. -/
def ofSeed (seed : UInt64) : Key :=
  let s₀ := stretch seed
  let s₁ := stretch s₀
  let s₂ := stretch s₁
  let s₃ := stretch s₂
  let s₄ := stretch s₃
  let s₅ := stretch s₄
  let s₆ := stretch s₅
  let s₇ := stretch s₆
  ⟨⟨shown s₀, shown s₁, shown s₂, shown s₃⟩, ⟨shown s₄, shown s₅, shown s₆, shown s₇⟩⟩

end Key

/-! ## The stream -/

/-- The row every matrix starts with: the text `expand 32-byte k` as four words. -/
def constants : Row := ⟨0x61707865, 0x3320646e, 0x79622d32, 0x6b206574⟩

def start (key : Key) (counter : UInt64) : Matrix :=
  ⟨constants, key.first, key.second, ⟨counter.toUInt32, (counter >>> 32).toUInt32, 0, 0⟩⟩

/-- The sixteen words of one block. -/
def block (key : Key) (k : Nat) : List UInt32 :=
  let m := start key (UInt64.ofNat k)
  (m.permute.add m).toList

@[simp]
theorem length_block (key : Key) (k : Nat) : (block key k).length = 16 := rfl

/-- Word `k` of the stream. -/
def word (key : Key) (k : Nat) : UInt32 := (block key (k / 16)).getD (k % 16) 0

/-- The `n` words from word `k` on, each block computed once. -/
def words (key : Key) (k n : Nat) : List UInt32 :=
  (((List.range' (k / 16) ((k % 16 + n + 15) / 16)).flatMap (block key)).drop (k % 16)).take n

/-- A run of whole blocks, word by word. -/
theorem getElem?_blocks (key : Key) (b m i : Nat) (h : i < 16 * m) :
    ((List.range' b m).flatMap (block key))[i]? = some (word key (16 * b + i)) := by
  induction m generalizing b i with
  | zero => omega
  | succ m ih =>
    rw [List.range'_succ, List.flatMap_cons]
    by_cases hi : i < 16
    · rw [List.getElem?_append_left (by simpa using hi)]
      have hq : (16 * b + i) / 16 = b := by omega
      have hr : (16 * b + i) % 16 = i := by omega
      have hb : i < (block key b).length := hi
      simp [word, hq, hr, List.getElem?_eq_getElem hb]
    · rw [List.getElem?_append_right (by simp; omega), length_block, ih (b + 1) (i - 16) (by omega)]
      congr 2
      omega

/-- **A run of the stream is its words in order.** -/
theorem words_eq_map_word (key : Key) (k n : Nat) :
    words key k n = (List.range' k n).map (word key) := by
  apply List.ext_getElem?
  intro i
  unfold words
  by_cases hi : i < n
  · rw [List.getElem?_take_of_lt hi, List.getElem?_drop, getElem?_blocks _ _ _ _ (by omega)]
    rw [List.getElem?_map, List.getElem?_range' hi, Option.map_some]
    congr 2
    omega
  · rw [List.getElem?_take_eq_none (by omega), List.getElem?_eq_none (by simp; omega)]

end BufferFeed.Keystream

import BufferFeed.Failure

/-!
# Integer ranges

A machine integer type is the interval of integers it holds. Bringing an integer into a type is
the identity on that interval (`fit_eq_ok_iff`) and a refusal outside it, and the refusal says on
which side the integer fell. Nothing is wrapped or clamped.
-/

namespace BufferFeed

structure IntRange where
  least : Int
  greatest : Int
deriving DecidableEq, Repr

namespace IntRange

/-- The integers of a type without sign. -/
def unsigned (bits : Nat) : IntRange := ⟨0, (1 <<< bits : Nat) - 1⟩

/-- The integers of a two's-complement type. -/
def signed (bits : Nat) : IntRange :=
  ⟨-(1 <<< (bits - 1) : Nat), (1 <<< (bits - 1) : Nat) - 1⟩

/-- The integer itself, when the range holds it. -/
def fit (r : IntRange) (n : Int) : Except Failure Int :=
  if n < r.least then .error (.invalid "number too small to fit in target type")
  else if r.greatest < n then .error (.invalid "number too large to fit in target type")
  else .ok n

theorem fit_eq_ok_iff (r : IntRange) (n m : Int) :
    r.fit n = .ok m ↔ n = m ∧ r.least ≤ n ∧ n ≤ r.greatest := by
  unfold fit
  split
  · simp; omega
  · split
    · simp; omega
    · simp; omega

/-- A number of things or of bytes, as a 64-bit machine counts them. -/
def size (n : Int) : Except Failure Nat := (unsigned 64).fit n |>.map Int.toNat

theorem size_of_nonneg {n : Int} (h : 0 ≤ n) (hle : n ≤ (unsigned 64).greatest) :
    size n = .ok n.toNat := by
  have hfit : (unsigned 64).fit n = .ok n := ((unsigned 64).fit_eq_ok_iff n n).mpr ⟨rfl, h, hle⟩
  rw [size, hfit]
  rfl

theorem size_of_int32 {n : Int32} (h : 0 ≤ n) : size n.toInt = .ok n.toInt.toNat :=
  size_of_nonneg (Int32.le_iff_toInt_le.mp h) (Int.le_trans n.toInt_le (by decide))

theorem size_of_int64 {n : Int64} (h : 0 ≤ n) : size n.toInt = .ok n.toInt.toNat :=
  size_of_nonneg (Int64.le_iff_toInt_le.mp h) (Int.le_trans n.toInt_le (by decide))

/-- Nothing is counted by a number below zero. -/
theorem size_of_neg {n : Int} (h : n < 0) :
    size n = .error (.invalid "number too small to fit in target type") := by
  have hsmall : n < (unsigned 64).least := h
  rw [size, fit, if_pos hsmall]
  rfl

end IntRange

end BufferFeed

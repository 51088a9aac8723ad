import Mathlib.Algebra.Group.Nat.Defs
import BufferFeed.Handle

/-!
# The machine notations of a handle

A handle and its raw value determine each other, in both directions and for every value: whatever 64
bits a client passes in name exactly one handle, live or not, and give them back. The signed word is
the same bits.
-/

namespace BufferFeed.Handle

/-- The raw value as a number: the generation counts in units of `2 ^ 32`. -/
theorem toNat_raw (h : Handle) : h.raw.toNat = h.generation.toNat * 2 ^ 32 + h.index.toNat := by
  have hi : h.index.toNat < 2 ^ 32 := h.index.toNat_lt
  have hg : h.generation.toNat < 2 ^ 32 := h.generation.toNat_lt
  have hamount : UInt64.toNat 32 % 64 = 32 := rfl
  have hshift : (h.generation.toUInt64 <<< 32).toNat = h.generation.toNat <<< 32 := by
    rw [UInt64.toNat_shiftLeft, UInt32.toNat_toUInt64, hamount, Nat.shiftLeft_eq]
    exact Nat.mod_eq_of_lt (by omega)
  rw [raw, UInt64.toNat_or, hshift, UInt32.toNat_toUInt64, ← Nat.shiftLeft_add_eq_or_of_lt hi,
    Nat.shiftLeft_eq]

theorem toNat_index_ofRaw (r : UInt64) : (ofRaw r).index.toNat = r.toNat % 2 ^ 32 := by
  simp only [ofRaw, UInt64.toNat_toUInt32]

theorem toNat_generation_ofRaw (r : UInt64) : (ofRaw r).generation.toNat = r.toNat / 2 ^ 32 := by
  have hr : r.toNat < 2 ^ 64 := r.toNat_lt
  have hamount : UInt64.toNat 32 % 64 = 32 := rfl
  simp only [ofRaw, UInt64.toNat_toUInt32, UInt64.toNat_shiftRight, hamount,
    Nat.shiftRight_eq_div_pow]
  omega

@[simp]
theorem raw_ofRaw (r : UInt64) : (ofRaw r).raw = r := by
  apply UInt64.toNat_inj.mp
  rw [toNat_raw, toNat_index_ofRaw, toNat_generation_ofRaw]
  exact Nat.div_add_mod' _ _

@[simp]
theorem ofRaw_raw (h : Handle) : ofRaw h.raw = h := by
  have hi : h.index.toNat < 2 ^ 32 := h.index.toNat_lt
  have hindex : (ofRaw h.raw).index = h.index := by
    apply UInt32.toNat_inj.mp
    rw [toNat_index_ofRaw, toNat_raw]
    omega
  have hgeneration : (ofRaw h.raw).generation = h.generation := by
    apply UInt32.toNat_inj.mp
    rw [toNat_generation_ofRaw, toNat_raw]
    omega
  calc ofRaw h.raw
      = ⟨(ofRaw h.raw).index, (ofRaw h.raw).generation⟩ := rfl
    _ = ⟨h.index, h.generation⟩ := by rw [hindex, hgeneration]

@[simp]
theorem ofLong_long (h : Handle) : ofLong h.long = h := by
  rw [ofLong, long, UInt64.toUInt64_toInt64, ofRaw_raw]

@[simp]
theorem long_ofLong (n : Int64) : (ofLong n).long = n := by
  rw [ofLong, long, raw_ofRaw, Int64.toInt64_toUInt64]

theorem raw_inj {g h : Handle} : g.raw = h.raw ↔ g = h := by
  constructor
  · intro hraw
    rw [← ofRaw_raw g, hraw, ofRaw_raw]
  · exact congrArg raw

end BufferFeed.Handle

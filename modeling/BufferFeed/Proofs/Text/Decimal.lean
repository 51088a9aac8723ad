import Mathlib.Data.Nat.Digits.Defs
import BufferFeed.Text.Decimal

/-!
# The grammar of sizes

Which texts spell a size, and which size (`Spells`): a plus sign or none, then one digit or more,
whose value by place is below the bound. Reading is exactly this (`size?_eq_some_iff`).

The reader tests the bound at each digit, on the value so far. It refuses nothing by that which it
would not refuse at the end, since the value never shrinks; leading zeros leave it at zero, so no
length is too long (`readFrom?_eq_some_iff`).
-/

namespace BufferFeed.Decimal

variable {acc n : Nat} {c : Char} {cs digits : List Char}

/-- What digits are worth by their places, the last one the least. -/
def worth (digits : List Char) : Nat :=
  Nat.ofDigits 10 (digits.reverse.map fun c => c.toNat - '0'.toNat)

/-- Digits of a size. -/
structure Numeral (digits : List Char) (n : Nat) : Prop where
  ne_nil : digits ≠ []
  isDigit : ∀ c ∈ digits, c.isDigit = true
  worth_eq : worth digits = n
  le : n ≤ 2 ^ 64 - 1

/-- Texts of a size. -/
inductive Spells : List Char → Nat → Prop
  | plain {digits : List Char} {n : Nat} (numeral : Numeral digits n) : Spells digits n
  | signed {digits : List Char} {n : Nat} (numeral : Numeral digits n) : Spells ('+' :: digits) n

theorem worth_cons (c : Char) (cs : List Char) :
    worth (c :: cs) = (c.toNat - '0'.toNat) * 10 ^ cs.length + worth cs := by
  rw [worth, List.reverse_cons, List.map_append, Nat.ofDigits_append, List.map_singleton,
    Nat.ofDigits_singleton, List.length_map, List.length_reverse, worth, Nat.add_comm,
    Nat.mul_comm]

theorem digit?_eq_some_iff {d : Nat} :
    digit? c = some d ↔ c.isDigit = true ∧ c.toNat - '0'.toNat = d := by
  have hdigit : ('0' ≤ c ∧ c ≤ '9') ↔ c.isDigit = true := by
    rw [Char.isDigit, Bool.and_eq_true, decide_eq_true_eq, decide_eq_true_eq]
    rfl
  rw [digit?, Option.ite_none_right_eq_some, hdigit, Option.some.injEq]
  rfl

/-- **Digits are read to their worth behind the value that was read before**, as long as the whole
stays below the bound. -/
theorem readFrom?_eq_some_iff (hacc : acc < bound) :
    readFrom? acc cs = some n ↔
      (∀ c ∈ cs, c.isDigit = true) ∧ acc * 10 ^ cs.length + worth cs = n ∧ n < bound := by
  -- by induction on the digits; the value read so far is never more than the value of them all
  induction cs generalizing acc with
  | nil =>
    have hworth : acc * 10 ^ ([] : List Char).length + worth [] = acc := Nat.mul_one acc
    rw [readFrom?, hworth, Option.some.injEq]
    constructor
    · rintro rfl
      exact ⟨nofun, rfl, hacc⟩
    · exact fun h => h.2.1
  | cons c cs ih =>
    rw [readFrom?, Option.bind_eq_bind, Option.bind_eq_some_iff, List.forall_mem_cons]
    constructor
    · rintro ⟨d, hd, hrest⟩
      obtain ⟨hc, rfl⟩ := digit?_eq_some_iff.mp hd
      rw [Option.ite_none_right_eq_some] at hrest
      obtain ⟨hcs, hn, hlt⟩ := (ih hrest.1).mp hrest.2
      refine ⟨⟨hc, hcs⟩, ?_, hlt⟩
      rw [worth_cons, ← hn, List.length_cons, Nat.pow_succ]
      ring
    · rintro ⟨⟨hc, hcs⟩, hn, hlt⟩
      have hn' : (10 * acc + (c.toNat - '0'.toNat)) * 10 ^ cs.length + worth cs = n := by
        rw [← hn, worth_cons, List.length_cons, Nat.pow_succ]
        ring
      have hle : 10 * acc + (c.toNat - '0'.toNat) ≤ n :=
        calc 10 * acc + (c.toNat - '0'.toNat)
            ≤ (10 * acc + (c.toNat - '0'.toNat)) * 10 ^ cs.length :=
              Nat.le_mul_of_pos_right _ (Nat.pow_pos (by decide))
          _ ≤ n := hn' ▸ Nat.le_add_right _ _
      have hvalue := Nat.lt_of_le_of_lt hle hlt
      refine ⟨_, digit?_eq_some_iff.mpr ⟨hc, rfl⟩, ?_⟩
      rw [if_pos hvalue]
      exact (ih hvalue).mpr ⟨hcs, hn', hlt⟩

theorem numeral_iff :
    Numeral digits n ↔ digits ≠ [] ∧ readFrom? 0 digits = some n := by
  have hbound : n ≤ 2 ^ 64 - 1 ↔ n < bound := Nat.le_sub_one_iff_lt (by decide)
  rw [readFrom?_eq_some_iff (by decide), Nat.zero_mul, Nat.zero_add, ← hbound]
  exact ⟨fun h => ⟨h.ne_nil, h.isDigit, h.worth_eq, h.le⟩,
    fun h => ⟨h.1, h.2.1, h.2.2.1, h.2.2.2⟩⟩

/-- A sign is no digit, so it is never taken for one. -/
theorem Numeral.unsigned_eq (numeral : Numeral digits n) : unsigned digits = digits := by
  unfold unsigned
  split
  · exact absurd (numeral.isDigit _ List.mem_cons_self) (by decide)
  · rfl

theorem spells_iff : Spells cs n ↔ Numeral (unsigned cs) n := by
  constructor
  · rintro (numeral | numeral)
    · rw [numeral.unsigned_eq]
      exact numeral
    · exact numeral
  · intro numeral
    unfold unsigned at numeral
    split at numeral
    · exact .signed numeral
    · exact .plain numeral

/-- **Reading accepts exactly what spells a size, and gives that size.** -/
theorem size?_eq_some_iff {s : String} : size? s = some n ↔ Spells s.toList n := by
  rw [spells_iff, numeral_iff, size?]
  split
  · rename_i hnil
    rw [hnil]
    exact ⟨nofun, fun h => absurd rfl h.1⟩
  · rename_i hne
    exact ⟨fun h => ⟨hne, h⟩, fun h => h.2⟩

theorem size?_eq_none_iff {s : String} : size? s = none ↔ ∀ n, ¬ Spells s.toList n := by
  simp only [Option.eq_none_iff_forall_ne_some, ne_eq, size?_eq_some_iff]

end BufferFeed.Decimal

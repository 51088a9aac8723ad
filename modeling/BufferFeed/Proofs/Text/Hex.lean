import Mathlib.Data.List.Induction
import Mathlib.Data.Nat.Digits.Defs
import BufferFeed.Text.Hex

/-!
# The grammar of hexadecimal numbers

Which digits spell a number (`Spells`): one of the sixteen or more, worth the number by their
places. A number has a spelling for every count of zeros in front, and among them one that is
shorter than all the others (`Shortest`). Writing gives that one (`shortest_iff`), and reading takes
every one of them for the number (`readDigits?_eq_some_iff`).

Both go by the last digit. The writer leaves it for the end, and what the reader has read before it
counts sixteenfold.

In a longer text a number is found by its mark (`afterMark?_append`), and ends where something
stands that is no digit (`takeWhile_digits_append`).
-/

namespace BufferFeed.Hex

variable {d k n : Nat} {c : Char} {digits other before after : List Char}

/-- The sixteen digits, each in the place that is its value. -/
def alphabet : List Char :=
  ['0', '1', '2', '3', '4', '5', '6', '7', '8', '9', 'a', 'b', 'c', 'd', 'e', 'f']

/-- What digits are worth by their places, the last one the least. -/
def worth (digits : List Char) : Nat := Nat.ofDigits 16 (digits.reverse.map alphabet.idxOf)

/-- Digits of a number. -/
structure Spells (digits : List Char) (n : Nat) : Prop where
  ne_nil : digits ≠ []
  mem_alphabet : ∀ c ∈ digits, c ∈ alphabet
  worth_eq : worth digits = n

/-- The digits of a number that no other digits of it are shorter than. -/
structure Shortest (digits : List Char) (n : Nat) : Prop where
  spells : Spells digits n
  length_le : ∀ other, Spells other n → digits.length ≤ other.length

/-! ## One digit -/

theorem getElem_alphabet (h : d < 16) : alphabet[d] = digit d :=
  (by decide : ∀ d : Fin 16, alphabet[d] = digit d) ⟨d, h⟩

theorem digit_mem_alphabet (h : d < 16) : digit d ∈ alphabet := by
  rw [← getElem_alphabet h]
  exact List.getElem_mem _

theorem idxOf_digit (h : d < 16) : alphabet.idxOf (digit d) = d := by
  have hnodup : alphabet.Nodup := by decide
  rw [← getElem_alphabet h]
  exact hnodup.idxOf_getElem d h

theorem idxOf_lt (h : c ∈ alphabet) : alphabet.idxOf c < 16 := List.idxOf_lt_length_of_mem h

theorem digit_idxOf (h : c ∈ alphabet) : digit (alphabet.idxOf c) = c := by
  rw [← getElem_alphabet (idxOf_lt h)]
  exact List.getElem_idxOf _

/-- A character read as a digit is the digit of its value. -/
theorem digit_of_value? (h : value? c = some d) : d < 16 ∧ digit d = c := by
  unfold value? at h
  split at h
  · rename_i range
    obtain ⟨least, greatest⟩ : 0x30 ≤ c.toNat ∧ c.toNat ≤ 0x39 := range
    obtain rfl := Option.some.inj h
    have hc : 0x30 + (c.toNat - 0x30) = c.toNat := by omega
    refine ⟨by omega, ?_⟩
    rw [digit, if_pos (by omega), hc, Char.ofNat_toNat]
  · split at h
    · rename_i range
      obtain ⟨least, greatest⟩ : 0x61 ≤ c.toNat ∧ c.toNat ≤ 0x66 := range
      obtain rfl := Option.some.inj h
      have hc : 0x57 + (c.toNat - 0x57) = c.toNat := by omega
      refine ⟨by omega, ?_⟩
      rw [digit, if_neg (by omega), hc, Char.ofNat_toNat]
    · cases h

theorem value?_eq_some_iff : value? c = some d ↔ c ∈ alphabet ∧ alphabet.idxOf c = d := by
  constructor
  · intro h
    obtain ⟨hd, rfl⟩ := digit_of_value? h
    exact ⟨digit_mem_alphabet hd, idxOf_digit hd⟩
  · rintro ⟨hc, rfl⟩
    have hvalue := value?_digit (idxOf_lt hc)
    rwa [digit_idxOf hc] at hvalue

/-! ## One digit more -/

theorem worth_concat (digits : List Char) (c : Char) :
    worth (digits ++ [c]) = 16 * worth digits + alphabet.idxOf c := by
  rw [worth, List.reverse_append, List.reverse_singleton, List.singleton_append, List.map_cons,
    Nat.ofDigits_cons, Nat.add_comm]
  rfl

theorem readFrom?_append (acc : Nat) (digits other : List Char) :
    readFrom? acc (digits ++ other) = (readFrom? acc digits).bind (readFrom? · other) := by
  induction digits generalizing acc with
  | nil => rfl
  | cons c cs ih =>
    rw [List.cons_append, readFrom?, readFrom?, Option.bind_eq_bind, Option.bind_assoc]
    exact Option.bind_congr fun d _ => ih _

theorem Spells.concat (spells : Spells digits n) (hd : d < 16) :
    Spells (digits ++ [digit d]) (16 * n + d) := by
  refine ⟨List.append_ne_nil_of_right_ne_nil _ (List.cons_ne_nil _ _), fun c hc => ?_, ?_⟩
  · rcases List.mem_append.mp hc with hc | hc
    · exact spells.mem_alphabet c hc
    · obtain rfl := List.mem_singleton.mp hc
      exact digit_mem_alphabet hd
  · rw [worth_concat, spells.worth_eq, idxOf_digit hd]

/-! ## Reading -/

theorem readFrom?_zero_eq_some_iff :
    readFrom? 0 digits = some n ↔ (∀ c ∈ digits, c ∈ alphabet) ∧ worth digits = n := by
  -- from the last digit on: what comes before it is read behind zero as well
  induction digits using List.reverseRecOn generalizing n with
  | nil => exact ⟨fun h => ⟨nofun, Option.some.inj h⟩, fun h => congrArg some h.2⟩
  | append_singleton cs c ih =>
    rw [readFrom?_append, Option.bind_eq_some_iff, List.forall_mem_append,
      List.forall_mem_singleton, worth_concat]
    constructor
    · rintro ⟨m, hm, hread⟩
      obtain ⟨hcs, rfl⟩ := ih.mp hm
      rw [readFrom?, Option.bind_eq_bind, Option.bind_eq_some_iff] at hread
      obtain ⟨d, hd, hn⟩ := hread
      obtain ⟨hc, rfl⟩ := value?_eq_some_iff.mp hd
      exact ⟨⟨hcs, hc⟩, Option.some.inj hn⟩
    · rintro ⟨⟨hcs, hc⟩, rfl⟩
      refine ⟨worth cs, ih.mpr ⟨hcs, rfl⟩, ?_⟩
      rw [readFrom?, value?_eq_some_iff.mpr ⟨hc, rfl⟩]
      rfl

/-- **Reading accepts exactly what spells a number, and gives that number.** -/
theorem readDigits?_eq_some_iff : readDigits? digits = some n ↔ Spells digits n := by
  unfold readDigits?
  split
  · exact ⟨nofun, fun spells => absurd rfl spells.ne_nil⟩
  · rename_i hne
    rw [readFrom?_zero_eq_some_iff]
    exact ⟨fun h => ⟨hne, h.1, h.2⟩, fun spells => ⟨spells.mem_alphabet, spells.worth_eq⟩⟩

/-! ## Writing -/

theorem spells_digits (n : Nat) : Spells (Hex.digits n) n := by
  fun_induction Hex.digits n with
  | case1 n hn =>
    refine ⟨List.cons_ne_nil _ _, fun c hc => ?_, ?_⟩
    · obtain rfl := List.mem_singleton.mp hc
      exact digit_mem_alphabet hn
    · have hworth := worth_concat [] (digit n)
      rw [idxOf_digit hn] at hworth
      exact hworth.trans (Nat.zero_add n)
  | case2 n hn ih =>
    have hmod : n % 16 < 16 := Nat.mod_lt _ (by decide)
    have hspells := ih.concat hmod
    rwa [Nat.div_add_mod] at hspells

/-- No digit adds more than fifteen of its place. -/
theorem Spells.place_lt (spells : Spells digits n) :
    ∀ d ∈ digits.reverse.map alphabet.idxOf, d < 16 := by
  intro d hd
  obtain ⟨c, hc, rfl⟩ := List.mem_map.mp hd
  exact idxOf_lt (spells.mem_alphabet c (List.mem_reverse.mp hc))

/-- Digits are known by how much they add of their places. -/
theorem Spells.map_digit (spells : Spells digits n) :
    (digits.reverse.map alphabet.idxOf).map digit = digits.reverse := by
  have hid : digits.reverse.map (digit ∘ alphabet.idxOf) = digits.reverse.map id := by
    apply List.map_congr_left
    intro c hc
    exact digit_idxOf (spells.mem_alphabet c (List.mem_reverse.mp hc))
  rw [List.map_map, hid, List.map_id]

theorem Spells.lt_pow (spells : Spells digits n) : n < 16 ^ digits.length := by
  have h := Nat.ofDigits_lt_base_pow_length (by decide) spells.place_lt
  rw [List.length_map, List.length_reverse] at h
  rw [← spells.worth_eq]
  exact h

/-- As many digits as a number has room in are enough to write it. -/
theorem length_digits_le (hk : 0 < k) (h : n < 16 ^ k) : (Hex.digits n).length ≤ k := by
  fun_induction Hex.digits n generalizing k with
  | case1 n hn => exact hk
  | case2 n hn ih =>
    obtain ⟨j, rfl⟩ := Nat.exists_eq_add_of_lt hk
    rw [Nat.zero_add] at h ⊢
    have hdiv : n / 16 < 16 ^ j := by
      rw [Nat.pow_succ] at h
      exact Nat.div_lt_of_lt_mul (Nat.mul_comm _ _ ▸ h)
    -- two digits at least, since the number is too large for one
    have hj : 0 < j := by
      apply Nat.pos_of_ne_zero
      rintro rfl
      exact hn h
    rw [List.length_append, List.length_singleton]
    exact Nat.succ_le_succ (ih hj hdiv)

theorem Spells.length_digits_le (spells : Spells digits n) :
    (Hex.digits n).length ≤ digits.length :=
  Hex.length_digits_le (List.length_pos_iff.mpr spells.ne_nil) spells.lt_pow

/-- Two spellings of a number that are equally long are the same. -/
theorem Spells.unique (spells : Spells digits n) (spells' : Spells other n)
    (h : digits.length = other.length) : digits = other := by
  have hlength : (digits.reverse.map alphabet.idxOf).length =
      (other.reverse.map alphabet.idxOf).length := by
    rw [List.length_map, List.length_map, List.length_reverse, List.length_reverse, h]
  have hplaces := Nat.ofDigits_inj_of_len_eq (by decide) hlength spells.place_lt spells'.place_lt
    (spells.worth_eq.trans spells'.worth_eq.symm)
  apply List.reverse_inj.mp
  rw [← spells.map_digit, ← spells'.map_digit, hplaces]

/-- **Writing gives the shortest spelling, and no other is as short.** -/
theorem shortest_iff : Shortest digits n ↔ digits = Hex.digits n := by
  constructor
  · intro shortest
    have hle := shortest.length_le _ (spells_digits n)
    exact shortest.spells.unique (spells_digits n)
      (Nat.le_antisymm hle shortest.spells.length_digits_le)
  · rintro rfl
    exact ⟨spells_digits n, fun _ spells => spells.length_digits_le⟩

theorem read?_text (n : Nat) : read? (text n) = some n := by
  rw [read?, text, String.toList_ofList]
  exact readDigits?_eq_some_iff.mpr (spells_digits n)

/-! ## Among other characters -/

/-- What follows the first mark of a number. -/
def afterMark? : List Char → Option (List Char)
  | '0' :: 'x' :: cs => some cs
  | _ :: cs => afterMark? cs
  | [] => none

/-- Digits are taken whole from before what is no digit. -/
theorem takeWhile_digits_append (n : Nat) (ends : ∀ c ∈ after.head?, c ∉ alphabet) :
    (Hex.digits n ++ after).takeWhile (· ∈ alphabet) = Hex.digits n := by
  have hdigits : ∀ c ∈ Hex.digits n, decide (c ∈ alphabet) = true := by
    intro c hc
    exact decide_eq_true ((spells_digits n).mem_alphabet c hc)
  have hstop : after.takeWhile (· ∈ alphabet) = [] := by
    cases after with
    | nil => rfl
    | cons c cs =>
      apply List.takeWhile_cons_of_neg
      rw [decide_eq_true_eq]
      exact ends c rfl
  rw [List.takeWhile_append_of_pos hdigits, hstop, List.append_nil]

theorem afterMark?_append (unmarked : afterMark? before = none) (after : List Char) :
    afterMark? (before ++ '0' :: 'x' :: after) = some after := by
  fun_induction afterMark? before with
  | case1 cs => cases unmarked
  | case2 c cs hmark ih =>
    rw [List.cons_append, afterMark?.eq_2]
    · exact ih unmarked
    · -- the characters before a mark and its own first one make no mark
      intro rest hc hcs
      cases cs with
      | nil => cases hcs
      | cons d ds =>
        cases hcs
        exact hmark ds hc rfl
  | case3 => rfl

/-- Without one of its characters there is no mark. -/
theorem afterMark?_of_notMem (hc : c = '0' ∨ c = 'x') (h : c ∉ before) :
    afterMark? before = none := by
  fun_induction afterMark? before with
  | case1 cs =>
    rcases hc with rfl | rfl
    · exact absurd List.mem_cons_self h
    · exact absurd (List.mem_cons_of_mem _ List.mem_cons_self) h
  | case2 d cs hmark ih => exact ih fun hmem => h (List.mem_cons_of_mem _ hmem)
  | case3 => rfl

end BufferFeed.Hex

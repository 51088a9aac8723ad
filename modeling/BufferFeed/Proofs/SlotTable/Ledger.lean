import BufferFeed.Proofs.SlotTable.Run

/-!
# The ledger of a table

Which handles a table has issued, and which it has taken back, in order. The ledger is not stored
anywhere: it is the history, and the law says that the slots remember exactly that much of it
(`Ledger`). A slot of generation `g` has issued its generations below `g` and taken them back, and
has issued `g` itself if it is filled; and `g` counts the times that the slot was vacated.

The law needs the count to stay short of the last generation, because behind that one the
generations start over. Under it no handle is issued twice, and the live handles are those issued
and not taken back (`Ledger.isSome_get?_iff`).
-/

namespace BufferFeed

/-- The generations that a slot has behind it. -/
def Slot.Past {α : Type} (s : Slot α) (g : UInt32) : Prop :=
  0 < g.toNat ∧ g.toNat < s.generation.toNat

/-- The generations that a slot has issued: the past ones, and its own if it is filled. -/
def Slot.Used {α : Type} (s : Slot α) (g : UInt32) : Prop :=
  s.Past g ∨ g = s.generation ∧ s.content.isSome = true

namespace SlotTable

variable {α : Type} {t u : SlotTable α} {issued released : List Handle} {h : Handle} {a : α}

structure Ledger (t : SlotTable α) (issued released : List Handle) : Prop where
  issued_nodup : issued.Nodup
  released_nodup : released.Nodup
  mem_issued_iff : ∀ h, h ∈ issued ↔ ∃ s, t.slots[h.index.toNat]? = some s ∧ s.Used h.generation
  mem_released_iff : ∀ h,
    h ∈ released ↔ ∃ s, t.slots[h.index.toNat]? = some s ∧ s.Past h.generation
  /-- A generation counts how often its slot was vacated. -/
  generation_eq : ∀ (i : UInt32) (s : Slot α), t.slots[i.toNat]? = some s →
    s.generation.toNat = 1 + released.countP fun h => h.index = i

theorem Ledger.empty : (empty : SlotTable α).Ledger [] [] where
  issued_nodup := List.nodup_nil
  released_nodup := List.nodup_nil
  mem_issued_iff h := by
    simp only [List.not_mem_nil, SlotTable.empty, List.getElem?_toArray, List.getElem?_nil,
      reduceCtorEq, false_and, exists_false]
  mem_released_iff h := by
    simp only [List.not_mem_nil, SlotTable.empty, List.getElem?_toArray, List.getElem?_nil,
      reduceCtorEq, false_and, exists_false]
  generation_eq i s hs := by
    simp only [SlotTable.empty, List.getElem?_toArray, List.getElem?_nil, reduceCtorEq] at hs

/-! ## What a ledger says -/

/-- A generation of zero is never issued. -/
theorem Ledger.generation_ne_zero (l : t.Ledger issued released) (ht : t.Numbered)
    (hi : h ∈ issued) : h.generation ≠ 0 := by
  obtain ⟨s, hs, ⟨hpos, _⟩ | ⟨hg, _⟩⟩ := (l.mem_issued_iff h).mp hi
  · intro h0
    rw [h0] at hpos
    exact absurd hpos (by decide)
  · rw [hg]
    exact ht _ _ hs

/-- **A handle is live exactly when it was issued and has not been taken back.** -/
theorem Ledger.isSome_get?_iff (l : t.Ledger issued released) (h : Handle) :
    (t.get? h).isSome = true ↔ h ∈ issued ∧ h ∉ released := by
  rw [l.mem_issued_iff, l.mem_released_iff]
  constructor
  · intro hlive
    obtain ⟨a, ha⟩ := Option.isSome_iff_exists.mp hlive
    have hs := get?_eq_some_iff.mp ha
    refine ⟨⟨_, hs, .inr ⟨rfl, rfl⟩⟩, ?_⟩
    rintro ⟨s, hs', _, hlt⟩
    rw [hs] at hs'
    cases hs'
    exact Nat.lt_irrefl _ hlt
  · rintro ⟨⟨s, hs, hpast | ⟨hg, hc⟩⟩, hnot⟩
    · exact absurd ⟨s, hs, hpast⟩ hnot
    · obtain ⟨a, ha⟩ := Option.isSome_iff_exists.mp hc
      have hfound : t.get? h = some a := get?_eq_some_iff.mpr (by rw [hs, hg, ← ha])
      rw [hfound]
      rfl

/-- A handle that was taken back is answered no more. -/
theorem Ledger.get?_eq_none_of_mem_released (l : t.Ledger issued released) (hr : h ∈ released) :
    t.get? h = none := by
  rw [← Option.not_isSome_iff_eq_none, l.isSome_get?_iff]
  exact fun hlive => hlive.2 hr

/-! ## Every change is an entry -/

theorem Ledger.setContent (l : t.Ledger issued released) (found : t.get? h = some a) (b : α) :
    (t.setContent h.index (some b)).Ledger issued released := by
  have hs := get?_eq_some_iff.mp found
  -- the slot was filled and is filled, and its generation stays: what a ledger reads is the same
  have hsame : ∀ (i : Nat) (P : UInt32 → Bool → Prop),
      (∃ s, (t.setContent h.index (some b)).slots[i]? = some s ∧ P s.generation s.content.isSome) ↔
        ∃ s, t.slots[i]? = some s ∧ P s.generation s.content.isSome := by
    intro i P
    rw [getElem?_setContent]
    split
    · rename_i hi
      rw [← hi, hs]
      simp only [Option.map_some, Option.some.injEq, exists_eq_left', Option.isSome_some]
    · rfl
  refine ⟨l.issued_nodup, l.released_nodup, ?_, ?_, ?_⟩
  · intro g
    rw [l.mem_issued_iff]
    exact (hsame _ fun n c => (0 < g.generation.toNat ∧ g.generation.toNat < n.toNat) ∨
      g.generation = n ∧ c = true).symm
  · intro g
    rw [l.mem_released_iff]
    exact (hsame _ fun n _ => 0 < g.generation.toNat ∧ g.generation.toNat < n.toNat).symm
  · intro i s hi
    obtain ⟨r, hr, hg⟩ := (hsame i.toNat fun n _ => n = s.generation).mp ⟨s, hi, rfl⟩
    rw [← hg]
    exact l.generation_eq i r hr

/-- Before an insertion, the slot that it takes has issued what it has behind it, and no more. -/
theorem Ledger.before_insert (l : t.Ledger issued released) (ht : t.WellFormed)
    (room : t.slots.size < 2 ^ 32) (a : α) (hi : h.index.toNat = (t.insert a).1.index.toNat) :
    (h ∈ issued ↔ (⟨(t.insert a).1.generation, some a⟩ : Slot α).Past h.generation) ∧
      (h ∈ released ↔ (⟨(t.insert a).1.generation, some a⟩ : Slot α).Past h.generation) := by
  rw [l.mem_issued_iff, l.mem_released_iff, hi]
  rcases getElem?_insert_index ht room a with hs | ⟨hs, hg⟩
  · simp only [hs, Option.some.injEq, exists_eq_left', Slot.Used, Slot.Past, Option.isSome_none,
      Bool.false_eq_true, and_false, or_false, and_self]
  · have hone : (1 : UInt32).toNat = 1 := rfl
    simp only [Array.getElem?_eq_none (Nat.le_of_eq hs), reduceCtorEq, false_and, exists_false, hg,
      Slot.Past, hone, false_iff, and_self]
    omega

/-- The handle that an insertion gives was never issued before. -/
theorem Ledger.insert_notMem (l : t.Ledger issued released) (ht : t.WellFormed)
    (room : t.slots.size < 2 ^ 32) (a : α) : (t.insert a).1 ∉ issued := by
  rw [(l.before_insert ht room a rfl).1]
  exact fun hpast => Nat.lt_irrefl _ hpast.2

theorem Ledger.insert (l : t.Ledger issued released) (ht : t.WellFormed)
    (room : t.slots.size < 2 ^ 32) (a : α) :
    (t.insert a).2.Ledger (issued ++ [(t.insert a).1]) released := by
  have hnew := l.insert_notMem ht room a
  refine ⟨?_, l.released_nodup, ?_, ?_, ?_⟩
  · rw [List.nodup_append]
    refine ⟨l.issued_nodup, List.nodup_singleton _, ?_⟩
    rintro x hx y hy rfl
    rw [List.mem_singleton] at hy
    exact hnew (hy ▸ hx)
  · intro g
    rw [List.mem_append, List.mem_singleton, getElem?_insert ht room]
    split
    · rename_i hi
      rw [(l.before_insert ht room a hi.symm).1]
      simp only [Option.some.injEq, exists_eq_left', Slot.Used, Option.isSome_some, and_true]
      refine or_congr_right ⟨fun hg => congrArg _ hg, fun hg => ?_⟩
      exact Handle.eq_of_toNat_index hi.symm hg
    · rename_i hi
      have hne : g ≠ (t.insert a).1 := fun hg => hi (congrArg (·.index.toNat) hg.symm)
      simp only [hne, or_false]
      exact l.mem_issued_iff g
  · intro g
    rw [getElem?_insert ht room]
    split
    · rename_i hi
      rw [(l.before_insert ht room a hi.symm).2]
      simp only [Option.some.injEq, exists_eq_left', Slot.Past]
    · exact l.mem_released_iff g
  · intro i s hs
    rw [getElem?_insert ht room] at hs
    split at hs
    · rename_i hi
      cases hs
      rcases getElem?_insert_index ht room a with hs | ⟨hsize, hg⟩
      · rw [hi] at hs
        have hold := l.generation_eq i _ hs
        exact hold
      · -- a slot that was not there was never vacated
        have hnone : released.countP (fun h => h.index = i) = 0 := by
          rw [List.countP_eq_zero]
          intro g hg hgi
          obtain ⟨s, hs, _⟩ := (l.mem_released_iff g).mp hg
          rw [of_decide_eq_true hgi, ← hi, Array.getElem?_eq_none (Nat.le_of_eq hsize)] at hs
          cases hs
        rw [hnone, hg]
        rfl
    · exact l.generation_eq i s hs

theorem Ledger.vacate (l : t.Ledger issued released) (found : t.get? h = some a)
    (bound : (released ++ [h]).countP (fun g => g.index = h.index) < 2 ^ 32 - 1) :
    (t.vacate h.index).Ledger issued (released ++ [h]) := by
  have hs := get?_eq_some_iff.mp found
  have hcount : (released ++ [h]).countP (fun g => g.index = h.index) =
      released.countP (fun g => g.index = h.index) + 1 := by
    simp only [List.countP_append, List.countP_singleton, decide_true, if_true]
  have hgen : h.generation.toNat = 1 + released.countP fun g => g.index = h.index :=
    l.generation_eq h.index _ hs
  have hnext : (Slot.nextGeneration h.generation).toNat = h.generation.toNat + 1 :=
    Slot.toNat_nextGeneration (by omega)
  have hpos : 0 < h.generation.toNat := by omega
  have hmem : ∀ g : Handle, g.index.toNat = h.index.toNat →
      (g ∈ issued ↔ 0 < g.generation.toNat ∧ g.generation.toNat ≤ h.generation.toNat) ∧
        (g ∈ released ↔ 0 < g.generation.toNat ∧ g.generation.toNat < h.generation.toNat) := by
    intro g hi
    rw [l.mem_issued_iff, l.mem_released_iff, hi]
    simp only [hs, Option.some.injEq, exists_eq_left', Slot.Used, Slot.Past, Option.isSome_some,
      and_true, ← UInt32.toNat_inj]
    omega
  have hnot : h ∉ released := by
    rw [(hmem h rfl).2]
    omega
  refine ⟨l.issued_nodup, ?_, ?_, ?_, ?_⟩
  · rw [List.nodup_append]
    refine ⟨l.released_nodup, List.nodup_singleton _, ?_⟩
    rintro x hx y hy rfl
    rw [List.mem_singleton] at hy
    exact hnot (hy ▸ hx)
  · intro g
    rw [getElem?_vacate]
    split
    · rename_i hi
      rw [(hmem g hi.symm).1, ← hi, hs]
      simp only [Option.map_some, Option.some.injEq, exists_eq_left', Slot.Used, Slot.Past,
        Option.isSome_none, Bool.false_eq_true, and_false, or_false, hnext]
      omega
    · exact l.mem_issued_iff g
  · intro g
    rw [List.mem_append, List.mem_singleton, getElem?_vacate]
    split
    · rename_i hi
      have heq : g = h ↔ g.generation.toNat = h.generation.toNat :=
        ⟨fun hg => congrArg (·.generation.toNat) hg,
          fun hg => Handle.eq_of_toNat_index hi.symm (UInt32.toNat_inj.mp hg)⟩
      rw [(hmem g hi.symm).2, heq, ← hi, hs]
      simp only [Option.map_some, Option.some.injEq, exists_eq_left', Slot.Past, hnext]
      omega
    · rename_i hi
      have hne : g ≠ h := fun hg => hi (congrArg (·.index.toNat) hg.symm)
      simp only [hne, or_false]
      exact l.mem_released_iff g
  · intro i s hsi
    rw [getElem?_vacate] at hsi
    split at hsi
    · rename_i hi
      have hidx : h.index = i := UInt32.toNat_inj.mp hi
      subst hidx
      rw [hs] at hsi
      cases hsi
      rw [hcount]
      simp only [hnext]
      omega
    · rename_i hi
      have hne : h.index ≠ i := fun he => hi (congrArg UInt32.toNat he)
      rw [l.generation_eq i s hsi]
      simp only [List.countP_append, List.countP_singleton, hne, decide_false,
        Bool.false_eq_true, if_false, Nat.add_zero]

/-- **Whatever changes a table, the ledger stays true**, as long as the indices and the generations
last. -/
theorem Ledger.change {news olds : List Handle} (l : t.Ledger issued released)
    (c : Change t news olds u) (ht : t.WellFormed) (room : u.slots.size < 2 ^ 32)
    (bound : ∀ i, (released ++ olds).countP (fun h => h.index = i) < 2 ^ 32 - 1) :
    u.Ledger (issued ++ news) (released ++ olds) := by
  have hsize := Nat.lt_of_le_of_lt c.size_le room
  cases c with
  | nothing =>
    simp only [List.append_nil]
    exact l
  | rewrite found b =>
    simp only [List.append_nil]
    exact l.setContent found b
  | insert a =>
    simp only [List.append_nil]
    exact l.insert ht hsize a
  | vacate found =>
    simp only [List.append_nil]
    exact l.vacate found (bound _)

/-- **Changes continue a ledger.** -/
theorem Ledger.changes {news olds : List Handle} (l : t.Ledger issued released)
    (c : Changes t news olds u) (ht : t.WellFormed) (room : u.slots.size < 2 ^ 32)
    (turns : ∀ i, (released ++ olds).countP (fun h => h.index = i) < 2 ^ 32 - 1) :
    u.Ledger (issued ++ news) (released ++ olds) := by
  -- by induction on the changes; both bounds hold at the end, so they held all along
  induction c generalizing issued released with
  | nothing =>
    rw [List.append_nil, List.append_nil]
    exact l
  | change first later ih =>
    have hroom := Nat.lt_of_le_of_lt later.size_le room
    rw [← List.append_assoc, ← List.append_assoc]
    rw [← List.append_assoc] at turns
    refine ih (l.change first ht hroom ?_) (first.wellFormed ht hroom) room turns
    intro i
    exact Nat.lt_of_le_of_lt (List.sublist_append_left _ _).countP_le (turns i)

/-- The changes of a table that began empty are its ledger. -/
theorem Changes.ledger (c : Changes empty issued released u) (room : u.slots.size < 2 ^ 32)
    (turns : ∀ i, released.countP (fun h => h.index = i) < 2 ^ 32 - 1) :
    u.Ledger issued released :=
  Ledger.empty.changes c .empty room turns

end SlotTable

end BufferFeed

import BufferFeed.Shelf
import BufferFeed.Proofs.Feed.Making
import BufferFeed.Proofs.Feed.Reading

/-!
# Where the contents of feeds come from

All feeds of a program are drawn from one source, in the order in which they are made. What a feed
takes from it is settled by the feed's dimensions: for each buffer as many whole words as cover it.
So the position of the source is a sum over the feeds made so far (`source_after`), and a buffer's
bytes are found in the stream by the dimensions of the feeds before its own
(`contents_by_position`).

Nothing else moves the source: no read, no feed made from entropy, and no feed that is refused.
Neither does anything change the buffers of a feed while its name is its own
(`get?_after_of_unreplaced`).
-/

namespace BufferFeed.Shelf.Program

variable {p : Program} {name : String} {count size : UInt64} {f : Feed}

/-! ## Runs -/

/-- What a run leaves. -/
def after (p : Program) (steps : List Step) : Program :=
  steps.foldl (fun p step => (p.perform step).2) p

/-- The steps of a run, each with the reply it got. -/
def trace (p : Program) (steps : List Step) : List (Step × Reply) :=
  steps.zip ((p.run steps).map Prod.fst)

theorem trace_cons (p : Program) (step : Step) (steps : List Step) :
    p.trace (step :: steps) = (step, (p.perform step).1) :: (p.perform step).2.trace steps := rfl

theorem after_append (p : Program) (earlier later : List Step) :
    p.after (earlier ++ later) = (p.after earlier).after later := List.foldl_append

/-- The dimensions of a feed that was made from the shared source. -/
def drawn? : Step × Reply → Option (Nat × Nat)
  | (.make _ count size, .made) => some (count.toNat, size.toNat)
  | _ => none

/-- How many words of so many bytes the feeds of a run have taken from the shared source. -/
def wordsTaken (width : Nat) (trace : List (Step × Reply)) : Nat :=
  ((trace.filterMap drawn?).map fun (count, size) => count * (size ⌈/⌉ width)).sum

/-- The name under which a step put a feed that it made. -/
def placed? : Step × Reply → Option String
  | (.make name _ _, .made) | (.makeFresh name _ _ _, .made) => some name
  | _ => none

/-! ## Making a feed -/

theorem perform_make_of_unfit (unfit : ¬ Feed.Fits count.toNat size.toNat) (p : Program)
    (name : String) : p.perform (.make name count size) = (.overflow, p) := by
  simp only [perform, Feed.generate_eq_none_iff.mpr unfit]

theorem perform_make_of_made {rest : Source}
    (made : Feed.generate count.toNat size.toNat .supplied p.source = some (f, rest))
    (name : String) :
    p.perform (.make name count size) = (.made, ⟨p.shelf.put name f, rest⟩) := by
  simp only [perform, made]

/-- A feed from entropy is refused for the same dimensions, and the shared source has no part in
it. -/
theorem perform_makeFresh (p : Program) (name : String) (count size : UInt64)
    (key : Keystream.Key) :
    let r := p.perform (.makeFresh name count size key)
    (r.1 = .overflow ↔ ¬ Feed.Fits count.toNat size.toNat) ∧ (r.1 = .overflow → r.2 = p) ∧
      r.2.source = p.source := by
  intro r
  cases hmade : Feed.ofEntropy count.toNat size.toNat key with
  | none =>
    have hr : r = (.overflow, p) := by simp only [r, perform, hmade]
    rw [hr]
    exact ⟨iff_of_true rfl (Feed.ofEntropy_eq_none_iff.mp hmade), fun _ => rfl, rfl⟩
  | some f =>
    have hr : r = (.made, { p with shelf := p.shelf.put name f }) := by
      simp only [r, perform, hmade]
    have hfits : ¬ ¬ Feed.Fits count.toNat size.toNat := fun h =>
      nomatch hmade.symm.trans (Feed.ofEntropy_eq_none_iff.mpr h)
    rw [hr]
    exact ⟨iff_of_false (nomatch ·) hfits, (nomatch ·), rfl⟩

/-- A feed is refused exactly when its row or one of its buffers cannot be addressed. -/
theorem unfit_iff {count size : Nat} :
    ¬ Feed.Fits count size ↔ 2 ^ 63 - 1 < count * 24 ∨ 0 < count ∧ 2 ^ 63 - 1 < size := by
  show ¬ (count * 24 ≤ 2 ^ 63 - 1 ∧ (0 < count → size ≤ 2 ^ 63 - 1)) ↔ _
  omega

/-! ## The source -/

/-- **A step moves the source by the words of the feed that it made from it**, and else not. -/
theorem source_perform (p : Program) (step : Step) :
    (p.perform step).2.source =
      p.source.skip (wordsTaken p.source.stream.width [(step, (p.perform step).1)]) := by
  cases step with
  | make name count size =>
    cases hmade : Feed.generate count.toNat size.toNat .supplied p.source with
    | none =>
      rw [perform_make_of_unfit (Feed.generate_eq_none_iff.mp hmade)]
      rfl
    | some made =>
      obtain ⟨-, -, hrest⟩ := Feed.generate_eq_some_iff.mp hmade
      rw [perform_make_of_made hmade]
      exact hrest
  | makeFresh name count size key =>
    simp only [perform]
    split <;> rfl
  | act name action =>
    simp only [perform]
    split <;> rfl

theorem source_after (p : Program) (steps : List Step) :
    (p.after steps).source =
      p.source.skip (wordsTaken p.source.stream.width (p.trace steps)) := by
  induction steps generalizing p with
  | nil => rfl
  | cons step steps ih =>
    have hstep := p.source_perform step
    have hrest := ih (p.perform step).2
    rw [hstep, Source.skip_skip, Source.stream_skip, wordsTaken, wordsTaken, ← List.sum_append,
      ← List.map_append, ← List.filterMap_append] at hrest
    exact hrest

/-! ## The buffers -/

/-- A step that puts no feed under a name leaves the buffers under it as they are. -/
theorem get?_perform_of_unreplaced (found : p.shelf.get? name = some f) {step : Step}
    (unreplaced : placed? (step, (p.perform step).1) ≠ some name) :
    ∃ g, (p.perform step).2.shelf.get? name = some g ∧ g.buffers = f.buffers := by
  cases step with
  | make other count size =>
    cases hmade : Feed.generate count.toNat size.toNat .supplied p.source with
    | none =>
      rw [perform_make_of_unfit (Feed.generate_eq_none_iff.mp hmade)]
      exact ⟨f, found, rfl⟩
    | some made =>
      rw [perform_make_of_made hmade] at unreplaced ⊢
      refine ⟨f, ?_, rfl⟩
      exact (get?_put _ _ _ _).trans
        ((if_neg fun h => unreplaced (congrArg some h.symm)).trans found)
  | makeFresh other count size key =>
    cases hmade : Feed.ofEntropy count.toNat size.toNat key with
    | none =>
      simp only [perform, hmade]
      exact ⟨f, found, rfl⟩
    | some made =>
      simp only [perform, hmade] at unreplaced ⊢
      refine ⟨f, ?_, rfl⟩
      exact (get?_put _ _ _ _).trans
        ((if_neg fun h => unreplaced (congrArg some h.symm)).trans found)
  | act other action =>
    cases hother : p.shelf.get? other with
    | none =>
      simp only [perform, hother]
      exact ⟨f, found, rfl⟩
    | some g =>
      simp only [perform, hother, get?_put]
      split
      · rename_i hname
        rw [hname, hother] at found
        cases found
        exact ⟨_, rfl, (Feed.ReadOn.perform _ action).buffers_eq⟩
      · exact ⟨f, found, rfl⟩

/-- **The buffers of a feed never change** while no other feed is put under its name. -/
theorem get?_after_of_unreplaced (found : p.shelf.get? name = some f) {steps : List Step}
    (unreplaced : ∀ e ∈ p.trace steps, placed? e ≠ some name) :
    ∃ g, (p.after steps).shelf.get? name = some g ∧ g.buffers = f.buffers := by
  induction steps generalizing p f with
  | nil => exact ⟨f, found, rfl⟩
  | cons step steps ih =>
    rw [trace_cons, List.forall_mem_cons] at unreplaced
    obtain ⟨g, hg, hfirst⟩ := get?_perform_of_unreplaced found unreplaced.1
    obtain ⟨e, he, hrest⟩ := ih hg unreplaced.2
    exact ⟨e, he, hrest.trans hfirst⟩

/-- **The contents of a feed are found by its position.** Wherever in a program a feed is made from
the shared source, buffer `i` has its bytes from the words behind those that the feeds made before
it have taken, and behind `i` buffers of its own; and it keeps them for as long as the feed's name
is not given to another. A feed is refused exactly when it does not fit, from whichever source. A
feed that is refused leaves all as it was; one of buffers without bytes, and one that is made from
entropy, leave the shared source where it was. -/
theorem contents_by_position (source : Source) (earlier later : List Step) (name : String)
    (count size : UInt64)
    (unreplaced : ∀ e ∈ ((start source).after (earlier ++ [.make name count size])).trace later,
      placed? e ≠ some name) :
    let p := (start source).after earlier
    let r := p.perform (.make name count size)
    let width := source.stream.width
    let position := source.position + wordsTaken width ((start source).trace earlier)
    p.source = ⟨source.stream, position⟩ ∧
    (r.1 = .overflow ↔
      2 ^ 63 - 1 < count.toNat * 24 ∨ 0 < count.toNat ∧ 2 ^ 63 - 1 < size.toNat) ∧
    (r.1 = .overflow → r.2 = p) ∧
    (size = 0 → r.2.source = p.source) ∧
    (∀ key,
      let fresh := p.perform (.makeFresh name count size key)
      (fresh.1 = .overflow ↔
        2 ^ 63 - 1 < count.toNat * 24 ∨ 0 < count.toNat ∧ 2 ^ 63 - 1 < size.toNat) ∧
      (fresh.1 = .overflow → fresh.2 = p) ∧ fresh.2.source = p.source) ∧
    (r.1 ≠ .overflow → r.1 = .made ∧
      ∃ f, ((start source).after (earlier ++ .make name count size :: later)).shelf.get? name =
          some f ∧
        f.count = count.toNat ∧
        ∀ i < count.toNat, f.buffers[i]? =
          some (((List.range' (position + i * (size.toNat ⌈/⌉ width))
            (size.toNat ⌈/⌉ width)).flatMap source.stream.word).take size.toNat)) := by
  intro p r width position
  have hsource : p.source = ⟨source.stream, position⟩ := source_after (start source) earlier
  have hsplit : (start source).after (earlier ++ .make name count size :: later) =
      r.2.after later := after_append _ _ _
  have hlater : (start source).after (earlier ++ [.make name count size]) = r.2 :=
    after_append _ _ _
  rw [hlater] at unreplaced
  have hfresh := p.perform_makeFresh name count size
  rw [unfit_iff] at hfresh
  rw [hsplit]
  refine ⟨hsource, ?_⟩
  cases hmade : Feed.generate count.toNat size.toNat .supplied p.source with
  | none =>
    have hunfit := Feed.generate_eq_none_iff.mp hmade
    have hr : r = (.overflow, p) := perform_make_of_unfit hunfit p name
    rw [hr]
    exact ⟨iff_of_true rfl (unfit_iff.mp hunfit), fun _ => rfl, fun _ => rfl, hfresh,
      fun h => absurd rfl h⟩
  | some made =>
    obtain ⟨f, rest⟩ := made
    obtain ⟨hfits, -, hrest⟩ := Feed.generate_eq_some_iff.mp hmade
    have hr : r = (.made, ⟨p.shelf.put name f, rest⟩) := perform_make_of_made hmade name
    rw [hr] at unreplaced ⊢
    refine ⟨iff_of_false (nomatch ·) fun h => unfit_iff.mpr h hfits, (nomatch ·), ?_,
      hfresh, fun _ => ⟨rfl, ?_⟩⟩
    · rintro rfl
      rw [hrest, UInt64.toNat_zero, zero_ceilDiv, Nat.mul_zero, Source.skip_zero]
    · obtain ⟨g, hg, hbuffers⟩ :=
        get?_after_of_unreplaced (p.shelf.get?_put_self name f) unreplaced
      refine ⟨g, hg, ?_, fun i hi => ?_⟩
      · rw [Feed.count, hbuffers]
        exact Feed.count_of_generate hmade
      · rw [hbuffers, Feed.getElem?_buffers_of_generate hmade hi, hsource]
        rfl

/-- A feed, one that cannot be addressed, a read, and a feed from entropy. -/
def begun : List Step :=
  [.make "a" 2 3, .make "b" 1 0x8000000000000000, .act "a" .next,
    .makeFresh "a" 0 7 (.ofBytes [])]

/-- A read, a feed under another name, and one that cannot be addressed. -/
def resumed : List Step := [.act "b" .next, .make "a" 1 1, .make "b" 1 0x8000000000000000]

/-- Among words of eight bytes, and behind two that were taken, a buffer of nine bytes takes two
words and drops seven bytes of the second. -/
theorem contents_by_position_rounded :
    let s := start ⟨.arithmetic 1 1, 0⟩
    (∀ e ∈ (s.after (begun ++ [.make "b" 2 9])).trace resumed, placed? e ≠ some "b") ∧
      (s.after begun).source = ⟨.arithmetic 1 1, 2⟩ ∧
      ∃ f, (s.after (begun ++ .make "b" 2 9 :: resumed)).shelf.get? "b" = some f ∧
        f.buffers[1]? = some [5, 0, 0, 0, 0, 0, 0, 0, 6] := by
  intro s
  have unreplaced : ∀ e ∈ (s.after (begun ++ [.make "b" 2 9])).trace resumed,
      placed? e ≠ some "b" := by decide
  obtain ⟨hsource, hrefused, -, -, -, hmade⟩ :=
    contents_by_position ⟨.arithmetic 1 1, 0⟩ begun resumed "b" 2 9 unreplaced
  have hfits : ¬ (2 ^ 63 - 1 < (2 : UInt64).toNat * 24 ∨
      0 < (2 : UInt64).toNat ∧ 2 ^ 63 - 1 < (9 : UInt64).toNat) := by decide
  obtain ⟨-, f, hf, -, hbuffers⟩ := hmade fun h => hfits (hrefused.mp h)
  refine ⟨unreplaced, hsource, f, hf, ?_⟩
  exact hbuffers 1 (by decide)

end BufferFeed.Shelf.Program

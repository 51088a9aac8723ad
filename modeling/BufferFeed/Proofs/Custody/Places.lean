import BufferFeed.Custody
import BufferFeed.Proofs.Feed.Reading
import BufferFeed.Proofs.SlotTable.Ledger

/-!
# Where feeds are

A feed stands behind a handle of the table, or is kept under a name, or has been dropped. Where a
step takes it can be read off the step and the reply, without the feeds themselves: a removal
carries the feed behind the handle to the name it is kept as, a reinsertion carries it to the handle
that is issued, and a feed whose name is given to another is dropped (`Place.moved`).

`Effect` is what one step can do to the feeds at all places: nothing, one feed made, one feed asked,
one feed carried from place to place. A run has one effect after the other (`effects_after`), and
two laws come of that: a feed is found where it was carried to, read on by what was answered on its
way (`Effects.readOn`), and of all feeds no two are in one place (`Effects.tallies`).
-/

namespace BufferFeed.Custody

variable {c d : Custody} {f g : Feed} {h : Handle} {name : String}

/-! ## Runs -/

/-- An empty table, with feeds on the shelf that were made elsewhere. -/
def opening (kept : Shelf) (source : Source) : Custody := ⟨.empty, kept, source⟩

/-- What a run leaves. -/
def after (c : Custody) (steps : List Step) : Custody :=
  steps.foldl (fun c step => (c.perform step).2) c

/-- The steps of a run, each with the reply it got. -/
def trace (c : Custody) (steps : List Step) : List (Step × Reply) :=
  steps.zip ((c.run steps).map Prod.fst)

theorem trace_cons (c : Custody) (step : Step) (steps : List Step) :
    c.trace (step :: steps) = (step, (c.perform step).1) :: (c.perform step).2.trace steps := rfl

theorem after_append (c : Custody) (earlier later : List Step) :
    c.after (earlier ++ later) = (c.after earlier).after later := List.foldl_append

theorem trace_append (c : Custody) (earlier later : List Step) :
    c.trace (earlier ++ later) = c.trace earlier ++ (c.after earlier).trace later := by
  induction earlier generalizing c with
  | nil => rfl
  | cons step steps ih =>
    rw [List.cons_append, trace_cons, ih, ← List.cons_append, ← trace_cons]
    rfl

/-! ## The table -/

/-- The handle that a step was issued, if it was. -/
def issued : Step × Reply → List Handle
  | (_, .issued handle) => [handle]
  | _ => []

/-- The handle that a step gave up, if it did. -/
def released : Step × Reply → List Handle
  | (.remove handle _, .removed _) => [handle]
  | _ => []

theorem perform_change (c : Custody) (step : Step) :
    c.table.Change (issued (step, (c.perform step).1)) (released (step, (c.perform step).1))
      (c.perform step).2.table := by
  cases step with
  | insert count size =>
    cases hmade : Feed.generate count.toNat size.toNat .supplied c.source with
    | none =>
      simp only [perform, hmade]
      exact .nothing
    | some made =>
      simp only [perform, hmade]
      exact .insert made.1
  | lend handle action =>
    cases found : c.table.get? handle with
    | none =>
      simp only [perform, SlotTable.lend_of_get?_eq_none found]
      exact .nothing
    | some f =>
      simp only [perform, SlotTable.lend_of_get? found]
      exact .rewrite found _
  | remove handle keepAs =>
    cases found : c.table.get? handle with
    | none =>
      simp only [perform, SlotTable.remove_of_get?_eq_none found]
      exact .nothing
    | some f =>
      simp only [perform, SlotTable.remove_of_get? found]
      exact .vacate found
  | reinsert name =>
    cases found : c.kept.get? name with
    | none =>
      simp only [perform, found]
      exact .nothing
    | some f =>
      simp only [perform, found]
      exact .insert f
  | act name action =>
    cases found : c.kept.get? name with
    | none =>
      simp only [perform, found]
      exact .nothing
    | some f =>
      simp only [perform, found]
      exact .nothing

/-- **What a run does to the table is what its replies say.** -/
theorem changes_after (c : Custody) (steps : List Step) :
    c.table.Changes ((c.trace steps).flatMap issued) ((c.trace steps).flatMap released)
      (c.after steps).table := by
  induction steps generalizing c with
  | nil => exact .nothing
  | cons step steps ih =>
    rw [trace_cons, List.flatMap_cons, List.flatMap_cons]
    exact .change (c.perform_change step) (ih (c.perform step).2)

/-! ## Places -/

/-- Where a feed can be. -/
inductive Place
  | live (handle : Handle)
  | kept (name : String)
  /-- Out of reach: it was not kept, or its name was given to another. -/
  | dropped
deriving DecidableEq, Repr

/-- The feed at a place. -/
def feedAt? (c : Custody) : Place → Option Feed
  | .live handle => c.table.get? handle
  | .kept name => c.kept.get? name
  | .dropped => none

/-- What a step asks of a feed, and of the feed at which place. -/
def Step.ask? : Step → Option (Place × Feed.Action)
  | .lend handle action => some (.live handle, action)
  | .act name action => some (.kept name, action)
  | _ => none

/-- What a feed answered. -/
def Reply.result? : Reply → Option (Except Failure Feed.Answer)
  | .lent result _ | .answer result => some result
  | _ => none

/-- The buffers that a reply hands over. -/
def Reply.buffers (reply : Reply) : List Bytes :=
  match reply.result? with
  | some (.ok given) => given.buffers
  | _ => []

/-- The place that a step takes a feed from, and the place that it takes it to. -/
def carried? : Step × Reply → Option (Place × Place)
  | (.remove handle keepAs, .removed _) => some (.live handle, keepAs.elim .dropped .kept)
  | (.reinsert name, .issued handle) => some (.kept name, .live handle)
  | _ => none

/-- The place of a feed that a step has made. -/
def made? : Step × Reply → Option Place
  | (.insert _ _, .issued handle) => some (.live handle)
  | _ => none

namespace Place

variable {p : Place}

/-- Where a feed is after a step. -/
def moved (p : Place) (e : Step × Reply) : Place :=
  match carried? e with
  | some (a, b) => if p = a then b else if p = b then .dropped else p
  | none => p

/-- Where a feed is after a run. -/
def after (p : Place) (seen : List (Step × Reply)) : Place := seen.foldl moved p

/-- The buffers that a step takes from the feed at a place. -/
def received (p : Place) (e : Step × Reply) : List Bytes :=
  if e.1.ask?.map Prod.fst = some p then e.2.buffers else []

/-- The buffers that a run takes from the feed that begins at a place, wherever it is carried. -/
def got (p : Place) : List (Step × Reply) → List Bytes
  | [] => []
  | e :: seen => p.received e ++ (p.moved e).got seen

end Place

/-! ## What one step can do -/

/-- The ways the feeds at all places can change in one step. -/
inductive Effect (c : Custody) (e : Step × Reply) (d : Custody) : Prop
  /-- What was asked for was refused, or there was nothing to ask. -/
  | nothing (quiet : e.2.buffers = []) (still : carried? e = none) (unmade : made? e = none)
      (feeds : ∀ y, d.feedAt? y = c.feedAt? y)
  | making {x : Place} {f : Feed} (quiet : e.2.buffers = []) (still : carried? e = none)
      (made : made? e = some x) (vacant : c.feedAt? x = none)
      (feeds : ∀ y, d.feedAt? y = if y = x then some f else c.feedAt? y)
  | asking {x : Place} {f : Feed} {action : Feed.Action} (asked : e.1.ask? = some (x, action))
      (answered : e.2.result? = some (f.perform action).1) (still : carried? e = none)
      (unmade : made? e = none) (found : c.feedAt? x = some f)
      (feeds : ∀ y, d.feedAt? y = if y = x then some (f.perform action).2 else c.feedAt? y)
  | carrying {a b : Place} {f : Feed} (quiet : e.2.buffers = [])
      (carried : carried? e = some (a, b))
      (unmade : made? e = none) (apart : a ≠ b) (found : c.feedAt? a = some f)
      (feeds : ∀ y, y ≠ .dropped →
        d.feedAt? y = if y = b then some f else if y = a then none else c.feedAt? y)

theorem feedAt?_of_live {o : Option Feed} (hkept : d.kept = c.kept)
    (htable : ∀ g, d.table.get? g = if g = h then o else c.table.get? g) (y : Place) :
    d.feedAt? y = if y = .live h then o else c.feedAt? y := by
  cases y with
  | live g =>
    simp only [feedAt?, Place.live.injEq]
    exact htable g
  | kept other => simp only [feedAt?, hkept, reduceCtorEq, if_false]
  | dropped => simp only [feedAt?, reduceCtorEq, if_false]

theorem feedAt?_of_kept {o : Option Feed} (htable : d.table = c.table)
    (hkept : ∀ other, d.kept.get? other = if other = name then o else c.kept.get? other)
    (y : Place) : d.feedAt? y = if y = .kept name then o else c.feedAt? y := by
  cases y with
  | live g => simp only [feedAt?, htable, reduceCtorEq, if_false]
  | kept other =>
    simp only [feedAt?, Place.kept.injEq]
    exact hkept other
  | dropped => simp only [feedAt?, reduceCtorEq, if_false]

/-- **One step makes one feed, asks one feed, carries one feed, or does nothing.** -/
theorem perform_effect (ht : c.table.WellFormed) (room : c.table.slots.size < 2 ^ 32)
    (step : Step) : c.Effect (step, (c.perform step).1) (c.perform step).2 := by
  cases step with
  | insert count size =>
    cases hmade : Feed.generate count.toNat size.toNat .supplied c.source with
    | none =>
      simp only [perform, hmade]
      exact .nothing rfl rfl rfl fun _ => rfl
    | some made =>
      simp only [perform, hmade]
      exact .making rfl rfl rfl (SlotTable.get?_insert_fresh ht room made.1)
        (feedAt?_of_live rfl (SlotTable.get?_insert ht room made.1))
  | lend handle action =>
    cases found : c.table.get? handle with
    | none =>
      simp only [perform, SlotTable.lend_of_get?_eq_none found]
      exact .nothing rfl rfl rfl fun _ => rfl
    | some f =>
      simp only [perform, SlotTable.lend_of_get? found]
      exact .asking rfl rfl rfl rfl found (feedAt?_of_live rfl (SlotTable.get?_setContent found _))
  | remove handle keepAs =>
    cases found : c.table.get? handle with
    | none =>
      simp only [perform, SlotTable.remove_of_get?_eq_none found]
      exact .nothing rfl rfl rfl fun _ => rfl
    | some f =>
      simp only [perform, SlotTable.remove_of_get? found]
      cases keepAs with
      | none =>
        refine .carrying rfl rfl rfl (nomatch ·) found fun y hy => ?_
        rw [Option.elim_none, if_neg hy]
        refine feedAt?_of_live ?_ ?_ y
        · rfl
        · exact SlotTable.get?_vacate found
      | some name =>
        refine .carrying rfl rfl rfl (nomatch ·) found fun y _ => ?_
        cases y with
        | live g =>
          simp only [feedAt?, Place.live.injEq, Option.elim_some, reduceCtorEq, if_false]
          exact SlotTable.get?_vacate found g
        | kept other =>
          simp only [feedAt?, Place.kept.injEq, Option.elim_some, reduceCtorEq, if_false]
          exact c.kept.get?_put name other f
        | dropped => rfl
  | reinsert name =>
    cases found : c.kept.get? name with
    | none =>
      simp only [perform, found]
      exact .nothing rfl rfl rfl fun _ => rfl
    | some f =>
      simp only [perform, found]
      refine .carrying rfl rfl rfl (nomatch ·) found fun y _ => ?_
      cases y with
      | live g =>
        simp only [feedAt?, Place.live.injEq, reduceCtorEq, if_false]
        exact SlotTable.get?_insert ht room f g
      | kept other =>
        simp only [feedAt?, Place.kept.injEq, reduceCtorEq, if_false]
        exact c.kept.get?_erase name other
      | dropped => rfl
  | act name action =>
    cases found : c.kept.get? name with
    | none =>
      simp only [perform, found]
      exact .nothing rfl rfl rfl fun _ => rfl
    | some f =>
      simp only [perform, found]
      exact .asking rfl rfl rfl rfl found
        (feedAt?_of_kept rfl fun other => c.kept.get?_put name other _)

/-- One effect after the other. -/
inductive Effects : Custody → List (Step × Reply) → Custody → Prop
  | nothing {c : Custody} : Effects c [] c
  | step {c d t : Custody} {e : Step × Reply} {seen : List (Step × Reply)} (first : c.Effect e d)
      (later : Effects d seen t) : Effects c (e :: seen) t

/-- **Every run is of this kind**, as long as the indices last. -/
theorem effects_after (ht : c.table.WellFormed) (steps : List Step)
    (room : (c.after steps).table.slots.size < 2 ^ 32) :
    c.Effects (c.trace steps) (c.after steps) := by
  induction steps generalizing c with
  | nil => exact .nothing
  | cons step steps ih =>
    have hroom := Nat.lt_of_le_of_lt ((c.perform step).2.changes_after steps).size_le room
    have hchange := c.perform_change step
    have hstep := perform_effect ht (Nat.lt_of_le_of_lt hchange.size_le hroom) step
    exact .step hstep (ih (hchange.wellFormed ht hroom) room)

/-! ## A feed is found where it was carried to -/

section Following

variable {p : Place} {e : Step × Reply}

theorem Place.moved_of_still (still : carried? e = none) (p : Place) : p.moved e = p := by
  simp only [moved, still]

theorem Place.moved_of_carried {a b : Place} (carried : carried? e = some (a, b)) (p : Place) :
    p.moved e = if p = a then b else if p = b then .dropped else p := by
  simp only [moved, carried]

/-- What was dropped is never taken up again. -/
theorem Place.moved_dropped (e : Step × Reply) : dropped.moved e = dropped := by
  unfold moved
  split
  · rename_i a b carried
    unfold carried? at carried
    split at carried
    · cases carried
      simp only [reduceCtorEq, if_false, ite_self]
    · cases carried
      rfl
    · cases carried
  · rfl

theorem Place.received_dropped (e : Step × Reply) : dropped.received e = [] := by
  obtain ⟨step, reply⟩ := e
  cases step <;> rfl

theorem Place.received_of_quiet (quiet : e.2.buffers = []) (p : Place) : p.received e = [] := by
  simp only [received, quiet, ite_self]

theorem Place.after_dropped (seen : List (Step × Reply)) : dropped.after seen = dropped := by
  induction seen with
  | nil => rfl
  | cons e seen ih =>
    show (dropped.moved e).after seen = dropped
    rw [moved_dropped, ih]

theorem Place.got_dropped (seen : List (Step × Reply)) : dropped.got seen = [] := by
  induction seen with
  | nil => rfl
  | cons e seen ih => rw [got, received_dropped, moved_dropped, ih, List.append_nil]

theorem ne_dropped (found : c.feedAt? p = some f) : p ≠ .dropped := by
  rintro rfl
  cases found

/-- **A step takes from a feed what is then no longer ahead, and takes the feed where it says.** -/
theorem Effect.readOn (k : c.Effect e d) (found : c.feedAt? p = some f) :
    ∃ g, f.ReadOn (p.received e) g ∧ (p.moved e = .dropped ∨ d.feedAt? (p.moved e) = some g) := by
  cases k with
  | nothing quiet still unmade feeds =>
    rw [p.received_of_quiet quiet, p.moved_of_still still, feeds]
    exact ⟨f, .refl f, .inr found⟩
  | making quiet still made vacant feeds =>
    rw [p.received_of_quiet quiet, p.moved_of_still still, feeds, if_neg]
    · exact ⟨f, .refl f, .inr found⟩
    · rintro rfl
      rw [vacant] at found
      cases found
  | @asking x g action asked answered still unmade hx feeds =>
    rw [p.moved_of_still still, feeds, Place.received, asked]
    by_cases hp : p = x
    · subst hp
      rw [hx] at found
      cases found
      have htaken : e.2.buffers = f.taken action := by
        rw [Reply.buffers, answered, Feed.taken]
        split
        · rename_i given hgiven
          rw [Option.some.inj hgiven]
        · rename_i hnone
          split
          · rename_i given hgiven
            exact absurd (congrArg some hgiven) (hnone given)
          · rfl
      rw [Option.map_some, if_pos rfl, if_pos rfl, htaken]
      exact ⟨_, .perform f action, .inr rfl⟩
    · have hne : some x ≠ some p := fun h => hp (Option.some.inj h).symm
      rw [Option.map_some, if_neg hne, if_neg hp]
      exact ⟨f, .refl f, .inr found⟩
  | @carrying a b g quiet carried unmade apart ha feeds =>
    rw [p.received_of_quiet quiet, Place.moved_of_carried carried p]
    refine ⟨f, .refl f, ?_⟩
    by_cases hp : p = a
    · subst hp
      rw [ha] at found
      cases found
      rw [if_pos rfl]
      by_cases hb : b = .dropped
      · exact .inl hb
      · exact .inr ((feeds b hb).trans (if_pos rfl))
    · rw [if_neg hp]
      by_cases hb : p = b
      · exact .inl (if_pos hb)
      · rw [if_neg hb, feeds p (ne_dropped found), if_neg hb, if_neg hp]
        exact .inr found

/-- **A run takes from a feed what is then no longer ahead**, wherever the feed is carried; and the
feed is found there, unless it was dropped on the way. -/
theorem Effects.readOn {seen : List (Step × Reply)} (k : c.Effects seen d)
    (found : c.feedAt? p = some f) :
    ∃ g, f.ReadOn (p.got seen) g ∧
      (p.after seen = .dropped ∨ d.feedAt? (p.after seen) = some g) := by
  induction k generalizing p f with
  | nothing => exact ⟨f, .refl f, .inr found⟩
  | @step c d t e seen first later ih =>
    obtain ⟨g, hfirst, hdropped | hg⟩ := first.readOn found
    · refine ⟨g, ?_, .inl ?_⟩
      · rw [Place.got, hdropped, Place.got_dropped, List.append_nil]
        exact hfirst
      · show (p.moved e).after seen = .dropped
        rw [hdropped, Place.after_dropped]
    · obtain ⟨k, hlater, hplace⟩ := ih hg
      exact ⟨k, hfirst.trans hlater, hplace⟩

end Following

/-! ## No two feeds are in one place -/

section Whereabouts

variable {e : Step × Reply} {places : List Place}

/-- Where the feeds of a row are after a step; a feed that it makes comes last. -/
def placed (places : List Place) (e : Step × Reply) : List Place :=
  places.map (·.moved e) ++ (made? e).toList

/-- Where all feeds are after a run, those that it began with and, in order, those it has made. -/
def whereabouts (places : List Place) (seen : List (Step × Reply)) : List Place :=
  seen.foldl placed places

/-- Every place but that of the dropped ones has one feed in the row if it holds a feed, and else
none. -/
def Tallies (c : Custody) (places : List Place) : Prop :=
  ∀ x, x ≠ .dropped → places.count x = if (c.feedAt? x).isSome then 1 else 0

theorem placed_of_still (still : carried? e = none) (places : List Place) :
    placed places e = places ++ (made? e).toList := by
  simp only [placed, Place.moved_of_still still, List.map_id']

/-- One feed is carried; of the place that it comes to, the feed that was there is dropped. -/
theorem count_placed_of_carried {a b x : Place} (carried : carried? e = some (a, b))
    (unmade : made? e = none) (apart : a ≠ b) (ha : a ≠ .dropped) (hx : x ≠ .dropped) :
    (placed places e).count x = if x = b then places.count a else if x = a then 0
      else places.count x := by
  simp only [placed, unmade, Option.toList_none, List.append_nil, List.count_eq_countP,
    List.countP_map]
  by_cases hb : x = b
  · rw [if_pos hb]
    refine List.countP_congr fun y _ => ?_
    simp only [Function.comp_apply, Place.moved_of_carried carried, beq_iff_eq, hb]
    split
    · rename_i hy
      exact iff_of_true rfl hy
    · rename_i hy
      refine iff_of_false ?_ hy
      split
      · exact fun h => hx (hb.trans h.symm)
      · assumption
  · rw [if_neg hb]
    by_cases hxa : x = a
    · rw [if_pos hxa, List.countP_eq_zero]
      intro y _
      simp only [Function.comp_apply, Place.moved_of_carried carried, beq_iff_eq, hxa]
      split
      · exact Ne.symm apart
      · split
        · exact Ne.symm ha
        · assumption
    · rw [if_neg hxa]
      refine List.countP_congr fun y _ => ?_
      simp only [Function.comp_apply, Place.moved_of_carried carried, beq_iff_eq]
      split
      · rename_i hy
        exact iff_of_false (fun h => hb h.symm) fun h => hxa (h.symm.trans hy)
      · split
        · rename_i hy
          exact iff_of_false (fun h => hx h.symm) fun h => hb (h.symm.trans hy)
        · exact Iff.rfl

/-- **A step keeps the tally.** -/
theorem Effect.tallies (k : c.Effect e d) (l : c.Tallies places) :
    d.Tallies (placed places e) := by
  intro x hx
  have hold := l x hx
  cases k with
  | nothing quiet still unmade feeds =>
    rw [placed_of_still still, unmade, Option.toList_none, List.append_nil, feeds, hold]
  | @making y f quiet still made vacant feeds =>
    rw [placed_of_still still, made, Option.toList_some, List.count_append, hold, feeds,
      List.count_singleton]
    by_cases hy : x = y
    · rw [if_pos hy, hy, vacant]
      simp only [Option.isSome_none, Bool.false_eq_true, if_false, beq_self_eq_true, if_true,
        Option.isSome_some]
    · have hne : (y == x) = false := beq_false_of_ne fun h => hy h.symm
      rw [if_neg hy, hne]
      rfl
  | @asking y f action asked answered still unmade found feeds =>
    rw [placed_of_still still, unmade, Option.toList_none, List.append_nil, hold, feeds]
    by_cases hy : x = y
    · rw [if_pos hy, hy, found]
      rfl
    · rw [if_neg hy]
  | @carrying a b f quiet carried unmade apart found feeds =>
    have ha := l a (ne_dropped found)
    rw [found] at ha
    rw [count_placed_of_carried carried unmade apart (ne_dropped found) hx, feeds x hx, ha, hold]
    split
    · rfl
    · split <;> rfl

/-- **No two feeds are ever in one place**, and a place holds a feed exactly when one was carried
there and not away. -/
theorem Effects.tallies {seen : List (Step × Reply)} (k : c.Effects seen d)
    (l : c.Tallies places) : d.Tallies (whereabouts places seen) := by
  induction k generalizing places with
  | nothing => exact l
  | step first later ih => exact ih (first.tallies l)

/-- A feed keeps its number among the whereabouts. -/
theorem getElem?_whereabouts {p : Place} {i : Nat} (hi : places[i]? = some p)
    (seen : List (Step × Reply)) : (whereabouts places seen)[i]? = some (p.after seen) := by
  induction seen generalizing places p with
  | nil => exact hi
  | cons e seen ih =>
    have hlt : i < (places.map (·.moved e)).length := by
      rw [List.length_map]
      exact (List.getElem?_eq_some_iff.mp hi).1
    refine ih (p := p.moved e) ?_
    rw [placed, List.getElem?_append_left hlt, List.getElem?_map, hi]
    rfl

end Whereabouts

end BufferFeed.Custody

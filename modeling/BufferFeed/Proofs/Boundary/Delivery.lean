import BufferFeed.Proofs.Boundary.Exceptions
import BufferFeed.Proofs.Boundary.Taking

/-!
# What reads from Java deliver and lose

A feed is read by one client in Java, in machines with any faults and with anything pending, while
others do what they like with other handles. The cursor moves before the machine is asked, so the
`i`-th read uses up the `i`-th buffer ahead, whatever the machine does (`get?_read`). What the
machine does decides only what becomes of this buffer: it is delivered, or its place is taken by
zeros, or it is lost and the client is told so (`Read.delivered`, `Read.lost`).

So what arrives is what was ahead, in order, with the buffers of the spoiled reads left out.
-/

namespace BufferFeed

namespace Jvm

/-- The machine gives an array for contents, if an array can be so long: each function that it takes
is there, none comes back empty-handed, and nothing is pending. -/
structure Gives (faults : List Fault) (pending : Option Throwable) : Prop where
  newByteArray : .missing .newByteArray ∉ faults
  array : .nullArray ∉ faults ∧ .outOfMemory ∉ faults
  exceptionCheck : .missing .exceptionCheck ∉ faults
  clear : pending = none
  setByteArrayRegion : .missing .setByteArrayRegion ∉ faults

theorem gives_iff {faults : List Fault} {pending : Option Throwable} {length : Nat}
    (small : length < 2 ^ 31) :
    Gives faults pending ↔ arrayError? faults pending length = none := by
  have hlength : ¬ 2 ^ 31 ≤ length % 2 ^ 32 := by omega
  rw [arrayError?_eq_none_iff, or_iff_right hlength, not_or, Option.not_isSome_iff_eq_none]
  constructor
  · rintro ⟨hnew, ⟨hnull, hmemory⟩, hcheck, hclear, hregion⟩
    exact ⟨hnew, hcheck, ⟨hmemory, hclear⟩, hnull, hregion⟩
  · rintro ⟨hnew, hcheck, ⟨hmemory, hclear⟩, hnull, hregion⟩
    exact ⟨hnew, ⟨hnull, hmemory⟩, hcheck, hclear, hregion⟩

instance (faults : List Fault) (pending : Option Throwable) : Decidable (Gives faults pending) :=
  decidable_of_iff _ (gives_iff (Nat.two_pow_pos 31)).symm

/-- The machine gives an array, and the array holds the contents. -/
def Delivers (faults : List Fault) (pending : Option Throwable) : Prop :=
  Gives faults pending ∧ .regionRefused ∉ faults

instance (faults : List Fault) (pending : Option Throwable) :
    Decidable (Delivers faults pending) := by
  unfold Delivers
  infer_instance

end Jvm

namespace Boundary

open JavaSurface (Call)

/-- A read as it came to the boundary, in a machine with these faults. -/
structure Read where
  faults : List Jvm.Fault
  before : Boundary

namespace Read

/-- How a read by the handle ended. -/
def run (r : Read) (h : Handle) : Run JavaSurface.Reply :=
  (Call.next h.long).act r.faults r.before

/-- The array that a read by the handle was answered. -/
def array? (h : Handle) (r : Read) : Option Bytes :=
  match (r.run h).ending with
  | .value (.array contents) => contents
  | _ => none

def Delivers (r : Read) : Prop := Jvm.Delivers r.faults r.before.pending

instance (r : Read) : Decidable r.Delivers := by
  unfold Delivers
  infer_instance

end Read

/-- The read from Java by the handle that a step is. -/
def Step.read? (h : Handle) : Step → Option (List Jvm.Fault)
  | .fromJava faults (.next long) => if long = h.long then some faults else none
  | _ => none

/-- The reads from Java by the handle, in order. -/
def reads (h : Handle) (s : Boundary) : List Step → List Read
  | [] => []
  | step :: steps =>
    ((step.read? h).map fun faults => ⟨faults, s⟩).toList ++ reads h (step.act s).state steps

variable {s : Boundary} {h : Handle} {f g : Feed} {steps : List Step}

theorem reads_cons_read (faults : List Jvm.Fault) (s : Boundary) (steps : List Step) :
    reads h s (.fromJava faults (.next h.long) :: steps) =
      ⟨faults, s⟩ :: reads h ((Step.fromJava faults (.next h.long)).act s).state steps := by
  rw [reads, Step.read?, if_pos rfl]
  rfl

theorem reads_cons_other {step : Step} (other : step.handle? ≠ some h) (s : Boundary)
    (steps : List Step) : reads h s (step :: steps) = reads h (step.act s).state steps := by
  have hnone : step.read? h = none := by
    unfold Step.read?
    split
    · rename_i faults long
      rw [if_neg]
      rintro rfl
      exact other (congrArg some h.ofLong_long)
    · rfl
  rw [reads, hnone]
  rfl

/-! ## What a read uses up -/

theorem taken_read (found : s.table.get? h = some f) (faults : List Jvm.Fault) :
    (Step.fromJava faults (.next h.long)).taken s h = f.ahead.take 1 := by
  have hdemand : (Step.fromJava faults (.next h.long)).plan.demand = .lend h .next := by
    show Demand.lend (.ofLong h.long) .next = _
    rw [Handle.ofLong_long]
  rw [Step.taken, hdemand, Demand.taken, if_pos rfl, ← Feed.taken_next]
  show (s.table.get? h).elim _ _ = _
  rw [found, Option.elim_some]

/-- A read from Java neither issues a handle nor takes one back. -/
theorem audit_read (faults : List Jvm.Fault) (s : Boundary) (h : Handle) :
    h ∉ ((Step.fromJava faults (.next h.long)).act s).log.filterMap Record.issued? ∧
      h ∉ ((Step.fromJava faults (.next h.long)).act s).log.filterMap Record.released? := by
  rw [← Record.filterMap_issued?_filter, ← Record.filterMap_released?_filter, Step.audit_act]
  exact ⟨List.not_mem_nil, List.not_mem_nil⟩

/-- The reads by the handle, and whatever is on other handles. -/
def ReadsOnly (h : Handle) (steps : List Step) : Prop :=
  ∀ step ∈ steps, (∃ faults, step = .fromJava faults (.next h.long)) ∨ step.handle? ≠ some h

/-- **The `i`-th read finds `i` buffers gone**, and the reads together take as many as they are. -/
theorem taken_reads (found : s.table.get? h = some f) (only : ReadsOnly h steps)
    (unissued : h ∉ s.issued steps) :
    (∀ (i : Nat) (r : Read), (reads h s steps)[i]? = some r →
      ∃ g, r.before.table.get? h = some g ∧ f.ReadOn (f.ahead.take i) g) ∧
    s.taken steps h = f.ahead.take (reads h s steps).length := by
  induction steps generalizing s f with
  | nil => exact ⟨fun i r hr => (nomatch hr), List.take_zero.symm⟩
  | cons step steps ih =>
    obtain ⟨hstep, hsteps⟩ := List.forall_mem_cons.mp only
    rw [issued_cons, List.mem_append, not_or] at unissued
    rcases hstep with ⟨faults, rfl⟩ | other
    · obtain ⟨hnew, hold⟩ := audit_read faults s h
      obtain ⟨g, hg, hread⟩ := Step.readOn found hnew hold
      rw [taken_read found] at hread
      obtain ⟨hbefore, htaken⟩ := ih hg hsteps unissued.2
      rw [hread.ahead_eq_drop] at hbefore htaken
      rw [reads_cons_read, taken, taken_read found, htaken, ← List.take_add, List.length_cons,
        Nat.add_comm]
      refine ⟨fun i r hr => ?_, rfl⟩
      cases i with
      | zero =>
        cases hr
        exact ⟨f, found, .refl f⟩
      | succ i =>
        obtain ⟨e, he, hrest⟩ := hbefore i r hr
        refine ⟨e, he, ?_⟩
        rw [Nat.add_comm, List.take_add]
        exact hread.trans hrest
    · rw [reads_cons_other other, taken, Step.taken_of_handle?_ne other, List.nil_append]
      exact ih ((Step.get?_act_of_other other unissued.1).trans found) hsteps unissued.2

/-- Neither reads nor steps on other handles give a handle up. -/
theorem unreleased_of_readsOnly (only : ReadsOnly h steps) (s : Boundary) :
    h ∉ s.released steps := by
  induction steps generalizing s with
  | nil => exact List.not_mem_nil
  | cons step steps ih =>
    obtain ⟨hstep, hsteps⟩ := List.forall_mem_cons.mp only
    rw [released_cons, List.mem_append, not_or]
    refine ⟨?_, ih hsteps _⟩
    rcases hstep with ⟨faults, rfl⟩ | other
    · exact (audit_read faults s h).2
    · exact fun hr => other (Step.handle?_of_released hr)

/-- **A live handle is not issued anew** by its reads or by steps on other handles, as long as the
indices last. -/
theorem unissued_of_room (ht : s.table.WellFormed) (found : s.table.get? h = some f)
    (only : ReadsOnly h steps) (room : (s.after steps).table.slots.size < 2 ^ 32) :
    h ∉ s.issued steps :=
  unissued_of_unreleased ht found (unreleased_of_readsOnly only s) room

/-- The feed that the `i`-th read finds has the `i`-th buffer next. -/
theorem get?_read {i : Nat} {r : Read} {b : Bytes} (found : s.table.get? h = some f)
    (only : ReadsOnly h steps) (unissued : h ∉ s.issued steps)
    (hr : (reads h s steps)[i]? = some r) (hb : f.ahead[i]? = some b) :
    ∃ g, r.before.table.get? h = some g ∧ g.ahead = b :: f.ahead.drop (i + 1) ∧
      g = { f with cursor := f.cursor + i } := by
  obtain ⟨g, hg, hread⟩ := (taken_reads found only unissued).1 i r hr
  obtain ⟨hi, rfl⟩ := List.getElem?_eq_some_iff.mp hb
  refine ⟨g, hg, ?_, ?_⟩
  · rw [hread.ahead_eq_drop, List.drop_eq_getElem_cons hi]
  · rw [hread.eq_moved, List.length_take_of_le (Nat.le_of_lt hi)]

theorem get?_read_of_none {i : Nat} {r : Read} (found : s.table.get? h = some f)
    (only : ReadsOnly h steps) (unissued : h ∉ s.issued steps)
    (hr : (reads h s steps)[i]? = some r) (hnone : f.ahead[i]? = none) :
    ∃ g, r.before.table.get? h = some g ∧ g.ahead = [] := by
  obtain ⟨g, hg, hread⟩ := (taken_reads found only unissued).1 i r hr
  refine ⟨g, hg, ?_⟩
  rw [hread.ahead_eq_drop, List.drop_eq_nil_iff]
  exact List.getElem?_eq_none_iff.mp hnone

/-! ## What becomes of a read -/

namespace Read

variable {r : Read} {b : Bytes} {bs : List Bytes}

/-- Whatever the machine does, the read takes the next buffer. -/
theorem taken (found : r.before.table.get? h = some g) (more : g.ahead = b :: bs) :
    (Step.fromJava r.faults (.next h.long)).taken r.before h = [b] ∧
      (r.run h).state.table.get? h = some g.advanced := by
  obtain ⟨hnew, hold⟩ := audit_read r.faults r.before h
  obtain ⟨e, he, hread⟩ := Step.readOn found hnew hold
  have htaken := taken_read found r.faults
  rw [more, List.take_succ_cons, List.take_zero] at htaken
  rw [htaken] at hread
  rw [Step.act, Act.state_map] at he
  exact ⟨htaken, he.trans (congrArg some hread.eq_moved)⟩

/-- Where the machine gives an array, it is the answer. -/
theorem delivered (found : r.before.table.get? h = some g) (more : g.ahead = b :: bs)
    (small : b.length < 2 ^ 31) (given : Jvm.Gives r.faults r.before.pending) :
    (r.run h).ending = .value (.array (some (Jvm.written r.faults b))) := by
  rw [← h.ofLong_long] at found
  obtain ⟨es, hbody⟩ := Call.body_next_of_given found more ((Jvm.gives_iff small).mp given)
  rw [run, Call.act, JavaSurface.guarded_of_value hbody]

/-- A read whose body fails is answered with null. -/
theorem ending_run_of_failure {e : Failure}
    (failed : ((Call.next h.long).body r.faults r.before).ending = .failure e) :
    (r.run h).ending = .value (.array none) := by
  rw [run, Call.act, JavaSurface.ending_guarded]
  show Ending.value (JavaSurface.answered _ ((Call.next h.long).body r.faults r.before).ending) = _
  rw [failed]
  rfl

/-- Where it gives none, the buffer is lost. -/
theorem lost (found : r.before.table.get? h = some g) (more : g.ahead = b :: bs)
    (small : b.length < 2 ^ 31) (refused : ¬ Jvm.Gives r.faults r.before.pending) :
    ∃ e, Jvm.arrayError? r.faults r.before.pending b.length = some e ∧
      ((Call.next h.long).body r.faults r.before).ending =
        .failure (.other (.ofText (s!"could not allocate byte[{b.length}]: " ++ e.message))) := by
  obtain ⟨e, he⟩ := Option.ne_none_iff_exists'.mp fun hnone =>
    refused ((Jvm.gives_iff small).mpr hnone)
  rw [← h.ofLong_long] at found
  obtain ⟨pending, es, hbody⟩ := Call.body_next_of_error found more he
  refine ⟨e, he, ?_⟩
  rw [hbody]
  rfl

/-- Where nothing is ahead, Java learns that this is the end. -/
theorem finished (found : r.before.table.get? h = some g) (nothing : g.ahead = []) :
    ((Call.next h.long).body r.faults r.before).ending = .failure .exhausted ∧
      (r.run h).state.table = r.before.table ∧
      ((r.run h).state.pending.isSome = true ∨
        ∃ e, .raiseFailed "java/util/NoSuchElementException" e ∈ (r.run h).log) ∧
      (r.faults = [] → r.before.pending = none →
        (r.run h).state.pending =
          some ⟨"java/util/NoSuchElementException", "No more elements in iterator"⟩) := by
  rw [← h.ofLong_long] at found
  have hbody : (Call.next h.long).body r.faults r.before = ⟨.failure .exhausted, r.before, []⟩ :=
    Call.body_next_of_ahead_nil found nothing
  have hrun : r.run h = JavaSurface.guarded r.faults .next (.array none)
    ((Call.next h.long).body r.faults) r.before := rfl
  rw [hrun, JavaSurface.guarded_of_failure hbody, hbody]
  refine ⟨rfl, rfl, ?_, ?_⟩
  · rcases JavaSurface.pending_or_unraised r.faults .exhausted r.before.pending with hsome | ⟨e, he⟩
    · exact .inl hsome
    · right
      refine ⟨e, ?_⟩
      rw [Run.log, List.filterMap_append, List.filterMap_append, JavaSurface.log_reportEvents]
      exact List.mem_append_right _ (List.mem_append_right _ he)
  · intro sound clear
    rw [sound, clear]
    exact (JavaSurface.raised_of_sound .exhausted none).1

end Read

/-- What a row of readers gets out of a row of things that are handed out one by one: each thing
whose reader is one that gets it. -/
theorem filterMap_filter_eq_zip {α β : Type} (p : α → Prop) [DecidablePred p] (get? : α → Option β)
    {rs : List α} {bs : List β}
    (h : ∀ (i : Nat) (r : α), rs[i]? = some r → p r → get? r = bs[i]?) :
    (rs.filter (p ·)).filterMap get? = ((bs.zip rs).filter (p ·.2)).map Prod.fst := by
  induction rs generalizing bs with
  | nil => rw [List.zip_nil_right]; rfl
  | cons r rs ih =>
    have hhead : p r → get? r = bs[0]? := h 0 r rfl
    have htail : (rs.filter (p ·)).filterMap get? =
        ((bs.tail.zip rs).filter (p ·.2)).map Prod.fst := by
      refine ih fun i q hq hp => ?_
      rw [List.getElem?_tail]
      exact h (i + 1) q hq hp
    cases bs with
    | nil =>
      rw [List.tail_nil, List.zip_nil_left] at htail
      by_cases hp : p r
      · simp only [List.filter_cons, hp, decide_true, if_true, List.filterMap_cons, hhead hp,
          List.getElem?_nil, htail, List.zip_nil_left]
      · simp only [List.filter_cons, hp, decide_false, Bool.false_eq_true, if_false, htail,
          List.zip_nil_left]
    | cons b bs =>
      rw [List.tail_cons] at htail
      by_cases hp : p r
      · simp only [List.filter_cons, hp, decide_true, if_true, List.filterMap_cons, hhead hp,
          List.getElem?_cons_zero, htail, List.zip_cons_cons, List.map_cons]
      · simp only [List.filter_cons, hp, decide_false, Bool.false_eq_true, if_false, htail,
          List.zip_cons_cons]

/-- What is left of a row whose things are handed out comes in the order of the row. -/
theorem filter_zip_sublist {α β : Type} (p : β × α → Bool) (bs : List β) (rs : List α) :
    (((bs.zip rs).filter p).map Prod.fst).Sublist bs := by
  induction bs generalizing rs with
  | nil =>
    rw [List.zip_nil_left]
    exact List.nil_sublist _
  | cons b bs ih =>
    cases rs with
    | nil => exact List.nil_sublist _
    | cons r rs =>
      rw [List.zip_cons_cons, List.filter_cons]
      split
      · exact (ih rs).cons_cons b
      · exact (ih rs).cons b

/-- Where the machine delivers, the `i`-th read is answered the `i`-th buffer ahead, if there is
one. -/
theorem array?_read {i : Nat} {r : Read} (found : s.table.get? h = some f)
    (only : ReadsOnly h steps) (unissued : h ∉ s.issued steps)
    (small : ∀ b ∈ f.ahead, b.length < 2 ^ 31) (hr : (reads h s steps)[i]? = some r)
    (hdelivers : r.Delivers) : r.array? h = f.ahead[i]? := by
  cases hb : f.ahead[i]? with
  | some b =>
    obtain ⟨g, hg, more, -⟩ := get?_read found only unissued hr hb
    have hsmall := small b (List.mem_of_getElem? hb)
    rw [Read.array?, Read.delivered hg more hsmall hdelivers.1, Jvm.written_of_lt hsmall,
      if_neg hdelivers.2]
  | none =>
    obtain ⟨g, hg, nothing⟩ := get?_read_of_none found only unissued hr hb
    rw [Read.array?, Read.ending_run_of_failure (Read.finished hg nothing).1]

/-- **Reads from Java deliver in order what they do not lose.** The `i`-th read uses up the `i`-th
buffer that was ahead, in whatever machine. A buffer that is not too long for an array it answers
where the machine delivers, zeros in its place where only the writing was refused, and null in every
other case. So what was delivered is what was ahead, less the buffers of the other reads; and the
reads that come after the last buffer end the walk. Of the steps between the reads none is on the
handle: none names it, and none issues it, which none could as long as the indices last
(`unissued_of_room`). -/
theorem reads_deliver_in_order (source : Source) (done steps : List Step)
    (found : ((start source).after done).table.get? h = some f) (only : ReadsOnly h steps)
    (unissued : h ∉ ((start source).after done).issued steps) :
    let s := (start source).after done
    let delivered := ((reads h s steps).filter (·.Delivers)).filterMap (Read.array? h)
    (∀ (i : Nat) (r : Read), (reads h s steps)[i]? = some r →
      (∀ b, f.buffers[f.cursor + i]? = some b →
        (Step.fromJava r.faults (.next h.long)).taken r.before h = [b] ∧
        (r.run h).state.table.get? h = some { f with cursor := f.cursor + (i + 1) } ∧
        (b.length < 2 ^ 31 →
          (r.Delivers → (r.run h).ending = .value (.array (some b))) ∧
          (Jvm.Gives r.faults r.before.pending → .regionRefused ∈ r.faults →
            (r.run h).ending = .value (.array (some (List.replicate b.length 0)))) ∧
          (¬ Jvm.Gives r.faults r.before.pending →
            (r.run h).ending = .value (.array none) ∧ ∃ (e : Jvm.Error) (lost : Failure),
              Jvm.arrayError? r.faults r.before.pending b.length = some e ∧
              lost = .other (.ofText (s!"could not allocate byte[{b.length}]: " ++ e.message)) ∧
              ((Call.next h.long).body r.faults r.before).ending = .failure lost ∧
              .methodFailed .next lost ∈ (r.run h).log))) ∧
      (f.buffers[f.cursor + i]? = none →
        (r.run h).ending = .value (.array none) ∧
        ((Call.next h.long).body r.faults r.before).ending = .failure .exhausted ∧
        (r.run h).state.table = r.before.table ∧
        ((r.run h).state.pending.isSome = true ∨
          ∃ e, .raiseFailed "java/util/NoSuchElementException" e ∈ (r.run h).log) ∧
        (r.faults = [] → r.before.pending = none →
          (r.run h).state.pending =
            some ⟨"java/util/NoSuchElementException", "No more elements in iterator"⟩))) ∧
    ((∀ b ∈ f.ahead, b.length < 2 ^ 31) →
      delivered = ((f.ahead.zip (reads h s steps)).filter (·.2.Delivers)).map Prod.fst ∧
      delivered.Sublist f.ahead) ∧
    s.taken steps h = f.ahead.take (reads h s steps).length := by
  intro s delivered
  refine ⟨fun i r hr => ⟨fun b hb => ?_, fun hnone => ?_⟩, fun small => ?_,
    (taken_reads found only unissued).2⟩
  · obtain ⟨g, hg, more, rfl⟩ := get?_read found only unissued hr ((f.getElem?_ahead i).trans hb)
    obtain ⟨htaken, hafter⟩ := Read.taken hg more
    refine ⟨htaken, hafter, fun small => ⟨fun hdelivers => ?_, fun given hrefused => ?_,
      fun refused => ?_⟩⟩
    · rw [Read.delivered hg more small hdelivers.1, Jvm.written_of_lt small, if_neg hdelivers.2]
    · rw [Read.delivered hg more small given, Jvm.written_of_lt small, if_pos hrefused]
    · obtain ⟨e, herror, he⟩ := Read.lost hg more small refused
      exact ⟨Read.ending_run_of_failure he, e, _, herror, rfl, he,
        (Call.methodFailed_mem_log_iff he).mpr ⟨rfl, rfl, rfl⟩⟩
  · obtain ⟨g, hg, nothing⟩ :=
      get?_read_of_none found only unissued hr ((f.getElem?_ahead i).trans hnone)
    have hend := Read.finished hg nothing
    exact ⟨Read.ending_run_of_failure hend.1, hend⟩
  · have hdelivered : delivered =
        ((f.ahead.zip (reads h s steps)).filter (·.2.Delivers)).map Prod.fst :=
      filterMap_filter_eq_zip Read.Delivers (Read.array? h) fun i r =>
        array?_read found only unissued small
    refine ⟨hdelivered, ?_⟩
    rw [hdelivered]
    exact filter_zip_sublist _ _ _

/-- Four reads of three buffers, the first without an array, the second without its contents;
between them the feed behind another handle is given up, and the pending exception goes. -/
def spoiled : List Step :=
  [.fromJava [.nullArray] (.next (Handle.mk 0 1).long), .direct (.release ⟨1, 1⟩), .clearing,
    .fromJava [.regionRefused] (.next (Handle.mk 0 1).long), .clearing,
    .fromJava [] (.next (Handle.mk 0 1).long), .fromJava [] (.next (Handle.mk 0 1).long)]

theorem readsOnly_spoiled : ReadsOnly ⟨0, 1⟩ spoiled := by
  intro step hstep
  simp only [spoiled, List.mem_cons, List.not_mem_nil, or_false] at hstep
  rcases hstep with rfl | rfl | rfl | rfl | rfl | rfl | rfl
  · exact .inl ⟨_, rfl⟩
  · exact .inr (by decide)
  · exact .inr (by decide)
  · exact .inl ⟨_, rfl⟩
  · exact .inr (by decide)
  · exact .inl ⟨_, rfl⟩
  · exact .inl ⟨_, rfl⟩

/-- Of the three buffers the last one arrives, and all three are used up. -/
theorem reads_deliver_in_order_spoiled :
    let s := (start ⟨.counting 1 1, 0⟩).after [.direct (.register 3 1), .direct (.register 1 1)]
    s.table.get? ⟨0, 1⟩ = some ⟨#[[1], [2], [3]], 1, 0, .supplied⟩ ∧ ReadsOnly ⟨0, 1⟩ spoiled ∧
      ⟨0, 1⟩ ∉ s.issued spoiled ∧
      ((reads ⟨0, 1⟩ s spoiled).filter (·.Delivers)).filterMap (Read.array? ⟨0, 1⟩) = [[3]] ∧
      s.taken spoiled ⟨0, 1⟩ = [[1], [2], [3]] := by
  have found : ((start ⟨.counting 1 1, 0⟩).after
      [.direct (.register 3 1), .direct (.register 1 1)]).table.get? ⟨0, 1⟩ =
        some ⟨#[[1], [2], [3]], 1, 0, .supplied⟩ := by decide
  have unissued : ⟨0, 1⟩ ∉ ((start ⟨.counting 1 1, 0⟩).after
      [.direct (.register 3 1), .direct (.register 1 1)]).issued spoiled :=
    unissued_of_room (wellFormed_after .empty _ (by decide)) found readsOnly_spoiled (by decide)
  obtain ⟨-, hsmall, htaken⟩ :=
    reads_deliver_in_order ⟨.counting 1 1, 0⟩ _ spoiled found readsOnly_spoiled unissued
  obtain ⟨hdelivered, -⟩ := hsmall (by decide)
  refine ⟨found, readsOnly_spoiled, unissued, hdelivered.trans ?_, htaken.trans ?_⟩
  · decide
  · decide

end Boundary

end BufferFeed

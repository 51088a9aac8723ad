import BufferFeed.Proofs.Boundary.Operations
import BufferFeed.Proofs.Boundary.History
import BufferFeed.Proofs.SlotTable.Holdings

/-!
# Two surfaces, one iterator

Through whichever surface the operations of a program go, the table becomes the same: an operation
asks the same of the table on both sides (`Surface.stock_after_steps`), so two programs of the same
operations keep step, however each of them is spread over the surfaces (`stock_after_program`).

It ends in the same way too (`operation_agrees`), and so a client learns the same from either side
(`Operation.Agree`). What C says by a code, Java says by the class of the exception that is pending;
what C writes to a destination, Java finds in an array, and the destination holds all of it if it
has room for the buffers of the feed.

A feed may have buffers that are too long for an array of Java (`Operation.Arrayable`). C reads
those as far as its destination has room. Java has no answer of the same kind, but neither does it
take them for the end of the feed (`Operation.agree_of_overlong`).
-/

namespace BufferFeed

/-! ## The feeds at the boundary -/

/-- What is taken in is a feed that was made, and what is lent out comes back as an action leaves
it. -/
theorem Demand.obtainable {k : Stock} (hk : k.table.Holds Feed.Obtainable) (d : Demand) :
    (d.meet k).table.Holds Feed.Obtainable := by
  cases d with
  | nothing => exact hk
  | supply count size =>
    cases hmade : Feed.generate count size .supplied k.source with
    | none =>
      simp only [meet, hmade]
      exact hk
    | some made =>
      simp only [meet, hmade]
      exact hk.insert (.made hmade)
  | supplyFresh count size key =>
    cases hmade : Feed.ofEntropy count size key with
    | none =>
      simp only [meet, hmade]
      exact hk
    | some f =>
      simp only [meet, hmade]
      obtain ⟨made, hgenerate, rfl⟩ := Option.map_eq_some_iff.mp hmade
      exact hk.insert (.made hgenerate)
  | lend h action =>
    cases found : k.table.get? h with
    | none =>
      simp only [meet, found]
      exact hk
    | some f =>
      simp only [meet, found]
      exact hk.setContent _ ((hk.get? found).used action)
  | release h =>
    cases found : k.table.get? h with
    | none =>
      simp only [meet, found]
      exact hk
    | some f =>
      simp only [meet, found]
      exact hk.vacate _

/-- What lies ahead of a feed in a table is of the feed's size. -/
theorem SlotTable.Holds.length_of_mem_ahead {t : SlotTable Feed} (ht : t.Holds Feed.Obtainable)
    {h : Handle} {f : Feed} (found : t.get? h = some f) {b : Bytes} (hb : b ∈ f.ahead) :
    b.length = f.size :=
  (ht.get? found).wellFormed.size_eq b (Array.mem_def.mpr (List.mem_of_mem_drop hb))

namespace Boundary

theorem obtainable_after {s : Boundary} (hs : s.table.Holds Feed.Obtainable) (steps : List Step) :
    (s.after steps).table.Holds Feed.Obtainable := by
  induction steps generalizing s with
  | nil => exact hs
  | cons step steps ih =>
    refine ih ?_
    have hmeet := step.plan.demand.obtainable (k := s.stock) hs
    rw [← step.stock_act] at hmeet
    exact hmeet

end Boundary

/-! ## The same for the client -/

/-- The class of the exception that is pending behind a call from Java. -/
def JavaSurface.raised? (r : Run Reply) : Option String :=
  r.state.pending.map Jvm.Throwable.className

namespace Operation

open JavaSurface (raised?)

/-- The operation reads no buffer that is too long for an array. -/
def Arrayable (k : Stock) : Operation → Prop
  | .next raw _ => ∀ f, k.table.get? (.ofRaw raw) = some f → f.size < 2 ^ 31
  | _ => True

/-- What the two surfaces tell of an operation on a table is the same. -/
def Agree (k : Stock) (c : Run CSurface.Reply) (j : Run JavaSurface.Reply) : Operation → Prop
  | .create count _ _ => ∃ raw : UInt64,
    c.ending = .value (.created raw) ∧ j.ending = .value (.created raw.toInt64) ∧
    (count < 0 → raw = 0) ∧
    raised? j = if count < 0 then some "java/lang/IllegalArgumentException" else none
  | .hasNext raw => ∃ more : Bool,
    c.ending = .value (.flag (if more then 1 else 0)) ∧ j.ending = .value (.flag more) ∧
    raised? j =
      if (k.table.get? (.ofRaw raw)).isSome then none
      else some "java/lang/IllegalStateException"
  | .next raw d => ∃ (reading : CSurface.Reading) (contents : Option Bytes),
    c.ending = .value (.read reading) ∧ j.ending = .value (.array contents) ∧
    (reading.code = -1 ↔
      contents = none ∧ raised? j = some "java/util/NoSuchElementException") ∧
    (reading.code = -2 ↔
      contents = none ∧ raised? j = some "java/lang/IllegalStateException") ∧
    (Arrayable k (.next raw d) →
      (¬ reading.code < 0 ↔ contents.isSome = true ∧ raised? j = none)) ∧
    ((∀ f, k.table.get? (.ofRaw raw) = some f → f.size ≤ d.length.toInt) →
      ∀ b, contents = some b → reading.written = b ∧ reading.code.toInt = b.length)
  | .dispose raw =>
    c.ending = .value .disposed ∧ j.ending = .value .disposed ∧
    raised? j =
      if (k.table.get? (.ofRaw raw)).isSome then none
      else some "java/lang/IllegalStateException"

variable {op : Operation} {k : Stock} {ending : Ending Outcome} {c : Run CSurface.Reply}
  {j : Run JavaSurface.Reply}

/-- The buffers that Java hands over are those of the feed. -/
theorem Arrayable.length_lt {s : Boundary} (small : op.Arrayable s.stock)
    (held : s.table.Holds Feed.Obtainable) {b : Bytes} (due : op.toJava.due? s = some b) :
    b.length < 2 ^ 31 := by
  cases op with
  | next raw d =>
    obtain ⟨f, found, hb⟩ := Option.bind_eq_some_iff.mp due
    rw [Handle.ofLong_toInt64] at found
    rw [held.length_of_mem_ahead found (List.mem_of_mem_head? hb)]
    exact small f found
  | _ => cases due

/-- Two wordings of one ending agree. -/
theorem agree_of_ends (ok : op.Admissible) (held : k.table.Holds Feed.Obtainable)
    (ends : op.Ends k ending) (hc : c.ending = .value (op.answerInC ending))
    (hj : j.ending = .value (op.answerInJava ending))
    (hpending : j.state.pending = JavaSurface.exception? op.toJava.method ending) :
    op.Agree k c j := by
  have hraised : raised? j = _ := congrArg (Option.map Jvm.Throwable.className) hpending
  cases ends with
  | negative h =>
    refine ⟨0, hc, hj, fun _ => rfl, ?_⟩
    rw [hraised, if_pos h]
    rfl
  | issued h made =>
    refine ⟨_, hc, hj, fun h' => absurd h' h, ?_⟩
    rw [hraised, if_neg h]
    rfl
  | @looked raw f found =>
    refine ⟨f.hasMore, hc, hj, ?_⟩
    rw [hraised, found]
    rfl
  | @read raw d f b bs found more =>
    have hd := capacity?_of_admissible ok
    refine ⟨.ofBuffer d.length.toInt.toNat b, some b, hc, hj, ?_, ?_, ?_, ?_⟩
    · exact iff_of_false (CSurface.Reading.code_ofBuffer_ne hd b (by decide)) fun h =>
        Option.some_ne_none b h.1
    · exact iff_of_false (CSurface.Reading.code_ofBuffer_ne hd b (by decide)) fun h =>
        Option.some_ne_none b h.1
    · exact fun _ => iff_of_true (CSurface.Reading.not_code_ofBuffer_neg hd b) ⟨rfl, hraised⟩
    · -- a buffer is as long as its feed says, so it fits where the feed's size does
      rintro room _ ⟨⟩
      have hroom := room f found
      have hlength : b.length = f.size :=
        held.length_of_mem_ahead found (more ▸ List.mem_cons_self)
      have hfits : b.length ≤ d.length.toInt.toNat := by omega
      have hlt : b.length < 2 ^ 31 := Nat.lt_of_le_of_lt hfits (CSurface.capacity_lt hd)
      rw [CSurface.Reading.ofBuffer, List.take_of_length_le hfits]
      exact ⟨rfl, Int32.toInt_ofNat_of_lt hlt⟩
  | finished found nothing =>
    have hclass : raised? j = some "java/util/NoSuchElementException" := hraised
    refine ⟨⟨-1, []⟩, none, hc, hj, ?_, ?_, fun _ => ?_,
      fun _ b hb => absurd hb.symm (Option.some_ne_none b)⟩
    · exact iff_of_true rfl ⟨rfl, hclass⟩
    · exact iff_of_false (by decide) fun h => absurd (hclass.symm.trans h.2) (by decide)
    · exact iff_of_false (by decide) fun h => Bool.false_ne_true h.1
  | disposed found =>
    refine ⟨hc, hj, ?_⟩
    rw [hraised, found]
    rfl
  | @unknown _ h names absent =>
    cases op with
    | create count size key => cases names
    | hasNext raw =>
      cases names
      refine ⟨false, hc, hj, ?_⟩
      rw [hraised, absent]
      rfl
    | next raw d =>
      have hclass : raised? j = some "java/lang/IllegalStateException" := hraised
      refine ⟨⟨-2, []⟩, none, hc, hj, ?_, ?_, fun _ => ?_,
        fun _ b hb => absurd hb.symm (Option.some_ne_none b)⟩
      · exact iff_of_false (by decide) fun h => absurd (hclass.symm.trans h.2) (by decide)
      · exact iff_of_true rfl ⟨rfl, hclass⟩
      · exact iff_of_false (by decide) fun h => Bool.false_ne_true h.1
    | dispose raw =>
      cases names
      refine ⟨hc, hj, ?_⟩
      rw [hraised, absent]
      rfl

/-- What the surfaces tell of a buffer that is too long for an array. C reads it; Java may have no
array for it, but that is never put as the end of the feed, nor as a handle that nobody knows. -/
theorem agree_of_overlong {s t : Boundary} (hst : s.table = t.table) (ok : op.Admissible)
    (held : s.table.Holds Feed.Obtainable) (clear : t.pending = none) {b : Bytes}
    (due : op.toJava.due? t = some b) (overlong : ¬ b.length < 2 ^ 31) :
    op.Agree s.stock (op.toC.act s) (op.toJava.act [] t) := by
  cases op with
  | next raw d =>
    obtain ⟨f, found, hb⟩ := Option.bind_eq_some_iff.mp due
    rw [Handle.ofLong_toInt64, ← hst] at found
    obtain ⟨bs, more⟩ := List.head?_eq_some_iff.mp hb
    have hlength : b.length = f.size := held.length_of_mem_ahead found (List.mem_of_mem_head? hb)
    have hd := capacity?_of_admissible ok
    have hc : ((next raw d).toC.act s).ending =
        .value (.read (.ofBuffer d.length.toInt.toNat b)) := by
      show ((CSurface.Reply.read <$> CSurface.next raw d) s).ending = _
      rw [Act.ending_map, CSurface.next_of_ahead_cons found hd more]
      rfl
    obtain ⟨contents, hj, hthrown⟩ := JavaSurface.Call.act_next_of_sound clear due
    have hraised (hnone : contents = none) :
        raised? ((next raw d).toJava.act [] t) = some "java/lang/NegativeArraySizeException" :=
      congrArg (Option.map Jvm.Throwable.className) (hthrown hnone)
    refine ⟨.ofBuffer d.length.toInt.toNat b, contents, hc, hj, ?_, ?_, ?_, ?_⟩
    · refine iff_of_false (CSurface.Reading.code_ofBuffer_ne hd b (by decide)) ?_
      rintro ⟨hnone, hclass⟩
      exact absurd ((hraised hnone).symm.trans hclass) (by decide)
    · refine iff_of_false (CSurface.Reading.code_ofBuffer_ne hd b (by decide)) ?_
      rintro ⟨hnone, hclass⟩
      exact absurd ((hraised hnone).symm.trans hclass) (by decide)
    · intro small
      exact absurd (hlength ▸ small f found) overlong
    · intro room
      have hroom := room f found
      have hlt : d.length.toInt < 2 ^ 31 := d.length.toInt_lt
      omega
  | _ => cases due

end Operation

/-! ## Programs over both surfaces -/

inductive Surface
  | c
  | java
deriving DecidableEq, Repr

namespace Surface

/-- An operation through a surface. Whatever exception was pending, Java has dealt with it before it
calls. -/
def steps : Surface → Operation → List Boundary.Step
  | .c, op => [.fromC op.toC]
  | .java, op => [.clearing, .fromJava [] op.toJava]

variable {op : Operation} {s : Boundary}

/-- **Through either surface the same is asked of the table.** -/
theorem stock_after_steps (ok : op.Admissible) (side : Surface) (s : Boundary) :
    (s.after (side.steps op)).stock = op.plan.demand.meet s.stock := by
  cases side with
  | c =>
    show ((Boundary.Step.fromC op.toC).act s).state.stock = _
    rw [Boundary.Step.stock_act, Boundary.Step.plan, Operation.plan_toC ok]
    rfl
  | java =>
    show ((Boundary.Step.fromJava [] op.toJava).act { s with pending := none }).state.stock = _
    rw [Boundary.Step.stock_act, Boundary.Step.plan, Operation.plan_toJava ok]
    rfl

/-- Nothing that a client does arms the logger. -/
theorem unarmed_after_steps (unarmed : s.armed = false) (side : Surface) (op : Operation) :
    (s.after (side.steps op)).armed = false := by
  cases side with
  | c =>
    show ((Boundary.Step.fromC op.toC).act s).state.armed = false
    rw [Boundary.Step.armed_act]
    exact Bool.and_eq_false_imp.mpr fun h => nomatch unarmed.symm.trans h
  | java =>
    show ((Boundary.Step.fromJava [] op.toJava).act { s with pending := none }).state.armed = false
    rw [Boundary.Step.armed_act]
    exact Bool.and_eq_false_imp.mpr fun h => nomatch unarmed.symm.trans h

end Surface

/-- The steps of a program whose operations go each through a surface of its own. -/
def Operation.program (uses : List (Surface × Operation)) : List Boundary.Step :=
  uses.flatMap fun use => use.1.steps use.2

namespace Boundary

open Operation (program)

variable {s t : Boundary} {left right : List (Surface × Operation)}

theorem after_program_cons (s : Boundary) (side : Surface) (op : Operation)
    (uses : List (Surface × Operation)) :
    s.after (program ((side, op) :: uses)) = (s.after (side.steps op)).after (program uses) := by
  rw [program, List.flatMap_cons, after_append]
  rfl

theorem unarmed_after_program (unarmed : s.armed = false) (uses : List (Surface × Operation)) :
    (s.after (program uses)).armed = false := by
  induction uses generalizing s with
  | nil => exact unarmed
  | cons use uses ih =>
    rw [after_program_cons]
    exact ih (Surface.unarmed_after_steps unarmed use.1 use.2)

/-- **Programs of the same operations keep step**, whichever surfaces the operations go through. -/
theorem stock_after_program (hst : s.stock = t.stock)
    (same : left.map Prod.snd = right.map Prod.snd)
    (ok : ∀ op ∈ left.map Prod.snd, op.Admissible) :
    (s.after (program left)).stock = (t.after (program right)).stock := by
  -- by induction on the operations; one operation asks the same of the table on either side
  induction left generalizing s t right with
  | nil =>
    rw [List.map_nil, eq_comm, List.map_eq_nil_iff] at same
    subst same
    exact hst
  | cons use left ih =>
    obtain ⟨side, op⟩ := use
    cases right with
    | nil => cases same
    | cons use' right =>
      obtain ⟨side', op'⟩ := use'
      obtain ⟨rfl, hsame⟩ : op = op' ∧ left.map Prod.snd = right.map Prod.snd :=
        List.cons_eq_cons.mp same
      obtain ⟨hop, hrest⟩ := List.forall_mem_cons.mp ok
      rw [after_program_cons, after_program_cons]
      refine ih ?_ hsame hrest
      rw [Surface.stock_after_steps hop, Surface.stock_after_steps hop, hst]

/-- **An operation through C and through Java** does the same to the same table. -/
theorem stock_after_operation {op : Operation} (hst : s.stock = t.stock) (ok : op.Admissible) :
    (op.toC.act s).state.stock = (op.toJava.act [] t).state.stock := by
  have hc : s.after (Surface.c.steps op) = (op.toC.act s).state := Act.state_map _ _ _
  have hj : (op.toJava.act [] t).state.stock = op.toJava.plan.demand.meet t.stock :=
    op.toJava.stock_act [] t
  rw [← hc, Surface.stock_after_steps ok, hj, Operation.plan_toJava ok, hst]
  rfl

/-- **It ends in the same way**, which either surface puts in its own words; Java does so if an array
can be as long as the buffer. -/
theorem operation_agrees {op : Operation} (hst : s.stock = t.stock) (ok : op.Admissible)
    (unarmed : s.armed = false) (unarmed' : t.armed = false) (clear : t.pending = none) :
    ∃ ending, op.Ends s.stock ending ∧
      (op.toC.act s).ending = .value (op.answerInC ending) ∧
      ((∀ b, op.toJava.due? t = some b → b.length < 2 ^ 31) →
        (op.toJava.act [] t).ending = .value (op.answerInJava ending) ∧
        (op.toJava.act [] t).state.pending =
          JavaSurface.exception? op.toJava.method ending) := by
  refine ⟨_, op.ends_plan ok s.stock, Operation.ending_toC ok unarmed, fun small => ?_⟩
  rw [hst]
  exact Operation.act_toJava ok unarmed' clear small

/-- **C and Java have the same iterator.** Take a process whose logger is not armed, and two
programs of the same operations, each operation through whichever surface. They come to the same
table. Let one more operation follow, through C after the one program and through Java after the
other, in a machine without faults that has nothing pending: the table is the same again, it ends in
one way, and what the two clients are told of it agrees. The one thing that only C can do is to read
a buffer that is too long for an array. -/
theorem surfaces_agree (source : Source) (done : List Step)
    (unarmed : ((start source).after done).armed = false) (left right : List (Surface × Operation))
    (same : left.map Prod.snd = right.map Prod.snd)
    (ok : ∀ op ∈ left.map Prod.snd, op.Admissible) (op : Operation) (hop : op.Admissible) :
    let s := (start source).after done
    let u := s.after (program left)
    let v := { s.after (program right) with pending := none }
    let c := op.toC.act u
    let j := op.toJava.act [] v
    u.table = v.table ∧ c.state.table = j.state.table ∧
      (∃ ending, op.Ends u.stock ending ∧ c.ending = .value (op.answerInC ending) ∧
        (op.Arrayable u.stock → j.ending = .value (op.answerInJava ending) ∧
          j.state.pending = JavaSurface.exception? op.toJava.method ending)) ∧
      op.Agree u.stock c j := by
  intro s u v c j
  have hst : u.stock = v.stock := stock_after_program (s := s) rfl same ok
  have held : u.table.Holds Feed.Obtainable :=
    obtainable_after (obtainable_after (s := start source) .empty done) (program left)
  have htable : u.table = v.table := congrArg Stock.table hst
  obtain ⟨ending, hends, hc, hj⟩ := operation_agrees hst hop
    (unarmed_after_program unarmed left) (unarmed_after_program unarmed right) rfl
  refine ⟨htable, congrArg Stock.table (stock_after_operation hst hop),
    ⟨ending, hends, hc, fun small => hj fun b => ?_⟩, ?_⟩
  · rw [hst] at small
    exact @Operation.Arrayable.length_lt _ v small (htable ▸ held) b
  · by_cases small : ∀ b, op.toJava.due? v = some b → b.length < 2 ^ 31
    · exact Operation.agree_of_ends hop held hends hc (hj small).1 (hj small).2
    · simp only [not_forall] at small
      obtain ⟨b, due, overlong⟩ := small
      exact Operation.agree_of_overlong htable hop held rfl due overlong

/-- A read, and then the question whether there is more, each through one surface or the other. -/
def crossing (first second : Surface) : List (Surface × Operation) :=
  [(first, .next 0x100000000 ⟨1, 1⟩), (second, .hasNext 0x100000000)]

/-- The second buffer of the feed, through either surface. -/
theorem surfaces_agree_crossing :
    let done : List Step := [.direct (.register 2 1)]
    let s := (start ⟨.counting 1 1, 0⟩).after done
    let op := Operation.next 0x100000000 ⟨1, 1⟩
    let u := s.after (program (crossing .c .java))
    let v := { s.after (program (crossing .java .c)) with pending := none }
    s.armed = false ∧ (crossing .c .java).map Prod.snd = (crossing .java .c).map Prod.snd ∧
      (∀ op ∈ (crossing .c .java).map Prod.snd, op.Admissible) ∧ op.Admissible ∧
      u.table = v.table ∧ (op.toC.act u).ending = .value (.read ⟨1, [2]⟩) ∧
      (op.toJava.act [] v).ending = .value (.array (some [2])) := by
  intro done s op u v
  have unarmed : s.armed = false := by decide
  have hadmissible : ∀ op ∈ (crossing .c .java).map Prod.snd, op.Admissible := by decide
  have hop : op.Admissible := by decide
  have found : u.table.get? (.ofRaw 0x100000000) =
      some ⟨#[[1], [2]], 1, 1, .supplied⟩ := by decide
  have hread : (op.toC.act u).ending = .value (.read ⟨1, [2]⟩) := by
    show ((CSurface.Reply.read <$> CSurface.next 0x100000000 ⟨1, 1⟩) u).ending = _
    rw [Act.ending_map,
      CSurface.next_of_ahead_cons found (Operation.capacity?_of_admissible hop) rfl]
    rfl
  have small : op.Arrayable u.stock := by
    intro f hf
    cases found.symm.trans hf
    decide
  obtain ⟨htable, -, -, reading, contents, hc, hj, -, -, hgiven, hbytes⟩ :=
    surfaces_agree ⟨.counting 1 1, 0⟩ done unarmed (crossing .c .java) (crossing .java .c) rfl
      hadmissible op hop
  cases hread.symm.trans hc
  obtain ⟨b, rfl⟩ := Option.isSome_iff_exists.mp ((hgiven small).mp (by decide)).1
  have hroom : ∀ f, u.table.get? (.ofRaw 0x100000000) = some f → (f.size : Int) ≤ 1 := by
    intro f hf
    rw [found] at hf
    cases hf
    decide
  obtain ⟨rfl, -⟩ := hbytes hroom b rfl
  exact ⟨unarmed, rfl, hadmissible, hop, htable, hread, hj⟩

end Boundary

end BufferFeed

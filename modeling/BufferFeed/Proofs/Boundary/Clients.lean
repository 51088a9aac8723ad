import BufferFeed.Proofs.Boundary.Audit
import BufferFeed.Proofs.Boundary.Locality

/-!
# Clients that share a table

Many clients use one boundary, each by a handle of its own, and strangers come in between: they
register and release, and they try handles that nobody has. A run of them all is a list of moves,
and a client is known by its handle (`Move.owner`).

What is settled here is that a client cannot tell whether it is alone. Every move of another leaves
what is behind its handle (`get?_act_of_foreign`), and its own moves see nothing else; so its
answers are those of the run in which it is alone (`answers_eq_alone`).

The second law is about the table. Where strangers add nothing and take nothing away, each slot is
in the end what its own client has made of it (`Worn`). The order of the moves is forgotten, except
for the order in which the slots became free.
-/

namespace BufferFeed

/-! ## Moves -/

namespace Boundary

/-- A step in a run of many, and the client whose step it is, if it is not a stranger's. -/
structure Move where
  owner : Option Handle
  step : Step

/-- The program that a run is. -/
def Move.program (moves : List Move) : List Step := moves.map Move.step

/-- What can be done in a run of many. -/
inductive Admitted (clients : Handle → Prop) (s : Boundary) : Move → Prop
  /-- A client uses its own handle. -/
  | own {h : Handle} {step : Step} (client : clients h) (names : step.handle? = some h)
      (sound : step.Sound s) : Admitted clients s ⟨some h, step⟩
  /-- A stranger may do anything but arm the logger and use the handle of a client; a handle that
  its client has given up is nobody's. -/
  | stranger {step : Step} (quiet : step ≠ .direct .armLogger)
      (apart : ∀ h, clients h → step.handle? = some h → s.table.get? h = none) :
      Admitted clients s ⟨none, step⟩

/-- A stranger asks the table for nothing, or for what is not there. -/
def Idle (s : Boundary) (m : Move) : Prop :=
  m.owner = none →
    m.step.plan.demand = .nothing ∨ ∃ g, m.step.handle? = some g ∧ s.table.get? g = none

/-- The steps of one client, in order. -/
def own (h : Handle) : List Move → List Step
  | [] => []
  | m :: moves => if m.owner = some h then m.step :: own h moves else own h moves

/-- What one client gets, in order. -/
def answers (h : Handle) (s : Boundary) : List Move → List (Ending Reply × Option Jvm.Throwable)
  | [] => []
  | m :: moves =>
    if m.owner = some h then m.step.answer s :: answers h (m.step.act s).state moves
    else answers h (m.step.act s).state moves

/-- A client on its own. Before each call from Java the machine has nothing pending. -/
def alone (h : Handle) : List Step → List Move
  | [] => []
  | .fromJava faults call :: steps =>
    ⟨none, .clearing⟩ :: ⟨some h, .fromJava faults call⟩ :: alone h steps
  | step :: steps => ⟨some h, step⟩ :: alone h steps

variable {clients : Handle → Prop} {s t : Boundary} {h : Handle} {step : Step} {m : Move}
  {moves : List Move} {steps : List Step}

/-! ## The view of one client -/

theorem after_moves_cons (s : Boundary) (m : Move) (moves : List Move) :
    s.after (Move.program (m :: moves)) = (m.step.act s).state.after (Move.program moves) := rfl

/-- The boundary that a step of a client meets when the client is alone. -/
def Step.readied (step : Step) (s : Boundary) : Boundary :=
  match step with
  | .fromJava .. => { s with pending := none }
  | _ => s

theorem Step.table_readied (step : Step) (s : Boundary) : (step.readied s).table = s.table := by
  cases step <;> rfl

theorem Step.armed_readied (step : Step) (s : Boundary) : (step.readied s).armed = s.armed := by
  cases step <;> rfl

theorem Step.sound_readied (sound : step.Sound s) (t : Boundary) : step.Sound (step.readied t) := by
  rintro faults call rfl
  exact ⟨(sound faults call rfl).1, rfl⟩

theorem answers_alone_cons (h : Handle) (s : Boundary) (step : Step) (steps : List Step) :
    answers h s (alone h (step :: steps)) =
      step.answer (step.readied s) ::
        answers h (step.act (step.readied s)).state (alone h steps) := by
  cases step <;> simp only [alone, answers, if_true, reduceCtorEq, if_false] <;> rfl

theorem after_alone_cons (h : Handle) (s : Boundary) (step : Step) (steps : List Step) :
    s.after (Move.program (alone h (step :: steps))) =
      (step.act (step.readied s)).state.after (Move.program (alone h steps)) := by
  cases step <;> rfl

/-- **A move that is not the client's leaves it what it has.** -/
theorem get?_act_of_foreign (admitted : Admitted clients s m) (client : clients h)
    (foreign : m.owner ≠ some h) (unissued : h ∉ (m.step.act s).log.filterMap Record.issued?) :
    (m.step.act s).state.table.get? h = s.table.get? h := by
  by_cases names : m.step.handle? = some h
  · -- only a stranger names another's handle, and then there is nothing behind it
    cases admitted with
    | own _ names' _ =>
      rw [names] at names'
      exact absurd names'.symm foreign
    | @stranger step quiet apart =>
      have hmeet := Step.meet_of_get?_eq_none (apart h client names) names
      rw [← step.stock_act] at hmeet
      exact congrArg (fun k : Stock => k.table.get? h) hmeet
  · exact Step.get?_act_of_other names unissued

theorem unarmed_of_admitted (admitted : Admitted clients s m) (unarmed : s.armed = false) :
    (m.step.act s).state.armed = false := by
  cases admitted with
  | own client names sound =>
    refine Step.unarmed_act unarmed ?_
    rintro rfl
    cases names
  | stranger quiet apart => exact Step.unarmed_act unarmed quiet

/-- **A client cannot tell whether it is alone**, nor does its feed show it. -/
theorem answers_eq_alone (client : clients h) (hst : s.table.get? h = t.table.get? h)
    (unarmed : s.armed = false) (unarmed' : t.armed = false)
    (admitted : Throughout Move.step (Admitted clients) s moves)
    (unissued : h ∉ s.issued (Move.program moves)) :
    answers h s moves = answers h t (alone h (own h moves)) ∧
      (s.after (Move.program moves)).table.get? h =
        (t.after (Move.program (alone h (own h moves)))).table.get? h := by
  -- by induction on the moves: what is behind the handle is the same in both runs all along
  induction moves generalizing s t with
  | nil => exact ⟨rfl, hst⟩
  | cons m moves ih =>
    obtain ⟨hm, hmoves⟩ := admitted
    have hunarmed := unarmed_of_admitted hm unarmed
    rw [show Move.program (m :: moves) = m.step :: Move.program moves from rfl, issued_cons,
      List.mem_append, not_or] at unissued
    by_cases hown : m.owner = some h
    · cases hm with
      | stranger => cases hown
      | @own g step _ names sound =>
        cases hown
        have hst' : s.table.get? h = (step.readied t).table.get? h := by
          rw [Step.table_readied, hst]
        have harmed : (step.readied t).armed = false := by rw [Step.armed_readied, unarmed']
        have hanswer := Step.answer_congr names hst' unarmed harmed sound
          (Step.sound_readied sound t)
        have hunarmed' : (step.act (step.readied t)).state.armed = false :=
          unarmed_of_admitted (.own client names (Step.sound_readied sound t)) harmed
        obtain ⟨hanswers, hafter⟩ := ih (Step.get?_act_congr names hst') hunarmed hunarmed' hmoves
          unissued.2
        simp only [own, answers, if_true, answers_alone_cons, after_alone_cons,
          after_moves_cons]
        exact ⟨by rw [hanswer, hanswers], hafter⟩
    · have hsame := get?_act_of_foreign hm client hown unissued.1
      simp only [own, answers, hown, if_false, after_moves_cons]
      exact ih (hsame.trans hst) hunarmed unarmed' hmoves unissued.2

/-- A live handle is not issued again, as long as the indices and the generations last. -/
theorem unissued_of_lasts (source : Source) {done : List Step} {f : Feed}
    (l : (start source).Lasts (done ++ steps))
    (found : ((start source).after done).table.get? h = some f) :
    h ∉ ((start source).after done).issued steps := by
  have hdone := l.of_append
  have ledger := ledger_of_run source done hdone.room hdone.turns
  obtain ⟨hissued, -⟩ := (ledger.isSome_get?_iff h).mp (Option.isSome_iff_exists.mpr ⟨f, found⟩)
  have hnodup := (ledger_of_run source (done ++ steps) l.room l.turns).issued_nodup
  rw [issued_append, List.nodup_append] at hnodup
  exact fun hagain => hnodup.2.2 h hissued h hagain rfl

end Boundary

/-! ## The slots of the clients -/

namespace Demand

variable {d : Demand} {h : Handle} {k : Stock}

/-- A demand about a handle changes no slot but its own. -/
theorem getElem?_meet_of_ne (about : d = .nothing ∨ d.handle? = some h) {i : Nat}
    (hi : h.index.toNat ≠ i) : (d.meet k).table.slots[i]? = k.table.slots[i]? := by
  rcases about with rfl | hd
  · rfl
  · cases d with
    | lend g action =>
      cases hd
      cases found : k.table.get? h with
      | none => simp only [meet, found]
      | some f => simp only [meet, found, SlotTable.getElem?_setContent, if_neg hi]
    | release g =>
      cases hd
      cases found : k.table.get? h with
      | none => simp only [meet, found]
      | some f => simp only [meet, found, SlotTable.getElem?_vacate, if_neg hi]
    | _ => cases hd

end Demand

/-- The slot of a handle that was live once and is not filled for another since. -/
def Handle.slot (h : Handle) : Option Feed → Slot Feed
  | some f => ⟨h.generation, some f⟩
  | none => ⟨Slot.nextGeneration h.generation, none⟩

namespace Demand

variable {d : Demand} {h : Handle} {k : Stock}

theorem slot_meet (about : d = .nothing ∨ d.handle? = some h)
    (hs : k.table.slots[h.index.toNat]? = some (h.slot (k.table.get? h))) :
    (d.meet k).table.slots[h.index.toNat]? = some (h.slot ((d.meet k).table.get? h)) := by
  rcases about with rfl | hd
  · exact hs
  · cases d with
    | lend g action =>
      cases hd
      rw [get?_meet_lend]
      cases found : k.table.get? h with
      | none =>
        rw [found] at hs
        simp only [meet, found, hs, Option.map_none]
      | some f =>
        rw [found] at hs
        simp only [meet, found, SlotTable.getElem?_setContent, if_true, hs, Option.map_some,
          Handle.slot]
    | release g =>
      cases hd
      rw [get?_meet_release]
      cases found : k.table.get? h with
      | none =>
        rw [found] at hs
        simp only [meet, found, hs]
      | some f =>
        rw [found] at hs
        simp only [meet, found, SlotTable.getElem?_vacate, if_true, hs, Option.map_some,
          Handle.slot]
    | _ => cases hd

end Demand

/-- A table after clients alone have used it: their slots are what they have made of them, and the
others are as they were. -/
structure Worn (clients : Handle → Prop) (t u : SlotTable Feed) : Prop where
  own : ∀ h, clients h → u.slots[h.index.toNat]? = some (h.slot (u.get? h))
  rest : ∀ i, (∀ h, clients h → h.index.toNat ≠ i) → u.slots[i]? = t.slots[i]?

namespace Worn

variable {clients : Handle → Prop} {t u v : SlotTable Feed} {h : Handle}

theorem refl (live : ∀ h, clients h → (t.get? h).isSome = true) : Worn clients t t := by
  refine ⟨fun h client => ?_, fun _ _ => rfl⟩
  obtain ⟨f, found⟩ := Option.isSome_iff_exists.mp (live h client)
  rw [found]
  exact SlotTable.get?_eq_some_iff.mp found

/-- No two clients have one slot. -/
theorem eq_of_index (live : ∀ h, clients h → (t.get? h).isSome = true) {g : Handle}
    (hg : clients g) (hh : clients h) (hi : g.index.toNat = h.index.toNat) : g = h := by
  obtain ⟨e, he⟩ := Option.isSome_iff_exists.mp (live g hg)
  obtain ⟨f, hf⟩ := Option.isSome_iff_exists.mp (live h hh)
  have hs := SlotTable.get?_eq_some_iff.mp he
  rw [hi, SlotTable.get?_eq_some_iff.mp hf, Option.some.injEq, Slot.mk.injEq] at hs
  exact Handle.eq_of_toNat_index hi hs.1.symm

theorem meet (live : ∀ h, clients h → (t.get? h).isSome = true) (client : clients h) {d : Demand}
    (about : d = .nothing ∨ d.handle? = some h) {k : Stock} (worn : Worn clients t k.table) :
    Worn clients t (d.meet k).table := by
  constructor
  · intro g hg
    by_cases hi : h.index.toNat = g.index.toNat
    · obtain rfl := eq_of_index live client hg hi
      exact Demand.slot_meet about (worn.own h hg)
    · have hslot := Demand.getElem?_meet_of_ne (k := k) about hi
      rw [SlotTable.get?_congr hslot, hslot]
      exact worn.own g hg
  · intro i hi
    rw [Demand.getElem?_meet_of_ne about (hi h client)]
    exact worn.rest i hi

/-- **What the clients have settles the slots.** -/
theorem slots_eq (hu : Worn clients t u) (hv : Worn clients t v)
    (same : ∀ h, clients h → u.get? h = v.get? h) : u.slots = v.slots := by
  apply Array.ext_getElem?
  intro i
  by_cases hi : ∃ h, clients h ∧ h.index.toNat = i
  · obtain ⟨h, client, rfl⟩ := hi
    rw [hu.own h client, hv.own h client, same h client]
  · have hrest : ∀ h, clients h → h.index.toNat ≠ i := fun h client he => hi ⟨h, client, he⟩
    rw [hu.rest i hrest, hv.rest i hrest]

end Worn

namespace Boundary

variable {clients : Handle → Prop} {s : Boundary} {t : SlotTable Feed} {moves : List Move}

/-- **Where strangers are idle, the clients alone wear the table.** -/
theorem worn_after (live : ∀ h, clients h → (t.get? h).isSome = true)
    (worn : Worn clients t s.table) (admitted : Throughout Move.step (Admitted clients) s moves)
    (idle : Throughout Move.step Idle s moves) :
    Worn clients t (s.after (Move.program moves)).table := by
  induction moves generalizing s with
  | nil => exact worn
  | cons m moves ih =>
    obtain ⟨hm, hmoves⟩ := admitted
    obtain ⟨hidle, hidles⟩ := idle
    refine ih ?_ hmoves hidles
    show Worn clients t (m.step.act s).state.stock.table
    rw [m.step.stock_act]
    cases hm with
    | own client names sound => exact worn.meet live client (Step.about names).demand
    | @stranger step quiet apart =>
      rcases hidle rfl with hnothing | ⟨g, names, absent⟩
      · rw [show step.plan.demand.meet s.stock = s.stock from by rw [hnothing]; rfl]
        exact worn
      · rw [Step.meet_of_get?_eq_none absent names]
        exact worn

/-- **Clients on distinct handles do not interfere.** In a run of any clients, with strangers
between them, each client is answered what it is answered alone, and leaves its feed the same. Where
the strangers are idle, the order in which the clients come leaves no mark on the slots, and none on
the free list but its order. -/
theorem clients_do_not_interfere (source : Source) (done : List Step) (clients : Handle → Prop)
    (moves : List Move) (unarmed : ((start source).after done).armed = false)
    (live : ∀ h, clients h → (((start source).after done).table.get? h).isSome = true)
    (lasts : (start source).Lasts (done ++ Move.program moves))
    (admitted : Throughout Move.step (Admitted clients) ((start source).after done) moves) :
    let s := (start source).after done
    (∀ h, clients h →
      answers h s moves = answers h s (alone h (own h moves)) ∧
        (s.after (Move.program moves)).table.get? h =
          (s.after (Move.program (alone h (own h moves)))).table.get? h) ∧
    ∀ others, (start source).Lasts (done ++ Move.program others) →
      Throughout Move.step (Admitted clients) s others →
      Throughout Move.step Idle s moves → Throughout Move.step Idle s others →
      (∀ h, clients h → own h others = own h moves) →
        (s.after (Move.program others)).table.slots = (s.after (Move.program moves)).table.slots ∧
          (s.after (Move.program others)).table.free.Perm
            (s.after (Move.program moves)).table.free := by
  intro s
  have hview : ∀ moves, (start source).Lasts (done ++ Move.program moves) →
      Throughout Move.step (Admitted clients) s moves → ∀ h, clients h →
        answers h s moves = answers h s (alone h (own h moves)) ∧
          (s.after (Move.program moves)).table.get? h =
            (s.after (Move.program (alone h (own h moves)))).table.get? h := by
    intro moves lasts admitted h client
    obtain ⟨f, found⟩ := Option.isSome_iff_exists.mp (live h client)
    have unissued := unissued_of_lasts source lasts found
    exact answers_eq_alone client rfl unarmed unarmed admitted unissued
  have hwell : ∀ moves, (start source).Lasts (done ++ Move.program moves) →
      (s.after (Move.program moves)).table.WellFormed := by
    intro moves lasts
    have hafter := wellFormed_after (s := start source) .empty _ lasts.room
    rw [after_append] at hafter
    exact hafter
  refine ⟨hview moves lasts admitted, ?_⟩
  intro others lasts' admitted' idle idle' same
  have hslots : (s.after (Move.program others)).table.slots =
      (s.after (Move.program moves)).table.slots := by
    have hworn := worn_after live (.refl live) admitted idle
    have hworn' := worn_after live (.refl live) admitted' idle'
    refine hworn'.slots_eq hworn fun h client => ?_
    rw [(hview moves lasts admitted h client).2, (hview others lasts' admitted' h client).2,
      same h client]
  exact ⟨hslots, (hwell others lasts').perm_free_of_slots_eq (hwell moves lasts) hslots⟩

/-- Two clients take turns, one of them through Java; a stranger tries a handle that is given up. -/
def turns : List Move :=
  [⟨some ⟨0, 1⟩, .fromJava [] (.next 0x100000000)⟩,
    ⟨some ⟨1, 1⟩, .direct (.lendAndPanic ⟨1, 1⟩ .next)⟩,
    ⟨some ⟨0, 1⟩, .direct (.release ⟨0, 1⟩)⟩, ⟨none, .direct (.lend ⟨0, 1⟩ .next)⟩,
    ⟨some ⟨1, 1⟩, .direct (.release ⟨1, 1⟩)⟩]

/-- The second client has finished before the first one comes. -/
def queue : List Move :=
  [⟨some ⟨1, 1⟩, .direct (.lendAndPanic ⟨1, 1⟩ .next)⟩,
    ⟨some ⟨1, 1⟩, .direct (.release ⟨1, 1⟩)⟩,
    ⟨some ⟨0, 1⟩, .fromJava [] (.next 0x100000000)⟩,
    ⟨some ⟨0, 1⟩, .direct (.release ⟨0, 1⟩)⟩]

/-- Taking turns or not, the clients get the same, and so do the slots; the free list tells in which
order they came. -/
theorem clients_do_not_interfere_queue :
    let s := (start ⟨.counting 0 1, 0⟩).after [.direct (.register 2 1), .direct (.register 1 1)]
    answers ⟨0, 1⟩ s turns = answers ⟨0, 1⟩ s (alone ⟨0, 1⟩ (own ⟨0, 1⟩ turns)) ∧
      (s.after (Move.program queue)).table.slots = (s.after (Move.program turns)).table.slots ∧
      (s.after (Move.program queue)).table.free = [0, 1] ∧
      (s.after (Move.program turns)).table.free = [1, 0] := by
  let clients : Handle → Prop := fun h => h = ⟨0, 1⟩ ∨ h = ⟨1, 1⟩
  have hturns : Throughout Move.step (Admitted clients) ((start ⟨.counting 0 1, 0⟩).after
      [.direct (.register 2 1), .direct (.register 1 1)]) turns := by
    refine ⟨.own (.inl rfl) rfl ?_, .own (.inr rfl) rfl ?_, .own (.inl rfl) rfl ?_,
      .stranger nofun ?_, .own (.inr rfl) rfl ?_, trivial⟩
    · rintro _ _ ⟨⟩
      exact ⟨rfl, rfl⟩
    · rintro _ _ ⟨⟩
    · rintro _ _ ⟨⟩
    · rintro _ (rfl | rfl) names
      · decide
      · cases names
    · rintro _ _ ⟨⟩
  have hqueue : Throughout Move.step (Admitted clients) ((start ⟨.counting 0 1, 0⟩).after
      [.direct (.register 2 1), .direct (.register 1 1)]) queue := by
    refine ⟨.own (.inr rfl) rfl ?_, .own (.inr rfl) rfl ?_, .own (.inl rfl) rfl ?_,
      .own (.inl rfl) rfl ?_, trivial⟩
    · rintro _ _ ⟨⟩
    · rintro _ _ ⟨⟩
    · rintro _ _ ⟨⟩
      exact ⟨rfl, rfl⟩
    · rintro _ _ ⟨⟩
  obtain ⟨hview, horder⟩ := clients_do_not_interfere ⟨.counting 0 1, 0⟩
    [.direct (.register 2 1), .direct (.register 1 1)] clients turns rfl
    (by rintro _ (rfl | rfl) <;> decide)
    ⟨by decide, fun _ => Nat.lt_of_le_of_lt List.countP_le_length (by decide)⟩ hturns
  have hsame : ∀ h, clients h → own h queue = own h turns := by
    rintro _ (rfl | rfl) <;> rfl
  obtain ⟨hslots, -⟩ := horder queue
    ⟨by decide, fun _ => Nat.lt_of_le_of_lt List.countP_le_length (by decide)⟩ hqueue
    ⟨nofun, nofun, nofun, fun _ => .inr ⟨⟨0, 1⟩, rfl, by decide⟩, nofun, trivial⟩
    ⟨nofun, nofun, nofun, nofun, trivial⟩ hsame
  exact ⟨(hview _ (.inl rfl)).1, hslots, by decide, by decide⟩

end Boundary

end BufferFeed

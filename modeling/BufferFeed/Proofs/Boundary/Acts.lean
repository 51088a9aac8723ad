import BufferFeed.Boundary.Act
import BufferFeed.Proofs.SlotTable.Slotwise

/-!
# How acts go on

An act that is bound to another, caught or mapped is settled by how it ends, so each combinator has
one equation for each ending. Laws about the surfaces run acts by these and open no combinator.

`Act.closing` is the last thing an act does: it writes a record, if there is one, and ends. An act
that writes its record **last** has all else done by then, and a logger that panics at the record
takes nothing of it back.
-/

namespace BufferFeed

variable {α β γ : Type}

/-- The same ending with another value. -/
def Ending.map (g : α → β) : Ending α → Ending β
  | .value a => .value (g a)
  | .failure f => .failure f
  | .panic m => .panic m

theorem Ending.map_map (g : α → β) (h : β → γ) (e : Ending α) :
    (e.map g).map h = e.map (h ∘ g) := by
  cases e <;> rfl

theorem Ending.eq_value_of_map {g : α → β} {e : Ending α} {b : β} (h : e.map g = .value b) :
    ∃ a, e = .value a ∧ g a = b := by
  cases e with
  | value a =>
    cases h
    exact ⟨a, rfl, rfl⟩
  | failure f => cases h
  | panic m => cases h

namespace Act

variable {x : Act α} {s t : Boundary} {a : α} {e : Failure} {m : String} {es : List Event}

/-! ## Binding, mapping and catching -/

theorem bind_of_value {f : α → Act β} (h : x s = ⟨.value a, t, es⟩) :
    (x >>= f) s = { f a t with events := es ++ (f a t).events } := by
  show Act.andThen x f s = _
  simp only [Act.andThen, h]

theorem bind_of_failure {f : α → Act β} (h : x s = ⟨.failure e, t, es⟩) :
    (x >>= f) s = ⟨.failure e, t, es⟩ := by
  show Act.andThen x f s = _
  simp only [Act.andThen, h]

theorem bind_of_panic {f : α → Act β} (h : x s = ⟨.panic m, t, es⟩) :
    (x >>= f) s = ⟨.panic m, t, es⟩ := by
  show Act.andThen x f s = _
  simp only [Act.andThen, h]

theorem map_apply (g : α → β) (x : Act α) (s : Boundary) :
    (g <$> x) s = ⟨(x s).ending.map g, (x s).state, (x s).events⟩ := by
  have hbind : g <$> x = x >>= fun a => pure (g a) := rfl
  rw [hbind]
  cases hx : x s with
  | mk ending t es =>
    cases ending with
    | value a =>
      rw [bind_of_value hx]
      simp only [pure, List.append_nil, Ending.map]
    | failure e => exact bind_of_failure hx
    | panic m => exact bind_of_panic hx

theorem ending_map (g : α → β) (x : Act α) (s : Boundary) :
    ((g <$> x) s).ending = (x s).ending.map g := by
  rw [map_apply]

theorem state_map (g : α → β) (x : Act α) (s : Boundary) : ((g <$> x) s).state = (x s).state := by
  rw [map_apply]

theorem log_map (g : α → β) (x : Act α) (s : Boundary) : ((g <$> x) s).log = (x s).log := by
  rw [map_apply]
  rfl

theorem bind_bind {γ : Type} (x : Act α) (f : α → Act β) (g : β → Act γ) :
    x >>= f >>= g = x >>= fun a => f a >>= g := by
  funext s
  cases hx : x s with
  | mk ending t es =>
    cases ending with
    | failure e => rw [bind_of_failure (bind_of_failure hx), bind_of_failure hx]
    | panic m => rw [bind_of_panic (bind_of_panic hx), bind_of_panic hx]
    | value a =>
      have hxf := bind_of_value (f := f) hx
      rw [bind_of_value hx]
      cases hf : f a t with
      | mk ending u fs =>
        rw [hf] at hxf
        cases ending with
        | failure e => rw [bind_of_failure hxf, bind_of_failure hf]
        | panic m => rw [bind_of_panic hxf, bind_of_panic hf]
        | value b => rw [bind_of_value hxf, bind_of_value hf, List.append_assoc]

instance : LawfulMonad Act := by
  refine LawfulMonad.mk' Act ?_ ?_ bind_bind
  · intro α x
    funext s
    rw [map_apply]
    cases hx : x s with
    | mk ending t es => cases ending <;> rfl
  · intro α β a f
    funext s
    have hpure : (pure a : Act α) s = ⟨.value a, s, []⟩ := rfl
    rw [bind_of_value hpure, List.nil_append]

theorem attempt_apply {ending : Ending α} (h : x s = ⟨ending, t, es⟩) :
    x.attempt s = ⟨.value ending, t, es⟩ := by
  simp only [attempt, h]

theorem recover_of_failure {handle : Failure → Act α} (h : x s = ⟨.failure e, t, es⟩) :
    x.recover handle s = { handle e t with events := es ++ (handle e t).events } := by
  rw [recover, bind_of_value (attempt_apply h)]

theorem recover_of_not_failure {handle : Failure → Act α} (h : ∀ e, (x s).ending ≠ .failure e) :
    x.recover handle s = x s := by
  cases hx : x s with
  | mk ending t es =>
    rw [recover, bind_of_value (attempt_apply hx)]
    cases ending with
    | value a => simp only [pure, List.append_nil]
    | failure e => exact absurd (by rw [hx]) (h e)
    | panic m => simp only [panic, List.append_nil]

/-! ## Lending -/

theorem lend_of_get? {h : Handle} {f : Feed} (found : s.table.get? h = some f)
    (g : Feed → β × Feed) :
    Act.lend h g s =
      ⟨.value (g f).1, { s with table := s.table.setContent h.index (some (g f).2) }, []⟩ := by
  simp only [Act.lend, bind, Act.andThen, Act.get, Act.set, SlotTable.lend_of_get? found,
    Act.ofExcept, pure, List.append_nil]

theorem lend_of_get?_eq_none {h : Handle} (absent : s.table.get? h = none) (g : Feed → β × Feed) :
    Act.lend h g s = ⟨.failure (.stale h), s, []⟩ := by
  simp only [Act.lend, bind, Act.andThen, Act.get, Act.set,
    SlotTable.lend_of_get?_eq_none absent, Act.ofExcept, Act.fail, List.append_nil]

/-! ## Logging -/

theorem emit_of_trips {r : Record} (h : (s.armed && r.trips) = true) :
    emit r s = ⟨.panic "logger panic", { s with armed := false }, [.logged r]⟩ := by
  simp only [emit, h, if_true]

theorem emit_of_not_trips {r : Record} (h : (s.armed && r.trips) = false) :
    emit r s = ⟨.value (), s, [.logged r]⟩ := by
  simp only [emit, h, Bool.false_eq_true, if_false]

/-- Writes the record, if there is one, and ends. -/
def closing : Option Record → Ending α → Act α
  | none, e => fun s => ⟨e, s, []⟩
  | some r, e => fun s =>
    if s.armed && r.trips then
      ⟨.panic "logger panic", { s with armed := false }, [.logged r]⟩
    else ⟨e, s, [.logged r]⟩

theorem emit_eq (r : Record) : emit r = closing (some r) (.value ()) := rfl

theorem emit_bind_pure (r : Record) (a : α) :
    (emit r >>= fun _ => pure a) = closing (some r) (.value a) := by
  funext s
  cases hfire : s.armed && r.trips with
  | true =>
    rw [bind_of_panic (emit_of_trips hfire)]
    simp only [closing, hfire, if_true]
  | false =>
    rw [bind_of_value (emit_of_not_trips hfire)]
    simp only [closing, hfire, Bool.false_eq_true, if_false, pure, List.append_nil]

end Act

end BufferFeed

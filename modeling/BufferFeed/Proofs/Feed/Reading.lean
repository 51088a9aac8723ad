import BufferFeed.Feed

/-!
# What is still to be read

The buffers ahead of a feed's cursor, in order (`ahead`), are all that a reader will ever get from
it. A read takes the first of them, and there is more exactly while there is one. Reading to the end
shows all of them to the visitor, in order, and leaves the feed with none (`walk_eq`): it cannot
fail half way, and a feed whose cursor stands behind its row, which nothing makes, is left alone.

Two actions take buffers from a feed, and every buffer that is taken is one that was ahead
(`ReadOn.perform`).

`Obtainable` are the feeds there can be. A feed's fields are not a client's to write, so what a
client has in hand was made by `generate` and has had actions performed on it, and nothing else.
All of these are well formed.
-/

namespace BufferFeed.Feed

variable {f : Feed} {b : Bytes} {bs : List Bytes}

/-- The buffers that are still to be read, in order. -/
def ahead (f : Feed) : List Bytes := f.buffers.toList.drop f.cursor

/-- The feed behind the next read. -/
def advanced (f : Feed) : Feed := { f with cursor := f.cursor + 1 }

/-- The feed with nothing left to read. -/
def finished (f : Feed) : Feed := { f with cursor := max f.cursor f.buffers.size }

@[simp]
theorem length_ahead (f : Feed) : f.ahead.length = f.unread := by
  simp only [ahead, unread, List.length_drop, Array.length_toList]

theorem ahead_advanced (f : Feed) : f.advanced.ahead = f.ahead.tail := by
  simp only [ahead, advanced, List.tail_drop]

theorem head?_ahead (f : Feed) : f.ahead.head? = f.buffers[f.cursor]? := by
  simp only [ahead, List.head?_drop, Array.getElem?_toList]

theorem getElem?_ahead (f : Feed) (i : Nat) : f.ahead[i]? = f.buffers[f.cursor + i]? := by
  rw [ahead, List.getElem?_drop, Array.getElem?_toList]

/-- Of a feed that was not read from, every buffer is ahead. -/
theorem ahead_of_cursor_eq_zero (h : f.cursor = 0) : f.ahead = f.buffers.toList := by
  rw [ahead, h, List.drop_zero]

theorem hasMore_of_ahead_nil (h : f.ahead = []) : f.hasMore = false := by
  have hlen := f.length_ahead
  rw [h, List.length_nil, unread] at hlen
  simp only [hasMore, decide_eq_false_iff_not, Nat.not_lt]
  omega

theorem hasMore_of_ahead_cons (h : f.ahead = b :: bs) : f.hasMore = true := by
  have hlen := f.length_ahead
  rw [h, List.length_cons, unread] at hlen
  simp only [hasMore, decide_eq_true_eq]
  omega

theorem next_of_ahead_nil (h : f.ahead = []) : f.next = (.error .exhausted, f) :=
  next_of_not_hasMore (hasMore_of_ahead_nil h)

/-- A read takes the first buffer ahead. -/
theorem next_of_ahead_cons (h : f.ahead = b :: bs) : f.next = (.ok b, f.advanced) := by
  refine next_eq_ok_iff.mpr ⟨?_, rfl⟩
  rw [← head?_ahead, h]
  rfl

theorem finished_of_ahead_nil (h : f.ahead = []) : f.finished = f := by
  have hlen := f.length_ahead
  rw [h, List.length_nil, unread] at hlen
  have hmax : max f.cursor f.buffers.size = f.cursor := Nat.max_eq_left (by omega)
  simp only [finished, hmax]

theorem ahead_finished (f : Feed) : f.finished.ahead = [] := by
  rw [ahead, List.drop_eq_nil_iff, Array.length_toList]
  exact Nat.le_max_right _ _

theorem finished_advanced (h : f.ahead = b :: bs) : f.advanced.finished = f.finished := by
  have hlen := f.length_ahead
  rw [h, List.length_cons, unread] at hlen
  have hmax : max (f.cursor + 1) f.buffers.size = max f.cursor f.buffers.size := by omega
  simp only [finished, advanced, hmax]

/-- **Reading to the end shows every buffer ahead, in order, and succeeds.** -/
theorem walk_eq {σ : Type} (visit : σ → Bytes → σ) (s : σ) (f : Feed) :
    f.walk visit s = (.ok (f.ahead.foldl visit s), f.finished) := by
  -- by induction on what is ahead; a read moves both the feed and the visitor's state
  generalize hbs : f.ahead = bs
  induction bs generalizing f s with
  | nil =>
    unfold walk
    simp only [hasMore_of_ahead_nil hbs, Bool.false_eq_true, if_false, List.foldl_nil,
      finished_of_ahead_nil hbs]
  | cons b bs ih =>
    have hrest : f.advanced.ahead = bs := by rw [ahead_advanced, hbs, List.tail_cons]
    unfold walk
    rw [if_pos (hasMore_of_ahead_cons hbs)]
    split
    · rename_i c g hn
      rw [next_of_ahead_cons hbs, Prod.mk.injEq, Except.ok.injEq] at hn
      obtain ⟨rfl, rfl⟩ := hn
      rw [ih (visit s b) f.advanced hrest, finished_advanced hbs, List.foldl_cons]
    · rename_i e g hn
      rw [next_of_ahead_cons hbs] at hn
      cases hn

theorem drain_eq (f : Feed) : f.drain = (.ok f.ahead.toArray, f.finished) := by
  rw [drain, walk_eq]
  congr 2
  rw [List.foldl_push_eq_append]
  simp only [List.map_id', Array.empty_append]

/-! ## What an action takes -/

variable {g : Feed} {cs : List Bytes}

/-- The buffers that an answer hands over. -/
def Answer.buffers : Answer → List Bytes
  | .buffer b => [b]
  | .drained bs => bs.toList
  | .flag _ | .number _ => []

/-- The buffers that an action takes from a feed. -/
def taken (f : Feed) (action : Action) : List Bytes :=
  match (f.perform action).1 with
  | .ok answer => answer.buffers
  | .error _ => []

theorem taken_next (f : Feed) : f.taken .next = f.ahead.take 1 := by
  cases hahead : f.ahead with
  | nil =>
    simp only [taken, perform, next_of_ahead_nil hahead, List.take_nil]
    rfl
  | cons b bs =>
    simp only [taken, perform, next_of_ahead_cons hahead, List.take_succ_cons, List.take_zero]
    rfl

theorem taken_drain (f : Feed) : f.taken .drain = f.ahead := by
  simp only [taken, perform, drain_eq]
  rfl

/-- The second feed is the first one, read on by these buffers. -/
structure ReadOn (f : Feed) (bs : List Bytes) (g : Feed) : Prop where
  eq_moved : g = { f with cursor := f.cursor + bs.length }
  ahead_eq : f.ahead = bs ++ g.ahead

theorem ReadOn.refl (f : Feed) : f.ReadOn [] f := ⟨rfl, rfl⟩

theorem ReadOn.trans {e : Feed} (h : e.ReadOn bs f) (k : f.ReadOn cs g) :
    e.ReadOn (bs ++ cs) g where
  eq_moved := by rw [k.eq_moved, h.eq_moved, List.length_append, Nat.add_assoc]
  ahead_eq := by rw [h.ahead_eq, k.ahead_eq, List.append_assoc]

theorem ReadOn.buffers_eq (h : f.ReadOn bs g) : g.buffers = f.buffers := by rw [h.eq_moved]

theorem ReadOn.size_eq (h : f.ReadOn bs g) : g.size = f.size := by rw [h.eq_moved]

theorem ReadOn.advanced {b : Bytes} (h : f.ahead = b :: bs) : f.ReadOn [b] f.advanced where
  eq_moved := rfl
  ahead_eq := by rw [ahead_advanced, h, List.tail_cons, List.singleton_append]

theorem ReadOn.finished (f : Feed) : f.ReadOn f.ahead f.finished where
  eq_moved := by
    have hcursor : max f.cursor f.buffers.size = f.cursor + f.ahead.length := by
      rw [length_ahead, unread]
      omega
    rw [Feed.finished, hcursor]
  ahead_eq := by
    rw [ahead_finished, List.append_nil]

/-- What was read is no longer ahead. -/
theorem ReadOn.ahead_eq_drop {n : Nat} (h : f.ReadOn (f.ahead.take n) g) :
    g.ahead = f.ahead.drop n := by
  have hsplit := h.ahead_eq
  conv at hsplit => lhs; rw [← List.take_append_drop n f.ahead]
  exact (List.append_cancel_left hsplit).symm

/-- **What an action takes is what is no longer ahead.** -/
theorem ReadOn.perform (f : Feed) (action : Action) :
    f.ReadOn (f.taken action) (f.perform action).2 := by
  cases action with
  | next =>
    rw [taken_next]
    cases hahead : f.ahead with
    | nil =>
      simp only [Feed.perform, next_of_ahead_nil hahead]
      exact .refl f
    | cons b bs =>
      simp only [Feed.perform, next_of_ahead_cons hahead]
      exact .advanced hahead
  | drain =>
    rw [taken_drain]
    simp only [Feed.perform, drain_eq]
    exact .finished f
  | _ => exact .refl f

/-! ## The feeds there can be -/

theorem WellFormed.finished (h : f.WellFormed) : f.finished.WellFormed where
  cursor_le := Nat.max_le.mpr ⟨h.cursor_le, Nat.le_refl _⟩
  size_eq := h.size_eq

/-- Every action keeps a feed well formed. -/
theorem WellFormed.perform (h : f.WellFormed) (action : Action) :
    (f.perform action).2.WellFormed := by
  cases action with
  | next => exact h.next
  | drain =>
    simp only [Feed.perform, drain_eq]
    exact h.finished
  | _ => exact h

/-- Made by `generate`, and acted on since. -/
inductive Obtainable : Feed → Prop
  | made {count size : Nat} {origin : Origin} {source rest : Source} {f : Feed}
      (h : generate count size origin source = some (f, rest)) : Obtainable f
  | used {f : Feed} (h : Obtainable f) (action : Action) : Obtainable (f.perform action).2

theorem Obtainable.wellFormed (h : f.Obtainable) : f.WellFormed := by
  induction h with
  | made h => exact wellFormed_of_generate h
  | used _ action ih => exact ih.perform action

end BufferFeed.Feed

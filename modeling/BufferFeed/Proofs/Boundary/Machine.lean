import Mathlib.Algebra.Group.Nat.Defs
import BufferFeed.Boundary.Jvm

/-!
# What a machine answers

The functions of a virtual machine, each by one equation, and the two compound operations by what
they come to.

An array is given or refused by the faults, by what is pending beforehand and by the length that is
asked for. `arrayError?` says which it is, the first obstacle first (`byteArray_of_error`,
`byteArray_of_given`). The length is the number of bytes only as long as this fits into 31 bits
(`toInt_ofNat_length`); the contents are then written whole (`written_of_lt`). An attempt to raise
an exception may fail in many ways, and nothing is said of them here but this: when it does not
fail, an exception is pending afterwards (`isSome_pending_of_raise`).
-/

namespace BufferFeed.Jvm

variable {α β : Type} {m n : Machine} {faults : List Fault} {pending : Option Throwable}

/-! ## Going on -/

theorem bind_apply (x : Op α) (f : α → Op β) (m : Machine) :
    (x >>= f) m =
      match x m with
      | (.ok a, n) => f a n
      | (.error e, n) => (.error e, n) := by
  show (ExceptT.bind x f) m = _
  simp only [ExceptT.bind, ExceptT.mk, bind, StateT.bind]
  cases x m with
  | mk r n => cases r <;> rfl

/-- What ends well has ended well in both its parts. -/
theorem eq_ok_of_bind {x : Op α} {f : α → Op β} {b : β} (h : (x >>= f) m = (.ok b, n)) :
    ∃ a t, x m = (.ok a, t) ∧ f a t = (.ok b, n) := by
  rw [bind_apply] at h
  split at h
  · exact ⟨_, _, ‹_›, h⟩
  · cases h

theorem run_ite (c : Prop) [Decidable c] (x y : Op α) (m : Machine) :
    (if c then x else y) m = if c then x m else y m := by
  split <;> rfl

theorem get_bind (f : Machine → Op β) (m : Machine) : (get >>= f) m = f m m := rfl

/-! ## The functions -/

/-- The machine once a function was reached. -/
def Machine.reached (m : Machine) (q : Request) : Machine :=
  ⟨m.faults, (thrown? m.faults q).or m.pending, m.calls ++ [⟨q, m.pending⟩]⟩

@[simp]
theorem Machine.faults_reached (m : Machine) (q : Request) : (m.reached q).faults = m.faults := rfl

@[simp]
theorem Machine.pending_reached (m : Machine) (q : Request) :
    (m.reached q).pending = (thrown? m.faults q).or m.pending := rfl

/-- A function that is not there ends an operation that begins with it. -/
theorem enter_bind (q : Request) (g : Unit → Op β) (m : Machine) :
    (enter q >>= g) m =
      if .missing q.function ∈ m.faults then (.error (.missing q.function), m)
      else g () (m.reached q) := by
  have henter : enter q m =
      if .missing q.function ∈ m.faults then (.error (.missing q.function), m)
      else (.ok (), m.reached q) := by
    show (if .missing q.function ∈ m.faults then _ else _ : Op Unit) m = _
    split <;> rfl
  rw [bind_apply, henter]
  by_cases h : .missing q.function ∈ m.faults
  · rw [if_pos h, if_pos h]
  · rw [if_neg h, if_neg h]

theorem exceptionCheck_apply (m : Machine) :
    exceptionCheck m =
      if .missing .exceptionCheck ∈ m.faults then (.error (.missing .exceptionCheck), m)
      else (.ok m.pending.isSome, m.reached .exceptionCheck) :=
  enter_bind .exceptionCheck _ m

theorem failIfPending_bind (g : Unit → Op β) (m : Machine) :
    (failIfPending >>= g) m =
      if .missing .exceptionCheck ∈ m.faults then (.error (.missing .exceptionCheck), m)
      else if m.pending.isSome then (.error .exceptionPending, m.reached .exceptionCheck)
      else g () (m.reached .exceptionCheck) := by
  rw [failIfPending, bind_assoc, bind_apply, exceptionCheck_apply]
  by_cases hcheck : .missing .exceptionCheck ∈ m.faults
  · rw [if_pos hcheck, if_pos hcheck]
  · rw [if_neg hcheck, if_neg hcheck]
    show ((if m.pending.isSome then throw .exceptionPending else pure () : Op Unit) >>= g) _ = _
    split <;> rfl

/-- A machine that cannot be asked knows of no exception. -/
theorem knownPending_apply (m : Machine) :
    knownPending m =
      if .missing .exceptionCheck ∈ m.faults then (.ok false, m)
      else (.ok m.pending.isSome, m.reached .exceptionCheck) := by
  have h := exceptionCheck_apply m
  show (ExceptT.tryCatch exceptionCheck fun _ => pure false) m = _
  simp only [ExceptT.tryCatch, ExceptT.mk, bind, StateT.bind]
  by_cases hcheck : .missing .exceptionCheck ∈ m.faults
  · rw [if_pos hcheck] at h ⊢
    rw [h]
    rfl
  · rw [if_neg hcheck] at h ⊢
    rw [h]
    rfl

theorem throwNew_apply (t : Throwable) (m : Machine) :
    throwNew t m =
      if .missing .throwNew ∈ m.faults then (.error (.missing .throwNew), m)
      else if .throwRefused ∈ m.faults then (.error (.throwFailed (-1)), m.reached (.throwNew t))
      else (.ok (), { m.reached (.throwNew t) with pending := some t }) := by
  simp only [throwNew, enter_bind, get_bind, run_ite]
  rfl

/-- How a function that makes something goes: it may throw, then it is asked whether an exception is
pending, and only then is the result looked at. -/
theorem make_apply (q : Request) (null : Fault) (m : Machine) :
    make q null m =
      if .missing q.function ∈ m.faults then (.error (.missing q.function), m)
      else if .missing .exceptionCheck ∈ m.faults then
        (.error (.missing .exceptionCheck), m.reached q)
      else if (m.reached q).pending.isSome then
        (.error .exceptionPending, (m.reached q).reached .exceptionCheck)
      else if null ∈ m.faults then
        (.error (.nullResult q.function), (m.reached q).reached .exceptionCheck)
      else (.ok (), (m.reached q).reached .exceptionCheck) := by
  rw [make, enter_bind, failIfPending_bind, get_bind, run_ite]
  rfl

/-! ## What a machine throws -/

/-- An array of this length was asked for. -/
def lengthError (length : Int32) : Throwable :=
  ⟨"java/lang/NegativeArraySizeException", toString length.toInt⟩

/-- There is no room for an array. -/
def memoryError : Throwable := ⟨"java/lang/OutOfMemoryError", "Java heap space"⟩

/-- A class is not found. -/
def classError (className : String) : Throwable := ⟨"java/lang/NoClassDefFoundError", className⟩

/-- An array is not written to. -/
def regionError : Throwable := ⟨"java/lang/ArrayIndexOutOfBoundsException", "region"⟩

/-! ## Raising an exception -/

/-- **After an attempt to raise an exception that does not fail, one is pending**: the one that was
pending before, or else the one that was raised. -/
theorem isSome_pending_of_raise {t : Throwable} (h : raise t m = (.ok (), n)) :
    n.pending.isSome = true := by
  obtain ⟨known, k, hk, h⟩ := eq_ok_of_bind h
  by_cases hknown : known = true
  · rw [run_ite, if_pos hknown] at h
    cases h
    rw [knownPending_apply] at hk
    split at hk
    · cases hk
      cases hknown
    · obtain ⟨hr, rfl⟩ := Prod.mk.inj hk
      exact (Except.ok.inj hr).trans hknown
  · rw [run_ite, if_neg hknown] at h
    obtain ⟨_, c, _, h⟩ := eq_ok_of_bind h
    rw [throwNew_apply] at h
    split at h
    · cases h
    · split at h
      · cases h
      · cases h
        rfl

/-- A machine without faults raises an exception when none is pending, and leaves one that is. -/
theorem raise_of_sound (t : Throwable) (pending : Option Throwable) :
    ∃ calls, raise t (.enter [] pending) = (.ok (), ⟨[], pending.or (some t), calls⟩) := by
  cases pending with
  | none => exact ⟨_, rfl⟩
  | some u => exact ⟨_, rfl⟩

/-! ## Arrays with contents -/

/-- The length that is asked for is the number of bytes, where this is not too large. -/
theorem toInt_ofNat_length {contents : Bytes} (small : contents.length < 2 ^ 31) :
    (Int32.ofNat contents.length).toInt = contents.length :=
  Int32.toInt_ofNat_of_lt small

/-- A length comes out below zero when its thirty-second bit is set. -/
theorem ofNat_neg_iff {n : Nat} : Int32.ofNat n < 0 ↔ 2 ^ 31 ≤ n % 2 ^ 32 := by
  rw [Int32.lt_iff_toInt_lt, Int32.toInt_zero, Int32.toInt_ofNat']
  simp only [Int32.size, Int.bmod_def]
  omega

/-- What an array that was given holds in the end. -/
def written (faults : List Fault) (contents : Bytes) : Bytes :=
  if .regionRefused ∈ faults then List.replicate (Int32.ofNat contents.length).toInt.toNat 0
  else contents.take (Int32.ofNat contents.length).toInt.toNat

theorem written_of_lt {contents : Bytes} (small : contents.length < 2 ^ 31) :
    written faults contents =
      if .regionRefused ∈ faults then List.replicate contents.length 0 else contents := by
  rw [written, toInt_ofNat_length small, Int.toNat_natCast, List.take_length]

theorem setByteArrayRegion_apply (length : Int32) (contents : Bytes) (m : Machine) :
    setByteArrayRegion length contents m =
      if .missing .setByteArrayRegion ∈ m.faults then (.error (.missing .setByteArrayRegion), m)
      else
        (.ok (if .regionRefused ∈ m.faults then List.replicate length.toInt.toNat 0
          else contents.take length.toInt.toNat), m.reached (.setByteArrayRegion length)) := by
  rw [setByteArrayRegion, enter_bind, get_bind, run_ite, Machine.faults_reached]
  by_cases hrefused : .regionRefused ∈ m.faults
  · rw [if_pos hrefused, if_pos hrefused]
    rfl
  · rw [if_neg hrefused, if_neg hrefused]
    rfl

/-- Why a machine gives no array of so many bytes, the first obstacle first. -/
def arrayError? (faults : List Fault) (pending : Option Throwable) (length : Nat) : Option Error :=
  if .missing .newByteArray ∈ faults then some (.missing .newByteArray)
  else if .missing .exceptionCheck ∈ faults then some (.missing .exceptionCheck)
  else if 2 ^ 31 ≤ length % 2 ^ 32 ∨ .outOfMemory ∈ faults ∨ pending.isSome = true then
    some .exceptionPending
  else if .nullArray ∈ faults then some (.nullResult .newByteArray)
  else if .missing .setByteArrayRegion ∈ faults then some (.missing .setByteArrayRegion)
  else none

theorem arrayError?_eq_none_iff {length : Nat} :
    arrayError? faults pending length = none ↔
      .missing .newByteArray ∉ faults ∧ .missing .exceptionCheck ∉ faults ∧
        ¬ (2 ^ 31 ≤ length % 2 ^ 32 ∨ .outOfMemory ∈ faults ∨ pending.isSome = true) ∧
          .nullArray ∉ faults ∧ .missing .setByteArrayRegion ∉ faults := by
  have hrow {c : Prop} [Decidable c] {e : Error} {o : Option Error} :
      (if c then some e else o) = none ↔ ¬ c ∧ o = none := by
    split <;> simp only [*, reduceCtorEq, not_true_eq_false, not_false_eq_true, false_and, true_and]
  simp only [arrayError?, hrow, and_true]

/-- A machine without faults refuses an array only for a length below zero. -/
theorem arrayError?_sound_eq_none_iff {length : Nat} :
    arrayError? [] none length = none ↔ ¬ 2 ^ 31 ≤ length % 2 ^ 32 := by
  simp only [arrayError?_eq_none_iff, List.not_mem_nil, not_false_eq_true, Option.isSome_none,
    Bool.false_eq_true, or_false, true_and, and_true]

/-- A machine without faults gives an array of any length that it can be asked for. -/
theorem arrayError?_of_sound {length : Nat} (small : length < 2 ^ 31) :
    arrayError? [] none length = none :=
  arrayError?_sound_eq_none_iff.mpr (by omega)

/-- An exception is pending behind a request for an array if the machine threw one, be it over the
length or for want of room, or if one was pending before. -/
theorem isSome_pending_reached (n : Nat) (m : Machine) :
    (m.reached (.newByteArray (Int32.ofNat n))).pending.isSome = true ↔
      2 ^ 31 ≤ n % 2 ^ 32 ∨ .outOfMemory ∈ m.faults ∨ m.pending.isSome = true := by
  rw [Machine.pending_reached, thrown?, ← ofNat_neg_iff]
  by_cases hneg : Int32.ofNat n < 0
  · simp only [hneg, if_true, Option.some_or, Option.isSome_some, true_or]
  by_cases hmemory : .outOfMemory ∈ m.faults
  · simp only [hneg, hmemory, if_false, if_true, Option.some_or, Option.isSome_some, true_or,
      or_true]
  · simp only [hneg, hmemory, if_false, Option.none_or, false_or]

theorem newByteArray_apply (n : Nat) (m : Machine) :
    newByteArray (Int32.ofNat n) m =
      let asked := m.reached (.newByteArray (Int32.ofNat n))
      if .missing .newByteArray ∈ m.faults then (.error (.missing .newByteArray), m)
      else if .missing .exceptionCheck ∈ m.faults then (.error (.missing .exceptionCheck), asked)
      else if 2 ^ 31 ≤ n % 2 ^ 32 ∨ .outOfMemory ∈ m.faults ∨ m.pending.isSome = true then
        (.error .exceptionPending, asked.reached .exceptionCheck)
      else if .nullArray ∈ m.faults then
        (.error (.nullResult .newByteArray), asked.reached .exceptionCheck)
      else (.ok (), asked.reached .exceptionCheck) := by
  rw [newByteArray, make_apply]
  simp only [isSome_pending_reached, Request.function]

theorem byteArray_of_error {e : Error} {contents : Bytes}
    (h : arrayError? m.faults m.pending contents.length = some e) :
    (byteArray contents m).1 = .error e := by
  unfold arrayError? at h
  rw [byteArray, bind_apply, newByteArray_apply]
  -- the obstacles in the order in which the machine meets them
  by_cases hnew : .missing .newByteArray ∈ m.faults
  · simp only [hnew, if_true, Option.some.injEq] at h ⊢
    rw [h]
  by_cases hcheck : .missing .exceptionCheck ∈ m.faults
  · simp only [hnew, hcheck, if_true, if_false, Option.some.injEq] at h ⊢
    rw [h]
  by_cases hpending : 2 ^ 31 ≤ contents.length % 2 ^ 32 ∨ .outOfMemory ∈ m.faults ∨
      m.pending.isSome = true
  · simp only [hnew, hcheck, hpending, if_true, if_false, Option.some.injEq] at h ⊢
    rw [h]
  by_cases hnull : .nullArray ∈ m.faults
  · simp only [hnew, hcheck, hpending, hnull, if_true, if_false, Option.some.injEq] at h ⊢
    rw [h]
  simp only [hnew, hcheck, hpending, hnull, if_false, Option.ite_none_right_eq_some] at h ⊢
  obtain ⟨hregion, he⟩ := h
  simp only [setByteArrayRegion_apply, Machine.faults_reached, hregion, if_true, Option.some.inj he]

/-- An array that is given is written to, or else left as it was made, with an exception pending. -/
theorem byteArray_of_given {contents : Bytes}
    (h : arrayError? m.faults m.pending contents.length = none) :
    (byteArray contents m).1 = .ok (written m.faults contents) ∧
      (byteArray contents m).2.pending =
        if .regionRefused ∈ m.faults then some regionError else m.pending := by
  obtain ⟨hnew, hcheck, hpending, hnull, hregion⟩ := arrayError?_eq_none_iff.mp h
  obtain ⟨hlength, hmemory, -⟩ := not_or.mp hpending |>.imp_right not_or.mp
  rw [← ofNat_neg_iff] at hlength
  simp only [byteArray, bind_apply, newByteArray_apply, hnew, hcheck, hpending, hnull,
    setByteArrayRegion_apply, Machine.faults_reached, hregion, if_false]
  refine ⟨rfl, ?_⟩
  simp only [Machine.pending_reached, Machine.faults_reached, thrown?, hlength, hmemory, if_false,
    Option.none_or, regionError]
  by_cases hrefused : .regionRefused ∈ m.faults
  · simp only [hrefused, if_true, Option.some_or]
  · simp only [hrefused, if_false, Option.none_or]

/-- A machine without faults refuses a length below zero by an exception of its own. -/
theorem pending_byteArray_of_overlong {contents : Bytes}
    (overlong : 2 ^ 31 ≤ contents.length % 2 ^ 32) :
    (byteArray contents (.enter [] none)).2.pending =
      some (lengthError (Int32.ofNat contents.length)) := by
  have hneg := ofNat_neg_iff.mpr overlong
  simp only [byteArray, bind_apply, newByteArray_apply, Machine.enter, List.not_mem_nil, overlong,
    true_or, if_true, if_false, Machine.pending_reached, thrown?, hneg, Option.none_or,
    Option.some_or, lengthError]

end BufferFeed.Jvm

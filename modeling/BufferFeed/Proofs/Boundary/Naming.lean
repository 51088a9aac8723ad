import BufferFeed.Proofs.Text.Hex
import BufferFeed.Proofs.Boundary.Creation

/-!
# The notations of a handle

A handle is its two components, or the raw value, or the signed word, or the text. Each of these
gives the handle back (`Handle.Notated`), so a client that keeps one of them keeps the handle,
whichever surface it came through.

The text also stands in messages and log lines, among other words. No word before it has the mark of
a number, and what comes behind it is no digit; so the first marked number in such a text is the
handle's (`Shows.named?_eq`). Two of them are therefore about the same handle exactly when the raw
values are equal (`notations_invert`).
-/

namespace BufferFeed

/-! ## Reading a handle out of a text -/

/-- The handle that a text names: the first marked number in it, as far as its digits go. -/
def Handle.named? (s : String) : Option Handle :=
  (Hex.afterMark? s.toList).bind fun cs =>
    ofText? (String.ofList ('0' :: 'x' :: cs.takeWhile (· ∈ Hex.alphabet)))

namespace Text

variable {c : Char} {p q : String}

theorem notMem_append (hp : c ∉ p.toList) (hq : c ∉ q.toList) : c ∉ (p ++ q).toList := by
  rw [String.toList_append, List.mem_append, not_or]
  exact ⟨hp, hq⟩

theorem head?_append (hp : p.toList.head? = some c) : (p ++ q).toList.head? = some c := by
  rw [String.toList_append, List.head?_append, hp]
  rfl

theorem notMem_toString_nat (n : Nat) : 'x' ∉ (toString n).toList := by
  intro hx
  have hdigit : Char.isDigit 'x' = true := by
    apply Nat.isDigit_of_mem_toDigits (b := 10) (n := n) (by decide) (by decide)
    rwa [← String.toList_ofList (l := Nat.toDigits 10 n)]
  exact absurd hdigit (by decide)

theorem notMem_toString_int (n : Int) : 'x' ∉ (toString n).toList := by
  cases n with
  | ofNat n => exact notMem_toString_nat n
  | negSucc n => exact notMem_append (by decide) (notMem_toString_nat (n + 1))

end Text

namespace Handle

variable {h : Handle} {s : String}

theorem toList_text (h : Handle) : h.text.toList = '0' :: 'x' :: Hex.digits h.raw.toNat := by
  rw [text, Hex.text, String.toList_ofList]

theorem text_zero : (ofRaw 0).text = "0x0" := by
  unfold text Hex.text Hex.digits
  rfl

theorem ofText?_text (h : Handle) : ofText? h.text = some h := by
  have hsize : h.raw.toNat < UInt64.size := h.raw.toNat_lt
  rw [ofText?, text, Hex.read?_text]
  simp only [hsize, if_true, UInt64.ofNat_toNat, ofRaw_raw]

/-- Texts in which the handle's own stands, behind words without a mark and before no digit. -/
inductive Shows (h : Handle) : String → Prop
  | intro (before after : String) (unmarked : Hex.afterMark? before.toList = none)
      (ends : ∀ c ∈ after.toList.head?, c ∉ Hex.alphabet) : Shows h (before ++ h.text ++ after)

theorem Shows.named?_eq (shows : Shows h s) : named? s = some h := by
  obtain ⟨before, after, unmarked, ends⟩ := shows
  rw [named?, String.toList_append, String.toList_append, toList_text, List.append_assoc,
    List.cons_append, List.cons_append, Hex.afterMark?_append unmarked, Option.bind_some,
    Hex.takeWhile_digits_append _ ends]
  exact ofText?_text h

end Handle

/-! ## Texts that are about a handle -/

/-- The handle that a failure is about. -/
def Failure.handle? : Failure → Option Handle
  | .stale h => some h
  | .exhausted | .invalid _ | .other _ => none

/-- The words before the handle in a message. -/
def Failure.staleWords : String := "Stale or unknown iterator handle: "

namespace Record

/-- The handle that a record is about. -/
def handle? : Record → Option Handle
  | .registered h .. | .released h .. => some h
  | .createFailed _ _ f | .failed _ f | .methodFailed _ f => f.handle?
  | .destinationRejected _ | .panicked _ | .methodPanicked _ | .raiseFailed .. => none

/-- What stands in a line before the record's text. -/
def heading (level : Level) (target : Target) : String := level.text ++ " " ++ target.text ++ ": "

/-! ### No mark before the handle

Of all the words only the numbers have a zero in them, and the numbers have no letter. -/

variable {c : Char}

theorem notMem_heading (hc : c = '0' ∨ c = 'x') (level : Level) (target : Target) :
    c ∉ (heading level target).toList := by
  have hlevel : c ∉ level.text.toList := by rcases hc with rfl | rfl <;> cases level <;> decide
  have htarget : c ∉ target.text.toList := by rcases hc with rfl | rfl <;> cases target <;> decide
  have hspace : c ∉ " ".toList := by rcases hc with rfl | rfl <;> decide
  have hcolon : c ∉ ": ".toList := by rcases hc with rfl | rfl <;> decide
  unfold heading
  apply Text.notMem_append _ hcolon
  apply Text.notMem_append _ htarget
  exact Text.notMem_append hlevel hspace

theorem notMem_staleWords (hc : c = '0' ∨ c = 'x') : c ∉ Failure.staleWords.toList := by
  rcases hc with rfl | rfl <;> decide

theorem unmarked_table (level : Level) :
    Hex.afterMark? (heading level .table ++ "iterator/").toList = none := by
  have hc : '0' = '0' ∨ '0' = 'x' := .inl rfl
  exact Hex.afterMark?_of_notMem hc (Text.notMem_append (notMem_heading hc _ _) (by decide))

theorem unmarked_failure {words : String} (hwords : '0' ∉ words.toList) (level : Level)
    (target : Target) :
    Hex.afterMark? (heading level target ++ (words ++ ": " ++ Failure.staleWords)).toList =
      none := by
  have hc : '0' = '0' ∨ '0' = 'x' := .inl rfl
  apply Hex.afterMark?_of_notMem hc
  apply Text.notMem_append (notMem_heading hc _ _)
  exact Text.notMem_append (Text.notMem_append hwords (by decide)) (notMem_staleWords hc)

theorem unmarked_create (count : Int) (size : Nat) (level : Level) (target : Target) :
    Hex.afterMark? (heading level target ++
      (CFunction.create.symbol ++ s!"({count}, {size}): " ++ Failure.staleWords)).toList =
        none := by
  have hc : 'x' = '0' ∨ 'x' = 'x' := .inr rfl
  have hsize : 'x' ∉ s!"({count}, {size}): ".toList := by
    apply Text.notMem_append _ (by decide)
    apply Text.notMem_append _ (Text.notMem_toString_nat size)
    apply Text.notMem_append _ (by decide)
    exact Text.notMem_append (by decide) (Text.notMem_toString_int count)
  apply Hex.afterMark?_of_notMem hc
  apply Text.notMem_append (notMem_heading hc _ _)
  exact Text.notMem_append (Text.notMem_append (by decide) hsize) (notMem_staleWords hc)

end Record

namespace Handle

variable {g h : Handle} {s t : String} {f : Failure} {r : Record}

/-- In the lines of the table the handle stands before a colon. -/
theorem shows_append {p q after : String} (unmarked : Hex.afterMark? (p ++ q).toList = none)
    (colon : after.toList.head? = some ':') : Shows h (p ++ (q ++ h.text ++ after)) := by
  have ends : ∀ c ∈ after.toList.head?, c ∉ Hex.alphabet := by
    intro c hc
    rw [colon] at hc
    obtain rfl := Option.some.inj hc
    decide
  have shows := Shows.intro (h := h) (p ++ q) after unmarked ends
  rwa [String.append_assoc, String.append_assoc, ← @String.append_assoc q] at shows

/-- In a message it stands last. -/
theorem shows_failure {p q : String} (about : f.handle? = some h)
    (unmarked : Hex.afterMark? (p ++ (q ++ Failure.staleWords)).toList = none) :
    Shows h (p ++ (q ++ f.message)) := by
  cases f with
  | stale g =>
    obtain rfl := Option.some.inj about
    have shows := Shows.intro (h := g) _ "" unmarked nofun
    rwa [String.append_empty, String.append_assoc, String.append_assoc] at shows
  | exhausted | invalid _ | other _ => cases about

theorem shows_message (about : f.handle? = some h) : Shows h f.message := by
  have unmarked : Hex.afterMark? ("" ++ ("" ++ Failure.staleWords)).toList = none := by
    rw [String.empty_append, String.empty_append]
    exact Hex.afterMark?_of_notMem (.inl rfl) (Record.notMem_staleWords (.inl rfl))
  have shows := shows_failure about unmarked
  rwa [String.empty_append, String.empty_append] at shows

theorem shows_line (about : r.handle? = some h) : Shows h r.line := by
  cases r with
  | registered g count size =>
    obtain rfl := Option.some.inj about
    apply shows_append (Record.unmarked_table _)
    iterate 4 apply Text.head?_append
    decide
  | released g unread count =>
    obtain rfl := Option.some.inj about
    apply shows_append (Record.unmarked_table _)
    iterate 4 apply Text.head?_append
    decide
  | createFailed count size f => exact shows_failure about (Record.unmarked_create _ _ _ _)
  | failed function f =>
    have hwords : '0' ∉ function.symbol.toList := by cases function <;> decide
    exact shows_failure about (Record.unmarked_failure hwords _ _)
  | methodFailed method f =>
    have hwords : '0' ∉ method.name.toList := by cases method <;> decide
    exact shows_failure about (Record.unmarked_failure hwords _ _)
  | destinationRejected _ | panicked _ | methodPanicked _ | raiseFailed _ _ => cases about

/-- The texts that are about a handle: messages of failures, and lines of the log. -/
inductive Concerns (h : Handle) : String → Prop
  | message {f : Failure} (about : f.handle? = some h) : Concerns h f.message
  | line {r : Record} (about : r.handle? = some h) : Concerns h r.line

theorem Concerns.shows (concerns : h.Concerns s) : h.Shows s := by
  cases concerns with
  | message about => exact shows_message about
  | line about => exact shows_line about

theorem Concerns.named?_eq_iff (concerns : g.Concerns s) (concerns' : h.Concerns t) :
    named? s = named? t ↔ g.raw = h.raw := by
  rw [concerns.shows.named?_eq, concerns'.shows.named?_eq, Option.some.injEq, raw_inj]

theorem message_stale_inj :
    (Failure.stale g).message = (Failure.stale h).message ↔ g.raw = h.raw := by
  have hg : g.Concerns (Failure.stale g).message := .message rfl
  have hh : h.Concerns (Failure.stale h).message := .message rfl
  constructor
  · intro heq
    exact (hg.named?_eq_iff hh).mp (congrArg named? heq)
  · intro hraw
    rw [raw_inj.mp hraw]

end Handle

/-! ## Words that Java is answered -/

namespace JavaSurface.Call

open Jvm (Fault)

variable {s : Boundary} {faults : List Fault} {count : Int32} {size long : Int64}
  {key : Keystream.Key}

/-- The word stands for the handle that the table has issued. -/
theorem insert_of_created
    (answered : ((create count size key).act faults s).ending = .value (.created long))
    (hlong : long ≠ 0) :
    ∃ f, s.table.insert f =
      (.ofLong long, ((create count size key).act faults s).state.table) := by
  rcases eq_fallback_or_value answered with hfallback | hbody
  · obtain rfl := Reply.created.inj hfallback
    exact absurd rfl hlong
  rw [body_create] at hbody
  have hvalue := Plan.outcome_of_run_value hbody
  have hstock := (create count size key).stock_act faults s
  by_cases hneg : (create count size key).Negative
  · rw [plan_of_negative hneg] at hvalue
    cases hvalue
  obtain ⟨hcount, hsize⟩ := not_negative_iff.mp hneg
  rw [plan_of_nonneg hcount hsize] at hvalue hstock
  cases hmade : Feed.ofEntropy count.toInt.toNat size.toInt.toNat key with
  | none =>
    simp only [Plan.map, Plan.supplyFresh, hmade, Ending.map] at hvalue
    cases hvalue
  | some f =>
    simp only [Plan.map, Plan.supplyFresh, hmade, Ending.map] at hvalue
    simp only [Plan.map, Plan.supplyFresh, Demand.meet, hmade] at hstock
    obtain rfl := Reply.created.inj (Ending.value.inj hvalue)
    have htable := congrArg Stock.table hstock
    exact ⟨f, Prod.ext (Handle.ofLong_long _).symm htable.symm⟩

end JavaSurface.Call

/-! ## All notations -/

namespace Handle

/-- What the notations of a handle say of it; and each of them gives it back. -/
structure Notated (h : Handle) : Prop where
  toNat_raw_eq : h.raw.toNat = h.generation.toNat * 2 ^ 32 + h.index.toNat
  ofRaw_raw_eq : ofRaw h.raw = h
  toBitVec_long_eq : h.long.toBitVec = h.raw.toBitVec
  ofLong_long_eq : ofLong h.long = h
  /-- The mark, and behind it the fewest digits that spell the raw value. -/
  toList_text_iff : ∀ digits,
    h.text.toList = '0' :: 'x' :: digits ↔ Hex.Shortest digits h.raw.toNat
  read?_text_eq : Hex.read? h.text = some h.raw.toNat
  ofText?_text_eq : ofText? h.text = some h

theorem notated (h : Handle) : h.Notated where
  toNat_raw_eq := toNat_raw h
  ofRaw_raw_eq := ofRaw_raw h
  toBitVec_long_eq := rfl
  ofLong_long_eq := ofLong_long h
  toList_text_iff digits := by
    rw [toList_text, List.cons_inj_right, List.cons_inj_right, Hex.shortest_iff, eq_comm]
  read?_text_eq := Hex.read?_text _
  ofText?_text_eq := ofText?_text h

/-- **The notations of a handle invert one another**, for every handle, every raw value and every
signed word. The word that Java is answered when it makes a feed stands for the handle that the
table has issued. And a handle can be read from the texts that are about it: two messages of stale
handles are equal exactly when the raw values are, and just then do any two messages or lines name
the same handle. -/
theorem notations_invert :
    (∀ h : Handle, h.Notated) ∧
    (∀ raw : UInt64, (ofRaw raw).raw = raw ∧ (ofLong raw.toInt64).raw = raw) ∧
    (∀ long : Int64, (ofLong long).long = long) ∧
    (ofRaw 0).text = "0x0" ∧
    (∀ (s : Boundary) (faults : List Jvm.Fault) (count : Int32) (size long : Int64)
        (key : Keystream.Key),
      let r := (JavaSurface.Call.create count size key).act faults s
      r.ending = .value (.created long) → long ≠ 0 →
        ∃ f, s.table.insert f = (ofLong long, r.state.table)) ∧
    (∀ g h : Handle, (Failure.stale g).message = (Failure.stale h).message ↔ g.raw = h.raw) ∧
    ∀ (g h : Handle) (s t : String), g.Concerns s → h.Concerns t →
      g.Shows s ∧ named? s = some g ∧ (named? s = named? t ↔ g.raw = h.raw) := by
  refine ⟨notated, fun raw => ⟨raw_ofRaw raw, ?_⟩, long_ofLong, text_zero, ?_,
    fun g h => message_stale_inj, ?_⟩
  · rw [ofLong_toInt64, raw_ofRaw]
  · intro s faults count size long key r
    exact JavaSurface.Call.insert_of_created
  · intro g h s t concerns concerns'
    exact ⟨concerns.shows, concerns.shows.named?_eq, concerns.named?_eq_iff concerns'⟩

/-- The topmost bit of the generation is the sign of the word, and is not lost by that; and the
message and the line of a handle name it alike. -/
theorem notations_invert_signed :
    let h : Handle := ⟨1, 0xfffffffe⟩
    let s := Boundary.start ⟨.counting 0 1, 0⟩
    let r := (JavaSurface.Call.create 0 0 (.ofBytes [])).act [] s
    (h.long < 0 ∧ ofLong h.long = h) ∧
      (r.ending = .value (.created 0x100000000) ∧
        ∃ f, s.table.insert f = (ofLong 0x100000000, r.state.table)) ∧
      (h.Concerns (Failure.stale h).message ∧ h.Concerns (Record.released h 0 3).line ∧
        named? (Failure.stale h).message = named? (Record.released h 0 3).line) := by
  have created : ((JavaSurface.Call.create 0 0 (.ofBytes [])).act []
      (Boundary.start ⟨.counting 0 1, 0⟩)).ending = .value (.created 0x100000000) := rfl
  intro h s r
  obtain ⟨notated, -, -, -, issued, -, named⟩ := notations_invert
  have message : h.Concerns (Failure.stale h).message := .message rfl
  have line : h.Concerns (Record.released h 0 3).line := .line rfl
  exact ⟨⟨by decide, (notated h).ofLong_long_eq⟩,
    ⟨created, issued s [] 0 0 _ (.ofBytes []) created (by decide)⟩,
    message, line, (named h h _ _ message line).2.2.mpr rfl⟩

end Handle

end BufferFeed

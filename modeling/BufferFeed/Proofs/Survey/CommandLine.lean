import BufferFeed.Survey.Report
import BufferFeed.Proofs.Feed.Making
import BufferFeed.Proofs.Feed.Reading
import BufferFeed.Proofs.Text.Decimal

/-!
# The command line of a survey

What the survey program does with its arguments, for every list of them: with fewer than two it
explains itself; with two that spell sizes it surveys a feed of those dimensions; and otherwise it
names the first of the two that spells none (`command_line_by_grammar`).
-/

namespace BufferFeed.Survey

open Decimal (Spells)

variable {first second : String} {rest : List String} {count size : Nat} {key : Keystream.Key}

/-! ## What is asked for -/

theorem ofArguments_of_length_lt {arguments : List String} (few : arguments.length < 2) :
    Request.ofArguments arguments = .usage := by
  match arguments, few with
  | [], _ => rfl
  | [_], _ => rfl

theorem ofArguments_of_refused_first (refused : ∀ n, ¬ Spells first.toList n) :
    Request.ofArguments (first :: second :: rest) = .refused "num_elements" first := by
  simp only [Request.ofArguments, Decimal.size?_eq_none_iff.mpr refused]

theorem ofArguments_of_refused_second (accepted : Spells first.toList count)
    (refused : ∀ n, ¬ Spells second.toList n) :
    Request.ofArguments (first :: second :: rest) = .refused "element_size" second := by
  simp only [Request.ofArguments, Decimal.size?_eq_some_iff.mpr accepted,
    Decimal.size?_eq_none_iff.mpr refused]

theorem ofArguments_of_accepted (accepted : Spells first.toList count)
    (accepted' : Spells second.toList size) :
    Request.ofArguments (first :: second :: rest) = .survey count size := by
  simp only [Request.ofArguments, Decimal.size?_eq_some_iff.mpr accepted,
    Decimal.size?_eq_some_iff.mpr accepted']

/-! ## What comes of it -/

/-- A survey is of a feed of the dimensions that were asked for, or there can be no such feed. -/
inductive Surveyed (count size : Nat) (key : Keystream.Key) : Outcome → Prop
  | unfit (unfit : ¬ Feed.Fits count size) : Surveyed count size key .overflow
  | report {f : Feed} {tally : Tally} (made : Feed.ofEntropy count size key = some f)
      (count_eq : f.count = count) (size_eq : f.size = size) (walked : Tally.ofFeed f = .ok tally) :
      Surveyed count size key (.report ⟨count, size, tally⟩)

theorem surveyed_ofDrawn (count size : Nat) (key : Keystream.Key) :
    Surveyed count size key (.ofDrawn count size (Feed.ofEntropy count size key)) := by
  cases hmade : Feed.ofEntropy count size key with
  | none => exact .unfit (Feed.ofEntropy_eq_none_iff.mp hmade)
  | some f =>
    obtain ⟨source, hgenerate⟩ := Feed.exists_generate_of_ofEntropy hmade
    have hwalk : Tally.ofFeed f = .ok (f.ahead.foldl Tally.add .empty) := by
      rw [Tally.ofFeed, Feed.walk_eq]
    rw [Outcome.ofDrawn, hwalk]
    exact .report hmade (Feed.count_of_generate hgenerate) (Feed.size_of_generate hgenerate) hwalk

/-- **The command line is read by its grammar.** Of too few arguments comes the explanation. Of more
than two the first two count. The first that spells no size is complained of, and nothing else is
written; and if both spell one, these are the dimensions of the feed that is surveyed. -/
theorem command_line_by_grammar (key : Keystream.Key) (figures : Report → Figures) :
    (∀ arguments : List String, arguments.length < 2 →
      (perform arguments key).lines figures =
          ["Usage:", " cargo run --example drain <num_elements> <element_size>"] ∧
        (perform arguments key).complaint? = none) ∧
      ∀ (first second : String) (ignored : List String),
        let outcome := perform (first :: second :: ignored) key
        outcome = perform [first, second] key ∧
          ((∀ n, ¬ Spells first.toList n) → outcome.lines figures = [] ∧
            outcome.complaint? = some ("Error: invalid num_elements: " ++ first)) ∧
          ∀ count, Spells first.toList count →
            ((∀ n, ¬ Spells second.toList n) → outcome.lines figures = [] ∧
              outcome.complaint? = some ("Error: invalid element_size: " ++ second)) ∧
            ∀ size, Spells second.toList size → Surveyed count size key outcome := by
  refine ⟨fun arguments few => ?_, fun first second ignored => ⟨rfl, fun refused => ?_,
    fun count accepted => ⟨fun refused => ?_, fun size accepted' => ?_⟩⟩⟩
  · rw [perform, ofArguments_of_length_lt few]
    exact ⟨rfl, rfl⟩
  · rw [perform, ofArguments_of_refused_first refused]
    exact ⟨rfl, rfl⟩
  · rw [perform, ofArguments_of_refused_second accepted refused]
    exact ⟨rfl, rfl⟩
  · rw [perform, ofArguments_of_accepted accepted accepted']
    exact surveyed_ofDrawn count size key

/-- A sign and leading zeros are read over, a blank is not; a third argument is not looked at. -/
theorem command_line_by_grammar_blank (key : Keystream.Key) :
    Spells "+007".toList 7 ∧ (∀ n, ¬ Spells "7 ".toList n) ∧
      (perform ["+007", "7 ", "-1"] key).complaint? =
        some "Error: invalid element_size: 7 " := by
  have accepted : Spells "+007".toList 7 := Decimal.size?_eq_some_iff.mp (by decide)
  have refused : ∀ n, ¬ Spells "7 ".toList n := Decimal.size?_eq_none_iff.mp (by decide)
  have hblank := (command_line_by_grammar key fun r => r.figures 0 0).2 "+007" "7 " ["-1"]
  exact ⟨accepted, refused, ((hblank.2.2 7 accepted).1 refused).2⟩

end BufferFeed.Survey

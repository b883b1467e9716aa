import PrefixRanking.Analysis
import PrefixRanking.Drawing

/-!
# Scoring

Every score is smaller for the prefix that is preferred.  A `Strategy` says how a score is computed: a
measure, the next random score, or the inverted score of another strategy.  A preference for the smaller
measurement is the measure itself, one for the larger measurement the measure inverted once.

| measure       | score                                                        |
|---------------|--------------------------------------------------------------|
| `length`      | path length                                                  |
| `width`       | decision-relevant length                                     |
| `pivot`       | pivot depth                                                  |
| `domain`      | the classification's domain score                            |
| `loops`       | zero, or the sentinel where the domain score is the sentinel |
| `assignments` | saturating sum of the assigned counts of the identifiers     |
| `assumptions` | saturating sum of the assumed counts of the identifiers      |
-/

namespace PrefixRanking

/-- The score of a prefix under a measure; none where the measure reads a classification that is not
there. -/
def Measure.score? (a : Analyses) (x : Prefix) : Measure → Option Score
  | .length => some (.ofCount x.pathLength.toNat)
  | .width => some (.ofCount x.nontrivialLength.toNat)
  | .pivot => some (.ofCount x.pivotDepth.toNat)
  | .domain => a.classification.map fun c => c.domainScore x.identifiers a.loops
  | .loops => a.classification.map fun c =>
      if (c.domainScore x.identifiers a.loops).isSentinel then .sentinel else .zero
  | .assignments => a.classification.map fun c =>
      .sum (x.identifiers.toList.map c.assignedCount)
  | .assumptions => a.classification.map fun c =>
      .sum (x.identifiers.toList.map c.assumedCount)

/-- A measure fails to give a score exactly when it needs a classification and there is none. -/
theorem Measure.score?_eq_none_iff {a : Analyses} {x : Prefix} {m : Measure} :
    m.score? a x = none ↔ m.needsClassification = true ∧ a.hasClassification = false := by
  cases m <;> simp [score?, needsClassification, Analyses.hasClassification]

/-- How a score is computed. -/
inductive Strategy where
  | measure (m : Measure)
  | random
  | inverted (inner : Strategy)
deriving DecidableEq

namespace Strategy

/-- The strategy of a preference; `none` has no strategy. -/
def ofPreference? : Preference → Option Strategy
  | .by m .min => some (measure m)
  | .by m .max => some (inverted (measure m))
  | .random => some random
  | .none => none

/-- Is the classification of variables needed to compute a score? -/
def needsClassification : Strategy → Bool
  | measure m => m.needsClassification
  | random => false
  | inverted t => t.needsClassification

/-- A strategy inverted a number of times. -/
def invertedTimes (t : Strategy) : Nat → Strategy
  | 0 => t
  | n + 1 => inverted (t.invertedTimes n)

/-- The name: a word for the measure, inside one `Inverted(…)` for each inversion. -/
def name : Strategy → String
  | measure .length => "Length"
  | measure .width => "Width"
  | measure .pivot => "Depth"
  | measure .domain => "Domain"
  | measure .loops => "Loop"
  | measure .assignments => "Assignment"
  | measure .assumptions => "Assumption"
  | random => "Random"
  | inverted t => "Inverted(" ++ t.name ++ ")"

/-- The strategies that are not inverted. -/
def bases : List Strategy := Measure.all.map measure ++ [random]

/-- The strategy, not inverted, of this name. -/
def base? (s : String) : Option Strategy := bases.find? (fun t => t.name == s)

/-- Compute the score of a prefix, on behalf of a preference that is named if the classification is
missing. -/
def score (a : Analyses) (p : Preference) (x : Prefix) : Strategy → Drawing Score
  | measure m =>
    match m.score? a x with
    | some s => pure s
    | none => .fail (.missingClassification p)
  | random => .draw
  | inverted t => do return (← t.score a p x).inverted

/-- The strategy of a preference needs what the preference needs. -/
theorem needsClassification_ofPreference? {p : Preference} {t : Strategy}
    (h : ofPreference? p = some t) : t.needsClassification = p.needsClassification := by
  cases p with
  | «by» m o => cases o <;> (cases h; rfl)
  | random => cases h; rfl
  | none => cases h

end Strategy

/-- A strategy on behalf of a preference. -/
structure Scorer where
  preference : Preference
  strategy : Strategy
deriving DecidableEq

namespace Scorer

/-- The scorer of a preference, which must have a strategy. -/
def make (p : Preference) : Except SelectionError Scorer :=
  match Strategy.ofPreference? p with
  | some t => .ok ⟨p, t⟩
  | none => .error (.unsupportedPreference p)

/-- The scorers of a list of preferences, up to the first that has none. -/
def makeEach : List Preference → Except SelectionError (List Scorer)
  | [] => .ok []
  | p :: ps => do return (← make p) :: (← makeEach ps)

/-- The score of a prefix. -/
def score (a : Analyses) (sc : Scorer) (x : Prefix) : Drawing Score :=
  sc.strategy.score a sc.preference x

/-- Compare two prefixes by their scores; the first is scored first. -/
def compare (a : Analyses) (sc : Scorer) (x y : Prefix) : Drawing Ordering := do
  let s ← sc.score a x
  let t ← sc.score a y
  return Ord.compare s t

/-- The scores of a prefix under each scorer, in order. -/
def key (a : Analyses) (scs : List Scorer) (x : Prefix) : Drawing (List Score) :=
  Drawing.each (fun sc => sc.score a x) scs

end Scorer

end PrefixRanking

import PrefixRanking.Score
import PrefixRanking.Prefix

/-!
# Analyses of the program

What the ranking may consult: a classification of the program's variables and its loop structure.
Either may be absent.  Both are given by their answers.
-/

namespace PrefixRanking

/-- The loops of the analysed program. -/
structure LoopStructure where
  /-- How many loops there are. -/
  count : UInt64
  /-- Is the variable counted up or down in a loop? -/
  isCounter : String → Bool

/-- The variables of the analysed program by type and role. -/
structure Classification where
  /-- Weight of the domain types of a set of variables; the sentinel if it cannot be weighed. -/
  domainScore : Identifiers → Option LoopStructure → Score
  /-- How often the variable is assigned. -/
  assignedCount : String → Score
  /-- How often the variable is assumed over. -/
  assumedCount : String → Score

/-- The analyses that are at hand. -/
structure Analyses where
  classification : Option Classification
  loops : Option LoopStructure

/-- Is there a classification? -/
def Analyses.hasClassification (a : Analyses) : Bool := a.classification.isSome

end PrefixRanking

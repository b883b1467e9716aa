import PrefixRanking.Config.Basic
import PrefixRanking.Selection

/-!
# Selection under a configuration

A `Refiner` is a selector bound to a valid configuration.  It answers which prefix to refine with, or that
selection is turned off, and how good a batch of prefixes is under one preference.
-/

namespace PrefixRanking

/-- Why a refiner could not be made or could not answer. -/
inductive RefinementError where
  | selection (error : SelectionError)
  | config (error : ConfigError)
deriving DecidableEq

/-- The wording of the error. -/
def RefinementError.message : RefinementError → String
  | selection e => "Prefix selection error: " ++ e.message
  | config e => "Configuration error: " ++ e.message

/-- The selector of a configuration, which must be valid. -/
def Config.selector (c : Config) (a : Analyses) : Except ConfigError Selector := do
  c.validate
  return .ofSeed a c.seed

/-- A selector bound to a configuration. -/
structure Refiner where
  config : Config
  selector : Selector

namespace Refiner

/-- The refiner of a configuration, which must be valid. -/
def make (c : Config) (a : Analyses) : Except RefinementError Refiner :=
  match c.selector a with
  | .ok selector => .ok ⟨c, selector⟩
  | .error e => .error (.config e)

/-- Run a computation on the selector. -/
def run {α : Type} (r : Refiner) (f : Analyses → Drawing α) : Except RefinementError α × Refiner :=
  let (answer, selector) := r.selector.run f
  (answer.mapError .selection, { r with selector })

/-- The prefix to refine with; none if selection is turned off. -/
def selectPrefix (r : Refiner) (xs : List Prefix) : Except RefinementError (Option Prefix) × Refiner :=
  if r.config.isSelectionDisabled then (.ok none, r)
  else r.run fun a => do return some (← selectBest a r.config.preferences xs)

/-- The least score of a batch of prefixes under one preference. -/
def quality (r : Refiner) (xs : List Prefix) (p : Preference) : Except RefinementError Score × Refiner :=
  r.run fun a => aggregateScore a xs p

end Refiner

end PrefixRanking

import PrefixRanking.Config.Error
import PrefixRanking.Keystream

/-!
# Configurations

A configuration is a list of preferences and a seed for the random order, with the preset it was started
from.  The preset is only remembered: changing it changes nothing else.

A list is valid if it is not empty, has no entry twice, and has `none` only as its single entry
(`Config.validate`).
-/

namespace PrefixRanking

/-- The configuration of selection. -/
structure Config where
  /-- The preset it was started from. -/
  preset : Preset
  /-- The keys of the ranking, the primary one first. -/
  preferences : List Preference
  /-- The seed of the random order. -/
  seed : UInt64
deriving DecidableEq

namespace Config

/-- The name of a kind of configuration that has none of its own. -/
def defaultName : String := "Config"

/-- The name of this kind of configuration. -/
def name : String := "SelectionConfig"

/-- The configuration of a preset. -/
def ofPreset (p : Preset) : Config := ⟨p, p.preferences, Keystream.defaultSeed⟩

/-- The configuration that turns selection off. -/
def default : Config := ofPreset .default

/-- Replace the list by one read from a text. -/
def withParsed (c : Config) (s : String) : Except ConfigError Config :=
  match Preference.parseList s with
  | .ok ps => .ok { c with preferences := ps }
  | .error e => .error (.unknownPreference e)

/-- Is selection turned off? -/
def isSelectionDisabled (c : Config) : Bool := c.preferences == Preference.noSelection

/-- The first entry that occurs before, given those before. -/
def firstRepeated? (seen : List Preference) : List Preference → Option Preference
  | [] => none
  | p :: ps => if p ∈ seen then some p else firstRepeated? (p :: seen) ps

/-- What is wrong with a list of preferences, if anything is. -/
def listProblem? (ps : List Preference) : Option ConfigError :=
  if ps.isEmpty then some .emptyPreferenceList
  else if 1 < ps.length ∧ .none ∈ ps then some (.noneMixedWithHeuristics (Preference.names ps))
  else (firstRepeated? [] ps).map .duplicatePreference

/-- Check the list of preferences. -/
def validate (c : Config) : Except ConfigError Unit :=
  match listProblem? c.preferences with
  | none => .ok ()
  | some e => .error e

end Config

end PrefixRanking

import PrefixRanking.Config.Basic
import PrefixRanking.Preference.Read

/-!
# Configurations as JSON values

A configuration is a record of `preset`, `prefix_preference` and `random_seed`.  A field that is absent is
that of the default configuration, whatever the preset says, and other keys are ignored.  Nothing is
validated.
-/

namespace PrefixRanking.Config

/-- The record's name in error texts. -/
def recordName : String := "struct SelectionConfig"

/-- The names of all presets. -/
def presetNames : List String := Preset.all.map Preset.name

/-- A preset as a JSON value. -/
def presetOfJson (v : Json.Value) : Json.Result Preset := Json.readVariant presetNames Preset.ofName? v

/-- A list of preferences as a JSON value. -/
def preferencesOfJson (v : Json.Value) : Json.Result (List Preference) :=
  Json.readList Preference.ofJson v

/-- A configuration with the fields of the default one where there are no others. -/
def ofFields (preset : Option Preset) (preferences : Option (List Preference))
    (seed : Option UInt64) : Config where
  preset := preset.getD default.preset
  preferences := preferences.getD default.preferences
  seed := seed.getD default.seed

/-- A configuration from the members of an object. -/
def ofMembers (members : List (String × Json.Value)) : Json.Result Config := do
  let preferences ← Json.readMember "prefix_preference" preferencesOfJson members
  let preset ← Json.readMember "preset" presetOfJson members
  let seed ← Json.readMember "random_seed" (Json.readUInt64 "u64") members
  return ofFields preset preferences seed

/-- A configuration from the elements of an array. -/
def ofElements (elements : List Json.Value) : Json.Result Config := do
  let preset ← Json.readElement 0 presetOfJson elements
  let preferences ← Json.readElement 1 preferencesOfJson elements
  let seed ← Json.readElement 2 (Json.readUInt64 "u64") elements
  Json.atMost 3 elements
  return ofFields preset preferences seed

/-- A configuration from a JSON value. -/
def ofJson : Json.Value → Json.Result Config
  | .object members => ofMembers members
  | .array elements => ofElements elements
  | v => .error (Json.mismatch recordName v)

/-- The configuration as a JSON value. -/
def toJson (c : Config) : Json.Value :=
  .object [
    ("preset", .string c.preset.name),
    ("prefix_preference", .array (c.preferences.map fun p => .string p.name)),
    ("random_seed", .integer c.seed.toNat)]

end PrefixRanking.Config

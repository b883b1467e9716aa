import PrefixRanking.Config.Basic
import PrefixRanking.Config.Export

/-!
# Loading and saving configurations

A configuration is loaded in steps: the document is read, its version checked, the preset looked up,
the overrides put in place, and the result validated.  The first step that fails gives the error.
-/

namespace PrefixRanking.Config

/-- The versions of the document that can be loaded. -/
def supportedVersions : List UInt32 := [1]

/-- The configuration with a list and a seed replaced where there are others. -/
def override (c : Config) (o : Overrides) : Config :=
  { c with preferences := o.preferences.getD c.preferences, seed := o.seed.getD c.seed }

/-- The configuration of a document, not yet validated. -/
def ofExport (e : Export) : Except ConfigError Config :=
  match e.version with
  | none => .error .missingVersion
  | some v =>
    if v ∉ supportedVersions then .error (.unsupportedVersion v supportedVersions)
    else match Preset.parse? e.preset with
      | none => .error (.unknownPreset e.preset)
      | some p => .ok ((ofPreset p).override (e.overrides.getD .empty))

/-- The configuration itself, if it is valid. -/
def ensureValid (c : Config) : Except ConfigError Config := do
  c.validate
  return c

/-- Load a configuration from YAML text. -/
def ofYaml (s : String) : Except ConfigError Config :=
  match Export.ofYaml s with
  | .error e => .error (.yaml e)
  | .ok e => do (← ofExport e).ensureValid

/-- Load a configuration from what a file gave. -/
def ofFile (contents : Except FileError ByteArray) : Except ConfigError Config :=
  match contents with
  | .error e => .error (.file e)
  | .ok bytes =>
    match String.fromUTF8? bytes with
    | none => .error (.file .notText)
    | some s => ofYaml s

/-- The document of a configuration: everything is written. -/
def toExport (c : Config) : Export := ⟨some 1, c.preset.name, some ⟨some c.preferences, some c.seed⟩⟩

/-- Save a configuration as YAML text. -/
def toYaml (c : Config) : String := c.toExport.toYaml

end PrefixRanking.Config

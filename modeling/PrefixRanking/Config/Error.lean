import PrefixRanking.Config.Preset
import PrefixRanking.Yaml.Read

/-!
# Configuration errors

What can be wrong with a configuration or with the text it is loaded from, and how it is worded.
-/

namespace PrefixRanking

/-- Why a file gave no text. -/
inductive FileError where
  | notFound
  | isDirectory
  | notText
deriving DecidableEq

/-- The wording of the error. -/
def FileError.message : FileError → String
  | notFound => "No such file or directory (os error 2)"
  | isDirectory => "Is a directory (os error 21)"
  | notText => "stream did not contain valid UTF-8"

/-- What is wrong with a configuration. -/
inductive ConfigError where
  | emptyPreferenceList
  /-- `none` stands beside other entries, or more than once; the names of the list, joined. -/
  | noneMixedWithHeuristics (preferences : String)
  | duplicatePreference (preference : Preference)
  | unknownPreference (error : Preference.ParseError)
  | unknownPreset (input : String)
  | missingVersion
  | unsupportedVersion (found : UInt32) (supported : List UInt32)
  | file (error : FileError)
  | yaml (error : Yaml.Error)
deriving DecidableEq

/-- The wording of the error. -/
def ConfigError.message : ConfigError → String
  | emptyPreferenceList =>
    "Prefix preference list is empty. Use NONE to disable prefix selection."
  | noneMixedWithHeuristics preferences =>
    "NONE disables prefix selection and must be the only entry, found [" ++ preferences ++ "]"
  | duplicatePreference p => "Prefix preference " ++ p.name ++ " is listed more than once"
  | unknownPreference e =>
    e.message ++ ". Valid preferences: " ++ Preference.names Preference.all
  | unknownPreset input =>
    "Unknown preset '" ++ input ++ "'. Valid presets: " ++ Text.join ", " (Preset.all.map Preset.name)
  | missingVersion =>
    "Missing 'version' field in configuration file. Add 'version: 1' to the top of your YAML file."
  | unsupportedVersion found supported =>
    "Unsupported configuration version " ++ toString found.toNat ++ ". Supported versions: " ++
      Text.join ", " (supported.map fun v => toString v.toNat)
  | file e => "IO error: " ++ e.message
  | yaml e => "YAML parsing error: " ++ e.message

end PrefixRanking

import PrefixRanking.Preference.Read
import PrefixRanking.Yaml.Write

/-!
# Configuration documents

The record that is written to and read from YAML: an optional version, the name of a preset, and optional
overrides.  Any other key is a problem.  What is absent is not written; a preset that is absent is read as
`none`.
-/

namespace PrefixRanking

open Schema (Path)

/-- What overrides the preset. -/
structure Overrides where
  preferences : Option (List Preference)
  seed : Option UInt64
deriving DecidableEq

/-- A configuration document. -/
structure Export where
  version : Option UInt32
  /-- The name of a preset, not yet looked at. -/
  preset : String
  overrides : Option Overrides
deriving DecidableEq

/-! ## Reading -/

namespace Overrides

/-- Nothing is overridden. -/
def empty : Overrides := ⟨none, none⟩

/-- Read one field of the record at `outer`. -/
def readField (d : Yaml.Document) (outer : Path) (name : String) (path : Path) (node : Yaml.Node)
    (o : Overrides) : Yaml.Result Overrides := do
  match name with
  | "prefix_preference" =>
    return { o with
      preferences := ← Yaml.readOptional d outer (Preference.listOfNode d path) node }
  | _ => return { o with seed := ← Yaml.readOptional d outer (Yaml.readUInt64 d path "u64") node }

/-- The fields of the record at a place. -/
def fields (d : Yaml.Document) (outer : Path) : Yaml.Fields Overrides where
  names := ["prefix_preference", "random_seed"]
  closed := true
  read := readField d outer

/-- Overrides as a part of a YAML document. -/
def ofNode (d : Yaml.Document) (path : Path) (node : Yaml.Node) : Yaml.Result Overrides :=
  Yaml.readRecord d path "struct SelectionOverrides" (fields d path) empty node

end Overrides

namespace Export

/-- The preset that is read where none is written. -/
def defaultPreset : String := "none"

/-- The document that says nothing. -/
def empty : Export := ⟨none, defaultPreset, none⟩

/-- Read one field. -/
def readField (d : Yaml.Document) (name : String) (path : Path) (node : Yaml.Node) (e : Export) :
    Yaml.Result Export := do
  match name with
  | "version" =>
    return { e with version := ← Yaml.readOptional d [] (Yaml.readUInt32 d path "u32") node }
  | "preset" => return { e with preset := ← Yaml.readText d path "a string" node }
  | _ => return { e with overrides := ← Yaml.readOptional d [] (Overrides.ofNode d path) node }

/-- The fields of the record. -/
def fields (d : Yaml.Document) : Yaml.Fields Export where
  names := ["version", "preset", "overrides"]
  closed := true
  read := readField d

/-- A configuration document from the root of a YAML document. -/
def ofDocument (d : Yaml.Document) : Yaml.Result Export :=
  Yaml.readRecord d [] "struct SelectionConfigExportV1" (fields d) empty d.root

/-- A configuration document from YAML text. -/
def ofYaml (s : String) : Yaml.Result Export := Yaml.readTextAs ofDocument s

/-! ## Writing -/

/-- A line of text. -/
def line (s : String) : List Char := s.toList ++ ['\n']

/-- The line of the version. -/
def writeVersion : Option UInt32 → List Char
  | none => []
  | some v => line ("version: " ++ toString v.toNat)

/-- The lines of the list in the overrides. -/
def writePreferences : Option (List Preference) → List Char
  | none => []
  | some [] => line "  prefix_preference: []"
  | some ps => line "  prefix_preference:" ++ ps.flatMap fun p => line ("  - " ++ p.name)

/-- The line of the seed in the overrides. -/
def writeSeed : Option UInt64 → List Char
  | none => []
  | some n => line ("  random_seed: " ++ toString n.toNat)

/-- The lines of the overrides. -/
def writeOverrides : Option Overrides → List Char
  | none => []
  | some ⟨none, none⟩ => line "overrides: \x7b\x7d"
  | some o => line "overrides:" ++ writePreferences o.preferences ++ writeSeed o.seed

/-- The document as YAML text, by its characters. -/
def write (e : Export) : List Char :=
  writeVersion e.version ++ "preset: ".toList ++ Yaml.writeString e.preset.toList ++
    writeOverrides e.overrides

/-- The document as YAML text. -/
def toYaml (e : Export) : String := String.ofList e.write

end Export

end PrefixRanking

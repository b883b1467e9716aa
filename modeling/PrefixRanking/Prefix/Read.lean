import PrefixRanking.Prefix
import PrefixRanking.Json.Read
import PrefixRanking.Yaml.Read

/-!
# Reading and writing prefixes

A prefix is a record of `path_length`, `nontrivial_length`, `pivot_depth` and `identifiers`, the last of
which may be absent.  Other keys are ignored.
-/

namespace PrefixRanking.Prefix

open Schema (Path)

/-- The record's name in error texts. -/
def recordName : String := "struct PrefixSummary"

/-! ## JSON -/

/-- The identifiers as a JSON value: a list, in which order and repetitions do not matter. -/
def identifiersOfJson (v : Json.Value) : Json.Result Identifiers :=
  return .ofList (← Json.readList (Json.readText "a string") v)

/-- A prefix from the members of an object. -/
def ofMembers (members : List (String × Json.Value)) : Json.Result Prefix := do
  let identifiers ← Json.readMember "identifiers" identifiersOfJson members
  let width ← Json.readMember "nontrivial_length" (Json.readUInt64 "usize") members
  let length ← Json.readMember "path_length" (Json.readUInt64 "usize") members
  let depth ← Json.readMember "pivot_depth" (Json.readUInt64 "usize") members
  return {
    pathLength := ← Json.required "path_length" length
    nontrivialLength := ← Json.required "nontrivial_length" width
    pivotDepth := ← Json.required "pivot_depth" depth
    identifiers := identifiers.getD .empty }

/-- A prefix from the elements of an array. -/
def ofElements (elements : List Json.Value) : Json.Result Prefix := do
  let expected := recordName ++ " with 4 elements"
  let field (i : Nat) : Json.Result UInt64 := do
    Json.requiredElement i expected (← Json.readElement i (Json.readUInt64 "usize") elements)
  let length ← field 0
  let width ← field 1
  let depth ← field 2
  let identifiers ← Json.readElement 3 identifiersOfJson elements
  Json.atMost 4 elements
  return ⟨length, width, depth, identifiers.getD .empty⟩

/-- A prefix from a JSON value. -/
def ofJson : Json.Value → Json.Result Prefix
  | .object members => ofMembers members
  | .array elements => ofElements elements
  | v => .error (Json.mismatch recordName v)

/-- The prefix as a JSON value. -/
def toJson (p : Prefix) : Json.Value :=
  .object [
    ("path_length", .integer p.pathLength.toNat),
    ("nontrivial_length", .integer p.nontrivialLength.toNat),
    ("pivot_depth", .integer p.pivotDepth.toNat),
    ("identifiers", .array (p.identifiers.toList.map .string))]

/-! ## YAML -/

/-- A prefix of which some fields have been read. -/
structure Partial where
  pathLength : Option UInt64
  nontrivialLength : Option UInt64
  pivotDepth : Option UInt64
  identifiers : Option Identifiers

/-- Read one field. -/
def readField (d : Yaml.Document) (name : String) (path : Path) (node : Yaml.Node) (p : Partial) :
    Yaml.Result Partial := do
  match name with
  | "path_length" => return { p with pathLength := some (← Yaml.readUInt64 d path "usize" node) }
  | "nontrivial_length" =>
    return { p with nontrivialLength := some (← Yaml.readUInt64 d path "usize" node) }
  | "pivot_depth" => return { p with pivotDepth := some (← Yaml.readUInt64 d path "usize" node) }
  | _ =>
    let ids ← Yaml.readList d path (fun place => Yaml.readText d place "a string") node
    return { p with identifiers := some (.ofList ids) }

/-- The fields of the record; other keys are ignored. -/
def fields (d : Yaml.Document) : Yaml.Fields Partial where
  names := ["path_length", "nontrivial_length", "pivot_depth", "identifiers"]
  closed := false
  read := readField d

/-- A prefix from the root of a YAML document. -/
def ofDocument (d : Yaml.Document) : Yaml.Result Prefix := do
  let p ← Yaml.readRecord d [] recordName (fields d) ⟨none, none, none, none⟩ d.root
  return {
    pathLength := ← Yaml.required [] "path_length" p.pathLength
    nontrivialLength := ← Yaml.required [] "nontrivial_length" p.nontrivialLength
    pivotDepth := ← Yaml.required [] "pivot_depth" p.pivotDepth
    identifiers := p.identifiers.getD .empty }

/-- A prefix from a YAML text. -/
def ofYaml (s : String) : Yaml.Result Prefix := Yaml.readTextAs ofDocument s

end PrefixRanking.Prefix

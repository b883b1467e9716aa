import PrefixRanking.Preference
import PrefixRanking.Json.Read
import PrefixRanking.Yaml.Read

/-!
# Reading preferences from documents

In JSON values and YAML documents a preference is given by its exact name.
-/

namespace PrefixRanking.Preference

open Schema (Path)

/-- The names of all preferences. -/
def allNames : List String := all.map name

/-- A preference as a JSON value. -/
def ofJson (v : Json.Value) : Json.Result Preference := Json.readVariant allNames ofName? v

/-- A preference as an element of a YAML list at `outer`. -/
def ofNode (d : Yaml.Document) (outer path : Path) (node : Yaml.Node) : Yaml.Result Preference :=
  Yaml.readVariant d outer path allNames ofName? node

/-- A list of preferences as a part of a YAML document. -/
def listOfNode (d : Yaml.Document) (path : Path) (node : Yaml.Node) : Yaml.Result (List Preference) :=
  Yaml.readList d path (ofNode d path) node

/-- A list of preferences as a YAML text. -/
def listOfYaml (s : String) : Yaml.Result (List Preference) :=
  Yaml.readTextAs (fun d => listOfNode d [] d.root) s

end PrefixRanking.Preference

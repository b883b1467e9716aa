import PrefixRanking.Yaml.Node

/-!
# Anchors of a document

Anchors are numbered as their names are met, and a number leads to the node that carries it.  A name may
be used again; its new number may then be one that another name gets as well, and of the nodes with one
number the one that started last counts.
-/

namespace PrefixRanking.Yaml

/-- The anchors met so far. -/
structure Anchors where
  /-- The numbers of the names, the latest first. -/
  numbers : List (String × Nat)
  /-- For each anchored node, in order of their starts, the latest first: the number it carries. -/
  serials : List Nat
  /-- The finished nodes by their place in that order. -/
  nodes : List (Nat × Node)

namespace Anchors

def empty : Anchors := ⟨[], [], []⟩

/-- The number of a name. -/
def number? (a : Anchors) (name : String) : Option Nat := a.numbers.lookup name

/-- How many different names there are. -/
def distinct (a : Anchors) : Nat := (a.numbers.map (·.1)).eraseDups.length

/-- Enter a node that starts; the number is how many different names there were before, so a name that
is used again may share its number with the next new name. -/
def enter (a : Anchors) (name : Option String) : Anchors × Option Nat :=
  match name with
  | none => (a, none)
  | some name =>
    let n := a.distinct
    ({ a with numbers := (name, n) :: a.numbers, serials := n :: a.serials }, some a.serials.length)

/-- Enter the finished node. -/
def finish (a : Anchors) (serial : Option Nat) (node : Node) : Anchors :=
  match serial with
  | none => a
  | some i => { a with nodes := (i, node) :: a.nodes }

/-- The nodes by number; of several with one number the one that started last comes first. -/
def table (a : Anchors) : List (Nat × Node) :=
  let starts := (List.range a.serials.length).reverse.zip a.serials
  starts.map fun (i, n) => (n, (a.nodes.lookup i).getD .missing)

end Anchors

end PrefixRanking.Yaml

import PrefixRanking.Yaml.Token

/-!
# Nodes of YAML documents

A document is a tree of nodes.  An alias stands in the tree as the number of its anchor; `Document.resolve`
gives the node that carries it.  Where the text stops being readable, the tree ends in `missing` nodes:
what comes before them is known.
-/

namespace PrefixRanking.Yaml

/-- A scalar: its text, how it is written, and its tag. -/
structure Scalar where
  text : String
  style : Style
  tag : Option String
deriving DecidableEq

/-- A node of a document. -/
inductive Node where
  | scalar (s : Scalar)
  | sequence (tag : Option String) (items : List Node)
  | mapping (tag : Option String) (entries : List (Node × Node))
  /-- The node that carries the anchor of this number. -/
  | alias (anchor : Nat)
  /-- The text stops being readable here. -/
  | missing

/-- The scalar that stands where nothing is written. -/
def Scalar.empty : Scalar := ⟨"", .plain, none⟩

/-- A document. -/
structure Document where
  root : Node
  /-- The nodes that carry anchors, by the anchor's number; the first with a number counts. -/
  anchors : List (Nat × Node)
  /-- Is the text readable up to its end, and is this its only document? -/
  complete : Bool

/-- The node itself or, for an alias, the node that carries the anchor. -/
def Document.resolve (d : Document) : Node → Node
  | .alias n => (d.anchors.lookup n).getD .missing
  | node => node

end PrefixRanking.Yaml

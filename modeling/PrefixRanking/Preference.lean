import PrefixRanking.Text.Blank

/-!
# Preferences

A preference is a measure of prefixes together with an orientation, the pseudo-random order, or `none`,
which is a configuration marker and never scores anything.  In a list of preferences the first entry is
the primary key and later entries break ties.

A preference is written as a name such as `LENGTH_MIN`; a list is written as names with commas between
them.  Reading a name ignores blank characters around it and the case of ASCII letters.
-/

namespace PrefixRanking

/-- What is measured of a prefix. -/
inductive Measure where
  /-- Steps of the path. -/
  | length
  /-- Weight of the domain types of the referenced variables. -/
  | domain
  /-- Whether the referenced variables can be weighed at all. -/
  | loops
  /-- Depth of the state where infeasibility is first localised. -/
  | pivot
  /-- Decision-relevant steps. -/
  | width
  /-- Assignments to the referenced variables. -/
  | assignments
  /-- Assumptions over the referenced variables. -/
  | assumptions
deriving DecidableEq

/-- Does the smaller or the larger measurement come first? -/
inductive Orientation where
  | min
  | max
deriving DecidableEq

/-- One key of a ranking. -/
inductive Preference where
  | by (measure : Measure) (orientation : Orientation)
  | random
  | none
deriving DecidableEq

namespace Measure

/-- The measures in the order in which their preferences are listed. -/
def all : List Measure := [length, domain, loops, pivot, width, assignments, assumptions]

theorem mem_all (m : Measure) : m ∈ all := by cases m <;> decide

/-- The name in configurations. -/
def name : Measure → String
  | length => "LENGTH"
  | domain => "DOMAIN"
  | loops => "LOOPS"
  | pivot => "PIVOT"
  | width => "WIDTH"
  | assignments => "ASSIGNMENTS"
  | assumptions => "ASSUMPTIONS"

/-- Is the measure read off the classification of variables? -/
def needsClassification : Measure → Bool
  | domain | loops | assignments | assumptions => true
  | length | pivot | width => false

end Measure

/-- The name in configurations. -/
def Orientation.name : Orientation → String
  | .min => "MIN"
  | .max => "MAX"

namespace Preference

/-- Every preference, in listing order. -/
def all : List Preference :=
  Measure.all.flatMap (fun m => [.by m .min, .by m .max]) ++ [random, none]

theorem mem_all (p : Preference) : p ∈ all := by
  cases p with
  | «by» m o => cases m <;> cases o <;> decide
  | random => decide
  | none => decide

/-- The list that turns selection off. -/
def noSelection : List Preference := [none]

/-- The name in configurations. -/
def name : Preference → String
  | «by» m o => m.name ++ "_" ++ o.name
  | random => "RANDOM"
  | none => "NONE"

/-- The name as one word in capitalised parts, such as `LengthMin`. -/
def label (p : Preference) : String :=
  String.join ((Text.splitChars '_' p.name.toList).map fun
    | [] => ""
    | c :: cs => String.ofList (c :: cs.map Char.toLower))

/-- Does the larger measurement come first? -/
def isMax : Preference → Bool
  | «by» _ .max => true
  | _ => false

/-- Is the classification of variables needed to score under this preference? -/
def needsClassification : Preference → Bool
  | «by» m _ => m.needsClassification
  | random | none => false

/-- The preference of exactly this name. -/
def ofName? (s : String) : Option Preference := all.find? (fun p => p.name == s)

theorem ofName?_name (p : Preference) : ofName? p.name = some p := by
  cases p with
  | «by» m o => cases m <;> cases o <;> decide
  | random => decide
  | none => decide

theorem name_of_ofName? {s : String} {p : Preference} (h : ofName? s = some p) : p.name = s := by
  have := List.find?_some h
  simpa using this

/-- The names joined by a comma and a space. -/
def names (ps : List Preference) : String := Text.join ", " (ps.map name)

/-! ## Reading -/

/-- A text that names no preference, without the blank characters around it. -/
structure ParseError where
  input : String
deriving DecidableEq

/-- The wording of the error. -/
def ParseError.message (e : ParseError) : String := "Unknown prefix preference '" ++ e.input ++ "'"

/-- Read a name, whatever the case of its letters and the blank characters around it. -/
def parse (s : String) : Except ParseError Preference :=
  match ofName? (Text.upperAscii (Text.trim s)) with
  | some p => .ok p
  | Option.none => .error ⟨Text.trim s⟩

/-- Read each text as a name; the first that names nothing is the error. -/
def parseEach : List String → Except ParseError (List Preference)
  | [] => .ok []
  | s :: rest => do return (← parse s) :: (← parseEach rest)

/-- Read a list of names with commas between them.  A text of blank characters only is the empty
list; everywhere else an empty piece is an error. -/
def parseList (s : String) : Except ParseError (List Preference) :=
  if Text.allBlank s then .ok [] else parseEach (Text.split ',' s)

end Preference

end PrefixRanking

import PrefixRanking.Binary64
import PrefixRanking.Text.Quoted

/-!
# Schema problems

What can be wrong with a well-formed document that is read as a record, and how it is put into words.
A problem names what was `Found` and what was expected.  Two formats share the problems; they differ in
their `Wording` of an absent value and of a number with a point.
-/

namespace PrefixRanking.Schema

/-- What stands where something else was expected. -/
inductive Found where
  | null
  | boolean (value : Bool)
  /-- An integer of at most 64 bits. -/
  | integer (value : Int)
  /-- An integer that needs more than 64 bits, of a type that has a sign or has none. -/
  | wideInteger (value : Int) (signed : Bool)
  | float (value : Binary64)
  | string (value : String)
  | sequence
  | map
deriving DecidableEq

/-- How a format words values that the other words differently. -/
structure Wording where
  null : String
  float : Binary64.Layout

/-- A description of what was found. -/
def Found.describe (w : Wording) : Found → String
  | null => w.null
  | boolean true => "boolean `true`"
  | boolean false => "boolean `false`"
  | integer n => "integer `" ++ toString n ++ "`"
  | wideInteger n false => "integer `" ++ toString n ++ "` as u128"
  | wideInteger n true => "integer `" ++ toString n ++ "` as i128"
  | float x => "floating point `" ++ x.render w.float ++ "`"
  | string s => "string " ++ Text.quoted s
  | sequence => "sequence"
  | map => "map"

/-- A way in which a document does not fit a record. -/
inductive Problem where
  /-- A value of another kind. -/
  | invalidType (found : Found) (expected : String)
  /-- A value of the right kind, but not one that is allowed. -/
  | invalidValue (found : Found) (expected : String)
  /-- A list with too few or too many elements. -/
  | invalidLength (length : Nat) (expected : String)
  /-- A name that is none of the alternatives. -/
  | unknownVariant (name : String) (variants : List String)
  /-- A key that is none of the fields. -/
  | unknownField (name : String) (fields : List String)
  | missingField (name : String)
  | duplicateField (name : String)
deriving DecidableEq

/-- A name between grave accents. -/
def accented (s : String) : String := "`" ++ s ++ "`"

/-- The alternatives of a choice. -/
def oneOf : List String → String
  | [a] => accented a
  | [a, b] => accented a ++ " or " ++ accented b
  | names => "one of " ++ String.intercalate ", " (names.map accented)

/-- The wording of a problem. -/
def Problem.message (w : Wording) : Problem → String
  | invalidType found expected => "invalid type: " ++ found.describe w ++ ", expected " ++ expected
  | invalidValue found expected => "invalid value: " ++ found.describe w ++ ", expected " ++ expected
  | invalidLength n expected => "invalid length " ++ toString n ++ ", expected " ++ expected
  | unknownVariant name variants =>
    "unknown variant " ++ accented name ++ ", expected " ++ oneOf variants
  | unknownField name fields => "unknown field " ++ accented name ++ ", expected " ++ oneOf fields
  | missingField name => "missing field " ++ accented name
  | duplicateField name => "duplicate field " ++ accented name

/-! ## Where a problem is -/

/-- A step from a value to a value inside it. -/
inductive Step where
  /-- To the value under a key. -/
  | key (name : String)
  /-- To the value under a key that has no name of its own. -/
  | unnamed
  /-- To an element of a list. -/
  | index (n : Nat)
deriving DecidableEq

/-- The steps from the root of a document, the last one first. -/
abbrev Path := List Step

/-- The text of a path: `.` for the root, keys joined by points, indices in brackets. -/
def Path.render : Path → String
  | [] => "."
  | step :: parent =>
    let here := Path.render parent
    let inside := if parent.isEmpty then "" else here ++ "."
    match step with
    | .key name => inside ++ name
    | .unnamed => inside ++ "?"
    | .index n => here ++ "[" ++ toString n ++ "]"

/-- A problem and the place it is reported at. -/
structure Located where
  path : Path
  problem : Problem
deriving DecidableEq

/-- The wording of a problem with its place; the root is not named. -/
def Located.message (w : Wording) (l : Located) : String :=
  if l.path.isEmpty then l.problem.message w else Path.render l.path ++ ": " ++ l.problem.message w

end PrefixRanking.Schema

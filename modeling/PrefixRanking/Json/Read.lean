import PrefixRanking.Json.Value
import PrefixRanking.Schema.Problem

/-!
# Reading records from JSON values

A record is an object, or an array of its fields in order.  Its fields are read in the order of their
names, so of several that do not fit the first by name is reported.
-/

namespace PrefixRanking.Json

open Schema (Found Problem Wording)

/-- How values are worded: an absent one is the null value, and large and small numbers have an
exponent. -/
def wording : Wording := ⟨"null", layout⟩

/-- The result of reading. -/
abbrev Result (α : Type) := Except Problem α

variable {α : Type}

/-- What a value is, for the wording of problems. -/
def Value.found : Value → Found
  | .null => .null
  | .bool b => .boolean b
  | .integer n => .integer n
  | .float x => .float x
  | .string s => .string s
  | .array _ => .sequence
  | .object _ => .map

/-- "This is not what was expected." -/
def mismatch (expected : String) (v : Value) : Problem := .invalidType v.found expected

/-- A string. -/
def readText (expected : String) : Value → Result String
  | .string s => .ok s
  | v => .error (mismatch expected v)

/-- An unsigned integer of 64 bits. -/
def readUInt64 (expected : String) : Value → Result UInt64
  | .integer (.ofNat n) => .ok (.ofNat n)
  | .integer (.negSucc n) => .error (.invalidValue (.integer (.negSucc n)) expected)
  | v => .error (mismatch expected v)

/-- The elements of a list. -/
def readItems (read : Value → Result α) : List Value → Result (List α)
  | [] => .ok []
  | v :: rest => do return (← read v) :: (← readItems read rest)

/-- A list. -/
def readList (read : Value → Result α) : Value → Result (List α)
  | .array vs => readItems read vs
  | v => .error (mismatch "a sequence" v)

/-- The alternative of a name. -/
def readVariantName (variants : List String) (ofName? : String → Option α) (name : String) : Result α :=
  match ofName? name with
  | some a => .ok a
  | none => .error (.unknownVariant name variants)

/-- The one member of an object, where several members of the same key count as one. -/
def onlyMember? (members : List (String × Value)) : Option (String × Value) :=
  match members with
  | [] => none
  | (key, _) :: _ =>
    if members.all (fun m => m.1 == key) then (member? key members).map fun v => (key, v) else none

/-- One of several alternatives: by its name, or as the only key of an object whose value is null. -/
def readVariant (variants : List String) (ofName? : String → Option α) : Value → Result α
  | .string name => readVariantName variants ofName? name
  | .object members =>
    match onlyMember? members with
    | none => .error (.invalidValue .map "map with a single key")
    | some (name, v) => do
      let a ← readVariantName variants ofName? name
      match v with
      | .null => return a
      | v => throw (mismatch "unit" v)
  | v => .error (mismatch "string or map" v)

/-- The value of a key, read if it is there. -/
def readMember (key : String) (read : Value → Result α) (members : List (String × Value)) :
    Result (Option α) :=
  match member? key members with
  | some v => return some (← read v)
  | none => .ok none

/-- The element at a position, read if it is there. -/
def readElement (i : Nat) (read : Value → Result α) (elements : List Value) : Result (Option α) :=
  match elements[i]? with
  | some v => return some (← read v)
  | none => .ok none

/-- A field that has to be among the members. -/
def required (name : String) : Option α → Result α
  | some a => .ok a
  | none => .error (.missingField name)

/-- A field that has to be among the elements. -/
def requiredElement (i : Nat) (expected : String) : Option α → Result α
  | some a => .ok a
  | none => .error (.invalidLength i expected)

/-- There must not be more elements than fields. -/
def atMost (n : Nat) (elements : List Value) : Result Unit :=
  if n < elements.length then .error (.invalidLength elements.length "fewer elements in array")
  else .ok ()

end PrefixRanking.Json

import PrefixRanking.Yaml.Resolve
import PrefixRanking.Yaml.Node.OfTokens
import PrefixRanking.Yaml.Token.OfText

/-!
# Reading records from YAML documents

A document is read as numbers, strings, lists and records.  The parts are read in the order of the text,
so the first part that does not fit is the one reported, and a part where the text stops being readable
is only met if everything before it fits.
-/

namespace PrefixRanking.Yaml

open Schema (Found Problem Path Located Wording)

/-- Why a text was not read. -/
inductive Error where
  /-- The text is no single well-formed document. -/
  | malformed
  /-- The document does not fit the record. -/
  | schema (located : Located)
deriving DecidableEq

/-- How values are worded: an absent one is a unit, and numbers have no exponent; of two equally near
decimals the one farther from zero is given. -/
def wording : Wording := ⟨"unit value", ⟨.away, none, "", "inf", "-inf", "NaN"⟩⟩

/-- The wording of the error. -/
def Error.message : Error → String
  | malformed => "malformed document"
  | schema located => located.message wording

/-- The result of reading. -/
abbrev Result (α : Type) := Except Error α

/-- A problem at a place. -/
def problem (path : Path) (p : Problem) : Error := .schema ⟨path, p⟩

/-- The document of a text. -/
def Document.ofText (s : String) : Document :=
  let (tokens, whole) := Token.ofText s.toList
  .ofTokens tokens whole

variable {α β : Type}

/-! ## Single values -/

/-- "This is not what was expected." -/
def mismatch (d : Document) (path : Path) (expected : String) (node : Node) : Error :=
  match d.resolve node with
  | .scalar s =>
    match s.value with
    | .ok found => problem path (.invalidType found expected)
    | .error kind => problem path (.invalidValue (.string s.text) kind)
  | .sequence .. => problem path (.invalidType .sequence expected)
  | .mapping .. => problem path (.invalidType .map expected)
  | .alias _ | .missing => .malformed

/-- The text of a scalar, whatever it stands for. -/
def readText (d : Document) (path : Path) (expected : String) (node : Node) : Result String :=
  match d.resolve node with
  | .scalar s => .ok s.text
  | _ => .error (mismatch d path expected node)

/-- The integer of a scalar, which has no minus sign and at most 64 bits. -/
def readNatural (d : Document) (path : Path) (expected : String) (node : Node) : Result Nat :=
  match d.resolve node with
  | .scalar s =>
    match s.natural?.filter (· < UInt64.size) with
    | some n => .ok n
    | none => .error (mismatch d path expected node)
  | _ => .error (mismatch d path expected node)

/-- An unsigned integer of 64 bits. -/
def readUInt64 (d : Document) (path : Path) (expected : String) (node : Node) : Result UInt64 :=
  return UInt64.ofNat (← readNatural d path expected node)

/-- An unsigned integer of 32 bits. -/
def readUInt32 (d : Document) (path : Path) (expected : String) (node : Node) : Result UInt32 := do
  let n ← readNatural d path expected node
  if n < UInt32.size then return UInt32.ofNat n
  else throw (problem path (.invalidValue (.integer n) expected))

/-- A value that may be absent: it is where the scalar is void or a name of nothing.  A scalar tagged as
nothing has to be such a name; that it is not is a problem of the record around it, at `outer`. -/
def readOptional (d : Document) (outer : Path) (read : Node → Result α) (node : Node) :
    Result (Option α) :=
  match d.resolve node with
  | .scalar s =>
    if s.style ≠ .plain then return some (← read node)
    else match s.tag with
      | some t =>
        if t ≠ Scalar.nullTag then return some (← read node)
        else if isNull s.text then .ok none
        else .error (problem outer (.invalidValue (.string s.text) "null"))
      | none => if s.text.isEmpty || isNull s.text then .ok none else return some (← read node)
  | .missing | .alias _ => .error .malformed
  | _ => return some (← read node)

/-! ## Alternatives -/

/-- The name after the exclamation mark of a tag that names an alternative.  A tag with a NUL, which
stands for what is no character, names none. -/
def variantOfTag? (tag : Option String) : Option String :=
  match tag.map String.toList with
  | some ('!' :: cs) =>
    if cs.contains '\x00' then none else if cs.isEmpty then some "!" else some (String.ofList cs)
  | _ => none

/-- One of several alternatives: by its name as a scalar, or by a tag in front of nothing.  A tag that
names none of them is a problem of the list around it, at `outer`, unless it stands elsewhere and is
referred to by an alias. -/
def readVariant (d : Document) (outer path : Path) (variants : List String)
    (ofName? : String → Option α) (node : Node) : Result α :=
  let tagged : Path := match node with
    | .alias _ => path
    | _ => outer
  let named (place : Path) (name : String) : Result α :=
    match ofName? name with
    | some a => .ok a
    | none => .error (problem place (.unknownVariant name variants))
  let collection (tag : Option String) (found : Found) : Result α :=
    match variantOfTag? tag with
    | some name => do
      let _ ← named tagged name
      throw (problem path (.invalidType found "unit"))
    | none => .error (problem path (.invalidType found "a YAML tag starting with '!'"))
  match d.resolve node with
  | .scalar s =>
    match variantOfTag? s.tag with
    | some name => do
      let a ← named tagged name
      if s.style = .plain && (s.text.isEmpty || isNull s.text) then return a
      else throw (problem path (.invalidValue (.string s.text) "null"))
    | none => named path s.text
  | .sequence tag _ => collection tag .sequence
  | .mapping tag _ => collection tag .map
  | .missing | .alias _ => .error .malformed

/-! ## Lists -/

/-- The elements of a list from one position on, each read at its own place. -/
def readItems (path : Path) (read : Path → Node → Result α) : Nat → List Node → Result (List α)
  | _, [] => .ok []
  | i, node :: rest => do
    let a ← read (.index i :: path) node
    return a :: (← readItems path read (i + 1) rest)

/-- A list; the void scalar is the empty one. -/
def readList (d : Document) (path : Path) (read : Path → Node → Result α) (node : Node) :
    Result (List α) :=
  match d.resolve node with
  | .sequence _ items => readItems path read 0 items
  | .scalar s => if s.isVoid then .ok [] else .error (mismatch d path "a sequence" node)
  | _ => .error (mismatch d path "a sequence" node)

/-! ## Records -/

/-- What a record knows of its keys. -/
structure Fields (β : Type) where
  /-- The keys. -/
  names : List String
  /-- Is any other key a problem? -/
  closed : Bool
  /-- Read the value of a key at its place into a partly read record. -/
  read : (name : String) → Path → Node → β → Result β

/-- The step to the value of a key. -/
def stepOf (key : Node) (name : String) : Schema.Step :=
  match key with
  | .scalar _ => .key name
  | _ => .unnamed

/-- The entries of a mapping, read into a partly read record; `seen` are the keys before. -/
def readEntries (d : Document) (path : Path) (fields : Fields β) :
    List String → β → List (Node × Node) → Result β
  | _, acc, [] => .ok acc
  | seen, acc, (key, value) :: rest => do
    let name ← readText d path "field identifier" key
    if name ∈ fields.names then
      if name ∈ seen then throw (problem path (.duplicateField name))
      else
        let acc ← fields.read name (stepOf key name :: path) value acc
        readEntries d path fields (name :: seen) acc rest
    else if fields.closed then throw (problem path (.unknownField name fields.names))
    else readEntries d path fields seen acc rest

/-- A record from a mapping; the void scalar is the empty mapping. -/
def readRecord (d : Document) (path : Path) (expected : String) (fields : Fields β) (empty : β)
    (node : Node) : Result β :=
  match d.resolve node with
  | .mapping _ entries => readEntries d path fields [] empty entries
  | .scalar s => if s.isVoid then .ok empty else .error (mismatch d path expected node)
  | _ => .error (mismatch d path expected node)

/-- A field that has to be there. -/
def required (path : Path) (name : String) : Option α → Result α
  | some a => .ok a
  | none => .error (problem path (.missingField name))

/-! ## Texts -/

/-- Read a text: its document must fit, and there must be nothing else in the text. -/
def readTextAs (read : Document → Result α) (s : String) : Result α := do
  let d := Document.ofText s
  let a ← read d
  if d.complete then return a else throw .malformed

end PrefixRanking.Yaml

import PrefixRanking.Binary64
import PrefixRanking.Text.Blank

/-!
# JSON values

The values of JSON and their text.  Numbers keep the difference between an integer that fits 64 bits and
any other number.  The members of an object are kept as written; where a key occurs more than once the
last member counts (`Value.member?`).
-/

namespace PrefixRanking.Json

/-- A JSON value. -/
inductive Value where
  | null
  | bool (value : Bool)
  /-- A number written without point and exponent that fits 64 bits, with or without sign. -/
  | integer (value : Int)
  /-- Any other number. -/
  | float (value : Binary64)
  | string (value : String)
  | array (elements : List Value)
  | object (members : List (String × Value))

/-- The last member of this key. -/
def member? (key : String) (members : List (String × Value)) : Option Value :=
  members.foldl (fun found m => if m.1 = key then some m.2 else found) none

/-- The member of this key, if the value is an object. -/
def Value.member? (key : String) : Value → Option Value
  | .object members => Json.member? key members
  | _ => none

/-! ## Text -/

/-- How floating point numbers are set out: without an exponent from `0.00001` up to sixteen digits
before the point, and otherwise with the sign of the exponent; a tie goes to the even digit. -/
def layout : Binary64.Layout := ⟨.toEven, some (-4, 16), "+", "null", "null", "null"⟩

/-- A character inside a JSON string. -/
def stringChar (c : Char) : List Char :=
  if c = '\x22' then ['\\', '\x22']
  else if c = '\\' then ['\\', '\\']
  else if c.toNat < 32 then
    let digits := Nat.toDigits 16 c.toNat
    '\\' :: 'u' :: (List.replicate (4 - digits.length) '0' ++ digits)
  else [c]

/-- A string as JSON text. -/
def renderString (s : String) : String :=
  String.ofList ('\x22' :: s.toList.flatMap stringChar ++ ['\x22'])

mutual
/-- The text of a value, without blanks. -/
def Value.render : Value → String
  | .null => "null"
  | .bool true => "true"
  | .bool false => "false"
  | .integer n => toString n
  | .float x => x.render layout
  | .string s => renderString s
  | .array elements => "[" ++ renderElements elements ++ "]"
  | .object members => "\x7b" ++ renderMembers members ++ "\x7d"

/-- The texts of the elements, with commas between them. -/
def renderElements : List Value → String
  | [] => ""
  | [v] => v.render
  | v :: w :: rest => v.render ++ "," ++ renderElements (w :: rest)

/-- The texts of the members, with commas between them. -/
def renderMembers : List (String × Value) → String
  | [] => ""
  | [(k, v)] => renderString k ++ ":" ++ v.render
  | (k, v) :: m :: rest => renderString k ++ ":" ++ v.render ++ "," ++ renderMembers (m :: rest)
end

end PrefixRanking.Json

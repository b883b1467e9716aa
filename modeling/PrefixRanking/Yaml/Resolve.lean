import PrefixRanking.Yaml.Node
import PrefixRanking.Schema.Problem

/-!
# What a scalar stands for

A plain scalar without tag stands for nothing, a truth value, an integer, a floating point number or a
string, whichever is the first that its text can be read as.  A tag may demand one of these.  A scalar
that is not plain is a string.
-/

namespace PrefixRanking.Yaml

open Schema (Found)

/-! ## Numbers -/

/-- The value of a digit in a base up to sixteen. -/
def digit? (base : Nat) (c : Char) : Option Nat :=
  let d :=
    if c.isDigit then some (c.toNat - 48)
    else if 'a' ≤ c ∧ c ≤ 'f' then some (c.toNat - 87)
    else if 'A' ≤ c ∧ c ≤ 'F' then some (c.toNat - 55)
    else none
  d.filter (· < base)

/-- The value of a text that consists of digits only. -/
def digits? (base : Nat) (cs : List Char) : Option Nat :=
  if cs.isEmpty then none
  else cs.foldl (fun n c => n.bind fun n => (digit? base c).map (base * n + ·)) (some 0)

/-- Does a text consist of several digits of which the first is zero, after a sign or none?  Such a text
is no number. -/
def isZeroPadded (cs : List Char) : Bool :=
  let cs := match cs with
    | '-' :: rest | '+' :: rest => rest
    | cs => cs
  match cs with
  | '0' :: d :: rest => (d :: rest).all Char.isDigit
  | _ => false

/-- The value of digits in the base that a mark such as `0x` announces; decimal digits have none. -/
def magnitude? (cs : List Char) : Option Nat :=
  match cs with
  | '0' :: 'x' :: rest => digits? 16 rest
  | '0' :: 'o' :: rest => digits? 8 rest
  | '0' :: 'b' :: rest => digits? 2 rest
  | cs => if isZeroPadded cs then none else digits? 10 cs

/-- The value of an integer without a minus sign. -/
def natural? (cs : List Char) : Option Nat :=
  match cs with
  | '+' :: rest => magnitude? rest
  | cs => magnitude? cs

/-- The value of an integer with a minus sign, without its sign. -/
def negated? (cs : List Char) : Option Nat :=
  match cs with
  | '-' :: rest => magnitude? rest
  | _ => none

/-- The integer that a text stands for: of at most 64 bits, or of up to 128. -/
def integer? (cs : List Char) : Option Found :=
  match natural? cs, negated? cs with
  | some n, _ =>
    if n < UInt64.size then some (.integer n)
    else if n < 1 <<< 128 then some (.wideInteger n false)
    else none
  | none, some n =>
    if n ≤ 1 <<< 63 then some (.integer (-n))
    else if n ≤ 1 <<< 127 then some (.wideInteger (-n) true)
    else none
  | none, none => none

/-- The exponent of a decimal, after the letter that announces it. -/
def exponent? (cs : List Char) : Option Int :=
  match cs with
  | '-' :: rest => (digits? 10 rest).map fun n => -(n : Int)
  | '+' :: rest => (digits? 10 rest).map Int.ofNat
  | rest => (digits? 10 rest).map Int.ofNat

/-- The decimal that a text without sign stands for: digits with a point among them or not, and an
exponent or none. -/
def unsignedDecimal? (negative : Bool) (cs : List Char) : Option Binary64 := do
  let isMark (c : Char) : Bool := c = 'e' || c = 'E'
  let (mantissa, tail) := cs.span fun c => !isMark c
  let e ← match tail with
    | [] => some 0
    | _ :: rest => exponent? rest
  let (whole, part) := mantissa.span (· != '.')
  let part := part.drop 1
  let n ← digits? 10 (whole ++ part)
  return .ofDecimal negative n (e - part.length)

/-- The decimal that a text with a minus sign or none stands for, if it is in range. -/
def decimal? (cs : List Char) : Option Binary64 :=
  let x := match cs with
    | '-' :: rest => unsignedDecimal? true rest
    | '+' :: rest => unsignedDecimal? false rest
    | rest => unsignedDecimal? false rest
  x.filter Binary64.isFinite

/-- The floating point number that a text stands for. -/
def float? (cs : List Char) : Option Binary64 :=
  let s := String.ofList cs
  let infinite := [".inf", ".Inf", ".INF"]
  if infinite.contains s || (infinite.map ("+" ++ ·)).contains s then some (.infinity false)
  else if (infinite.map ("-" ++ ·)).contains s then some (.infinity true)
  else if [".nan", ".NaN", ".NAN"].contains s then some .nan
  else match cs with
    | '+' :: '+' :: _ | '+' :: '-' :: _ => none
    | '+' :: rest => decimal? rest
    | cs => decimal? cs

/-! ## Plain scalars -/

/-- Is the text one of the names of nothing? -/
def isNull (s : String) : Bool := ["null", "Null", "NULL", "~"].contains s

/-- The truth value that a text names. -/
def boolean? (s : String) : Option Bool :=
  if ["true", "True", "TRUE"].contains s then some true
  else if ["false", "False", "FALSE"].contains s then some false
  else none

/-- What a plain scalar without tag stands for. -/
def plainValue (s : String) : Found :=
  let cs := s.toList
  if s.isEmpty || isNull s then .null
  else match boolean? s with
    | some b => .boolean b
    | none => match integer? cs with
      | some n => n
      | none => match if isZeroPadded cs then none else float? cs with
        | some x => .float x
        | none => .string s

namespace Scalar

/-- Is this the scalar where nothing is written, or one that looks like it? -/
def isVoid (s : Scalar) : Bool := s.text.isEmpty && s.style == .plain

/-- The tags of the core kinds of scalars. -/
def nullTag : String := "tag:yaml.org,2002:null"
def boolTag : String := "tag:yaml.org,2002:bool"
def intTag : String := "tag:yaml.org,2002:int"
def floatTag : String := "tag:yaml.org,2002:float"

/-- What a scalar stands for; where its tag demands a kind that its text does not have, what was
expected. -/
def value (s : Scalar) : Except String Found :=
  let cs := s.text.toList
  match s.tag with
  | none => .ok (if s.style = .plain then plainValue s.text else .string s.text)
  | some t =>
    if t = boolTag then (match boolean? s.text with
      | some b => .ok (.boolean b)
      | none => .error "a boolean")
    else if t = intTag then (match integer? cs with
      | some n => .ok n
      | none => .error "an integer")
    else if t = floatTag then (match float? cs with
      | some x => .ok (.float x)
      | none => .error "a float")
    else if t = nullTag then (if isNull s.text then .ok .null else .error "null")
    else if t.startsWith "!" && s.style == .plain then .ok (plainValue s.text)
    else .ok (.string s.text)

/-- The integer that a scalar stands for where one is expected: the text of a plain scalar, whatever its
tag, and that of a literal one that is tagged as an integer. -/
def natural? (s : Scalar) : Option Nat :=
  if s.style = .plain || (s.style = .literal && s.tag == some intTag) then
    Yaml.natural? s.text.toList
  else none

end Scalar

end PrefixRanking.Yaml

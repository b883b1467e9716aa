import PrefixRanking.Json.Value

/-!
# Reading JSON text

`Value.ofText?` reads one JSON value with blanks around it; anything else is refused.  A number with a
point or an exponent, or out of the range of 64 bits, is read as its first digits, as many as fit 64 bits,
scaled by a power of ten; each of the two is rounded, and so is the result.
-/

namespace PrefixRanking.Json

/-- The characters that may stand between the parts of a text. -/
def isSpace (c : Char) : Bool := c = ' ' || c = '\n' || c = '\r' || c = '\t'

/-- The characters from the first that is no space on. -/
def skipSpace (cs : List Char) : List Char := cs.dropWhile isSpace

/-- The digits at the front, and the rest. -/
def spanDigits (cs : List Char) : List Char × List Char := cs.span Char.isDigit

/-- The value of a digit. -/
def digitValue (c : Char) : Nat := c.toNat - '0'.toNat

/-- The value of hexadecimal digits, if they are. -/
def hexValue? (cs : List Char) : Option Nat :=
  cs.foldl (fun acc c => acc.bind fun n =>
    if c.isDigit then some (16 * n + digitValue c)
    else if 'a' ≤ c ∧ c ≤ 'f' then some (16 * n + (c.toNat - 87))
    else if 'A' ≤ c ∧ c ≤ 'F' then some (16 * n + (c.toNat - 55))
    else none) (some 0)

/-! ## Numbers -/

/-- Take digits into a number as long as it fits into 64 bits; the count of digits left over. -/
def takeDigits : Nat → List Char → Nat × Nat
  | n, [] => (n, 0)
  | n, d :: ds =>
    if 10 * n + digitValue d < UInt64.size then takeDigits (10 * n + digitValue d) ds
    else (n, ds.length + 1)

/-- A number scaled by a power of ten, in steps of at most 308 powers downwards. -/
def scale : Nat → Binary64 → Int → Binary64
  | 0, x, _ => x
  | fuel + 1, x, e =>
    if e < -308 then scale fuel (x.dividedBy (.ofDecimal false 1 308)) (e + 308)
    else if e < 0 then x.dividedBy (.ofDecimal false 1 (-e))
    else x.times (.ofDecimal false 1 e)

/-- The number of these digits before and after the point and this exponent; none out of range. -/
def decimal? (negative : Bool) (whole part : List Char) (exponent : Int) : Option Value :=
  let (n, beyond) := takeDigits 0 whole
  let (n, unused) := takeDigits n part
  let e : Int := exponent + beyond - (part.length - unused : Nat)
  let x := Binary64.nearest negative n 1
  if n = 0 then some (.float x)
  else
    let y := if 308 < e then .infinity negative else scale 8 x (max e (-1000))
    if y.isFinite then some (.float y) else none

/-- An exponent, if one follows. -/
def readExponent? (cs : List Char) : Option (Option Int × List Char) :=
  match cs with
  | c :: rest =>
    if c = 'e' ∨ c = 'E' then
      let (negative, rest) := match rest with
        | '-' :: r => (true, r)
        | '+' :: r => (false, r)
        | r => (false, r)
      let (digits, rest) := spanDigits rest
      if digits.isEmpty then none
      else
        let n : Int := digits.foldl (fun n d => 10 * n + digitValue d) 0
        some (some (if negative then -n else n), rest)
    else some (none, cs)
  | [] => some (none, [])

/-- A number. -/
def readNumber? (cs : List Char) : Option (Value × List Char) := do
  let (negative, cs) := match cs with
    | '-' :: r => (true, r)
    | r => (false, r)
  let (whole, cs) := spanDigits cs
  if whole.isEmpty ∨ (whole.head? = some '0' ∧ 1 < whole.length) then none
  else
    let (part, cs) ← match cs with
      | '.' :: r =>
        let (digits, r) := spanDigits r
        if digits.isEmpty then none else some (some digits, r)
      | r => some (none, r)
    let (exponent, cs) ← readExponent? cs
    let n := whole.foldl (fun n d => 10 * n + digitValue d) 0
    if part.isNone ∧ exponent.isNone ∧ (if negative then 0 < n ∧ n ≤ 1 <<< 63 else n < UInt64.size) then
      some (.integer (if negative then -(n : Int) else n), cs)
    else
      let v ← decimal? negative whole (part.getD []) (exponent.getD 0)
      some (v, cs)

/-! ## Strings -/

/-- The characters up to the closing quote, with escapes resolved. -/
def readString? : Nat → List Char → Option (List Char × List Char)
  | 0, _ => none
  | fuel + 1, cs =>
    match cs with
    | '\x22' :: rest => some ([], rest)
    | '\\' :: 'u' :: a :: b :: c :: d :: rest => do
      let high ← hexValue? [a, b, c, d]
      if 0xD800 ≤ high ∧ high < 0xDC00 then
        match rest with
        | '\\' :: 'u' :: e :: f :: g :: h :: rest => do
          let low ← hexValue? [e, f, g, h]
          if 0xDC00 ≤ low ∧ low < 0xE000 then
            let (text, rest) ← readString? fuel rest
            some (Char.ofNat (0x10000 + (high - 0xD800) * 0x400 + (low - 0xDC00)) :: text, rest)
          else none
        | _ => none
      else if 0xDC00 ≤ high ∧ high < 0xE000 then none
      else
        let (text, rest) ← readString? fuel rest
        some (Char.ofNat high :: text, rest)
    | '\\' :: c :: rest => do
      let c ← match c with
        | '\x22' => some '\x22'
        | '\\' => some '\\'
        | '/' => some '/'
        | 'b' => some '\x08'
        | 'f' => some '\x0c'
        | 'n' => some '\n'
        | 'r' => some '\r'
        | 't' => some '\t'
        | _ => none
      let (text, rest) ← readString? fuel rest
      some (c :: text, rest)
    | c :: rest =>
      if c.toNat < 32 then none
      else do
        let (text, rest) ← readString? fuel rest
        some (c :: text, rest)
    | [] => none

/-! ## Values -/

mutual
/-- One value and the characters behind it. -/
def readValue? : Nat → List Char → Option (Value × List Char)
  | 0, _ => none
  | fuel + 1, cs =>
    match skipSpace cs with
    | 'n' :: 'u' :: 'l' :: 'l' :: rest => some (.null, rest)
    | 't' :: 'r' :: 'u' :: 'e' :: rest => some (.bool true, rest)
    | 'f' :: 'a' :: 'l' :: 's' :: 'e' :: rest => some (.bool false, rest)
    | '\x22' :: rest => do
      let (text, rest) ← readString? (rest.length + 1) rest
      some (.string (String.ofList text), rest)
    | '[' :: rest =>
      match skipSpace rest with
      | ']' :: rest => some (.array [], rest)
      | rest => do
        let (elements, rest) ← readElements? fuel rest
        some (.array elements, rest)
    | '{' :: rest =>
      match skipSpace rest with
      | '}' :: rest => some (.object [], rest)
      | rest => do
        let (members, rest) ← readMembers? fuel rest
        some (.object members, rest)
    | rest => readNumber? rest

/-- The elements up to the closing bracket. -/
def readElements? : Nat → List Char → Option (List Value × List Char)
  | 0, _ => none
  | fuel + 1, cs => do
    let (v, rest) ← readValue? fuel cs
    match skipSpace rest with
    | ',' :: rest =>
      let (vs, rest) ← readElements? fuel rest
      some (v :: vs, rest)
    | ']' :: rest => some ([v], rest)
    | _ => none

/-- The members up to the closing brace. -/
def readMembers? : Nat → List Char → Option (List (String × Value) × List Char)
  | 0, _ => none
  | fuel + 1, cs =>
    match skipSpace cs with
    | '\x22' :: rest => do
      let (key, rest) ← readString? (rest.length + 1) rest
      match skipSpace rest with
      | ':' :: rest =>
        let (v, rest) ← readValue? fuel rest
        match skipSpace rest with
        | ',' :: rest =>
          let (ms, rest) ← readMembers? fuel rest
          some ((String.ofList key, v) :: ms, rest)
        | '}' :: rest => some ([(String.ofList key, v)], rest)
        | _ => none
      | _ => none
    | _ => none
end

/-- The value that a text stands for.  Each call of a reader goes at least one character on or enters
a value, so twice the length of the text is more than enough calls. -/
def Value.ofText? (s : String) : Option Value := do
  let cs := s.toList
  let (v, rest) ← readValue? (2 * cs.length + 2) cs
  if (skipSpace rest).isEmpty then some v else none

end PrefixRanking.Json

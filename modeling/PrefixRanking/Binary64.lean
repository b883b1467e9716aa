/-!
# Binary floating point in exact arithmetic

A finite 64-bit number is a sign and `mantissa * 2 ^ exponent`, held as such, so that rounding and
printing are computations on natural numbers.

* `Binary64.nearest` rounds a positive fraction to the nearest number, a tie to the even mantissa.
* `Binary64.shortest` gives the fewest decimal digits that read back as the number, and among those the
  ones nearest to it; a `Tie` says which of two that are equally near.
* `Layout` says how the digits are set out.
-/

namespace PrefixRanking

/-- A floating point number; a finite one is `mantissa * 2 ^ exponent` with a sign. -/
inductive Binary64 where
  | finite (negative : Bool) (mantissa : Nat) (exponent : Int)
  | infinity (negative : Bool)
  | nan
deriving DecidableEq

namespace Binary64

/-- The numerator and denominator of `m * b ^ e`. -/
def fraction (m b : Nat) (e : Int) : Nat × Nat :=
  match e with
  | .ofNat n => (m * b.pow n, 1)
  | .negSucc n => (m, b.pow (n + 1))

/-- A quotient rounded to the nearest integer, a tie to the even one. -/
def roundHalfEven (num den : Nat) : Nat :=
  let q := num / den
  let r := num % den
  if 2 * r < den then q
  else if den < 2 * r then q + 1
  else if q % 2 = 0 then q else q + 1

/-- The greatest `e` with `2 ^ e ≤ num / den`. -/
def binaryOrder (num den : Nat) : Int :=
  let e : Int := (num.log2 : Int) - (den.log2 : Int)
  let (n, d) := fraction den 2 e
  if n ≤ num * d then e else e - 1

/-- The nearest number to a fraction; past the largest number it is infinity. -/
def nearest (negative : Bool) (num den : Nat) : Binary64 :=
  if num = 0 ∨ den = 0 then .finite negative 0 (-1074)
  else
    let q := max (binaryOrder num den - 52) (-1074)
    let (n, d) := fraction num 2 (-q)
    let m := roundHalfEven n (d * den)
    let (m, q) := if m = 1 <<< 53 then (1 <<< 52, q + 1) else (m, q)
    if 971 < q then .infinity negative else .finite negative m q

/-- The nearest number to `digits * 10 ^ exponent`.  Far outside the range of exponents the answer is
known without computing the power. -/
def ofDecimal (negative : Bool) (digits : Nat) (exponent : Int) : Binary64 :=
  let size : Int := (Nat.toDigits 10 digits).length
  if digits = 0 then .finite negative 0 (-1074)
  else if 400 < exponent + size then .infinity negative
  else if exponent + size < -400 then .finite negative 0 (-1074)
  else
    let (n, d) := fraction digits 10 exponent
    nearest negative n d

/-- The product of two positive numbers, rounded. -/
def times : Binary64 → Binary64 → Binary64
  | .finite s m p, .finite t n q =>
    let (a, b) := fraction (m * n) 2 (p + q)
    nearest (s != t) a b
  | x, _ => x

/-- The quotient of two positive numbers, rounded. -/
def dividedBy : Binary64 → Binary64 → Binary64
  | .finite s m p, .finite t n q =>
    let (a, b) := fraction m 2 (p - q)
    nearest (s != t) a (b * n)
  | x, _ => x

/-- Is the number neither infinite nor undefined? -/
def isFinite : Binary64 → Bool
  | .finite .. => true
  | _ => false

/-! ## Shortest decimal digits -/

/-- The greatest `k` with `10 ^ k ≤ num / den`, for a positive fraction. -/
def decimalOrder (num den : Nat) : Int :=
  if den ≤ num then ((Nat.toDigits 10 (num / den)).length : Int) - 1
  else match (List.range 400).find? (fun t => den ≤ num * Nat.pow 10 t) with
    | some t => -(t : Int)
    | none => -400

/-- The fractions halfway to the two neighbours of `mantissa * 2 ^ exponent`, over one denominator: the
lower, the number itself, the upper. -/
def surroundings (mantissa : Nat) (exponent : Int) : Nat × Nat × Nat × Nat :=
  let lower := if mantissa = 1 <<< 52 ∧ -1074 < exponent then 4 * mantissa - 1 else 4 * mantissa - 2
  let (a, d) := fraction lower 2 (exponent - 2)
  let (b, _) := fraction (4 * mantissa) 2 (exponent - 2)
  let (c, _) := fraction (4 * mantissa + 2) 2 (exponent - 2)
  (a, b, c, d)

/-- Which of two neighbouring integers stands for the point halfway between them. -/
inductive Tie where
  | toEven
  /-- The one farther from zero. -/
  | away
deriving DecidableEq

/-- Does a point halfway between `low` and `low + 1` become `low + 1`? -/
def Tie.roundsUp (tie : Tie) (low : Nat) : Bool :=
  match tie with
  | .toEven => low % 2 == 1
  | .away => true

/-- The nearest of the two points of the grid `10 ^ k` around the number, of those that read back. -/
def onGrid? (tie : Tie) (mantissa : Nat) (exponent : Int) (k : Int) : Option Nat :=
  let (a, b, c, d) := surroundings mantissa exponent
  let (s, t) := fraction 1 10 k
  -- a point `n` stands for `n * s / t`, to be compared with `b / d`
  let below := b * t / (d * s)
  let readsBack (n : Nat) : Bool :=
    let p := n * s * d
    if mantissa % 2 = 0 then a * t ≤ p && p ≤ c * t else a * t < p && p < c * t
  let low := b * t - below * s * d
  let high := (below + 1) * s * d - b * t
  match readsBack below, readsBack (below + 1) with
  | true, true =>
    if high < low ∨ (high = low ∧ tie.roundsUp below) then some (below + 1) else some below
  | true, false => some below
  | false, true => some (below + 1)
  | false, false => none

/-- The first grid, from `n` digits on, that has a point that reads back. -/
def shortestFrom (tie : Tie) (mantissa : Nat) (exponent order : Int) : Nat → Nat → Nat × Int
  | 0, _ => (0, 0)
  | fuel + 1, n =>
    let k := order - n + 1
    match onGrid? tie mantissa exponent k with
    | some digits => (digits, k)
    | none => shortestFrom tie mantissa exponent order fuel (n + 1)

/-- Move the zeros at the end of a number into the exponent. -/
def withoutZeros : Nat → Nat → Int → Nat × Int
  | 0, n, k => (n, k)
  | fuel + 1, n, k => if n % 10 = 0 then withoutZeros fuel (n / 10) (k + 1) else (n, k)

/-- The fewest digits that read back as `mantissa * 2 ^ exponent`, without zeros at the end, and the
power of ten they count. -/
def shortest (tie : Tie) (mantissa : Nat) (exponent : Int) : Nat × Int :=
  if mantissa = 0 then (0, 0)
  else
    let (num, den) := fraction mantissa 2 exponent
    let (n, k) := shortestFrom tie mantissa exponent (decimalOrder num den) 17 1
    withoutZeros 17 n k

/-! ## Setting out the digits -/

/-- How a number is set out in decimal digits: which way ties between digits go, the positions of the
point, counted from the first digit, that are written without an exponent (none: all are), the sign in
front of an exponent that is not negative, and the spellings of what is not finite. -/
structure Layout where
  tie : Tie
  positional : Option (Int × Int)
  exponentSign : String
  infinity : String
  negativeInfinity : String
  nan : String

/-- The digits with a point after the first `point` of them, filled up with zeros; at least one digit
on either side of the point. -/
def setPoint (digits : List Char) (point : Int) : List Char :=
  if point ≤ 0 then '0' :: '.' :: (List.replicate (-point).toNat '0' ++ digits)
  else
    let n := point.toNat
    let front := digits.take n ++ List.replicate (n - digits.length) '0'
    let back := digits.drop n
    front ++ '.' :: (if back.isEmpty then ['0'] else back)

/-- The digits with a point after the first, and the exponent with its sign. -/
def setExponent (plus : String) (digits : List Char) (point : Int) : List Char :=
  let front := match digits with
    | d :: e :: more => d :: '.' :: e :: more
    | short => short
  let sign := if point < 1 then "" else plus
  front ++ 'e' :: (sign ++ toString (point - 1)).toList

/-- The text of a number. -/
def render (layout : Layout) : Binary64 → String
  | .nan => layout.nan
  | .infinity false => layout.infinity
  | .infinity true => layout.negativeInfinity
  | .finite negative m e =>
    let (n, k) := shortest layout.tie m e
    let digits := Nat.toDigits 10 n
    let point := (digits.length : Int) + k
    let plain := match layout.positional with
      | none => true
      | some (least, greatest) => decide (least ≤ point ∧ point ≤ greatest)
    let body :=
      if m == 0 || plain then setPoint digits point
      else setExponent layout.exponentSign digits point
    String.ofList (if negative then '-' :: body else body)

end Binary64

end PrefixRanking

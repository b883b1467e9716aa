import PrefixRanking.Yaml.Resolve
import PrefixRanking.Yaml.Token.Property

/-!
# Writing strings as YAML scalars

A string that is the value of a key of the outermost mapping is written plain where that reads back as
the string, otherwise between single quotes, and between double quotes if it has characters that need an
escape.  A string with a line feed is written as a literal block.
-/

namespace PrefixRanking.Yaml

/-! ## What stands in the way of a style -/

/-- May the character be written as it is?  Controls but the line feed, the byte order mark and the last
two characters of the basic plane may not. -/
def isWritable (c : Char) : Bool :=
  let n := c.toNat
  n == 0x0A || (0x20 ≤ n && n ≤ 0x7E) || (0xA0 ≤ n && n ≤ 0xD7FF) ||
    (0xE000 ≤ n && n ≤ 0xFFFD && n != 0xFEFF) || 0x10000 ≤ n

/-- Does the text start with something that a plain scalar cannot start with? -/
def startsWithIndicator : List Char → Bool
  | [] => false
  | c :: rest =>
    ['#', ',', '[', ']', '{', '}', '&', '*', '!', '|', '>', '\'', '\x22', '%', '@', '\x60'].contains c ||
      ((c == '?' || c == ':' || c == '-') && blankOrEnd rest.head?) ||
      (c :: rest).take 3 == ['-', '-', '-'] || (c :: rest).take 3 == ['.', '.', '.']

/-- Is there, behind the first character, a colon at the end of a word or a number sign at the start of
one? -/
def hasIndicator : List Char → Bool
  | c :: d :: rest =>
    (d == ':' && blankOrEnd rest.head?) || (d == '#' && blankOrEnd (some c)) || hasIndicator (d :: rest)
  | _ => false

/-- Is there a pair of neighbours, the first of the one kind and the second of the other? -/
def hasPair (p q : Char → Bool) : List Char → Bool
  | c :: d :: rest => (p c && q d) || hasPair p q (d :: rest)
  | _ => false

/-- Can a text stand between single quotes? -/
def quotable (cs : List Char) : Bool :=
  cs.all isWritable && !hasPair isBreak (· == ' ') cs && !hasPair (· == ' ') isBreak cs

/-- Can a text be written plain? -/
def plainable (cs : List Char) : Bool :=
  !cs.isEmpty && cs.all (fun c => isWritable c && !isBreak c) && cs.head? != some ' ' &&
    cs.getLast? != some ' ' && !startsWithIndicator cs && !hasIndicator cs

/-- Can a text be written as a literal block? -/
def blockable (cs : List Char) : Bool :=
  cs.all isWritable && cs.getLast? != some ' ' && !hasPair (· == ' ') isBreak cs

/-- Would the plain text be read as something else than a string, or look like a number? -/
def isAmbiguous (cs : List Char) : Bool :=
  isZeroPadded cs || plainValue (String.ofList cs) != .string (String.ofList cs)

/-! ## The styles -/

/-- The text between single quotes; `broken` tells whether the last character was a line break, behind
which the text is indented. -/
def singleQuotedFrom (broken : Bool) : List Char → List Char
  | [] => (if broken then [' ', ' '] else []) ++ ['\'']
  | c :: rest =>
    if isBreak c then c :: singleQuotedFrom true rest
    else
      (if broken then [' ', ' '] else []) ++
        (if c = '\'' then ['\'', '\''] else [c]) ++ singleQuotedFrom false rest

/-- The text between single quotes, which are written twice inside. -/
def singleQuoted (cs : List Char) : List Char := '\'' :: singleQuotedFrom false cs

/-- A number in a fixed count of hexadecimal digits. -/
def hexFixed (width n : Nat) : List Char :=
  let digits := (Nat.toDigits 16 n).map Char.toUpper
  List.replicate (width - digits.length) '0' ++ digits

/-- The letter behind a backslash that stands for a character. -/
def escapeLetter? : Char → Option Char
  | '\x00' => some '0'
  | '\x07' => some 'a'
  | '\x08' => some 'b'
  | '\t' => some 't'
  | '\n' => some 'n'
  | '\x0b' => some 'v'
  | '\x0c' => some 'f'
  | '\r' => some 'r'
  | '\x1b' => some 'e'
  | '\x22' => some '\x22'
  | '\\' => some '\\'
  | '\u0085' => some 'N'
  | '\u2028' => some 'L'
  | '\u2029' => some 'P'
  | _ => none

/-- A character between double quotes. -/
def doubleQuotedChar (c : Char) : List Char :=
  if isWritable c && !isBreak c && c != '\x22' && c != '\\' then [c]
  else match escapeLetter? c with
    | some l => ['\\', l]
    | none =>
      let n := c.toNat
      if n ≤ 0xFF then '\\' :: 'x' :: hexFixed 2 n else '\\' :: 'u' :: hexFixed 4 n

/-- The text between double quotes. -/
def doubleQuoted (cs : List Char) : List Char := '\x22' :: cs.flatMap doubleQuotedChar ++ ['\x22']

/-- The indicator of what becomes of the line breaks at the end of a block. -/
def chompingMark (cs : List Char) : List Char :=
  match cs.reverse with
  | [] => ['-']
  | b :: before =>
    if !isBreak b then ['-']
    else match before with
      | [] => ['+']
      | c :: _ => if isBreak c then ['+'] else []

/-- The lines of a literal block, each that is not empty indented by two columns. -/
def literalFrom (lineStart : Bool) : List Char → List Char
  | [] => if lineStart then [] else ['\n']
  | c :: rest =>
    if isBreak c then c :: literalFrom true rest
    else (if lineStart then [' ', ' '] else []) ++ c :: literalFrom false rest

/-- The text as a literal block, up to the end of its last line. -/
def literalBlock (cs : List Char) : List Char :=
  let hint := if cs.head?.any (fun c => c == ' ' || isBreak c) then ['2'] else []
  '|' :: hint ++ chompingMark cs ++ '\n' :: literalFrom true cs

/-- A string as the value of a key of the outermost mapping, up to the end of the line. -/
def writeString (cs : List Char) : List Char :=
  if cs.contains '\n' then
    if blockable cs then literalBlock cs else doubleQuoted cs ++ ['\n']
  else if !isAmbiguous cs && plainable cs then cs ++ ['\n']
  else if quotable cs then singleQuoted cs ++ ['\n']
  else doubleQuoted cs ++ ['\n']

end PrefixRanking.Yaml

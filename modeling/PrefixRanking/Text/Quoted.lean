import PrefixRanking.Text.Unprintable

/-!
# Quoted text

A text between double quotes, as error texts show it.  The quote and the backslash are escaped, so are
line feed, carriage return, tab and the null character; characters that are not printed, or that extend
the one before, are given by their number.
-/

namespace PrefixRanking.Text

/-- A number in hexadecimal digits. -/
def hexDigits (n : Nat) : List Char := Nat.toDigits 16 n

/-- How a character stands between quotes. -/
def quotedChar (c : Char) : List Char :=
  match c with
  | '\n' => ['\\', 'n']
  | '\r' => ['\\', 'r']
  | '\t' => ['\\', 't']
  | '\x00' => ['\\', '0']
  | '\\' => ['\\', '\\']
  | '\x22' => ['\\', '\x22']
  | c =>
    if isExtending c || isUnprintable c then
      '\\' :: 'u' :: '{' :: hexDigits c.toNat ++ ['}']
    else [c]

/-- The text between double quotes. -/
def quoted (s : String) : String :=
  String.ofList ('\x22' :: s.toList.flatMap quotedChar ++ ['\x22'])

end PrefixRanking.Text

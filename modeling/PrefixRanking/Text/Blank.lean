/-!
# Blank characters

The characters with the Unicode property `White_Space`, and cutting them off both ends of a text.
-/

namespace PrefixRanking.Text

/-- The Unicode property `White_Space`: the five controls U+0009 to U+000D, space, U+0085, U+00A0,
U+1680, the spaces U+2000 to U+200A, U+2028, U+2029, U+202F, U+205F and U+3000. -/
def isBlank (c : Char) : Bool :=
  let n := c.toNat
  (9 ≤ n && n ≤ 13) || n == 32 || n == 0x85 || n == 0xA0 || n == 0x1680 ||
    (0x2000 ≤ n && n ≤ 0x200A) || n == 0x2028 || n == 0x2029 || n == 0x202F || n == 0x205F ||
    n == 0x3000

/-- The characters without the blank ones at either end. -/
def trimChars (cs : List Char) : List Char :=
  ((cs.dropWhile isBlank).reverse.dropWhile isBlank).reverse

/-- The text without the blank characters at either end. -/
def trim (s : String) : String := String.ofList (trimChars s.toList)

/-- Is there nothing but blank characters in the text? -/
def allBlank (s : String) : Bool := s.toList.all isBlank

/-- The ASCII letters of a text in lower case, all else as it is. -/
def lowerAscii (s : String) : String := String.ofList (s.toList.map Char.toLower)

/-- The ASCII letters of a text in upper case, all else as it is. -/
def upperAscii (s : String) : String := String.ofList (s.toList.map Char.toUpper)

/-- The pieces between the separators, one more than there are separators. -/
def splitChars (sep : Char) : List Char → List (List Char)
  | [] => [[]]
  | c :: cs =>
    if c = sep then [] :: splitChars sep cs
    else match splitChars sep cs with
      | [] => [[c]]
      | piece :: pieces => (c :: piece) :: pieces

/-- The pieces of a text between the separators. -/
def split (sep : Char) (s : String) : List String := (splitChars sep s.toList).map String.ofList

/-- The texts with a separator between neighbours. -/
def join (sep : String) : List String → String
  | [] => ""
  | [s] => s
  | s :: t :: rest => s ++ sep ++ join sep (t :: rest)

/-! ## Small facts -/

/-- The characters that `Char.isWhitespace` knows are blank. -/
theorem isBlank_of_isWhitespace {c : Char} (h : c.isWhitespace = true) : isBlank c = true := by
  simp [Char.isWhitespace] at h
  rcases h with ((rfl | rfl) | rfl) | rfl <;> decide

theorem length_splitChars (sep : Char) (cs : List Char) :
    (splitChars sep cs).length = cs.count sep + 1 := by
  induction cs with
  | nil => rfl
  | cons c cs ih =>
    by_cases h : c = sep
    · simp [splitChars, h, ih]
    · simp only [splitChars, h, if_false]
      have hc : (c :: cs).count sep = cs.count sep := by simp [h]
      rw [hc, ← ih]
      split
      · next heq => rw [heq] at ih; simp at ih
      · next heq => rw [heq]; rfl

end PrefixRanking.Text

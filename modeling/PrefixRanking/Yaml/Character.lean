/-!
# Characters and positions of YAML text

The classes of characters that YAML distinguishes, and a cursor: the characters that are left, with the
offset, line and column of the first of them.  An offset counts octets and a column characters.
-/

namespace PrefixRanking.Yaml

/-- May the character occur in a document?  Tab, the line breaks and everything printable may. -/
def isAllowed (c : Char) : Bool :=
  let n := c.toNat
  n == 0x09 || n == 0x0A || n == 0x0D || (0x20 ≤ n && n ≤ 0x7E) || n == 0x85 ||
    (0xA0 ≤ n && n ≤ 0xD7FF) || (0xE000 ≤ n && n ≤ 0xFFFD) || 0x10000 ≤ n

/-- Does the character end a line? -/
def isBreak (c : Char) : Bool :=
  c = '\r' || c = '\n' || c = '\u0085' || c = '\u2028' || c = '\u2029'

/-- Is the character a space or a tab? -/
def isBlank (c : Char) : Bool := c = ' ' || c = '\t'

/-- Is there a blank, a line break or the end of the text? -/
def blankOrEnd : Option Char → Bool
  | none => true
  | some c => isBlank c || isBreak c

/-- May the character occur in the name of an anchor, a directive or a tag handle? -/
def isWord (c : Char) : Bool := c.isAlphanum || c = '_' || c = '-'

/-- The break that a line break stands for in a value: a line feed, but for the line and paragraph
separators, which stand for themselves. -/
def lineBreak (c : Char) : Char := if c = '\u2028' || c = '\u2029' then c else '\n'

/-- Do the characters start with a marker of three characters followed by a blank, a line break or the
end of the text? -/
def startsMarker (m : Char) : List Char → Bool
  | a :: b :: c :: rest => a = m && b = m && c = m && blankOrEnd rest.head?
  | _ => false

/-- Do the characters start with a marker that begins or ends a document? -/
def startsDocumentMarker (cs : List Char) : Bool := startsMarker '-' cs || startsMarker '.' cs

/-- A place in a text, counted from zero. -/
structure Position where
  /-- The octets of UTF-8 in front of it. -/
  offset : Nat
  line : Nat
  /-- The characters in front of it on its line. -/
  column : Nat
deriving DecidableEq

namespace Position

/-- The start of a text. -/
def start : Position := ⟨0, 0, 0⟩

/-- The place behind a character of the same line. -/
def next (p : Position) (c : Char) : Position := ⟨p.offset + c.utf8Size, p.line, p.column + 1⟩

/-- The place behind characters of the same line. -/
def forward (p : Position) (cs : List Char) : Position := cs.foldl next p

/-- The start of the next line, behind a line break of this many octets. -/
def newLine (p : Position) (width : Nat) : Position := ⟨p.offset + width, p.line + 1, 0⟩

end Position

/-- What is left of a text, and the place of its first character. -/
structure Cursor where
  rest : List Char
  pos : Position
deriving DecidableEq

namespace Cursor

/-- The cursor behind a number of characters of the same line. -/
def forward (c : Cursor) (n : Nat) : Cursor := ⟨c.rest.drop n, c.pos.forward (c.rest.take n)⟩

/-- The first characters that satisfy a condition, which no line break does, and the cursor behind
them. -/
def spanLine (p : Char → Bool) (c : Cursor) : List Char × Cursor :=
  let taken := c.rest.takeWhile p
  (taken, c.forward taken.length)

/-- The cursor behind blanks. -/
def skipBlanks (c : Cursor) : Cursor := (c.spanLine isBlank).2

/-- The cursor behind a comment, if there is one. -/
def skipComment (c : Cursor) : Cursor :=
  if c.rest.head? = some '#' then (c.spanLine fun x => !isBreak x).2 else c

/-- The cursor behind a line break, if there is one. -/
def skipBreak (c : Cursor) : Cursor :=
  match c.rest with
  | '\r' :: '\n' :: rest => ⟨rest, c.pos.newLine 2⟩
  | b :: rest => if isBreak b then ⟨rest, c.pos.newLine b.utf8Size⟩ else c
  | [] => c

/-- The cursor behind blanks, a comment and a line break, if nothing else is on the line. -/
def endLine? (c : Cursor) : Option Cursor :=
  let c := c.skipBlanks.skipComment
  match c.rest with
  | [] => some c
  | b :: _ => if isBreak b then some c.skipBreak else none

/-! ## Nothing is added to what is left -/

theorem length_forward (c : Cursor) (n : Nat) : (c.forward n).rest.length = c.rest.length - n := by
  simp [forward]

theorem length_spanLine_le (p : Char → Bool) (c : Cursor) :
    (c.spanLine p).2.rest.length ≤ c.rest.length := by
  simp [spanLine, length_forward]

theorem length_skipBlanks_le (c : Cursor) : c.skipBlanks.rest.length ≤ c.rest.length :=
  length_spanLine_le _ c

theorem length_skipComment_le (c : Cursor) : c.skipComment.rest.length ≤ c.rest.length := by
  unfold skipComment
  split
  · exact length_spanLine_le _ c
  · exact Nat.le_refl _

theorem length_skipBreak_le (c : Cursor) : c.skipBreak.rest.length ≤ c.rest.length := by
  unfold skipBreak
  split
  · next h => simp only [h, List.length_cons]; omega
  · next h =>
    split
    · simp only [h, List.length_cons]; omega
    · exact Nat.le_refl _
  · exact Nat.le_refl _

theorem length_endLine?_le {c d : Cursor} (h : c.endLine? = some d) :
    d.rest.length ≤ c.rest.length := by
  have hle := Nat.le_trans (length_skipComment_le c.skipBlanks) (length_skipBlanks_le c)
  simp only [endLine?] at h
  split at h
  · cases h; exact hle
  · split at h
    · cases h; exact Nat.le_trans (length_skipBreak_le _) hle
    · cases h

end Cursor

end PrefixRanking.Yaml

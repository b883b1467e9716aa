import PrefixRanking.Yaml.Character

/-!
# Scalars in YAML text

Reading the characters of a scalar: plain, between quotes, or as a block.  Each reader goes over the
characters once; blanks and line breaks are held back as a `Gap` until it is known what follows them.
-/

namespace PrefixRanking.Yaml

/-- Blanks and line breaks between two parts of a scalar. -/
inductive Gap where
  /-- Blanks within a line. -/
  | blanks (held : List Char)
  /-- A first line break, which is nothing where it was escaped, and further ones.  Blanks beside line
  breaks do not count. -/
  | lines (first more : List Char)
deriving DecidableEq

namespace Gap

/-- No gap. -/
def none : Gap := .blanks []

/-- The gap with one more blank. -/
def addBlank (c : Char) : Gap → Gap
  | .blanks held => .blanks (held ++ [c])
  | .lines first more => .lines first more

/-- The gap with one more line break. -/
def addBreak (c : Char) : Gap → Gap
  | .blanks _ => .lines [c] []
  | .lines first more => .lines first (more ++ [c])

/-- Is there nothing in the gap? -/
def isNone : Gap → Bool
  | .blanks [] => true
  | _ => false

/-- Is there a line break in the gap? -/
def hasBreak : Gap → Bool
  | .blanks _ => false
  | .lines .. => true

/-- The characters a gap stands for: a single line break is folded to a space, and the first of several
to nothing. -/
def text : Gap → List Char
  | .blanks held => held
  | .lines ['\n'] [] => [' ']
  | .lines ['\n'] more => more
  | .lines first more => first ++ more

end Gap

/-! ## Plain scalars -/

/-- A plain scalar that was read. -/
structure Plain where
  text : List Char
  /-- The cursor behind the scalar and the gap after it. -/
  cursor : Cursor
  /-- Is there a line break in the gap after it? -/
  broken : Bool
deriving DecidableEq

/-- Is the character an indicator of flow collections? -/
def isFlowIndicator (c : Char) : Bool :=
  c = ',' || c = '[' || c = ']' || c = '{' || c = '}'

/-- May a colon not stand before this character in a flow collection? -/
def clashesWithColon : Option Char → Bool
  | some c => isFlowIndicator c || c = '?'
  | none => false

/-- Does a plain scalar end before this character? -/
def endsPlain (flow : Bool) (c : Char) (next : Option Char) : Bool :=
  (c = ':' && blankOrEnd next) || (flow && isFlowIndicator c)

/-- Does a plain scalar end before these characters of a further part of it: are they indented less than
it has to be, a document marker, or a comment? -/
def endsPart (flow : Bool) (indent : Nat) (pos : Position) (cs : List Char) : Bool :=
  (!flow && pos.column < indent) || (pos.column == 0 && startsDocumentMarker cs) ||
    cs.head? == some '#'

/-- Read a plain scalar that continues behind a gap.  There is no reading on at a tab that stands for
indentation, nor, in a flow collection, at a colon before an indicator. -/
def plainFrom (flow : Bool) (indent : Nat) (gap : Gap) (pos : Position) : List Char → Option Plain
  | [] => some ⟨[], ⟨[], pos⟩, gap.hasBreak⟩
  | '\r' :: '\n' :: rest => plainFrom flow indent (gap.addBreak '\n') (pos.newLine 2) rest
  | c :: rest =>
    if isBreak c then plainFrom flow indent (gap.addBreak (lineBreak c)) (pos.newLine c.utf8Size) rest
    else if isBlank c then
      if gap.hasBreak && pos.column < indent && c == '\t' then none
      else plainFrom flow indent (gap.addBlank c) (pos.next c) rest
    else if !gap.isNone && endsPart flow indent pos (c :: rest) then
      some ⟨[], ⟨c :: rest, pos⟩, gap.hasBreak⟩
    else if flow && c == ':' && clashesWithColon rest.head? then none
    else if endsPlain flow c rest.head? then some ⟨[], ⟨c :: rest, pos⟩, gap.hasBreak⟩
    else do
      let p ← plainFrom flow indent .none (pos.next c) rest
      return { p with text := gap.text ++ c :: p.text }

/-- What is left behind a plain scalar is no longer than what it was read from. -/
theorem plainFrom_le {flow : Bool} {indent : Nat} {gap : Gap} {pos : Position} {cs : List Char}
    {p : Plain} (h : plainFrom flow indent gap pos cs = some p) :
    p.cursor.rest.length ≤ cs.length := by
  fun_induction plainFrom flow indent gap pos cs generalizing p with
  | case1 => cases h; exact Nat.le_refl _
  | case2 gap pos rest ih => have := ih h; simp only [List.length_cons]; omega
  | case3 gap pos c rest _ _ ih => have := ih h; simp only [List.length_cons]; omega
  | case4 => cases h
  | case5 gap pos c rest _ _ _ _ ih => have := ih h; simp only [List.length_cons]; omega
  | case6 => cases h; exact Nat.le_refl _
  | case7 => cases h
  | case8 => cases h; exact Nat.le_refl _
  | case9 gap pos c rest _ _ _ _ _ _ ih =>
    obtain ⟨q, hq, hp⟩ := Option.bind_eq_some_iff.1 h
    cases hp
    have := ih hq
    simp only [List.length_cons]
    omega

/-! ## Scalars between quotes -/

/-- Where the reader of a quoted scalar is. -/
inductive QuotedState where
  /-- Behind a gap, or behind a character if the gap is none. -/
  | text (gap : Gap)
  /-- Behind a backslash. -/
  | escape
  /-- In front of the last digits of an escaped number. -/
  | digits (left value : Nat)
deriving DecidableEq

/-- The character that a backslash and a letter stand for. -/
def escaped? : Char → Option Char
  | '0' => some '\x00'
  | 'a' => some '\x07'
  | 'b' => some '\x08'
  | 't' | '\t' => some '\t'
  | 'n' => some '\n'
  | 'v' => some '\x0b'
  | 'f' => some '\x0c'
  | 'r' => some '\r'
  | 'e' => some '\x1b'
  | ' ' => some ' '
  | '\x22' => some '\x22'
  | '/' => some '/'
  | '\\' => some '\\'
  | 'N' => some '\u0085'
  | '_' => some '\u00a0'
  | 'L' => some '\u2028'
  | 'P' => some '\u2029'
  | _ => none

/-- The number of digits behind a backslash and a letter. -/
def escapedDigits? : Char → Option Nat
  | 'x' => some 2
  | 'u' => some 4
  | 'U' => some 8
  | _ => none

/-- The value of a hexadecimal digit. -/
def hexDigit? (c : Char) : Option Nat :=
  if c.isDigit then some (c.toNat - 48)
  else if 'a' ≤ c ∧ c ≤ 'f' then some (c.toNat - 87)
  else if 'A' ≤ c ∧ c ≤ 'F' then some (c.toNat - 55)
  else none

/-- The character of a number, if there is one. -/
def character? (n : Nat) : Option Char := if n.isValidChar then some (Char.ofNat n) else none

/-- Read up to the closing quote; `single` is for the simple quote, which is written twice inside and
knows no escapes. -/
def quotedFrom (single : Bool) :
    QuotedState → Position → List Char → Option (List Char × Cursor)
  | _, _, [] => none
  | .escape, pos, '\r' :: '\n' :: rest => quotedFrom single (.text (.lines [] [])) (pos.newLine 2) rest
  | .text gap, pos, '\r' :: '\n' :: rest =>
    quotedFrom single (.text (gap.addBreak '\n')) (pos.newLine 2) rest
  | .text gap, pos, '\'' :: '\'' :: rest => do
    if single then
      let (text, cursor) ← quotedFrom single (.text .none) ((pos.next '\'').next '\'') rest
      return (gap.text ++ '\'' :: text, cursor)
    else
      let (text, cursor) ← quotedFrom single (.text .none) (pos.next '\'') ('\'' :: rest)
      return (gap.text ++ '\'' :: text, cursor)
  | .text gap, pos, c :: rest =>
    if isBreak c then
      quotedFrom single (.text (gap.addBreak (lineBreak c))) (pos.newLine c.utf8Size) rest
    else if isBlank c then quotedFrom single (.text (gap.addBlank c)) (pos.next c) rest
    else if pos.column == 0 && startsDocumentMarker (c :: rest) then none
    else if c == (if single then '\'' else '\x22') then some (gap.text, ⟨rest, pos.next c⟩)
    else if !single && c == '\\' then do
      let (text, cursor) ← quotedFrom single .escape (pos.next c) rest
      return (gap.text ++ text, cursor)
    else do
      let (text, cursor) ← quotedFrom single (.text .none) (pos.next c) rest
      return (gap.text ++ c :: text, cursor)
  | .escape, pos, c :: rest =>
    if isBreak c then quotedFrom single (.text (.lines [] [])) (pos.newLine c.utf8Size) rest
    else match escapedDigits? c with
      | some n => quotedFrom single (.digits n 0) (pos.next c) rest
      | none => do
        let e ← escaped? c
        let (text, cursor) ← quotedFrom single (.text .none) (pos.next c) rest
        return (e :: text, cursor)
  | .digits left value, pos, c :: rest => do
    let d ← hexDigit? c
    let value := 16 * value + d
    if left ≤ 1 then
      let e ← character? value
      let (text, cursor) ← quotedFrom single (.text .none) (pos.next c) rest
      return (e :: text, cursor)
    else quotedFrom single (.digits (left - 1) value) (pos.next c) rest

/-- What is left behind a quoted scalar is no longer than what it was read from. -/
theorem quotedFrom_le {single : Bool} {q : QuotedState} {pos : Position} {cs text : List Char}
    {c : Cursor} (h : quotedFrom single q pos cs = some (text, c)) :
    c.rest.length ≤ cs.length := by
  fun_induction quotedFrom single q pos cs generalizing text c with
  | case1 | case8 => cases h
  | case2 _ _ ih | case3 _ _ _ ih => have := ih h; simp only [List.length_cons]; omega
  | case6 _ _ _ _ _ _ _ ih | case7 _ _ _ _ _ _ _ _ ih | case12 _ _ _ _ _ ih
  | case13 _ _ _ _ _ _ _ ih => exact Nat.le_succ_of_le (ih h)
  | case4 _ _ _ _ ih | case5 _ _ _ _ ih | case10 _ _ _ _ _ _ _ _ _ _ _ ih
  | case11 _ _ _ _ _ _ _ _ _ _ _ ih =>
    obtain ⟨⟨t, d⟩, hq, hp⟩ := Option.bind_eq_some_iff.1 h
    cases hp
    have := ih hq
    simp only [List.length_cons] at *
    omega
  | case9 => cases h; exact Nat.le_succ _
  | case14 _ _ _ _ _ _ ih =>
    obtain ⟨e, _, h⟩ := Option.bind_eq_some_iff.1 h
    obtain ⟨⟨t, d⟩, hq, hp⟩ := Option.bind_eq_some_iff.1 h
    cases hp
    exact Nat.le_succ_of_le (ih hq)
  | case15 left _ _ _ _ ihText ihDigits =>
    obtain ⟨digit, _, h⟩ := Option.bind_eq_some_iff.1 h
    by_cases hl : left ≤ 1
    · simp only [hl, ↓reduceIte] at h
      obtain ⟨e, _, h⟩ := Option.bind_eq_some_iff.1 h
      obtain ⟨⟨t, d⟩, hq, hp⟩ := Option.bind_eq_some_iff.1 h
      cases hp
      exact Nat.le_succ_of_le (ihText hq)
    · simp only [hl, ↓reduceIte] at h
      exact Nat.le_succ_of_le (ihDigits digit h)

/-! ## Block scalars -/

/-- What becomes of the line breaks at the end of a block scalar. -/
inductive Chomping where
  | strip
  | clip
  | keep
deriving DecidableEq

/-- The indicators of a block scalar: whether lines are folded, what becomes of the last line breaks,
and how many columns the text is indented, if that is written. -/
structure BlockHeader where
  folded : Bool
  chomping : Chomping
  increment : Option Nat
deriving DecidableEq

/-- Where the reader of a block scalar is. -/
inductive BlockState where
  /-- In the blanks before a line.  `column` is the widest indentation seen while none is fixed,
  `first` the break of the line before, `more` the breaks of empty lines since, and `blank` tells
  whether the line before started with a blank. -/
  | indentation (indent : Option Nat) (column : Nat) (first more : List Char) (blank : Bool)
  /-- In a line; `blank` tells whether it started with a blank. -/
  | line (indent : Nat) (blank : Bool)
deriving DecidableEq

/-- The breaks between two lines of a block scalar.  In a folded one a single break between two lines
that do not start with a blank becomes a space. -/
def joinLines (folded : Bool) (first more : List Char) (blankBefore blankAfter : Bool) : List Char :=
  if folded && first == ['\n'] && !blankBefore && !blankAfter then
    if more.isEmpty then [' '] else more
  else first ++ more

/-- The breaks that are left at the end of a block scalar. -/
def BlockHeader.ending (h : BlockHeader) (first more : List Char) : List Char :=
  match h.chomping with
  | .strip => []
  | .clip => first
  | .keep => first ++ more

/-- Read the lines of a block scalar.  Without an indentation fixed by the header, the widest
indentation up to the first line that is not empty counts, but `least` at least. -/
def blockFrom (h : BlockHeader) (least : Nat) :
    BlockState → Position → List Char → Option (List Char × Cursor)
  | .line _ _, pos, [] => some ([], ⟨[], pos⟩)
  | .indentation _ _ first more _, pos, [] => some (h.ending first more, ⟨[], pos⟩)
  | .line indent blank, pos, '\r' :: '\n' :: rest =>
    blockFrom h least (.indentation (some indent) 0 ['\n'] [] blank) (pos.newLine 2) rest
  | .line indent blank, pos, c :: rest =>
    if isBreak c then
      blockFrom h least (.indentation (some indent) 0 [lineBreak c] [] blank)
        (pos.newLine c.utf8Size) rest
    else do
      let (text, cursor) ← blockFrom h least (.line indent blank) (pos.next c) rest
      return (c :: text, cursor)
  | .indentation indent column first more blank, pos, '\r' :: '\n' :: rest =>
    blockFrom h least (.indentation indent (max column pos.column) first (more ++ ['\n']) blank)
      (pos.newLine 2) rest
  | .indentation indent column first more blank, pos, c :: rest =>
    let inside := match indent with
      | none => true
      | some n => decide (pos.column < n)
    if inside && c == ' ' then
      blockFrom h least (.indentation indent column first more blank) (pos.next c) rest
    else if inside && c == '\t' then none
    else if isBreak c then
      blockFrom h least
        (.indentation indent (max column pos.column) first (more ++ [lineBreak c]) blank)
        (pos.newLine c.utf8Size) rest
    else
      let n := indent.getD (max (max column pos.column) least)
      if pos.column = n then do
        let (text, cursor) ← blockFrom h least (.line n (isBlank c)) (pos.next c) rest
        return (joinLines h.folded first more blank (isBlank c) ++ c :: text, cursor)
      else some (h.ending first more, ⟨c :: rest, pos⟩)

/-- What is left behind the lines of a block scalar is no longer than what they were read from. -/
theorem blockFrom_le {h : BlockHeader} {least : Nat} {b : BlockState} {pos : Position}
    {cs text : List Char} {c : Cursor} (hb : blockFrom h least b pos cs = some (text, c)) :
    c.rest.length ≤ cs.length := by
  fun_induction blockFrom h least b pos cs generalizing text c with
  | case1 | case2 | case11 => cases hb; exact Nat.le_refl _
  | case3 _ _ _ _ ih | case6 _ _ _ _ _ _ _ ih =>
    have := ih hb; simp only [List.length_cons]; omega
  | case4 | case7 | case9 =>
    rename_i ih
    exact Nat.le_succ_of_le (ih hb)
  | case8 => cases hb
  | case5 | case10 =>
    rename_i ih
    obtain ⟨⟨t, d⟩, hq, hp⟩ := Option.bind_eq_some_iff.1 hb
    cases hp
    exact Nat.le_succ_of_le (ih hq)

/-- An indentation indicator: a digit from one to nine. -/
def indentDigit? (c : Char) : Option Nat :=
  if '1' ≤ c ∧ c ≤ '9' then some (c.toNat - 48) else none

/-- A chomping indicator. -/
def chomping? : Char → Option Chomping
  | '-' => some .strip
  | '+' => some .keep
  | _ => none

/-- An indentation indicator, if a digit stands there, and the cursor behind it. -/
def increment? (c : Cursor) : Option (Option Nat × Cursor) :=
  match c.rest with
  | [] => some (none, c)
  | d :: _ => if d.isDigit then (indentDigit? d).map fun n => (some n, c.forward 1) else some (none, c)

/-- A chomping indicator, if there is one, and the cursor behind it. -/
def chomping (c : Cursor) : Option Chomping × Cursor :=
  match c.rest.head?.bind chomping? with
  | some k => (some k, c.forward 1)
  | none => (none, c)

/-- The indicators behind the first one of a block scalar, in either order. -/
def blockHeader? (folded : Bool) (c : Cursor) : Option (BlockHeader × Cursor) :=
  match chomping c with
  | (some k, c) => do
    let (n, c) ← increment? c
    return (⟨folded, k, n⟩, c)
  | (none, c) => do
    let (n, c) ← increment? c
    match n with
    | none => return (⟨folded, .clip, none⟩, c)
    | some n =>
      let (k, c) := chomping c
      return (⟨folded, k.getD .clip, some n⟩, c)

theorem increment?_le {c d : Cursor} {n : Option Nat} (h : increment? c = some (n, d)) :
    d.rest.length ≤ c.rest.length := by
  unfold increment? at h
  split at h
  · cases h; exact Nat.le_refl _
  · split at h
    · obtain ⟨m, _, hm⟩ := Option.map_eq_some_iff.1 h
      cases hm
      simp [Cursor.length_forward]
    · cases h; exact Nat.le_refl _

theorem chomping_le (c : Cursor) : (chomping c).2.rest.length ≤ c.rest.length := by
  unfold chomping
  split <;> simp [Cursor.length_forward]

theorem blockHeader?_le {folded : Bool} {c d : Cursor} {h : BlockHeader}
    (hh : blockHeader? folded c = some (h, d)) : d.rest.length ≤ c.rest.length := by
  have hc := chomping_le c
  unfold blockHeader? at hh
  split at hh
  · next k c₁ heq =>
    rw [heq] at hc
    obtain ⟨⟨n, c₂⟩, h₂, hh⟩ := Option.bind_eq_some_iff.1 hh
    cases hh
    exact Nat.le_trans (increment?_le h₂) hc
  · next c₁ heq =>
    rw [heq] at hc
    obtain ⟨⟨n, c₂⟩, h₂, hh⟩ := Option.bind_eq_some_iff.1 hh
    have h₃ := Nat.le_trans (increment?_le h₂) hc
    cases n with
    | none => cases hh; exact h₃
    | some n => cases hh; exact Nat.le_trans (chomping_le c₂) h₃

/-- Read a block scalar, the cursor being behind its first indicator.  `parent` is the indentation of the
collection it is in. -/
def blockScalar? (folded : Bool) (parent : Option Nat) (c : Cursor) :
    Option (List Char × Cursor) := do
  let (h, c) ← blockHeader? folded c
  let c ← c.endLine?
  let indent := h.increment.map fun n => parent.getD 0 + n
  let least := match parent with
    | none => 1
    | some n => n + 1
  blockFrom h least (.indentation indent 0 [] [] false) c.pos c.rest

/-- What is left behind a block scalar is no longer than what it was read from. -/
theorem blockScalar?_le {folded : Bool} {parent : Option Nat} {c d : Cursor} {text : List Char}
    (h : blockScalar? folded parent c = some (text, d)) : d.rest.length ≤ c.rest.length := by
  obtain ⟨⟨header, c₁⟩, h₁, h⟩ := Option.bind_eq_some_iff.1 h
  obtain ⟨c₂, h₂, h⟩ := Option.bind_eq_some_iff.1 h
  exact Nat.le_trans (blockFrom_le h)
    (Nat.le_trans (Cursor.length_endLine?_le h₂) (blockHeader?_le h₁))

end PrefixRanking.Yaml

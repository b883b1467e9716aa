import PrefixRanking.Yaml.Token.Progress

/-!
# Dividing YAML text into tokens

Where the text stops being readable, the tokens before the first possible key are certain and the others
are not.  `Token.ofText` gives the certain tokens, and whether they are all there is.

A text is read in pieces.  A character that may not occur makes its piece unreadable, so nothing behind
the pieces before it is known.
-/

namespace PrefixRanking.Yaml

/-! ## The readable part of a text -/

/-- The octets of a piece of text; a piece holds as many whole characters as fit. -/
def pieceSize : Nat := 16384

/-- The number of characters before the first piece with one that may not occur, where `before` are known
to precede the current piece, `inside` are behind its start, and `room` octets are left in it. -/
def readableFrom (before inside room : Nat) : List Char → Nat
  | [] => before + inside
  | c :: cs =>
    if c.utf8Size ≤ room then
      if isAllowed c then readableFrom before (inside + 1) (room - c.utf8Size) cs else before
    else if isAllowed c then readableFrom (before + inside) 1 (pieceSize - c.utf8Size) cs
    else before + inside

/-- The characters before the first piece with one that may not occur. -/
def readable (cs : List Char) : List Char := cs.take (readableFrom 0 0 pieceSize cs)

namespace TokenState

/-- One token more of a text that is not known to its end: four characters from the token on have to be
readable, and one behind it. -/
def stepInside? (s : TokenState) : Option TokenState :=
  if s.toNext.cursor.rest.length < 4 then none
  else s.step?.filter fun t => !t.cursor.rest.isEmpty

/-- One token more; `whole` tells whether the text is known to its end. -/
def next? (whole : Bool) (s : TokenState) : Option TokenState :=
  if whole then s.step? else s.stepInside?

theorem next?_true (s : TokenState) : s.next? true = s.step? := rfl

theorem step?_of_next? {whole : Bool} {s t : TokenState} (h : s.next? whole = some t) :
    s.step? = some t := by
  cases whole with
  | true => exact h
  | false =>
    simp only [next?, Bool.false_eq_true, ↓reduceIte, stepInside?] at h
    split at h
    · cases h
    · exact (Option.filter_eq_some_iff.1 h).1

/-! ## All tokens -/

/-- The tokens from a state on, and whether they reach the end of the text. -/
def run (whole : Bool) (s : TokenState) : List Token × Bool :=
  match _ : s.next? whole with
  | none => ((s.tokens.drop (s.count - s.certain)).reverse, false)
  | some t => if _ : t.ended then (t.tokens.reverse, true) else run whole t
termination_by s.cursor.rest.length
decreasing_by
  next h ht => exact length_lt_of_step? (step?_of_next? h) (by simpa using ht)

theorem run_of_next?_none {whole : Bool} {s : TokenState} (h : s.next? whole = none) :
    s.run whole = ((s.tokens.drop (s.count - s.certain)).reverse, false) := by
  rw [run]; split
  · rfl
  · next h' => simp [h] at h'

theorem run_of_next? {whole : Bool} {s t : TokenState} (h : s.next? whole = some t)
    (ht : t.ended = false) : s.run whole = t.run whole := by
  rw [run]; split
  · next h' => simp [h] at h'
  · next h' => cases h.symm.trans h'; simp [ht]

theorem run_of_next?_ended {whole : Bool} {s t : TokenState} (h : s.next? whole = some t)
    (ht : t.ended = true) : s.run whole = (t.tokens.reverse, true) := by
  rw [run]; split
  · next h' => simp [h] at h'
  · next h' => cases h.symm.trans h'; simp [ht]

end TokenState

/-- The certain tokens of a text, and whether they are all of its tokens. -/
def Token.ofText (cs : List Char) : List Token × Bool :=
  if cs.all isAllowed then (TokenState.start cs).run true
  else (TokenState.start (readable cs)).run false

end PrefixRanking.Yaml

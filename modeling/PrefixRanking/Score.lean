/-!
# Scores

A score is a 32-bit signed integer, and a smaller score is preferred.  The largest value, `sentinel`,
marks what cannot be scored: it sorts last, and it stays last when the orientation is inverted.

* `Score.inverted` negates a score; the sentinel and the least value, which has no negation in range,
  become the sentinel.
* `Score.ofCount` turns a measurement into a score just below the sentinel at most.
* `Score.plus` adds with saturation, again just below the sentinel at most.
-/

namespace PrefixRanking

/-- A 32-bit signed integer; a smaller score is preferred. -/
structure Score where
  val : Int
  lower : -2147483648 ≤ val
  upper : val ≤ 2147483647
deriving DecidableEq

namespace Score

@[ext] theorem ext {a b : Score} (h : a.val = b.val) : a = b := by
  cases a; cases b; cases h; rfl

instance : LT Score := ⟨fun a b => a.val < b.val⟩
instance : LE Score := ⟨fun a b => a.val ≤ b.val⟩

instance (a b : Score) : Decidable (a < b) := inferInstanceAs (Decidable (a.val < b.val))
instance (a b : Score) : Decidable (a ≤ b) := inferInstanceAs (Decidable (a.val ≤ b.val))

theorem lt_def {a b : Score} : a < b ↔ a.val < b.val := Iff.rfl
theorem le_def {a b : Score} : a ≤ b ↔ a.val ≤ b.val := Iff.rfl

instance : Ord Score := ⟨fun a b => compare a.val b.val⟩

instance : Min Score := ⟨fun a b => if a ≤ b then a else b⟩

/-- The score nearest to an integer. -/
def clamp (n : Int) : Score := ⟨max (-2147483648) (min n 2147483647), by omega, by omega⟩

/-- The score of value zero. -/
def zero : Score := ⟨0, by omega, by omega⟩

/-- "Cannot be scored": the largest value, so it sorts last. -/
def sentinel : Score := ⟨2147483647, by omega, by omega⟩

/-- The largest score that is not the sentinel. -/
def greatest : Score := ⟨2147483646, by omega, by omega⟩

/-- Does this score mark what cannot be scored? -/
def isSentinel (s : Score) : Bool := s == sentinel

/-- The score under the opposite orientation.  The sentinel stays, and the least value, whose negation
is out of range, becomes the sentinel. -/
def inverted (s : Score) : Score :=
  if h : s.val = 2147483647 ∨ s.val = -2147483648 then sentinel
  else ⟨-s.val, by have := s.lower; have := s.upper; omega, by have := s.lower; have := s.upper; omega⟩

/-- The score of a measurement: the count itself, saturating just below the sentinel. -/
def ofCount (n : Nat) : Score :=
  ⟨min n 2147483646, by omega, by omega⟩

/-- The sum of two scores, saturating at the least value below and just below the sentinel above. -/
def plus (a b : Score) : Score :=
  ⟨max (-2147483648) (min (a.val + b.val) 2147483646), by omega, by omega⟩

/-- The saturating sum of a list, added up from its front. -/
def sum (l : List Score) : Score := l.foldl plus zero

/-! ## The values of the operations -/

@[simp] theorem val_sentinel : sentinel.val = 2147483647 := rfl
@[simp] theorem val_zero : zero.val = 0 := rfl
@[simp] theorem val_ofCount (n : Nat) : (ofCount n).val = min (n : Int) 2147483646 := rfl
@[simp] theorem val_plus (a b : Score) :
    (a.plus b).val = max (-2147483648) (min (a.val + b.val) 2147483646) := rfl

theorem isSentinel_iff {s : Score} : s.isSentinel = true ↔ s = sentinel := by
  simp [isSentinel]

theorem inverted_sentinel : sentinel.inverted = sentinel := rfl

/-- Away from the sentinel and the least value, inverting negates. -/
theorem val_inverted {s : Score} (hs : s.val ≠ 2147483647) (hm : s.val ≠ -2147483648) :
    s.inverted.val = -s.val := by
  simp [inverted, hs, hm]

/-- Inverting twice gives a score back, unless it is one of the two least values: the negation of
`-2147483647` is the sentinel, and stays it. -/
theorem inverted_inverted {s : Score} (h : -2147483647 < s.val) : s.inverted.inverted = s := by
  by_cases hs : s.val = 2147483647
  · have : s = sentinel := Score.ext hs
    subst this; rfl
  · have hu := s.upper
    have h1 : s.inverted.val = -s.val := val_inverted hs (by omega)
    have h2 : s.inverted.inverted.val = -s.inverted.val := val_inverted (by omega) (by omega)
    exact Score.ext (by omega)

/-- A measurement is never taken for what cannot be scored. -/
theorem ofCount_ne_sentinel (n : Nat) : ofCount n ≠ sentinel := by
  intro h
  have := congrArg val h
  simp at this
  omega

/-- A saturating sum is never the sentinel. -/
theorem plus_ne_sentinel (a b : Score) : a.plus b ≠ sentinel := by
  intro h
  have := congrArg val h
  simp at this
  omega

end Score

end PrefixRanking

import Mathlib.Data.List.Lex
import PrefixRanking.Score

/-!
# The order of scores

Scores are ordered as the integers they are.  Lists of scores then carry the lexicographic order, which
is the order of keys.
-/

namespace PrefixRanking.Score

theorem compareOfLessAndEq_val (a b : Score) :
    compareOfLessAndEq a.val b.val = compareOfLessAndEq a b := by
  simp only [compareOfLessAndEq, lt_def, Score.ext_iff]

/-- Scores are totally ordered by their values. -/
instance : LinearOrder Score where
  le_refl a := Int.le_refl a.val
  le_trans _ _ _ := Int.le_trans
  lt_iff_le_not_ge _ _ := Int.lt_iff_le_and_not_ge
  le_antisymm _ _ h h' := Score.ext (Int.le_antisymm h h')
  le_total a b := Int.le_total a.val b.val
  toDecidableLE a b := inferInstanceAs (Decidable (a ≤ b))
  toDecidableLT a b := inferInstanceAs (Decidable (a < b))
  compare_eq_compareOfLessAndEq := compareOfLessAndEq_val

end PrefixRanking.Score

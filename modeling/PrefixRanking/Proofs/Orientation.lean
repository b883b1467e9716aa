import PrefixRanking.Proofs.Keys

/-!
# The two orientations of a measure

A preference for the larger measurement inverts the score of the preference for the smaller one.  Inverting
negates, and the sentinel has to stay last, so two scores besides the sentinel are lost: the least one,
which has no negation in range, and the one above it, whose negation is the sentinel
(`Score.inverted_eq_sentinel_iff`).

* `score_max_of_score_min` -- the score under the larger measurement is the negated one, and exactly for
  `-2147483647` it cannot be told from the sentinel any more;
* `scorable_lost_by_orientation` -- a prefix with that score.
-/

namespace PrefixRanking

namespace Score

/-- Three scores are inverted to the sentinel. -/
theorem inverted_eq_sentinel_iff {s : Score} :
    s.inverted = sentinel ↔ s = sentinel ∨ s.val = -2147483648 ∨ s.val = -2147483647 := by
  by_cases hs : s.val = 2147483647
  · have hs' : s = sentinel := Score.ext hs
    simp [hs', inverted_sentinel]
  · have hs' : s ≠ sentinel := fun h => hs (by rw [h, val_sentinel])
    by_cases hl : s.val = -2147483648
    · simp [inverted, hl]
    · rw [Score.ext_iff, val_inverted hs hl, val_sentinel]
      simp only [hs', hl, false_or]
      omega

/-- Inverting twice gives a score back, but for the two least ones. -/
theorem inverted_inverted_eq_iff {s : Score} : s.inverted.inverted = s ↔ -2147483647 < s.val := by
  constructor
  · intro h
    by_contra hle
    have hl := s.lower
    have hsentinel : s.inverted = sentinel :=
      inverted_eq_sentinel_iff.mpr (.inr (by omega))
    rw [hsentinel, inverted_sentinel] at h
    rw [← h, val_sentinel] at hle
    omega
  · exact inverted_inverted

end Score

namespace Preference

variable (a : Analyses) (s t : Keystream) (x : Prefix)

/-- Under the larger measurement the score is the inverted one, also where there is none. -/
theorem scoreOn_max (m : Measure) :
    (Preference.by m .max).scoreOn a s x = ((Preference.by m .min).scoreOn a t x).inverted := by
  rw [scoreOn, scoreOn, score?, score?]
  cases m.score? a x <;> rfl

theorem scoreOn_loops :
    (Preference.by .loops .min).scoreOn a s x =
      if ((Preference.by .domain .min).scoreOn a t x).isSentinel then .sentinel else .zero := by
  rw [scoreOn, scoreOn, score?, score?, Measure.score?, Measure.score?]
  cases a.classification <;> rfl

end Preference

namespace Scorer

variable {a : Analyses} {h : Measure} {least greatest : Scorer}

/-- The scorer for the larger measurement inverts what the one for the smaller measurement gives, and
neither draws. -/
theorem run_score_max (hleast : make (.by h .min) = .ok least)
    (hgreatest : make (.by h .max) = .ok greatest) (x : Prefix) (s : Keystream) {m : Score}
    (hm : ((least.score a x).run s).1 = .ok m) : (greatest.score a x).run s = (.ok m.inverted, s) := by
  rw [run_score hleast] at hm
  rw [run_score hgreatest]
  simp only [Preference.score?] at hm ⊢
  cases hv : h.score? a x with
  | none => rw [hv] at hm; contradiction
  | some v =>
      rw [hv] at hm
      cases hm
      rfl

/-- **The orientation law, and where it ends**: a score `m` that is neither the sentinel nor the least value
has the score `-m` under the other orientation.  That is a score which is not the sentinel, and which
inverts back to `m`, exactly if `m` is not `-2147483647`. -/
theorem score_max_of_score_min (a : Analyses) (h : Measure) (x : Prefix) (s : Keystream)
    (hleast : make (.by h .min) = .ok least) (hgreatest : make (.by h .max) = .ok greatest)
    {m : Score} (hm : ((least.score a x).run s).1 = .ok m) (hs : m ≠ .sentinel)
    (hl : m.val ≠ -2147483648) :
    ∃ n, (greatest.score a x).run s = (.ok n, s) ∧ n.val = -m.val ∧
      (n ≠ .sentinel ↔ m.val ≠ -2147483647) ∧ (n.inverted = m ↔ m.val ≠ -2147483647) := by
  refine ⟨m.inverted, run_score_max hleast hgreatest x s hm, ?_, ?_, ?_⟩
  · exact Score.val_inverted (fun hv => hs (Score.ext hv)) hl
  · rw [ne_eq, Score.inverted_eq_sentinel_iff]
    simp only [hs, hl, false_or]
  · have hlow := m.lower
    rw [Score.inverted_inverted_eq_iff]
    omega

/-- The least score for which the law holds in full, as a sum of assignments that saturates. -/
theorem score_max_at_least_lawful :
    let a : Analyses := ⟨some ⟨fun _ _ => .zero, fun _ => .clamp (-1073741823), fun _ => .zero⟩, none⟩
    let x : Prefix := ⟨1, 1, 0, .ofList ["b", "a"]⟩
    let m : Score := ⟨-2147483646, by omega, by omega⟩
    ∃ least greatest, make (.by .assignments .min) = .ok least ∧
      make (.by .assignments .max) = .ok greatest ∧
      ((least.score a x).run (.ofSeed 0)).1 = .ok m ∧ m ≠ .sentinel ∧ m.val ≠ -2147483648 ∧
      ∃ n, (greatest.score a x).run (.ofSeed 0) = (.ok n, .ofSeed 0) ∧ n.val = -m.val ∧
        (n ≠ .sentinel ↔ m.val ≠ -2147483647) ∧ (n.inverted = m ↔ m.val ≠ -2147483647) := by
  intro a x m
  have hm : (((Scorer.mk (.by .assignments .min) (.measure .assignments)).score a x).run
      (.ofSeed 0)).1 = .ok m := by decide +kernel
  have hs : m ≠ .sentinel := by decide
  have hl : m.val ≠ -2147483648 := by decide
  exact ⟨_, _, rfl, rfl, hm, hs, hl,
    score_max_of_score_min a .assignments x (.ofSeed 0) rfl rfl hm hs hl⟩

/-- **A prefix that the other orientation loses**: its domain score is neither the sentinel nor the least
value, but under the larger measurement it has the sentinel for its score, which does not invert back. -/
theorem scorable_lost_by_orientation :
    let m : Score := ⟨-2147483647, by omega, by omega⟩
    let a : Analyses := ⟨some ⟨fun _ _ => m, fun _ => .zero, fun _ => .zero⟩, none⟩
    ∃ least greatest, make (.by .domain .min) = .ok least ∧ make (.by .domain .max) = .ok greatest ∧
      ((least.score a .empty).run (.ofSeed 0)).1 = .ok m ∧ m ≠ .sentinel ∧ m.val ≠ -2147483648 ∧
      ((greatest.score a .empty).run (.ofSeed 0)).1 = .ok .sentinel ∧
      Score.sentinel.inverted ≠ m :=
  ⟨_, _, rfl, rfl, rfl, by decide, by decide, rfl, by decide⟩

end Scorer

end PrefixRanking

import Mathlib.Algebra.Ring.Int.Defs
import PrefixRanking.Proofs.Session
import PrefixRanking.Proofs.Winner

/-!
# Strategies

Every strategy is a base, a measure or the random order, under some number of inversions
(`Strategy.exists_eq_invertedTimes`).  Inversions change the score and nothing else: whether a classification
is needed, how scoring fails and what is drawn are matters of the base
(`Strategy.run_score_invertedTimes`).

The score itself changes its sign with each inversion, for good (`Score.Reversible.val_iterate_inverted`),
or it is lost with the first one and stays the sentinel (`Score.iterate_inverted_eq_sentinel`).

The main statement is

* `strategies_score_as_their_base` -- when scoring fails, what it draws, and the score, at every depth.
-/

namespace PrefixRanking

/-! ## scores inverted over and over -/

namespace Score

/-- A reversible score changes its sign with each inversion. -/
theorem Reversible.val_iterate_inverted {v : Score} (h : v.Reversible) (n : Nat) :
    (Score.inverted^[n] v).val = (-1) ^ n * v.val := by
  -- the inversion done first leaves a reversible score, to which the rest applies
  induction n generalizing v with
  | zero => simp
  | succ n ih =>
      rw [Function.iterate_succ_apply, ih h.inverted, h.val_inverted, pow_succ, mul_assoc, neg_one_mul]

/-- Any other score is lost with the first inversion, and further ones do not bring it back. -/
theorem iterate_inverted_eq_sentinel {v : Score} (h : ¬ v.Reversible) {n : Nat} (hn : 1 ≤ n) :
    Score.inverted^[n] v = sentinel := by
  obtain ⟨m, rfl⟩ := Nat.exists_eq_add_of_le' hn
  rw [Function.iterate_succ_apply, inverted_eq_sentinel h]
  exact Function.iterate_fixed inverted_sentinel m

/-- The score `v` is what `n` inversions make of the score `raw`. -/
structure InvertedTimes (n : Nat) (raw v : Score) : Prop where
  unchanged : n = 0 → v = raw
  /-- Three scores are lost with the first inversion. -/
  lost : 1 ≤ n → raw = sentinel ∨ raw.val = -2147483648 ∨ raw.val = -2147483647 → v = sentinel
  /-- All others change their sign with each inversion. -/
  negated : 1 ≤ n → ¬ (raw = sentinel ∨ raw.val = -2147483648 ∨ raw.val = -2147483647) →
    v.val = (-1) ^ n * raw.val

/-- The three rules leave one score. -/
theorem invertedTimes_iff {n : Nat} {raw v : Score} :
    InvertedTimes n raw v ↔ v = Score.inverted^[n] raw := by
  constructor
  · intro h
    obtain rfl | hn := Nat.eq_zero_or_pos n
    · exact h.unchanged rfl
    · by_cases hr : raw.Reversible
      · apply Score.ext
        rw [h.negated hn fun hl => not_reversible_iff.mpr hl hr, hr.val_iterate_inverted]
      · rw [h.lost hn (not_reversible_iff.mp hr), iterate_inverted_eq_sentinel hr hn]
  · rintro rfl
    exact {
      unchanged := fun hn => by rw [hn]; rfl
      lost := fun hn hl => iterate_inverted_eq_sentinel (not_reversible_iff.mpr hl) hn
      negated := fun _ hl => Reversible.val_iterate_inverted (not_not.mp (mt not_reversible_iff.mp hl)) n }

example : Score.inverted^[3] (clamp (-2147483647)) = sentinel ∧
    Score.inverted^[3] (clamp (-2147483646)) = greatest := by decide

end Score

/-! ## bases under inversions -/

namespace Strategy

theorem mem_bases_iff {b : Strategy} : b ∈ bases ↔ (∃ m, b = measure m) ∨ b = random := by
  simp [bases, Measure.mem_all, eq_comm]

/-- Every strategy is a base under some number of inversions. -/
theorem exists_eq_invertedTimes (t : Strategy) : ∃ b ∈ bases, ∃ n, t = b.invertedTimes n := by
  induction t with
  | measure m => exact ⟨measure m, mem_bases_iff.mpr (.inl ⟨m, rfl⟩), 0, rfl⟩
  | random => exact ⟨random, mem_bases_iff.mpr (.inr rfl), 0, rfl⟩
  | inverted t ih =>
      obtain ⟨b, hb, n, rfl⟩ := ih
      exact ⟨b, hb, n + 1, rfl⟩

@[simp] theorem needsClassification_invertedTimes (t : Strategy) (n : Nat) :
    (t.invertedTimes n).needsClassification = t.needsClassification := by
  induction n with
  | zero => rfl
  | succ n ih => exact ih

section

variable {a : Analyses} {p : Preference} {x : Prefix} {b : Strategy}

/-- **Inversions change the score and nothing else.** -/
theorem run_score_invertedTimes (t : Strategy) (n : Nat) (s : Keystream) :
    ((t.invertedTimes n).score a p x).run s =
      (((t.score a p x).run s).1.map Score.inverted^[n], ((t.score a p x).run s).2) := by
  induction n with
  | zero =>
      rw [invertedTimes, Function.iterate_zero, Except.map_id]
      rfl
  | succ n ih =>
      -- the outermost inversion is the last one applied
      rw [invertedTimes, score, Drawing.run_map, ih]
      cases ((t.score a p x).run s).1 with
      | error e => rfl
      | ok v => simp only [Except.map, Function.iterate_succ_apply']

/-- A base that reads a classification fails without one, and draws nothing. -/
theorem run_score_of_missing (hb : b ∈ bases) (hc : a.hasClassification = false)
    (hn : b.needsClassification = true) (s : Keystream) :
    (b.score a p x).run s = (.error (.missingClassification p), s) := by
  obtain ⟨m, rfl⟩ | rfl := mem_bases_iff.mp hb
  · have hnone : m.score? a x = none := Measure.score?_eq_none_iff.mpr ⟨hn, hc⟩
    rw [score, hnone]
    rfl
  · contradiction

/-- Otherwise a base has a score, and only the random one draws. -/
theorem exists_run_score (hb : b ∈ bases)
    (h : ¬ (a.hasClassification = false ∧ b.needsClassification = true)) (s : Keystream) :
    ∃ raw, (b.score a p x).run s = (.ok raw, if b = random then s.tail else s) := by
  obtain ⟨m, rfl⟩ | rfl := mem_bases_iff.mp hb
  · cases hv : m.score? a x with
    | none => exact absurd (Measure.score?_eq_none_iff.mp hv).symm h
    | some v =>
        refine ⟨v, ?_⟩
        rw [score, hv]
        rfl
  · exact ⟨s.head, rfl⟩

end

end Strategy

/-! ## the main statement -/

namespace Scorer

/-- A scorer is made for the preference it is asked for, with a strategy that needs what the preference
needs. -/
theorem needsClassification_of_make {p : Preference} {sc : Scorer} (h : make p = .ok sc) :
    sc.preference = p ∧ sc.strategy.needsClassification = p.needsClassification := by
  rw [make] at h
  cases ht : Strategy.ofPreference? p with
  | none => rw [ht] at h; contradiction
  | some t =>
      rw [ht] at h
      cases h
      exact ⟨rfl, Strategy.needsClassification_ofPreference? ht⟩

/-- Does the scorer read a classification that is not there? -/
def LacksClassification (a : Analyses) (sc : Scorer) : Prop :=
  a.hasClassification = false ∧ sc.strategy.needsClassification = true

/-- What the scorer `sc`, whose strategy is the base `b` under `n` inversions, does with the prefix `x` on
the stream `s`. -/
structure ScoresAsBase (a : Analyses) (sc : Scorer) (b : Strategy) (n : Nat) (x : Prefix) (s : Keystream) :
    Prop where
  fails_iff : (∃ e, ((sc.score a x).run s).1 = .error e) ↔ sc.LacksClassification a
  /-- A failure names the scorer's own preference, and nothing is drawn. -/
  failure : sc.LacksClassification a →
    (sc.score a x).run s = (.error (.missingClassification sc.preference), s) ∧ (sc.score a x).Uses s []
  /-- Otherwise there is a score, and one draw is made for it if the base is random, and none if not. -/
  success : ¬ sc.LacksClassification a →
    ∃ v, (sc.score a x).run s = (.ok v, if b = .random then s.tail else s) ∧
      (sc.score a x).Uses s (if b = .random then [s.head] else [])
  /-- The score is that of the base, inverted so many times. -/
  score_iff : ∀ v t, (sc.score a x).run s = (.ok v, t) ↔
    ∃ raw, (b.score a sc.preference x).run s = (.ok raw, t) ∧ Score.InvertedTimes n raw v

section

variable {a : Analyses} {sc : Scorer} {b : Strategy} {n : Nat}
  (hsc : sc.strategy = b.invertedTimes n) (x : Prefix) (s : Keystream)

include hsc

theorem run_score_of_base :
    (sc.score a x).run s = (((b.score a sc.preference x).run s).1.map Score.inverted^[n],
      ((b.score a sc.preference x).run s).2) := by
  rw [score, hsc, Strategy.run_score_invertedTimes]

theorem lacksClassification_iff :
    sc.LacksClassification a ↔ a.hasClassification = false ∧ b.needsClassification = true := by
  rw [LacksClassification, hsc, Strategy.needsClassification_invertedTimes]

theorem run_score_of_lacks (hb : b ∈ Strategy.bases) (h : sc.LacksClassification a) :
    (sc.score a x).run s = (.error (.missingClassification sc.preference), s) := by
  obtain ⟨hc, hn⟩ := (lacksClassification_iff hsc).mp h
  rw [run_score_of_base hsc, Strategy.run_score_of_missing hb hc hn]
  rfl

theorem exists_run_score_of_not_lacks (hb : b ∈ Strategy.bases) (h : ¬ sc.LacksClassification a) :
    ∃ v, (sc.score a x).run s = (.ok v, if b = .random then s.tail else s) := by
  obtain ⟨raw, hraw⟩ := Strategy.exists_run_score (p := sc.preference) (x := x) hb
    (mt (lacksClassification_iff hsc).mpr h) s
  refine ⟨Score.inverted^[n] raw, ?_⟩
  rw [run_score_of_base hsc, hraw]
  rfl

theorem run_score_eq_ok_iff (v : Score) (t : Keystream) :
    (sc.score a x).run s = (.ok v, t) ↔
      ∃ raw, (b.score a sc.preference x).run s = (.ok raw, t) ∧ Score.InvertedTimes n raw v := by
  rw [run_score_of_base hsc]
  cases (b.score a sc.preference x).run s with
  | mk r s' =>
      cases r with
      | error e => simp [Except.map]
      | ok raw => simp [Except.map, Score.invertedTimes_iff, eq_comm, and_comm]

/-- Each part is known of the base, and inversions change the score only. -/
theorem scoresAsBase (hb : b ∈ Strategy.bases) : ScoresAsBase a sc b n x s where
  fails_iff := by
    constructor
    · rintro ⟨e, he⟩
      by_contra h
      obtain ⟨v, hv⟩ := exists_run_score_of_not_lacks hsc x s hb h
      rw [hv] at he
      contradiction
    · intro h
      exact ⟨_, by rw [run_score_of_lacks hsc x s hb h]⟩
  failure h := by
    have hrun := run_score_of_lacks hsc x s hb h
    exact ⟨hrun, (sc.orderly_score a x).uses_take (n := 0) (by rw [hrun]; rfl)⟩
  success h := by
    obtain ⟨v, hrun⟩ := exists_run_score_of_not_lacks hsc x s hb h
    refine ⟨v, hrun, ?_⟩
    by_cases hr : b = .random
    · rw [if_pos hr] at hrun ⊢
      exact (sc.orderly_score a x).uses_take (n := 1) (by rw [hrun]; rfl)
    · rw [if_neg hr] at hrun ⊢
      exact (sc.orderly_score a x).uses_take (n := 0) (by rw [hrun]; rfl)
  score_iff := run_score_eq_ok_iff hsc x s

end

end Scorer

/-- **Strategies score as their base**, however often it is inverted.  Scoring fails exactly if the strategy
needs a classification and there is none; otherwise it draws what the base draws, and the score of the base
is lost with the first inversion or changes its sign with each.  The strategy that a scorer is made with
needs a classification exactly if its preference does. -/
theorem strategies_score_as_their_base (a : Analyses) (sc : Scorer) (x : Prefix) (s : Keystream) :
    (∃ b ∈ Strategy.bases, ∃ n, sc.strategy = b.invertedTimes n) ∧
    (∀ b ∈ Strategy.bases, ∀ n, sc.strategy = b.invertedTimes n → sc.ScoresAsBase a b n x s) ∧
    ∀ p, Scorer.make p = .ok sc →
      sc.preference = p ∧ sc.strategy.needsClassification = p.needsClassification :=
  ⟨sc.strategy.exists_eq_invertedTimes, fun _ hb _ hsc => Scorer.scoresAsBase hsc x s hb,
    fun _ => Scorer.needsClassification_of_make⟩

end PrefixRanking

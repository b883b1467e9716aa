import Mathlib.Order.Bounds.Basic
import Mathlib.Order.MinMax
import PrefixRanking.Proofs.Selection

/-!
# Aggregate scores

The score of a batch is the least of the scores of its candidates (`run_aggregateScore_ok`), once there is a
classification and the preference has scores at all; before that it is the sentinel or an error, and
nothing is drawn.

The fold that keeps the least score and the walk that keeps the best candidate meet the same scores:
under a single preference each key is one score (`keysOn_single`).  The main statement is

* `aggregateScore_is_selected_score` -- the score of a batch in all cases, and the candidate that has it.
-/

namespace PrefixRanking

/-- The scores of a list of candidates under one preference, one after another on one stream. -/
def scoresOn (a : Analyses) (p : Preference) : List Prefix → Keystream → List Score
  | [], _ => []
  | x :: xs, s => p.scoreOn a s x :: scoresOn a p xs (s.drop p.draws)

variable {a : Analyses}

@[simp] theorem length_scoresOn (a : Analyses) (p : Preference) (xs : List Prefix) (s : Keystream) :
    (scoresOn a p xs s).length = xs.length := by
  induction xs generalizing s with
  | nil => rfl
  | cons x xs ih => simp [scoresOn, ih]

/-- The score of a candidate begins behind the draws of the candidates in front of it. -/
theorem getElem?_scoresOn (a : Analyses) (p : Preference) (xs : List Prefix) (s : Keystream) (j : Nat) :
    (scoresOn a p xs s)[j]? = xs[j]?.map (p.scoreOn a (s.drop (j * p.draws)) ·) := by
  induction xs generalizing s j with
  | nil => rfl
  | cons x xs ih =>
      cases j with
      | zero => simp [scoresOn]
      | succ j =>
          rw [scoresOn, List.getElem?_cons_succ, ih, List.getElem?_cons_succ, Keystream.drop_succ_mul]

/-- Random scores are the next draws, one for each candidate. -/
theorem scoresOn_random (a : Analyses) (xs : List Prefix) (s : Keystream) :
    scoresOn a .random xs s = s.take xs.length := by
  induction xs generalizing s with
  | nil => rfl
  | cons x xs ih => rw [scoresOn, ih]; rfl

/-- Scores that draw nothing are the same on every stream. -/
theorem scoresOn_eq_map {p : Preference} (hp : p ≠ .random) (xs : List Prefix) (s : Keystream) :
    scoresOn a p xs s = xs.map (p.scoreOn a s ·) := by
  induction xs with
  | nil => rfl
  | cons x xs ih =>
      rw [scoresOn, Preference.draws_eq_zero hp, Keystream.drop_zero, ih, List.map_cons]

/-- Under a single preference each key is one score. -/
theorem keysOn_single (a : Analyses) (p : Preference) (xs : List Prefix) (s : Keystream) :
    keysOn a [p] xs s = (scoresOn a p xs s).map ([·]) := by
  have hcount : [p].count .random = p.draws := by simpa using Preference.count_random_cons p []
  induction xs generalizing s with
  | nil => rfl
  | cons x xs ih => rw [keysOn, ih, hcount]; rfl

theorem run_each_score {p : Preference} {sc : Scorer} (h : Scorer.make p = .ok sc)
    (hp : p.Scorable a) (xs : List Prefix) (s : Keystream) :
    (Drawing.each (sc.score a) xs).run s = (.ok (scoresOn a p xs s), s.drop (xs.length * p.draws)) := by
  induction xs generalizing s with
  | nil => rw [List.length_nil, Nat.zero_mul]; rfl
  | cons x xs ih =>
      rw [Drawing.each, Drawing.bind_ok (Scorer.run_score_ok h hp x s), Drawing.bind_ok (ih _),
        Drawing.run_pure, Keystream.drop_succ_mul]
      rfl

/-- Without a classification every batch has the sentinel for its score. -/
theorem run_aggregateScore_unclassified (ha : a.hasClassification = false) (xs : List Prefix)
    (p : Preference) (s : Keystream) : (aggregateScore a xs p).run s = (.ok .sentinel, s) := by
  rw [aggregateScore, ha]
  rfl

theorem run_aggregateScore_none (ha : a.hasClassification = true) (xs : List Prefix)
    (s : Keystream) :
    (aggregateScore a xs .none).run s = (.error (.unsupportedPreference .none), s) := by
  rw [aggregateScore, if_pos ha]
  rfl

/-- With a classification a batch has the least score of its candidates. -/
theorem run_aggregateScore_ok (ha : a.hasClassification = true) {p : Preference} (hp : p ≠ .none)
    (xs : List Prefix) (s : Keystream) :
    (aggregateScore a xs p).run s =
      (.ok (leastScore (scoresOn a p xs s)), s.drop (xs.length * p.draws)) := by
  obtain ⟨sc, hsc⟩ := Scorer.make_ok hp
  have hrun := run_each_score hsc ⟨hp, fun _ => ha⟩ xs s
  rw [aggregateScore, if_pos ha, hsc]
  exact Drawing.bind_ok hrun

/-- With a classification, a batch under a preference that draws nothing. -/
theorem run_aggregateScore_fixed (ha : a.hasClassification = true) {p : Preference} (hn : p ≠ .none)
    (hp : p ≠ .random) (xs : List Prefix) (s : Keystream) :
    (aggregateScore a xs p).run s = (.ok (leastScore (xs.map (p.scoreOn a s ·))), s) := by
  rw [run_aggregateScore_ok ha hn, scoresOn_eq_map hp, Preference.draws_eq_zero hp, Nat.mul_zero,
    Keystream.drop_zero]

/-! ## the least score -/

/-- The fold keeps the least of its start and the scores so far. -/
theorem isLeast_foldl_min (ss : List Score) (v : Score) :
    IsLeast {w | w = v ∨ w ∈ ss} (ss.foldl min v) := by
  induction ss generalizing v with
  | nil => simp
  | cons u ss ih =>
      obtain ⟨hmem, hle⟩ := ih (min v u)
      have hmin : ss.foldl min (min v u) ≤ min v u := hle (.inl rfl)
      constructor
      · rw [List.foldl_cons]
        rcases hmem with heq | hmem
        · rcases min_choice v u with h | h
          · exact .inl (heq.trans h)
          · exact .inr (by rw [heq, h]; exact List.mem_cons_self)
        · exact .inr (List.mem_cons_of_mem u hmem)
      · rintro w (rfl | hw)
        · exact hmin.trans (min_le_left _ _)
        · cases hw with
          | head => exact hmin.trans (min_le_right _ _)
          | tail _ hw => exact hle (.inr hw)

theorem Score.le_sentinel (s : Score) : s ≤ .sentinel := s.upper

/-- The sentinel is the greatest score, so it counts only where there is no other. -/
theorem isLeast_leastScore {ss : List Score} (h : ss ≠ []) : IsLeast {w | w ∈ ss} (leastScore ss) := by
  obtain ⟨hmem, hle⟩ := isLeast_foldl_min ss .sentinel
  refine ⟨?_, fun w hw => hle (.inr hw)⟩
  rcases hmem with heq | hmem
  · obtain ⟨w, hw⟩ := List.exists_mem_of_ne_nil ss h
    have hsent : w = .sentinel :=
      le_antisymm w.le_sentinel (heq ▸ hle (.inr hw))
    rw [leastScore, heq, ← hsent]
    exact hw
  · exact hmem

/-- Keys of one score are compared by it. -/
theorem singleton_le_iff {v w : Score} : ([v] : Key) ≤ [w] ↔ v ≤ w := by
  rw [← not_lt, ← not_lt, not_iff_not, List.cons_lt_cons_iff]
  simp

/-- The key that leads under a single preference holds the least score. -/
theorem Best.Leads.key_eq_leastScore {b : Best} {ss : List Score}
    (hb : b.Leads (ss.map ([·]))) : ss[b.position]? = some (leastScore ss) := by
  have hat := hb.key_at
  rw [List.getElem?_map, Option.map_eq_some_iff] at hat
  obtain ⟨m, hm, hkey⟩ := hat
  have hmem : m ∈ ss := List.mem_of_getElem? hm
  have hleast : IsLeast {w | w ∈ ss} m := by
    refine ⟨hmem, fun w hw => ?_⟩
    have hle := hb.least [w] (List.mem_map_of_mem hw)
    rw [← hkey] at hle
    exact singleton_le_iff.mp hle
  rw [hm, hleast.unique (isLeast_leastScore (List.ne_nil_of_mem hmem))]

/-! ## the main statement -/

/-- The scores of the candidates under a preference, one after another: each is what the scorer gives on
the stream that the candidates in front of it leave. -/
structure ScoredInTurn (a : Analyses) (p : Preference) (xs : List Prefix) (s : Keystream)
    (scores : List Score) : Prop where
  rows : scores.length = xs.length
  score : ∀ j x v, xs[j]? = some x → scores[j]? = some v → ∃ sc, Scorer.make p = .ok sc ∧
    (sc.score a x).run (s.drop (j * p.draws)) = (.ok v, s.drop ((j + 1) * p.draws))
  drawn : p = .random → scores = s.take xs.length

theorem scoredInTurn_scoresOn {p : Preference} (hp : p.Scorable a) (xs : List Prefix) (s : Keystream) :
    ScoredInTurn a p xs s (scoresOn a p xs s) where
  rows := length_scoresOn a p xs s
  score j x v hx hv := by
    obtain ⟨sc, hsc⟩ := Scorer.make_ok hp.1
    rw [getElem?_scoresOn, hx, Option.map_some, Option.some.injEq] at hv
    refine ⟨sc, hsc, ?_⟩
    rw [Scorer.run_score_ok hsc hp, hv, ← Keystream.drop_add, Nat.succ_mul]
  drawn h := by rw [h, scoresOn_random]

/-- **The score of a batch is the score of the candidate that is selected from it**: the least score, under
the draws that a selection under the single preference makes, with the same stream behind them.  Without a
classification it is the sentinel, whatever is asked; then `none` is refused; and a batch without
candidates has the sentinel. -/
theorem aggregateScore_is_selected_score (s : Selector) (xs : List Prefix) (p : Preference) :
    let a := s.analyses
    let aggregate := s.run fun a => aggregateScore a xs p
    let t : Selector := { s with stream := s.stream.drop (xs.length * p.draws) }
    (a.hasClassification = false → aggregate = (.ok .sentinel, s)) ∧
    (a.hasClassification = true → p = .none →
      aggregate = (.error (.unsupportedPreference .none), s)) ∧
    (a.hasClassification = true → p ≠ .none → xs = [] → aggregate = (.ok .sentinel, s)) ∧
    (a.hasClassification = true → p ≠ .none → xs ≠ [] →
      ∃ scores m i, ScoredInTurn a p xs s.stream scores ∧ IsLeast {v | v ∈ scores} m ∧
        aggregate = (.ok m, t) ∧
        (s.run fun a => selectIndex a [p] xs) = (.ok i, t) ∧
        KeyTable a [p] xs s.stream (scores.map ([·])) ∧ scores[i]? = some m) := by
  intro a aggregate t
  refine ⟨?_, ?_, ?_, ?_⟩
  · intro ha
    rw [Selector.run_eq_iff]
    exact ⟨rfl, run_aggregateScore_unclassified ha xs p s.stream⟩
  · intro ha hp
    rw [Selector.run_eq_iff, hp]
    exact ⟨rfl, run_aggregateScore_none ha xs s.stream⟩
  · intro ha hp hxs
    rw [Selector.run_eq_iff, run_aggregateScore_ok ha hp, hxs, List.length_nil, Nat.zero_mul]
    exact ⟨rfl, rfl⟩
  · intro ha hp hxs
    have hs : p.Scorable a := ⟨hp, fun _ => ha⟩
    have hall : ∀ q ∈ [p], q.Scorable a := by simpa using hs
    obtain ⟨b, hb, hrun⟩ := run_selectIndex_ok hall hxs s.stream
    have hcount : [p].count .random = p.draws := by simpa using Preference.count_random_cons p []
    rw [keysOn_single] at hb
    rw [hcount] at hrun
    have hne : scoresOn a p xs s.stream ≠ [] := by
      rw [← List.length_pos_iff, length_scoresOn, List.length_pos_iff]
      exact hxs
    refine ⟨scoresOn a p xs s.stream, _, b.position, scoredInTurn_scoresOn hs xs s.stream,
      isLeast_leastScore hne, ?_, ?_, ?_, hb.key_eq_leastScore⟩
    · rw [Selector.run_eq_iff]
      exact ⟨rfl, run_aggregateScore_ok ha hp xs s.stream⟩
    · rw [Selector.run_eq_iff]
      exact ⟨rfl, hrun⟩
    · rw [← keysOn_single]
      exact keyTable_keysOn hall xs s.stream

end PrefixRanking

import Mathlib.Algebra.Ring.Nat
import PrefixRanking.Proofs.Aggregate
import PrefixRanking.Proofs.Selection
import PrefixRanking.Session

/-!
# The draws of a session

All questions of a session draw from one stream.  `Selector.UsesEach` lists the draws of each question, and
`Question.draws` counts them by what is asked and what is answered:

* every computation accounts for its draws (`Question.orderly_answer`);
* one question moves the stream by the count (`Selector.ask_stream`);
* a whole session takes an initial segment of the stream of its seed (`session_draws`).
-/

namespace PrefixRanking

open Drawing (orderly_pure orderly_fail orderly_draw orderly_each)

/-! ## every computation accounts for its draws -/

theorem Strategy.orderly_score (a : Analyses) (p : Preference) (x : Prefix) (t : Strategy) :
    (t.score a p x).Orderly := by
  induction t with
  | measure m =>
      rw [score]
      cases m.score? a x with
      | none => exact orderly_fail _
      | some v => exact orderly_pure v
  | random => exact orderly_draw
  | inverted t ih => exact ih.bind fun v => orderly_pure v.inverted

theorem Scorer.orderly_score (a : Analyses) (sc : Scorer) (x : Prefix) : (sc.score a x).Orderly :=
  sc.strategy.orderly_score a sc.preference x

theorem Scorer.orderly_compare (a : Analyses) (sc : Scorer) (x y : Prefix) :
    (sc.compare a x y).Orderly :=
  (sc.orderly_score a x).bind fun v => (sc.orderly_score a y).bind fun w =>
    orderly_pure (Ord.compare v w)

theorem Scorer.orderly_key (a : Analyses) (scs : List Scorer) (x : Prefix) : (key a scs x).Orderly :=
  orderly_each (fun sc => sc.orderly_score a x) scs

theorem orderly_bestFrom (a : Analyses) (scs : List Scorer) (best : Option Best) (i : Nat)
    (xs : List Prefix) : (bestFrom a scs best i xs).Orderly := by
  induction xs generalizing best i with
  | nil => exact orderly_pure best
  | cons x xs ih => exact (Scorer.orderly_key a scs x).bind fun k => ih _ (i + 1)

theorem orderly_selectIndex (a : Analyses) (ps : List Preference) (xs : List Prefix) :
    (selectIndex a ps xs).Orderly := by
  rw [selectIndex]
  cases Scorer.makeEach ps with
  | error e => exact orderly_fail e
  | ok scs =>
      cases xs with
      | nil => exact orderly_fail _
      | cons x xs =>
          refine (orderly_bestFrom a scs none 0 (x :: xs)).bind fun best => ?_
          cases best with
          | none => exact orderly_fail _
          | some b => exact orderly_pure b.position

theorem orderly_selectBest (a : Analyses) (ps : List Preference) (xs : List Prefix) :
    (selectBest a ps xs).Orderly := by
  refine (orderly_selectIndex a ps xs).bind fun i => ?_
  cases xs[i]? with
  | none => exact orderly_fail _
  | some x => exact orderly_pure x

theorem orderly_aggregateScore (a : Analyses) (xs : List Prefix) (p : Preference) :
    (aggregateScore a xs p).Orderly := by
  rw [aggregateScore]
  split
  · cases Scorer.make p with
    | error e => exact orderly_fail e
    | ok sc => exact (orderly_each (sc.orderly_score a) xs).bind fun vs => orderly_pure _
  · exact orderly_pure _

/-- Every answer accounts for its draws. -/
theorem Question.orderly_answer (a : Analyses) (q : Question) : (q.answer a).Orderly := by
  cases q with
  | index ps xs => exact (orderly_selectIndex a ps xs).bind fun i => orderly_pure _
  | best ps xs => exact (orderly_selectBest a ps xs).bind fun x => orderly_pure _
  | aggregate xs p => exact (orderly_aggregateScore a xs p).bind fun v => orderly_pure _
  | score p x =>
      rw [answer]
      cases Scorer.make p with
      | error e => exact orderly_fail e
      | ok sc => exact (sc.orderly_score a x).bind fun v => orderly_pure _
  | compare p x y =>
      rw [answer]
      cases Scorer.make p with
      | error e => exact orderly_fail e
      | ok sc => exact (sc.orderly_compare a x y).bind fun o => orderly_pure _

/-! ## the number of draws of one question -/

/-- The number of draws of a selection, by its answer: a row for each candidate, or what stands in front of
the entry that lacks a classification. -/
def selectionDraws {α : Type} (ps : List Preference) (xs : List Prefix) :
    Except SelectionError α → Nat
  | .ok _ => xs.length * ps.count .random
  | .error (.missingClassification p) => (ps.takeWhile (· ≠ p)).count .random
  | .error _ => 0

/-- The number of draws of a question, by its answer. -/
def Question.draws (a : Analyses) : Question → Except SelectionError Answer → Nat
  | score .random _, _ => 1
  | compare .random _ _, _ => 2
  | index ps xs, r | best ps xs, r => selectionDraws ps xs r
  | aggregate xs .random, _ => if a.hasClassification then xs.length else 0
  | _, _ => 0

@[simp] theorem selectionDraws_map {α β : Type} (f : α → β) (ps : List Preference) (xs : List Prefix)
    (r : Except SelectionError α) : selectionDraws ps xs (r.map f) = selectionDraws ps xs r := by
  cases r with
  | ok v => rfl
  | error e => cases e <;> rfl

section

variable (a : Analyses) (s : Keystream)

theorem selectIndex_stream (ps : List Preference) (xs : List Prefix) :
    ((selectIndex a ps xs).run s).2 =
      s.drop (selectionDraws ps xs ((selectIndex a ps xs).run s).1) := by
  obtain ⟨r, t, hrun, ho⟩ := selectIndex_outcome a ps xs s
  rw [hrun]
  cases ho with
  | unsupported _ => rfl
  | empty _ _ => rfl
  | @missing _ _ qs rs p he hq hp =>
      -- no entry in front of the first one without a score is the same preference
      have hne : ∀ q ∈ qs, decide (q ≠ p) = true := fun q hm =>
        decide_eq_true fun he => hp (he ▸ hq q hm)
      have htake : ps.takeWhile (· ≠ p) = qs := by
        rw [he, List.takeWhile_append_of_pos hne]
        simp
      rw [selectionDraws, htake]
  | selected _ _ _ => rfl

theorem selectBest_stream (ps : List Preference) (xs : List Prefix) :
    ((selectBest a ps xs).run s).2 =
      s.drop (selectionDraws ps xs ((selectBest a ps xs).run s).1) := by
  have hi := selectIndex_stream a s ps xs
  obtain ⟨e, t, hidx, hbest⟩ | ⟨i, x, t, _, hidx, hbest⟩ := run_selectBest a ps xs s
  · rw [hidx] at hi
    rw [hbest]
    cases e <;> exact hi
  · rw [hidx] at hi
    rw [hbest]
    exact hi

theorem aggregateScore_stream (xs : List Prefix) (p : Preference) (r : Except SelectionError Answer) :
    ((aggregateScore a xs p).run s).2 = s.drop ((Question.aggregate xs p).draws a r) := by
  cases ha : a.hasClassification with
  | false =>
      rw [run_aggregateScore_unclassified ha]
      cases p <;> simp [Question.draws, ha]
  | true =>
      by_cases hp : p = .none
      · rw [hp, run_aggregateScore_none ha]
        rfl
      · rw [run_aggregateScore_ok ha hp]
        cases p <;> simp [Question.draws, Preference.draws, ha]

theorem score_stream {p : Preference} {sc : Scorer} (h : Scorer.make p = .ok sc) (x : Prefix) :
    ((sc.score a x).run s).2 = s.drop p.draws := by
  by_cases hp : p.Scorable a
  · rw [Scorer.run_score_ok h hp]
  · rw [Scorer.run_score_error h hp]
    cases p with
    | «by» m o => rfl
    | random => exact absurd ⟨by simp, by simp [Preference.needsClassification]⟩ hp
    | none => cases h

theorem compare_stream {p : Preference} {sc : Scorer} (h : Scorer.make p = .ok sc) (x y : Prefix) :
    ((sc.compare a x y).run s).2 = s.drop (2 * p.draws) := by
  by_cases hp : p.Scorable a
  · rw [Scorer.compare, Drawing.bind_ok (Scorer.run_score_ok h hp x s),
      Drawing.bind_ok (Scorer.run_score_ok h hp y _), Drawing.run_pure, ← Keystream.drop_add,
      Nat.two_mul]
  · have hx := score_stream a s h x
    rw [Scorer.run_score_error h hp] at hx
    rw [Scorer.compare, Drawing.bind_error (Scorer.run_score_error h hp x s), Nat.two_mul,
      Keystream.drop_add, ← hx, ← hx]

/-- **One question**: the stream moves by the number of draws of its answer. -/
theorem Question.answer_stream (q : Question) :
    ((q.answer a).run s).2 = s.drop (q.draws a ((q.answer a).run s).1) := by
  cases q with
  | index ps xs =>
      rw [answer, Drawing.run_map, draws, selectionDraws_map]
      exact selectIndex_stream a s ps xs
  | best ps xs =>
      rw [answer, Drawing.run_map, draws, selectionDraws_map]
      exact selectBest_stream a s ps xs
  | aggregate xs p =>
      rw [answer, Drawing.run_map]
      exact aggregateScore_stream a s xs p _
  | score p x =>
      rw [answer]
      cases hsc : Scorer.make p with
      | error e => cases p with
        | «by» m o => rfl
        | random => cases hsc
        | none => rfl
      | ok sc =>
          rw [Drawing.run_map, score_stream a s hsc]
          cases p <;> rfl
  | compare p x y =>
      rw [answer]
      cases hsc : Scorer.make p with
      | error e => cases p with
        | «by» m o => rfl
        | random => cases hsc
        | none => rfl
      | ok sc =>
          rw [Drawing.run_map, compare_stream a s hsc]
          cases p <;> rfl

end

/-! ## scores and comparisons as answers -/

namespace Selector

variable {s : Selector} {p : Preference}

/-- Where there is a score, it is the answer. -/
theorem ask_score (hs : p.Scorable s.analyses) (x : Prefix) :
    s.ask (.score p x) = (.ok (.score (p.scoreOn s.analyses s.stream x)),
      { s with stream := s.stream.drop p.draws }) := by
  obtain ⟨sc, hsc⟩ := Scorer.make_ok hs.1
  have hrun := Scorer.run_score_ok hsc hs x s.stream
  rw [ask, run_eq_iff, Question.answer, hsc]
  exact ⟨rfl, Drawing.bind_ok hrun⟩

/-- A score that draws nothing leaves the selector as it is. -/
theorem ask_score_fixed (hp : p ≠ .random) (hs : p.Scorable s.analyses) (x : Prefix) :
    s.ask (.score p x) = (.ok (.score (p.scoreOn s.analyses s.stream x)), s) := by
  rw [ask_score hs, Preference.draws_eq_zero hp, Keystream.drop_zero]

/-- Two prefixes are compared by their scores. -/
theorem ask_compare_fixed (hp : p ≠ .random) (hs : p.Scorable s.analyses) (x y : Prefix) :
    s.ask (.compare p x y) =
      (.ok (.compare (Ord.compare (p.scoreOn s.analyses s.stream x)
        (p.scoreOn s.analyses s.stream y))), s) := by
  obtain ⟨sc, hsc⟩ := Scorer.make_ok hs.1
  have hrun := fun x => Scorer.run_score_ok hsc hs x s.stream
  rw [Preference.draws_eq_zero hp, Keystream.drop_zero] at hrun
  have hcompare : (sc.compare s.analyses x y).run s.stream =
      (.ok (Ord.compare (p.scoreOn s.analyses s.stream x) (p.scoreOn s.analyses s.stream y)),
        s.stream) := by
    rw [Scorer.compare, Drawing.bind_ok (hrun x), Drawing.bind_ok (hrun y), Drawing.run_pure]
  rw [ask, run_eq_iff, Question.answer, hsc]
  exact ⟨rfl, Drawing.bind_ok hcompare⟩

/-- An answer that is no error has a score behind it. -/
theorem scorable_of_ask_score {x : Prefix} {v : Answer} (h : (s.ask (.score p x)).1 = .ok v) :
    p.Scorable s.analyses := by
  by_contra hs
  rw [ask, run, Question.answer] at h
  cases hsc : Scorer.make p with
  | error e => rw [hsc] at h; contradiction
  | ok sc =>
      rw [hsc] at h
      dsimp only at h
      rw [Drawing.bind_error (Scorer.run_score_error hsc hs x s.stream)] at h
      contradiction

end Selector

/-! ## a whole session -/

namespace Selector

/-- The draws of a session, question by question. -/
inductive UsesEach : Selector → List Question → List (List Score) → Prop
  | nil (s : Selector) : UsesEach s [] []
  | cons {s : Selector} {q : Question} {qs : List Question} {ds : List Score}
      {rest : List (List Score)} (hq : (q.answer s.analyses).Uses s.stream ds)
      (hqs : UsesEach (s.ask q).2 qs rest) : UsesEach s (q :: qs) (ds :: rest)

/-- The numbers of draws of a session, question by question. -/
def counts (s : Selector) (qs : List Question) : List Nat :=
  List.zipWith (Question.draws s.analyses) qs (s.askEach qs).1

theorem ask_stream (s : Selector) (q : Question) :
    (s.ask q).2.stream = s.stream.drop (q.draws s.analyses (s.ask q).1) :=
  q.answer_stream s.analyses s.stream

theorem uses_ask (s : Selector) (q : Question) :
    (q.answer s.analyses).Uses s.stream (s.stream.take (q.draws s.analyses (s.ask q).1)) :=
  (q.orderly_answer s.analyses).uses_take (q.answer_stream s.analyses s.stream)

theorem counts_cons (s : Selector) (q : Question) (qs : List Question) :
    s.counts (q :: qs) = q.draws s.analyses (s.ask q).1 :: (s.ask q).2.counts qs := rfl

/-- A session of one question more: the draws of the first question, and behind them those of the rest. -/
theorem usesEach_iff (s : Selector) (qs : List Question) :
    ∃ dss, (∀ dss', s.UsesEach qs dss' ↔ dss' = dss) ∧ dss.map List.length = s.counts qs ∧
      dss.flatten = s.stream.take (s.counts qs).sum ∧
      (s.askEach qs).2 = { s with stream := s.stream.drop (s.counts qs).sum } := by
  induction qs generalizing s with
  | nil =>
      refine ⟨[], fun dss' => ⟨fun h => ?_, fun h => ?_⟩, rfl, rfl, rfl⟩
      · cases h; rfl
      · rw [h]; exact .nil s
  | cons q qs ih =>
      obtain ⟨rest, hiff, hlen, hflat, hend⟩ := ih (s.ask q).2
      rw [ask_stream] at hflat hend
      refine ⟨s.stream.take (q.draws s.analyses (s.ask q).1) :: rest,
        fun dss' => ⟨fun h => ?_, fun h => ?_⟩, ?_, ?_, ?_⟩
      · cases h with
        | cons hq hqs =>
            rw [(hiff _).mp hqs, hq.eq_take_of_drop (q.answer_stream s.analyses s.stream)]
            rfl
      · rw [h]
        exact .cons (s.uses_ask q) ((hiff rest).mpr rfl)
      · rw [counts_cons, List.map_cons, hlen, Keystream.length_take]
      · rw [counts_cons, List.flatten_cons, hflat, List.sum_cons, Keystream.take_add]
      · rw [counts_cons, List.sum_cons, Keystream.drop_add]
        exact hend

end Selector

/-- **A session takes an initial segment of its stream**: the draws of the questions, one after another, are
the first scores of the seed's stream, each question takes as many as its answer says, and each score lies
between `0` and `999`.  A comparison draws for its first prefix first, and a scorer kept from an earlier
moment computes what the question that names its preference computes. -/
theorem session_draws (a : Analyses) (seed : UInt64) (qs : List Question) :
    let s := Selector.ofSeed a seed
    let stream := Keystream.ofSeed seed
    (∃ dss, (∀ dss', s.UsesEach qs dss' ↔ dss' = dss) ∧
      dss.map List.length = List.zipWith (Question.draws a) qs (s.askEach qs).1 ∧
      dss.flatten = stream.take (dss.map List.length).sum ∧
      (∀ d ∈ dss.flatten, 0 ≤ d.val ∧ d.val < 1000) ∧
      (s.askEach qs).2 = ⟨a, stream.drop (dss.map List.length).sum⟩) ∧
    (∀ (t : Selector) (x y : Prefix), (t.ask (.compare .random x y)).1 =
      .ok (.compare (compare (t.stream.nth 0) (t.stream.nth 1)))) ∧
    ∀ p sc, Scorer.make p = .ok sc → ∀ x y,
      (Question.score p x).answer a = (do return .score (← sc.score a x)) ∧
      (Question.compare p x y).answer a = (do return .compare (← sc.compare a x y)) := by
  intro s stream
  obtain ⟨dss, hiff, hlen, hflat, hend⟩ := s.usesEach_iff qs
  refine ⟨⟨dss, hiff, hlen, ?_, ?_, ?_⟩, fun t x y => rfl, fun p sc hsc x y => ?_⟩
  · rw [hlen]
    exact hflat
  · intro d hd
    rw [hflat] at hd
    exact Keystream.mem_take_range hd
  · rw [hlen]
    exact hend
  · rw [Question.answer, Question.answer, hsc]
    exact ⟨rfl, rfl⟩

end PrefixRanking

import PrefixRanking.Proofs.Comparison

/-!
# Batches in two parts

The candidates of two batches are looked at one after another, so the second batch is ranked on the stream
that the first one leaves (`keysOn_append`, `scoresOn_append`).  The winner of both is the better one of
the two winners, and the front batch keeps a tie (`Best.Leads.append`); the least score of both is the
smaller one of the two least scores (`leastScore_append`).

The main statement is

* `batches_split` -- a selection and a score of a batch in two parts, whatever is drawn.
-/

namespace PrefixRanking

/-! ## keys and scores of two batches -/

section

variable {a : Analyses}

/-- The keys of the second batch begin behind the draws of the first one. -/
theorem keysOn_append (ps : List Preference) (xs ys : List Prefix) (s : Keystream) :
    keysOn a ps (xs ++ ys) s =
      keysOn a ps xs s ++ keysOn a ps ys (s.drop (xs.length * ps.count .random)) := by
  induction xs generalizing s with
  | nil => rw [List.length_nil, Nat.zero_mul, Keystream.drop_zero]; rfl
  | cons x xs ih =>
      rw [List.cons_append, keysOn, ih, Keystream.drop_succ_mul, keysOn, List.cons_append,
        List.length_cons]

/-- The scores of the second batch begin behind the draws of the first one. -/
theorem scoresOn_append (p : Preference) (xs ys : List Prefix) (s : Keystream) :
    scoresOn a p (xs ++ ys) s = scoresOn a p xs s ++ scoresOn a p ys (s.drop (xs.length * p.draws)) := by
  induction xs generalizing s with
  | nil => rw [List.length_nil, Nat.zero_mul, Keystream.drop_zero]; rfl
  | cons x xs ih =>
      rw [List.cons_append, scoresOn, ih, Keystream.drop_succ_mul, scoresOn, List.cons_append,
        List.length_cons]

/-- The draws of two batches are those of the first one and then those of the second. -/
theorem drop_length_append (s : Keystream) (xs ys : List Prefix) (n : Nat) :
    s.drop ((xs ++ ys).length * n) = (s.drop (xs.length * n)).drop (ys.length * n) := by
  rw [List.length_append, Nat.add_mul, Keystream.drop_add]

end

/-- The sentinel, where the fold begins, does not count beside any score. -/
theorem leastScore_append (ss ts : List Score) :
    leastScore (ss ++ ts) = min (leastScore ss) (leastScore ts) := by
  have hstart (v : Score) (us : List Score) : us.foldl min v = min v (leastScore us) := by
    induction us generalizing v with
    | nil => exact (min_eq_left v.le_sentinel).symm
    | cons u us ih =>
        rw [leastScore, List.foldl_cons, List.foldl_cons, ih, ih, min_eq_right u.le_sentinel, min_assoc]
  rw [leastScore, List.foldl_append, hstart]
  rfl

/-! ## selections and scores of two batches -/

/-- From these candidates the one at position `i` is selected, with key `k`, and the selector is left as
`t`. -/
structure Picks (s : Selector) (ps : List Preference) (xs : List Prefix) (i : Nat) (k : Key)
    (t : Selector) : Prop where
  run : s.run (fun a => selectIndex a ps xs) = (.ok i, t)
  key : ∃ keys, KeyTable s.analyses ps xs s.stream keys ∧ keys[i]? = some k

/-- A selection that succeeds picks the leader of the keys. -/
theorem exists_picks {s : Selector} {ps : List Preference} (hs : ∀ p ∈ ps, p.Scorable s.analyses)
    {xs : List Prefix} (hxs : xs ≠ []) :
    ∃ b : Best, b.Leads (keysOn s.analyses ps xs s.stream) ∧
      Picks s ps xs b.position b.key
        { s with stream := s.stream.drop (xs.length * ps.count .random) } := by
  obtain ⟨b, hb, hrun⟩ := run_selectIndex_ok hs hxs s.stream
  exact ⟨b, hb, Selector.run_eq_iff.mpr ⟨rfl, hrun⟩, _, keyTable_keysOn hs xs s.stream, hb.key_at⟩

/-- Two leaders of the same keys are the same. -/
theorem Best.Leads.unique {b c : Best} {keys : List Key} (hb : b.Leads keys) (hc : c.Leads keys) :
    b = c := by
  have hposition := hb.position_eq hc
  have hkey : some b.key = some c.key := by rw [← hb.key_at, ← hc.key_at, hposition]
  cases b
  cases c
  rw [Option.some.injEq] at hkey
  exact congrArg₂ Best.mk hposition hkey

/-- Selections from two batches, one after another, and the selection from both. -/
theorem exists_picks_append {s : Selector} {ps : List Preference} (hs : ∀ p ∈ ps, p.Scorable s.analyses)
    {xs ys : List Prefix} (hxs : xs ≠ []) (hys : ys ≠ []) :
    ∃ i k t j l u, Picks s ps xs i k t ∧ Picks t ps ys j l u ∧
      Picks s ps (xs ++ ys) (if k ≤ l then i else xs.length + j) (min k l) u := by
  let t : Selector := { s with stream := s.stream.drop (xs.length * ps.count .random) }
  obtain ⟨b, hb, hfront⟩ := exists_picks hs hxs
  obtain ⟨c, hc, hbehind⟩ := exists_picks (s := t) hs hys
  obtain ⟨d, hd, hboth⟩ := exists_picks hs (List.append_ne_nil_of_left_ne_nil hxs ys)
  -- the keys of both batches are led by the better one of the two leaders
  have hlead := hb.append hc
  rw [length_keysOn, ← keysOn_append] at hlead
  rw [drop_length_append, hd.unique hlead] at hboth
  refine ⟨_, _, t, _, _, _, hfront, hbehind, ?_⟩
  by_cases hle : b.key ≤ c.key
  · rw [Best.better, if_neg (not_lt.mpr hle)] at hboth
    rw [if_pos hle, min_eq_left hle]
    exact hboth
  · rw [Best.better, if_pos (not_le.mp hle)] at hboth
    rw [if_neg hle, min_eq_right (le_of_lt (not_le.mp hle))]
    exact hboth

/-- The scores of two batches, one after another, and the score of both. -/
theorem exists_aggregateScore_append {s : Selector} (ha : s.analyses.hasClassification = true)
    {p : Preference} (hp : p ≠ .none) (xs ys : List Prefix) :
    ∃ v t w u, s.run (fun a => aggregateScore a xs p) = (.ok v, t) ∧
      t.run (fun a => aggregateScore a ys p) = (.ok w, u) ∧
      s.run (fun a => aggregateScore a (xs ++ ys) p) = (.ok (min v w), u) := by
  have hrun := run_aggregateScore_ok ha hp
  let t : Selector := { s with stream := s.stream.drop (xs.length * p.draws) }
  let u : Selector := { s with stream := t.stream.drop (ys.length * p.draws) }
  refine ⟨_, t, _, u, Selector.run_eq_iff.mpr ⟨rfl, hrun xs s.stream⟩,
    Selector.run_eq_iff.mpr ⟨rfl, hrun ys t.stream⟩, ?_⟩
  rw [Selector.run_eq_iff, hrun, scoresOn_append, leastScore_append, drop_length_append]
  exact ⟨rfl, rfl⟩

/-! ## the main statement -/

/-- **A batch can be cut anywhere**: a selection from two batches is the selection from the first one,
unless the selection that follows from the second one has a strictly smaller key, and the score of two
batches is the smaller one of their scores, one after another.  The stream is left where the second part
leaves it. -/
theorem batches_split (s : Selector) :
    (∀ ps xs ys, (∀ p ∈ ps, s.Scores p) → xs ≠ [] → ys ≠ [] →
      ∃ i k t j l u, Picks s ps xs i k t ∧ Picks t ps ys j l u ∧
        Picks s ps (xs ++ ys) (if k ≤ l then i else xs.length + j) (min k l) u) ∧
    (s.analyses.hasClassification = true → ∀ p xs ys, p ≠ .none →
      ∃ v t w u, s.run (fun a => aggregateScore a xs p) = (.ok v, t) ∧
        t.run (fun a => aggregateScore a ys p) = (.ok w, u) ∧
        s.run (fun a => aggregateScore a (xs ++ ys) p) = (.ok (min v w), u)) := by
  refine ⟨fun ps xs ys h hxs hys => ?_, fun ha p xs ys hp => exists_aggregateScore_append ha hp xs ys⟩
  exact exists_picks_append (fun p hp => Selector.scores_iff.mp (h p hp)) hxs hys

/-- The first and the last candidate tie on the width, and the draw of the last one is the smaller one. -/
example :
    let s := Selector.ofSeed ⟨none, none⟩ 0
    let xs : List Prefix := [⟨1, 9, 0, .empty⟩, ⟨1, 4, 0, .empty⟩]
    let ys : List Prefix := [⟨2, 4, 0, .empty⟩, ⟨2, 9, 0, .empty⟩]
    (s.run fun a => selectIndex a [.by .width .max, .random] (xs ++ ys)).1 = .ok 3 := by
  decide +kernel

end PrefixRanking

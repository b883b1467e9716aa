import Mathlib.Algebra.Order.BigOperators.Group.List
import Mathlib.Algebra.Ring.Int.Defs
import Mathlib.Data.List.Perm.Subperm
import PrefixRanking.Proofs.Octets
import PrefixRanking.Proofs.Session
import PrefixRanking.Proofs.Winner

/-!
# Sums of counts

The score of a prefix under the assignments or the assumptions is the sum of the counts of its identifiers,
taken in ascending order of the identifiers and saturated at every step.  Once a partial sum saturates, what
follows is added to the bound, so the score need not be the saturated sum, and it depends on the order.

* Counts of one sign move the partial sums in one direction, so saturating once at the end gives the same
  (`Score.val_foldl_plus_of_same_sign`), in any order.
* Partial sums within the bounds are exact (`Score.val_foldl_plus_of_within`).

The main statement is

* `occurrences_add_up` -- the scores under the assignments and the assumptions, in either orientation.
-/

namespace PrefixRanking

/-! ## saturating sums -/

namespace Score

/-- The exact sum of a list of scores. -/
def total (l : List Score) : Int := (l.map val).sum

@[simp] theorem total_nil : total [] = 0 := rfl

@[simp] theorem total_cons (v : Score) (l : List Score) : total (v :: l) = v.val + total l := by
  simp [total]

theorem total_nonneg {l : List Score} (h : ∀ v ∈ l, 0 ≤ v.val) : 0 ≤ total l :=
  List.sum_nonneg (by simpa using h)

theorem total_nonpos {l : List Score} (h : ∀ v ∈ l, v.val ≤ 0) : total l ≤ 0 := by
  induction l with
  | nil => simp
  | cons v l ih =>
      have hv := h v (by simp)
      have hl := ih fun w hw => h w (by simp [hw])
      rw [total_cons]
      omega

theorem foldl_plus_ne_sentinel (l : List Score) {start : Score} (h : start ≠ sentinel) :
    l.foldl plus start ≠ sentinel := by
  induction l generalizing start with
  | nil => exact h
  | cons v l ih => exact ih (plus_ne_sentinel start v)

/-- **Scores of one sign are summed up as if saturated once**: the partial sums move in one direction, so
they do not come back from a bound. -/
theorem val_foldl_plus_of_same_sign {l : List Score} (start : Score) (hstart : start.val ≤ 2147483646)
    (h : (∀ v ∈ l, 0 ≤ v.val) ∨ ∀ v ∈ l, v.val ≤ 0) :
    (l.foldl plus start).val = max (-2147483648) (min (start.val + total l) 2147483646) := by
  induction l generalizing start with
  | nil =>
      have hlow := start.lower
      simp only [List.foldl_nil, total_nil]
      omega
  | cons v l ih =>
      have hsign : 0 ≤ v.val ∧ 0 ≤ total l ∨ v.val ≤ 0 ∧ total l ≤ 0 := by
        rcases h with h | h
        · exact .inl ⟨h v (by simp), total_nonneg fun w hw => h w (by simp [hw])⟩
        · exact .inr ⟨h v (by simp), total_nonpos fun w hw => h w (by simp [hw])⟩
      have hrest : (∀ w ∈ l, 0 ≤ w.val) ∨ ∀ w ∈ l, w.val ≤ 0 := by
        rcases h with h | h
        · exact .inl fun w hw => h w (by simp [hw])
        · exact .inr fun w hw => h w (by simp [hw])
      have hplus : (start.plus v).val ≤ 2147483646 := by rw [val_plus]; omega
      have hlow := start.lower
      rw [List.foldl_cons, ih _ hplus hrest, val_plus, total_cons]
      omega

/-- **Partial sums within the bounds are exact.** -/
theorem val_foldl_plus_of_within {l : List Score} (start : Score)
    (h : ∀ n, -2147483648 ≤ start.val + total (l.take n) ∧ start.val + total (l.take n) ≤ 2147483646) :
    (l.foldl plus start).val = start.val + total l := by
  induction l generalizing start with
  | nil => simp
  | cons v l ih =>
      have hfirst : (start.plus v).val = start.val + v.val := by
        have hone := h 1
        simp only [List.take_succ_cons, List.take_zero, total_cons, total_nil] at hone
        rw [val_plus]
        omega
      have hrest := ih (start.plus v) fun n => by
        have hn := h (n + 1)
        rw [List.take_succ_cons, total_cons] at hn
        rw [hfirst]
        omega
      rw [List.foldl_cons, hrest, hfirst, total_cons]
      omega

theorem val_sum_of_nonneg {l : List Score} (h : ∀ v ∈ l, 0 ≤ v.val) :
    (sum l).val = min (total l) 2147483646 := by
  have hpos := total_nonneg h
  have hsum := val_foldl_plus_of_same_sign zero (by decide) (.inl h)
  rw [val_zero] at hsum
  rw [sum, hsum]
  omega

theorem val_sum_of_nonpos {l : List Score} (h : ∀ v ∈ l, v.val ≤ 0) :
    (sum l).val = max (total l) (-2147483648) := by
  have hneg := total_nonpos h
  have hsum := val_foldl_plus_of_same_sign zero (by decide) (.inr h)
  rw [val_zero] at hsum
  rw [sum, hsum]
  omega

theorem val_sum_of_within {l : List Score}
    (h : ∀ n, -2147483648 ≤ total (l.take n) ∧ total (l.take n) ≤ 2147483646) :
    (sum l).val = total l := by
  have hsum := val_foldl_plus_of_within (l := l) zero (by simpa using h)
  rw [val_zero, Int.zero_add] at hsum
  exact hsum

/-- Scores that are not negative may be added up in any order. -/
theorem sum_perm {l k : List Score} (hp : l.Perm k) (h : ∀ v ∈ k, 0 ≤ v.val) : sum l = sum k := by
  have hl : ∀ v ∈ l, 0 ≤ v.val := fun v hv => h v (hp.mem_iff.mp hv)
  have htotal : total l = total k := (hp.map val).sum_eq
  apply Score.ext
  rw [val_sum_of_nonneg hl, val_sum_of_nonneg h, htotal]

/-- Adding scores that are not negative does not lower a sum. -/
theorem sum_le_of_subperm {l k : List Score} (hs : l.Subperm k) (h : ∀ v ∈ k, 0 ≤ v.val) :
    sum l ≤ sum k := by
  obtain ⟨j, hj, hsub⟩ := hs
  have hl : ∀ v ∈ l, 0 ≤ v.val := fun v hv => h v (hsub.subset (hj.mem_iff.mpr hv))
  have htotal : total l ≤ total k := by
    have hle : total j ≤ total k := (hsub.map val).sum_le_sum (by simpa using h)
    rwa [total, ← (hj.map val).sum_eq]
  rw [le_def, val_sum_of_nonneg hl, val_sum_of_nonneg h]
  omega

end Score

/-! ## identifiers -/

/-- The listing of a set of identifiers ascends in UTF-8 as well. -/
theorem Identifiers.octets_ascending (ids : Identifiers) :
    ids.toList.Pairwise fun i j => Text.octets i < Text.octets j :=
  ids.ascending.imp Text.octets_lt_iff.mpr

/-- The counts of a smaller set of identifiers are among those of a larger one. -/
theorem Identifiers.map_subperm {ids more : Identifiers} (h : ∀ id ∈ ids.toList, id ∈ more.toList)
    (count : String → Score) : (ids.toList.map count).Subperm (more.toList.map count) := by
  have hnodup : ids.toList.Nodup := ids.ascending.imp fun hlt => ne_of_lt hlt
  obtain ⟨l, hperm, hsub⟩ := List.subperm_of_subset hnodup h
  exact ⟨l.map count, hperm.map count, hsub.map count⟩

/-! ## the main statement -/

/-- The measures that add up counts of identifiers. -/
inductive Measure.AddsUp : Measure → (Classification → String → Score) → Prop
  | assignments : AddsUp .assignments Classification.assignedCount
  | assumptions : AddsUp .assumptions Classification.assumedCount

theorem Measure.AddsUp.scoreOn_min {m : Measure} {count : Classification → String → Score}
    (hm : m.AddsUp count) {a : Analyses} {c : Classification} (hc : a.classification = some c)
    (s : Keystream) (x : Prefix) :
    (Preference.by m .min).scoreOn a s x = .sum (x.identifiers.toList.map (count c)) := by
  cases hm with
  | assignments => simp [Preference.scoreOn, Preference.score?, Measure.score?, hc]
  | assumptions => simp [Preference.scoreOn, Preference.score?, Measure.score?, hc]

/-- What the score `v` of a prefix for few occurrences, and its score `w` for many, owe to the counts of its
identifiers. -/
structure AddedUp (s : Selector) (m : Measure) (count : String → Score) (x : Prefix) (v w : Score) :
    Prop where
  few : s.ask (.score (.by m .min) x) = (.ok (.score v), s)
  many : s.ask (.score (.by m .max) x) = (.ok (.score w), s)
  scored : v ≠ .sentinel
  /-- Counts that are not negative give their sum or the greatest score. -/
  nonneg : (∀ id ∈ x.identifiers.toList, 0 ≤ (count id).val) →
    v.val = min (Score.total (x.identifiers.toList.map count)) 2147483646 ∧ w.val = -v.val
  /-- They may be added up in any order. -/
  reordered : (∀ id ∈ x.identifiers.toList, 0 ≤ (count id).val) →
    ∀ ids : List String, ids.Perm x.identifiers.toList → Score.sum (ids.map count) = v
  /-- A prefix with fewer identifiers has no larger score. -/
  fewer : (∀ id ∈ x.identifiers.toList, 0 ≤ (count id).val) →
    ∀ y, (∀ id ∈ y.identifiers.toList, id ∈ x.identifiers.toList) →
      ∃ u, s.ask (.score (.by m .min) y) = (.ok (.score u), s) ∧ u ≤ v
  /-- Counts that are not positive give their sum or the least score. -/
  nonpos : (∀ id ∈ x.identifiers.toList, (count id).val ≤ 0) →
    v.val = max (Score.total (x.identifiers.toList.map count)) (-2147483648)
  /-- The identifiers are taken in the order of their octets. -/
  ascending : x.identifiers.toList.Pairwise fun i j => Text.octets i < Text.octets j
  /-- If no partial sum leaves the range, the sum is exact, whatever the signs are. -/
  within : (∀ n, -2147483648 ≤ Score.total ((x.identifiers.toList.take n).map count) ∧
      Score.total ((x.identifiers.toList.take n).map count) ≤ 2147483646) →
    v.val = Score.total (x.identifiers.toList.map count)

/-- **Occurrences add up**: the score under the assignments or the assumptions is never the sentinel.  It is
the sum of the counts, saturated at the end, if they have one sign, and the exact sum if no partial sum
leaves the range; and counts that are not negative may come in any order, with the negated score under the
other orientation. -/
theorem occurrences_add_up (s : Selector) {c : Classification} (hc : s.analyses.classification = some c)
    {m : Measure} {count : Classification → String → Score} (hm : m.AddsUp count) (x : Prefix) :
    ∃ v w, AddedUp s m (count c) x v w := by
  have hask (o : Orientation) :=
    Selector.ask_score_fixed (p := .by m o) (by simp) (scorable_of_classification hc m o)
  have hmin := hm.scoreOn_min hc s.stream
  have hmax := Preference.scoreOn_max s.analyses s.stream s.stream x m
  rw [hmin] at hmax
  have hne : Score.sum (x.identifiers.toList.map (count c)) ≠ .sentinel :=
    Score.foldl_plus_ne_sentinel _ (by decide)
  exact ⟨_, _, {
    few := hmin x ▸ hask .min x
    many := hmax ▸ hask .max x
    scored := hne
    nonneg := fun h => by
      have hval := Score.val_sum_of_nonneg (List.forall_mem_map.mpr h)
      have hpos := Score.total_nonneg (List.forall_mem_map.mpr h)
      exact ⟨hval, Score.val_inverted (fun he => hne (Score.ext he)) (by omega)⟩
    reordered := fun h ids hp => Score.sum_perm (hp.map _) (List.forall_mem_map.mpr h)
    fewer := fun h y hy => ⟨_, hmin y ▸ hask .min y,
      Score.sum_le_of_subperm (Identifiers.map_subperm hy _) (List.forall_mem_map.mpr h)⟩
    nonpos := fun h => Score.val_sum_of_nonpos (List.forall_mem_map.mpr h)
    ascending := x.identifiers.octets_ascending
    within := fun h => Score.val_sum_of_within fun n => by rw [← List.map_take]; exact h n }⟩

/-- A count is as large as the sentinel, and the sum goes past it. -/
theorem occurrences_add_up_past_sentinel :
    let c : Classification :=
      ⟨fun _ _ => .zero, fun _ => .zero, fun id => if id = "b" then .sentinel else .clamp 5⟩
    let s := Selector.ofSeed ⟨some c, none⟩ 0
    let x : Prefix := ⟨1, 1, 0, .ofList ["c", "b", "a"]⟩
    s.analyses.classification = some c ∧
      Measure.AddsUp .assumptions Classification.assumedCount ∧
      (∀ id ∈ x.identifiers.toList, 0 ≤ (c.assumedCount id).val) ∧
      ∃ v w, AddedUp s .assumptions c.assumedCount x v w ∧ v.val = 2147483646 ∧ w.val = -2147483646 := by
  intro c s x
  have hpos : ∀ id ∈ x.identifiers.toList, 0 ≤ (c.assumedCount id).val := by decide +kernel
  have htotal : Score.total (x.identifiers.toList.map c.assumedCount) = 2147483657 := by decide +kernel
  obtain ⟨v, w, h⟩ := occurrences_add_up s (c := c) rfl .assumptions x
  obtain ⟨hv, hw⟩ := h.nonneg hpos
  rw [htotal] at hv
  exact ⟨rfl, .assumptions, hpos, v, w, h, by omega, by omega⟩

end PrefixRanking

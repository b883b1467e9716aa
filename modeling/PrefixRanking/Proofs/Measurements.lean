import PrefixRanking.Proofs.Session
import PrefixRanking.Proofs.Winner

/-!
# Measurements

A measurement is a 64-bit number and its score a 32-bit one, so scores tell measurements apart only up to the
greatest score, 2147483646 (`capped`).  Larger measurements tie with it.  Where the smaller measurement is
preferred that does not matter as long as one of them is below the cap; where the larger one is preferred it
does not matter as long as none is above.

The main statement is

* `measurements_saturate` -- the scores, and the winners under both orientations.
-/

namespace PrefixRanking

/-! ## capped measurements -/

/-- A measurement, as far as scores tell measurements apart. -/
def capped (n : UInt64) : Nat := min n.toNat 2147483646

section

variable {n : Prefix → UInt64} {xs : List Prefix} (x : Prefix)

/-- If some measurement is below the cap, the least ones are, and there the cap changes nothing. -/
theorem capped_least_iff (h : ∃ z ∈ xs, (n z).toNat < 2147483646) :
    (∀ y ∈ xs, capped (n x) ≤ capped (n y)) ↔ ∀ y ∈ xs, n x ≤ n y := by
  obtain ⟨z, hz, hlt⟩ := h
  simp only [capped, UInt64.le_iff_toNat_le]
  constructor
  · intro hle y hy
    have hxz := hle z hz
    have hxy := hle y hy
    omega
  · intro hle y hy
    have hxy := hle y hy
    omega

/-- If no measurement is above the cap, the cap changes nothing. -/
theorem capped_greatest_iff (h : ∀ z ∈ xs, (n z).toNat ≤ 2147483646) :
    (∀ y ∈ xs, capped (n y) ≤ capped (n x)) ↔ ∀ y ∈ xs, n y ≤ n x := by
  simp only [capped, UInt64.le_iff_toNat_le]
  constructor
  · intro hle y hy
    have hcap := h y hy
    have hyx := hle y hy
    omega
  · intro hle y hy
    have hyx := hle y hy
    omega

/-- If some measurement is above the cap, all that reach it are alike. -/
theorem capped_greatest_iff_reaches (h : ∃ z ∈ xs, 2147483646 < (n z).toNat) :
    (∀ y ∈ xs, capped (n y) ≤ capped (n x)) ↔ 2147483646 ≤ (n x).toNat := by
  obtain ⟨z, hz, hlt⟩ := h
  simp only [capped]
  constructor
  · intro hle
    have hzx := hle z hz
    omega
  · intro hle y _
    omega

end

/-! ## scores of measurements -/

/-- The measures that read one of the measurements of a prefix. -/
inductive Measure.Reads : Measure → (Prefix → UInt64) → Prop
  | length : Reads .length Prefix.pathLength
  | width : Reads .width Prefix.nontrivialLength
  | pivot : Reads .pivot Prefix.pivotDepth

namespace Measure.Reads

variable {m : Measure} {n : Prefix → UInt64} (hm : m.Reads n) (a : Analyses) (s : Keystream)

include hm

/-- No classification is needed. -/
theorem scorable (o : Orientation) : (Preference.by m o).Scorable a := by
  refine ⟨nofun, fun h => ?_⟩
  cases hm <;> cases h

theorem scoreOn_min (x : Prefix) : (Preference.by m .min).scoreOn a s x = .ofCount (n x).toNat := by
  cases hm <;> rfl

theorem val_scoreOn_min (x : Prefix) : ((Preference.by m .min).scoreOn a s x).val = capped (n x) := by
  rw [hm.scoreOn_min, Score.val_ofCount, capped]
  omega

theorem val_scoreOn_max (x : Prefix) : ((Preference.by m .max).scoreOn a s x).val = -capped (n x) := by
  have hmin := hm.val_scoreOn_min a s x
  rw [Preference.scoreOn_max a s s x m, Score.val_inverted, hmin]
  · rw [hmin, capped]
    omega
  · rw [hmin]
    omega

theorem scoreOn_ne_sentinel (x : Prefix) (o : Orientation) :
    (Preference.by m o).scoreOn a s x ≠ .sentinel := by
  intro h
  have hval := congrArg Score.val h
  cases o with
  | min =>
      rw [hm.val_scoreOn_min, Score.val_sentinel, capped] at hval
      omega
  | max =>
      rw [hm.val_scoreOn_max, Score.val_sentinel] at hval
      omega

/-- For the smaller measurement the order of scores is that of the capped measurements. -/
theorem scoreOn_min_le_iff (x y : Prefix) :
    (Preference.by m .min).scoreOn a s x ≤ (Preference.by m .min).scoreOn a s y ↔
      capped (n x) ≤ capped (n y) := by
  rw [Score.le_def, hm.val_scoreOn_min, hm.val_scoreOn_min]
  omega

/-- For the larger measurement it is turned around. -/
theorem scoreOn_max_le_iff (x y : Prefix) :
    (Preference.by m .max).scoreOn a s x ≤ (Preference.by m .max).scoreOn a s y ↔
      capped (n y) ≤ capped (n x) := by
  rw [Score.le_def, hm.val_scoreOn_max, hm.val_scoreOn_max]
  omega

end Measure.Reads

/-! ## the main statement -/

/-- The candidates `i` and `j` win under a measure that reads the measurement `n`, the one for the smaller and
the other for the larger measurement. -/
structure Measured (s : Selector) (m : Measure) (n : Prefix → UInt64) (xs : List Prefix) (i j : Nat) :
    Prop where
  scored : ∀ x o, ∃ v, s.ask (.score (.by m o) x) = (.ok (.score v), s) ∧ v ≠ .sentinel
  smaller : s.run (fun a => selectIndex a [.by m .min] xs) = (.ok i, s)
  least : Earliest (fun x => ∀ y ∈ xs, capped (n x) ≤ capped (n y)) xs i
  trulyLeast : (∃ x ∈ xs, (n x).toNat < 2147483646) → Earliest (fun x => ∀ y ∈ xs, n x ≤ n y) xs i
  larger : s.run (fun a => selectIndex a [.by m .max] xs) = (.ok j, s)
  greatest : Earliest (fun x => ∀ y ∈ xs, capped (n y) ≤ capped (n x)) xs j
  trulyGreatest : (∀ x ∈ xs, (n x).toNat ≤ 2147483646) →
    Earliest (fun x => ∀ y ∈ xs, n y ≤ n x) xs j
  reaching : (∃ x ∈ xs, 2147483646 < (n x).toNat) →
    Earliest (fun x => 2147483646 ≤ (n x).toNat) xs j

/-- **Measurements saturate**: no measurement is taken for what cannot be scored, and the winner is the
earliest candidate with the least or the greatest capped measurement.  That is the truly least one if some
measurement is below the cap, and the truly greatest one if none is above; otherwise the earliest candidate
that reaches the cap wins. -/
theorem measurements_saturate (s : Selector) {m : Measure} {n : Prefix → UInt64} (hm : m.Reads n)
    {xs : List Prefix} (hxs : xs ≠ []) : ∃ i j, Measured s m n xs i j := by
  have hs := hm.scorable s.analyses
  obtain ⟨i, hrun, hleast⟩ := run_selectIndex_single (p := .by m .min) nofun (hs .min) hxs s.stream
  obtain ⟨j, hrun', hgreatest⟩ := run_selectIndex_single (p := .by m .max) nofun (hs .max) hxs s.stream
  simp only [hm.scoreOn_min_le_iff] at hleast
  simp only [hm.scoreOn_max_le_iff] at hgreatest
  exact ⟨i, j, {
    scored := fun x o => ⟨_, Selector.ask_score_fixed (p := .by m o) nofun (hs o) x, hm.scoreOn_ne_sentinel _ _ x o⟩
    smaller := Selector.run_eq_iff.mpr ⟨rfl, hrun⟩
    least := hleast
    trulyLeast := fun h => Earliest.congr hleast fun x _ => capped_least_iff x h
    larger := Selector.run_eq_iff.mpr ⟨rfl, hrun'⟩
    greatest := hgreatest
    trulyGreatest := fun h => Earliest.congr hgreatest fun x _ => capped_greatest_iff x h
    reaching := fun h => Earliest.congr hgreatest fun x _ => capped_greatest_iff_reaches x h }⟩

/-- The first width reaches the cap exactly, so it wins over the greatest number of 64 bits. -/
theorem measurements_saturate_at_cap :
    let s := Selector.ofSeed ⟨none, none⟩ 0
    let xs : List Prefix :=
      [⟨9, 2147483646, 0, .empty⟩, ⟨9, 18446744073709551615, 0, .empty⟩, ⟨9, 7, 0, .empty⟩]
    Measure.Reads .width Prefix.nontrivialLength ∧ xs ≠ [] ∧
      Measured s .width Prefix.nontrivialLength xs 2 0 := by
  intro s xs
  have hxs : xs ≠ [] := by decide
  have hsmaller : (s.run fun a => selectIndex a [.by .width .min] xs).1 = .ok 2 := by decide +kernel
  have hlarger : (s.run fun a => selectIndex a [.by .width .max] xs).1 = .ok 0 := by decide +kernel
  obtain ⟨i, j, h⟩ := measurements_saturate s .width hxs
  rw [h.smaller] at hsmaller
  rw [h.larger] at hlarger
  cases hsmaller
  cases hlarger
  exact ⟨.width, hxs, h⟩

end PrefixRanking

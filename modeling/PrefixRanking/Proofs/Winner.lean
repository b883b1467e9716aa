import PrefixRanking.Proofs.Aggregate
import PrefixRanking.Proofs.Orientation
import PrefixRanking.Proofs.TieBreaking

/-!
# Winners

Under a single preference that draws nothing the winner is the earliest candidate with the least score
(`run_selectIndex_single`), and under a list that begins with it the winner has the least score still
(`scoreOn_le_of_selectIndex`).

For the domain this is said of the weights of the prefixes.  A weight is `Reversible` if neither
orientation gives it the score of what cannot be scored; where the larger weight is preferred only these
count, and inverting turns their order around (`Score.inverted_le_inverted_iff`).  The main statement is

* `weighable_prefixes_first` -- the winner under either orientation of the domain, and what no list that
  begins with the domain or the loops selects.
-/

namespace PrefixRanking

/-! ## one preference -/

/-- The position of the earliest candidate with a property. -/
def Earliest (P : Prefix → Prop) (xs : List Prefix) (i : Nat) : Prop :=
  IsLeast {j | ∃ x, xs[j]? = some x ∧ P x} i

/-- Only the property of the candidates counts. -/
theorem Earliest.congr {P Q : Prefix → Prop} {xs : List Prefix} {i : Nat} (h : Earliest P xs i)
    (hiff : ∀ x ∈ xs, (P x ↔ Q x)) : Earliest Q xs i := by
  have hset : {j : Nat | ∃ x, xs[j]? = some x ∧ P x} = {j | ∃ x, xs[j]? = some x ∧ Q x} :=
    Set.ext fun j => exists_congr fun x => and_congr_right fun hx => hiff x (List.mem_of_getElem? hx)
  rwa [Earliest, hset] at h

/-- A property of all candidates is met by the first one. -/
theorem Earliest.eq_zero {P : Prefix → Prop} {xs : List Prefix} {i : Nat} (h : Earliest P xs i)
    (hall : ∀ x ∈ xs, P x) : i = 0 := by
  obtain ⟨⟨x, hx, -⟩, hleast⟩ := h
  cases xs with
  | nil => simp at hx
  | cons y ys => exact Nat.le_zero.mp (hleast ⟨y, rfl, hall y List.mem_cons_self⟩)

section

variable {a : Analyses} {p : Preference} {xs : List Prefix}

theorem fixedKey_single (hp : p ≠ .random) (x : Prefix) (s : Keystream) :
    fixedKey a [p] x = [p.scoreOn a s x] :=
  (keyOn_eq_fixedKey (by simpa using Ne.symm hp) x s).symm

/-- **Under a single preference the earliest candidate with the least score wins.** -/
theorem run_selectIndex_single (hp : p ≠ .random) (hs : p.Scorable a) (hxs : xs ≠ []) (s : Keystream) :
    ∃ i, (selectIndex a [p] xs).run s = (.ok i, s) ∧
      IsLeast {j | ∃ x, xs[j]? = some x ∧ ∀ y ∈ xs, p.scoreOn a s x ≤ p.scoreOn a s y} i := by
  have hall : ∀ q ∈ [p], q.Scorable a := by simpa using hs
  have hdraws : .random ∉ [p] := by simpa using Ne.symm hp
  obtain ⟨b, hb, hrun⟩ := run_selectIndex_ok hall hxs s
  rw [List.count_eq_zero.mpr hdraws, Nat.mul_zero, Keystream.drop_zero] at hrun
  rw [keysOn_eq_map hdraws] at hb
  refine ⟨b.position, hrun, ?_⟩
  have hleast := hb.isLeast
  simpa [fixedKey_single hp _ s, singleton_le_iff] using hleast

/-- **Under a list that begins with a preference the winner has the least score under it**, whatever the
rest of the list is. -/
theorem scoreOn_le_of_selectIndex {rest : List Preference} (hp : p ≠ .random) {s t : Keystream} {i : Nat}
    (h : (selectIndex a (p :: rest) xs).run s = (.ok i, t)) :
    p.Scorable a ∧ ∃ x, xs[i]? = some x ∧ ∀ y ∈ xs, p.scoreOn a s x ≤ p.scoreOn a s y := by
  obtain ⟨hs, b, hb, rfl⟩ := exists_leads_of_selectIndex h
  have hlt := position_lt_of_selectIndex h
  have hx : xs[b.position]? = some xs[b.position] := List.getElem?_eq_getElem hlt
  have hleast : ∀ y ∈ xs, fixedKey a [p] _ ≤ fixedKey a [p] y :=
    Best.Leads.least_fixedKey hb (by simpa using Ne.symm hp) hx
  refine ⟨hs p List.mem_cons_self, _, hx, fun y hy => ?_⟩
  have hle := hleast y hy
  rw [fixedKey_single hp _ s, fixedKey_single hp _ s] at hle
  exact singleton_le_iff.mp hle

end

/-! ## weights -/

/-- The weight of a prefix: the domain score of its identifiers. -/
def Classification.weight (c : Classification) (loops : Option LoopStructure) (x : Prefix) : Score :=
  c.domainScore x.identifiers loops

/-- Under neither orientation is the score that of what cannot be scored. -/
def Score.Reversible (v : Score) : Prop := v ≠ .sentinel ∧ -2147483647 < v.val

/-- What is not reversible is lost when it is inverted. -/
theorem Score.inverted_ne_sentinel_iff {v : Score} : v.inverted ≠ .sentinel ↔ v.Reversible := by
  have hl := v.lower
  rw [ne_eq, inverted_eq_sentinel_iff, Reversible, not_or]
  exact and_congr_right fun _ => by omega

theorem Score.inverted_eq_sentinel {v : Score} (h : ¬ v.Reversible) : v.inverted = .sentinel :=
  not_not.mp (mt inverted_ne_sentinel_iff.mp h)

theorem Score.Reversible.val_inverted {v : Score} (h : v.Reversible) : v.inverted.val = -v.val :=
  Score.val_inverted (fun hs => h.1 (Score.ext hs)) (by have := h.2; omega)

/-- What is not lost by inverting it is not lost by inverting it back. -/
theorem Score.Reversible.inverted {v : Score} (h : v.Reversible) : v.inverted.Reversible := by
  have hval := h.val_inverted
  have hne : v.val ≠ 2147483647 := fun hv => h.1 (Score.ext hv)
  have hup := v.upper
  exact ⟨inverted_ne_sentinel_iff.mpr h, by omega⟩

/-- Three scores are not reversible. -/
theorem Score.not_reversible_iff {v : Score} :
    ¬ v.Reversible ↔ v = .sentinel ∨ v.val = -2147483648 ∨ v.val = -2147483647 := by
  rw [← inverted_ne_sentinel_iff, not_not, inverted_eq_sentinel_iff]

/-- Inverting turns the order of the reversible scores around and puts all others behind them. -/
theorem Score.inverted_le_inverted_iff {v w : Score} (hw : w.Reversible) :
    v.inverted ≤ w.inverted ↔ v.Reversible ∧ w ≤ v := by
  by_cases hv : v.Reversible
  · rw [le_def, le_def, hv.val_inverted, hw.val_inverted]
    simp only [hv, true_and]
    omega
  · have hbehind : ¬ sentinel ≤ w.inverted := by
      have hl := hw.2
      rw [le_def, hw.val_inverted, val_sentinel]
      omega
    rw [inverted_eq_sentinel hv]
    simp only [hv, hbehind, false_and]

/-! ## weights under the preferences -/

namespace Preference

section

variable {a : Analyses} {c : Classification} (hc : a.classification = some c) (s : Keystream) (x : Prefix)

include hc

theorem scoreOn_domain_min : (Preference.by .domain .min).scoreOn a s x = c.weight a.loops x := by
  rw [scoreOn, score?, Measure.score?, hc, Option.map_some, Option.getD_some, Classification.weight]

theorem scoreOn_domain_max :
    (Preference.by .domain .max).scoreOn a s x = (c.weight a.loops x).inverted := by
  rw [scoreOn_max a s s x .domain, scoreOn_domain_min hc]

/-- Under the loops all prefixes that can be weighed are alike, under either orientation. -/
theorem scoreOn_loops_eq (o : Orientation) :
    (Preference.by .loops o).scoreOn a s x =
      if c.weight a.loops x = .sentinel then .sentinel else .zero := by
  have hmin : (Preference.by .loops .min).scoreOn a s x =
      if c.weight a.loops x = .sentinel then .sentinel else .zero := by
    simp only [scoreOn_loops a s s x, scoreOn_domain_min hc, Score.isSentinel_iff]
  cases o with
  | min => exact hmin
  | max => rw [scoreOn_max a s s x, hmin]; split <;> rfl

/-- Under the domain and the loops a prefix is scored if it can be weighed, under the larger weight if
moreover inverting does not lose its weight. -/
theorem scoreOn_ne_sentinel_iff {m : Measure} (hm : m = .domain ∨ m = .loops) (o : Orientation) :
    (Preference.by m o).scoreOn a s x ≠ .sentinel ↔
      c.weight a.loops x ≠ .sentinel ∧ (m = .domain ∧ o = .max → (c.weight a.loops x).Reversible) := by
  rcases hm with rfl | rfl
  · cases o with
    | min => simp [scoreOn_domain_min hc]
    | max =>
        rw [scoreOn_domain_max hc, Score.inverted_ne_sentinel_iff]
        exact ⟨fun h => ⟨h.1, fun _ => h⟩, fun h => h.2 ⟨rfl, rfl⟩⟩
  · have hzero : Score.zero ≠ .sentinel := by decide
    rw [scoreOn_loops_eq hc]
    split
    · next h => simp [h]
    · next h => simp [h, hzero]

end

end Preference

/-! ## the main statement -/

section

variable {a : Analyses} {c : Classification} (hc : a.classification = some c)

include hc

theorem hasClassification_of_eq_some : a.hasClassification = true := by
  rw [Analyses.hasClassification, hc, Option.isSome_some]

/-- With a classification there are scores under every measure. -/
theorem scorable_of_classification (m : Measure) (o : Orientation) :
    (Preference.by m o).Scorable a :=
  ⟨nofun, fun _ => hasClassification_of_eq_some hc⟩

/-- The smallest weight wins. -/
theorem run_selectIndex_domain_min {xs : List Prefix} (hxs : xs ≠ []) (s : Keystream) :
    ∃ i, (selectIndex a [.by .domain .min] xs).run s = (.ok i, s) ∧
      IsLeast {j | ∃ x, xs[j]? = some x ∧
        ∀ y ∈ xs, c.weight a.loops x ≤ c.weight a.loops y} i := by
  obtain ⟨i, hrun, hleast⟩ :=
    run_selectIndex_single (p := .by .domain .min) nofun (scorable_of_classification hc .domain .min) hxs s
  simp only [Preference.scoreOn_domain_min hc] at hleast
  exact ⟨i, hrun, hleast⟩

/-- The largest of the reversible weights wins, and without any the first candidate. -/
theorem run_selectIndex_domain_max {xs : List Prefix} (hxs : xs ≠ []) (s : Keystream) :
    ∃ i, (selectIndex a [.by .domain .max] xs).run s = (.ok i, s) ∧
      ((∃ y ∈ xs, (c.weight a.loops y).Reversible) →
        IsLeast {j | ∃ x, xs[j]? = some x ∧ (c.weight a.loops x).Reversible ∧
          ∀ y ∈ xs, (c.weight a.loops y).Reversible → c.weight a.loops y ≤ c.weight a.loops x} i) ∧
      ((∀ y ∈ xs, ¬ (c.weight a.loops y).Reversible) → i = 0) := by
  obtain ⟨i, hrun, hleast⟩ :=
    run_selectIndex_single (p := .by .domain .max) nofun (scorable_of_classification hc .domain .max) hxs s
  simp only [Preference.scoreOn_domain_max hc] at hleast
  refine ⟨i, hrun, fun ⟨z, hz, hzrev⟩ => ?_, fun hnone => ?_⟩
  · have hset : ∀ x, (∀ y ∈ xs, (c.weight a.loops x).inverted ≤ (c.weight a.loops y).inverted) ↔
        (c.weight a.loops x).Reversible ∧
          ∀ y ∈ xs, (c.weight a.loops y).Reversible → c.weight a.loops y ≤ c.weight a.loops x := by
      intro x
      constructor
      · intro h
        have hx := ((Score.inverted_le_inverted_iff hzrev).mp (h z hz)).1
        exact ⟨hx, fun y hy hyrev => ((Score.inverted_le_inverted_iff hyrev).mp (h y hy)).2⟩
      · intro ⟨hx, h⟩ y hy
        by_cases hyrev : (c.weight a.loops y).Reversible
        · exact (Score.inverted_le_inverted_iff hyrev).mpr ⟨hx, h y hy hyrev⟩
        · rw [Score.inverted_eq_sentinel hyrev]
          exact Score.le_sentinel _
    simpa only [hset] using hleast
  · have hall : ∀ y ∈ xs, (c.weight a.loops y).inverted = .sentinel := fun y hy =>
      Score.inverted_eq_sentinel (hnone y hy)
    refine Earliest.eq_zero hleast fun x _ y hy => ?_
    rw [hall y hy]
    exact Score.le_sentinel _

end

/-- **Prefixes that can be weighed come first.**  Under the smaller weight the earliest candidate with the
smallest weight wins; under the larger weight the earliest one with the largest reversible weight, and the
first candidate if no weight is reversible.  A list that begins with the domain or the loops, whatever
follows, selects no candidate that cannot be weighed while one is there that is scored. -/
theorem weighable_prefixes_first (s : Selector) (xs : List Prefix) :
    (∀ c, s.analyses.classification = some c → xs ≠ [] →
      let weight := c.weight s.analyses.loops
      (∃ i, s.run (fun a => selectIndex a [.by .domain .min] xs) = (.ok i, s) ∧
        IsLeast {j | ∃ x, xs[j]? = some x ∧ ∀ y ∈ xs, weight x ≤ weight y} i) ∧
      ∃ i, s.run (fun a => selectIndex a [.by .domain .max] xs) = (.ok i, s) ∧
        ((∃ y ∈ xs, (weight y).Reversible) →
          IsLeast {j | ∃ x, xs[j]? = some x ∧ (weight x).Reversible ∧
            ∀ y ∈ xs, (weight y).Reversible → weight y ≤ weight x} i) ∧
        ((∀ y ∈ xs, ¬ (weight y).Reversible) → i = 0)) ∧
    ∀ (m : Measure) (o : Orientation) (rest : List Preference) (i : Nat), m = .domain ∨ m = .loops →
      (s.run fun a => selectIndex a (.by m o :: rest) xs).1 = .ok i →
      ∃ c x, s.analyses.classification = some c ∧ xs[i]? = some x ∧
        let weight := c.weight s.analyses.loops
        ((∃ y ∈ xs, weight y ≠ .sentinel ∧ (m = .domain ∧ o = .max → (weight y).Reversible)) →
          weight x ≠ .sentinel) := by
  constructor
  · intro c hc hxs weight
    obtain ⟨i, hrun, hi⟩ := run_selectIndex_domain_min hc hxs s.stream
    obtain ⟨j, hrun', hj⟩ := run_selectIndex_domain_max hc hxs s.stream
    exact ⟨⟨i, Selector.run_eq_iff.mpr ⟨rfl, hrun⟩, hi⟩, j, Selector.run_eq_iff.mpr ⟨rfl, hrun'⟩, hj⟩
  · intro m o rest i hm h
    have hrun : (selectIndex s.analyses (.by m o :: rest) xs).run s.stream = (.ok i, _) :=
      Prod.ext h rfl
    obtain ⟨hs, x, hx, hle⟩ := scoreOn_le_of_selectIndex (p := .by m o) nofun hrun
    have hneeds : (Preference.by m o).needsClassification = true := by
      rcases hm with rfl | rfl <;> rfl
    obtain ⟨c, hc⟩ := Option.isSome_iff_exists.mp (hs.2 hneeds)
    refine ⟨c, x, hc, hx, fun ⟨y, hy, hscored⟩ => ?_⟩
    have hylt := (Preference.scoreOn_ne_sentinel_iff hc s.stream y hm o).mpr hscored
    have hxlt : (Preference.by m o).scoreOn s.analyses s.stream x ≠ .sentinel := fun heq =>
      hylt (le_antisymm (Score.le_sentinel _) (heq ▸ hle y hy))
    exact ((Preference.scoreOn_ne_sentinel_iff hc s.stream x hm o).mp hxlt).1

/-- The first prefix cannot be weighed, and inverting loses the weight of the second one. -/
example :
    let weight : Identifiers → Score := fun ids =>
      if ids = .empty then .sentinel else if ids = .ofList ["b"] then .clamp (-2147483647) else .clamp (-5)
    let s := Selector.ofSeed ⟨some ⟨fun ids _ => weight ids, fun _ => .zero, fun _ => .zero⟩, none⟩ 0
    let xs : List Prefix := [⟨1, 1, 0, .empty⟩, ⟨1, 1, 0, .ofList ["b"]⟩, ⟨1, 1, 0, .ofList ["c"]⟩]
    (s.run fun a => selectIndex a [.by .domain .max] xs).1 = .ok 2 ∧
      (s.run fun a => selectIndex a [.by .domain .min] xs).1 = .ok 1 := by
  decide +kernel

end PrefixRanking

import Mathlib.Data.List.Forall2
import PrefixRanking.Proofs.Winner

/-!
# The two orientations of the loops

Under the loops a prefix has the score zero, or the sentinel if it cannot be weighed, and inverting changes
neither.  So the two orientations give the same scores, and one may stand for the other in every list of
preferences; only the error that names the preference without a classification tells them apart.

* `Preference.Interchangeable` relates the two orientations, and each preference with itself;
* `run_selectIndex_interchangeable` -- selections under lists that are related entry by entry;
* `loops_orientations_interchangeable` -- the main statement.
-/

namespace PrefixRanking

/-! ## interchangeable preferences -/

namespace Preference

/-- The same preference, or the two orientations of the loops. -/
inductive Interchangeable : Preference → Preference → Prop
  | same (p : Preference) : Interchangeable p p
  | loops (o o' : Orientation) : Interchangeable (.by .loops o) (.by .loops o')

/-- Inverting does not change a score under the loops. -/
theorem scoreOn_loops_min (a : Analyses) (s : Keystream) (x : Prefix) (o : Orientation) :
    (Preference.by .loops o).scoreOn a s x = (Preference.by .loops .min).scoreOn a s x := by
  cases o with
  | min => rfl
  | max =>
      rw [scoreOn_max a s s x, scoreOn_loops a s s x]
      split <;> rfl

namespace Interchangeable

variable {p q : Preference} (h : p.Interchangeable q)

include h

theorem scoreOn_eq (a : Analyses) (s : Keystream) (x : Prefix) : p.scoreOn a s x = q.scoreOn a s x := by
  cases h with
  | same p => rfl
  | loops o o' => rw [scoreOn_loops_min a s x o, scoreOn_loops_min a s x o']

theorem draws_eq : p.draws = q.draws := by cases h <;> rfl

theorem none_eq_iff : .none = p ↔ .none = q := by cases h <;> simp

theorem scorable_iff (a : Analyses) : p.Scorable a ↔ q.Scorable a := by
  cases h with
  | same p => rfl
  | loops o o' => simp [Scorable, needsClassification]

end Interchangeable

end Preference

open Preference (Interchangeable)

/-! ## lists that are interchangeable entry by entry -/

section

variable {ps qs : List Preference} (h : List.Forall₂ Interchangeable ps qs)

include h

theorem none_mem_interchangeable : .none ∈ ps ↔ .none ∈ qs := by
  induction h with
  | nil => rfl
  | cons hpq _ ih => rw [List.mem_cons, List.mem_cons, hpq.none_eq_iff, ih]

theorem count_random_interchangeable : ps.count .random = qs.count .random := by
  induction h with
  | nil => rfl
  | cons hpq _ ih => rw [Preference.count_random_cons, Preference.count_random_cons, hpq.draws_eq, ih]

/-- The keys are the same. -/
theorem keyOn_interchangeable (a : Analyses) (x : Prefix) (s : Keystream) :
    keyOn a x ps s = keyOn a x qs s := by
  induction h generalizing s with
  | nil => rfl
  | cons hpq _ ih => rw [keyOn, keyOn, hpq.scoreOn_eq, hpq.draws_eq, ih]

theorem keysOn_interchangeable (a : Analyses) (xs : List Prefix) (s : Keystream) :
    keysOn a ps xs s = keysOn a qs xs s := by
  induction xs generalizing s with
  | nil => rfl
  | cons x xs ih => rw [keysOn, keysOn, keyOn_interchangeable h, count_random_interchangeable h, ih]

/-- The first entry without a score is at the same place in both lists. -/
theorem scorable_or_first_interchangeable (a : Analyses) :
    ((∀ p ∈ ps, p.Scorable a) ∧ ∀ q ∈ qs, q.Scorable a) ∨
      ∃ us vs p q rs ts, List.Forall₂ Interchangeable us vs ∧ Interchangeable p q ∧
        ps = us ++ p :: rs ∧ qs = vs ++ q :: ts ∧ (∀ u ∈ us, u.Scorable a) ∧ (∀ v ∈ vs, v.Scorable a) ∧
        ¬ p.Scorable a ∧ ¬ q.Scorable a := by
  induction h with
  | nil => exact .inl (by simp)
  | @cons p q ps qs hpq _ ih =>
      by_cases hp : p.Scorable a
      · have hq := (hpq.scorable_iff a).mp hp
        rcases ih with ⟨hps, hqs⟩ | ⟨us, vs, p', q', rs, ts, huv, hpq', rfl, rfl, hus, hvs, hp', hq'⟩
        · exact .inl ⟨by simpa using ⟨hp, hps⟩, by simpa using ⟨hq, hqs⟩⟩
        · exact .inr ⟨p :: us, q :: vs, p', q', rs, ts, .cons hpq huv, hpq', rfl, rfl,
            by simpa using ⟨hp, hus⟩, by simpa using ⟨hq, hvs⟩, hp', hq'⟩
      · exact .inr ⟨[], [], p, q, ps, qs, .nil, hpq, rfl, rfl, by simp, by simp, hp,
          fun hq => hp ((hpq.scorable_iff a).mpr hq)⟩

end

/-! ## selections and batches -/

/-- Results that are the same, or errors that name interchangeable preferences as the ones that lack a
classification. -/
inductive SameUpToLoops {α : Type} : Except SelectionError α → Except SelectionError α → Prop
  | same (r : Except SelectionError α) : SameUpToLoops r r
  | missing (o o' : Orientation) : SameUpToLoops (.error (.missingClassification (.by .loops o)))
      (.error (.missingClassification (.by .loops o')))

section

variable {a : Analyses}

/-- **Interchangeable entries are interchangeable in a selection.** -/
theorem run_selectIndex_interchangeable {ps qs : List Preference}
    (h : List.Forall₂ Interchangeable ps qs) (xs : List Prefix) (s : Keystream) :
    SameUpToLoops ((selectIndex a ps xs).run s).1 ((selectIndex a qs xs).run s).1 ∧
      ((selectIndex a ps xs).run s).2 = ((selectIndex a qs xs).run s).2 := by
  by_cases hps : .none ∈ ps
  · have hqs := (none_mem_interchangeable h).mp hps
    rw [run_selectIndex_unsupported hps, run_selectIndex_unsupported hqs]
    exact ⟨.same _, rfl⟩
  have hqs : .none ∉ qs := fun hq => hps ((none_mem_interchangeable h).mpr hq)
  by_cases hxs : xs = []
  · rw [hxs, run_selectIndex_empty hps, run_selectIndex_empty hqs]
    exact ⟨.same _, rfl⟩
  obtain ⟨hp, hq⟩ | ⟨us, vs, p, q, rs, ts, huv, hpq, rfl, rfl, hus, hvs, hp, hq⟩ :=
    scorable_or_first_interchangeable h a
  · obtain ⟨b, hb, hrun⟩ := run_selectIndex_ok hp hxs s
    obtain ⟨b', hb', hrun'⟩ := run_selectIndex_ok hq hxs s
    rw [keysOn_interchangeable h] at hb
    rw [hrun, hrun', hb.position_eq hb', count_random_interchangeable h]
    exact ⟨.same _, rfl⟩
  · rw [run_selectIndex_missing hps hus hp hxs, run_selectIndex_missing hqs hvs hq hxs,
      count_random_interchangeable huv]
    cases hpq with
    | same p => exact ⟨.same _, rfl⟩
    | loops o o' => exact ⟨.missing o o', rfl⟩

/-- A batch has the same score under either orientation of the loops. -/
theorem run_aggregateScore_loops (xs : List Prefix) (o : Orientation) (s : Keystream) :
    (aggregateScore a xs (.by .loops o)).run s = (aggregateScore a xs (.by .loops .min)).run s := by
  cases ha : a.hasClassification with
  | false => rw [run_aggregateScore_unclassified ha, run_aggregateScore_unclassified ha]
  | true =>
      have hrun (o : Orientation) := run_aggregateScore_fixed (p := .by .loops o) ha (by simp) (by simp) xs s
      rw [hrun o, hrun .min]
      simp only [Preference.scoreOn_loops_min a s _ o]

end

/-! ## weights -/

section

variable {a : Analyses} {c : Classification} (hc : a.classification = some c) {xs : List Prefix}
  (s : Keystream) (o : Orientation)

include hc

/-- If some prefix can be weighed, those have the least score. -/
theorem scoreOn_loops_least_iff (h : ∃ z ∈ xs, c.weight a.loops z ≠ .sentinel) (x : Prefix) :
    (∀ y ∈ xs, (Preference.by .loops o).scoreOn a s x ≤ (Preference.by .loops o).scoreOn a s y) ↔
      c.weight a.loops x ≠ .sentinel := by
  obtain ⟨z, hz, hzw⟩ := h
  simp only [Preference.scoreOn_loops_eq hc]
  constructor
  · intro hle hx
    have hxz := hle z hz
    rw [if_pos hx, if_neg hzw] at hxz
    exact absurd hxz (by decide)
  · intro hx y _
    rw [if_neg hx]
    split <;> decide

/-- If no prefix can be weighed, all have the sentinel. -/
theorem scoreOn_loops_of_forall (h : ∀ z ∈ xs, c.weight a.loops z = .sentinel) :
    ∀ y ∈ xs, (Preference.by .loops o).scoreOn a s y = .sentinel := by
  intro y hy
  rw [Preference.scoreOn_loops_eq hc, if_pos (h y hy)]

/-- The score of a batch tells whether some prefix in it can be weighed. -/
theorem run_aggregateScore_weight (hxs : xs ≠ []) :
    ∃ v, (aggregateScore a xs (.by .loops o)).run s = (.ok v, s) ∧
      ((∃ x ∈ xs, c.weight a.loops x ≠ .sentinel) → v = .zero) ∧
      ((∀ x ∈ xs, c.weight a.loops x = .sentinel) → v = .sentinel) := by
  have hrun := run_aggregateScore_fixed (p := .by .loops o) (hasClassification_of_eq_some hc) (by simp)
    (by simp) xs s
  have hne : xs.map ((Preference.by .loops o).scoreOn a s ·) ≠ [] := by simpa using hxs
  obtain ⟨hmem, hle⟩ := isLeast_leastScore hne
  obtain ⟨x, hx, hv⟩ := List.mem_map.mp hmem
  refine ⟨_, hrun, fun h => ?_, fun h => ?_⟩
  · have hxle : ∀ y ∈ xs, (Preference.by .loops o).scoreOn a s x ≤ (Preference.by .loops o).scoreOn a s y :=
      fun y hy => hv ▸ hle (List.mem_map.mpr ⟨y, hy, rfl⟩)
    rw [← hv, Preference.scoreOn_loops_eq hc, if_neg ((scoreOn_loops_least_iff hc s o h x).mp hxle)]
  · rw [← hv]
    exact scoreOn_loops_of_forall hc s o h x hx

/-- The earliest prefix that can be weighed is selected. -/
theorem run_selectIndex_weight (hxs : xs ≠ []) :
    ∃ i, (selectIndex a [.by .loops o] xs).run s = (.ok i, s) ∧
      ((∃ x ∈ xs, c.weight a.loops x ≠ .sentinel) →
        Earliest (fun x => c.weight a.loops x ≠ .sentinel) xs i) ∧
      ((∀ x ∈ xs, c.weight a.loops x = .sentinel) → i = 0) := by
  obtain ⟨i, hrun, hleast⟩ :=
    run_selectIndex_single (p := .by .loops o) nofun (scorable_of_classification hc .loops o) hxs s
  refine ⟨i, hrun, fun h => Earliest.congr hleast fun x _ => scoreOn_loops_least_iff hc s o h x,
    fun h => Earliest.eq_zero hleast fun x hx y hy => ?_⟩
  rw [scoreOn_loops_of_forall hc s o h x hx, scoreOn_loops_of_forall hc s o h y hy]

end

/-! ## the main statement -/

/-- **The orientation of the loops does not matter**: it may be changed anywhere in a list of preferences,
and a selection has the same outcome, except for the preference that is named if the classification is
missing.  Batches have the same score, zero if some candidate can be weighed, and the earliest such candidate
is selected. -/
theorem loops_orientations_interchangeable (s : Selector) :
    (∀ ps qs xs, List.Forall₂ Interchangeable ps qs →
      SameUpToLoops (s.run fun a => selectIndex a ps xs).1 (s.run fun a => selectIndex a qs xs).1 ∧
      (s.run fun a => selectIndex a ps xs).2 = (s.run fun a => selectIndex a qs xs).2) ∧
    (∀ xs, s.run (fun a => aggregateScore a xs (.by .loops .min)) =
      s.run fun a => aggregateScore a xs (.by .loops .max)) ∧
    ∀ c xs o, s.analyses.classification = some c → xs ≠ [] →
      let weight := c.weight s.analyses.loops
      (∃ v, s.run (fun a => aggregateScore a xs (.by .loops o)) = (.ok v, s) ∧
        ((∃ x ∈ xs, weight x ≠ .sentinel) → v = .zero) ∧
        ((∀ x ∈ xs, weight x = .sentinel) → v = .sentinel)) ∧
      ∃ i, s.run (fun a => selectIndex a [.by .loops o] xs) = (.ok i, s) ∧
        ((∃ x ∈ xs, weight x ≠ .sentinel) → Earliest (fun x => weight x ≠ .sentinel) xs i) ∧
        ((∀ x ∈ xs, weight x = .sentinel) → i = 0) := by
  refine ⟨fun ps qs xs h => ?_, fun xs => ?_, fun c xs o hc hxs => ?_⟩
  · obtain ⟨hanswer, hstream⟩ := run_selectIndex_interchangeable (a := s.analyses) h xs s.stream
    simp only [Selector.run]
    exact ⟨hanswer, by rw [hstream]⟩
  · simp only [Selector.run]
    rw [run_aggregateScore_loops xs .max]
  · obtain ⟨v, hbatch, hv⟩ := run_aggregateScore_weight hc s.stream o hxs
    obtain ⟨i, hselect, hi⟩ := run_selectIndex_weight hc s.stream o hxs
    exact ⟨⟨v, Selector.run_eq_iff.mpr ⟨rfl, hbatch⟩, hv⟩, i, Selector.run_eq_iff.mpr ⟨rfl, hselect⟩, hi⟩

end PrefixRanking

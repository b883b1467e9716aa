import PrefixRanking.Proofs.Session
import PrefixRanking.Proofs.TieBreaking

/-!
# Comparing prefixes

A scorer compares two prefixes by their scores, and the scorers of a list one after another: the first answer
that is not "equal" counts (`firstDifference`).  That is the lexicographic order of the keys
(`firstDifference_eq_lt_iff`, `isLE_firstDifference_iff`), so where nothing is drawn the selected candidate
can be told by comparing it with the others, those in front of it strictly (`Best.leads_map_iff`).

The main statement is

* `comparison_agrees_with_selection` -- comparing is a total preorder, and selecting goes by it.
-/

namespace PrefixRanking

/-! ## one answer from many -/

/-- The first answer that tells two prefixes apart; they are equal if none does. -/
def firstDifference (answers : List Ordering) : Ordering := (answers.find? (· ≠ .eq)).getD .eq

theorem firstDifference_cons (o : Ordering) (answers : List Ordering) :
    firstDifference (o :: answers) = o.then (firstDifference answers) := by
  cases o <;> simp [firstDifference]

section

variable {ι : Type} (ps : List ι) (f g : ι → Score)

/-- Comparing entry by entry is comparing lexicographically. -/
theorem firstDifference_eq_lt_iff :
    firstDifference (ps.map fun p => compare (f p) (g p)) = .lt ↔ ps.map f < ps.map g := by
  induction ps with
  | nil => simp [firstDifference]
  | cons p ps ih =>
      rw [List.map_cons, firstDifference_cons, Ordering.then_eq_lt, List.map_cons, List.map_cons,
        List.cons_lt_cons_iff, compare_lt_iff_lt, compare_eq_iff_eq, ih]

theorem firstDifference_swap :
    firstDifference (ps.map fun p => compare (g p) (f p)) =
      (firstDifference (ps.map fun p => compare (f p) (g p))).swap := by
  induction ps with
  | nil => rfl
  | cons p ps ih =>
      rw [List.map_cons, firstDifference_cons, ih, List.map_cons, firstDifference_cons,
        Ordering.swap_then, Std.OrientedOrd.eq_swap (a := g p)]

theorem isLE_firstDifference_iff :
    (firstDifference (ps.map fun p => compare (f p) (g p))).isLE ↔ ps.map f ≤ ps.map g := by
  rw [← not_lt, ← firstDifference_eq_lt_iff, firstDifference_swap ps f g]
  cases firstDifference (ps.map fun p => compare (f p) (g p)) <;> simp

end

/-! ## leaders by comparison -/

/-- A candidate leads if its key is below those in front of it and not above those behind it. -/
theorem Best.leads_map_iff {key : Prefix → Key} {xs : List Prefix} {i : Nat} {x : Prefix}
    (hx : xs[i]? = some x) :
    (Best.mk i (key x)).Leads (xs.map key) ↔
      (∀ j < i, ∀ y, xs[j]? = some y → key x < key y) ∧
        ∀ j > i, ∀ y, xs[j]? = some y → key x ≤ key y := by
  have hkey {j : Nat} {y : Prefix} (hy : xs[j]? = some y) : (xs.map key)[j]? = some (key y) := by
    rw [List.getElem?_map, hy, Option.map_some]
  constructor
  · intro h
    exact ⟨fun j hj y hy => h.earliest j hj _ (hkey hy),
      fun j _ y hy => h.least _ (List.mem_of_getElem? (hkey hy))⟩
  · intro ⟨hbefore, hbehind⟩
    refine ⟨hkey hx, fun k hk => ?_, fun j hj k hk => ?_⟩
    · obtain ⟨y, hy, rfl⟩ := List.mem_map.mp hk
      obtain ⟨j, hj⟩ := List.mem_iff_getElem?.mp hy
      rcases lt_trichotomy j i with hlt | rfl | hgt
      · exact le_of_lt (hbefore j hlt y hj)
      · rw [hx, Option.some.injEq] at hj
        rw [hj]
      · exact hbehind j hgt y hj
    · rw [List.getElem?_map, Option.map_eq_some_iff] at hk
      obtain ⟨y, hy, rfl⟩ := hk
      exact hbefore j hj y hy

section

variable {a : Analyses} {ps : List Preference}

/-- **Where nothing is drawn, the selected candidate leads, and no other one does.** -/
theorem run_selectIndex_fixed (hs : ∀ p ∈ ps, p.Scorable a) (h : .random ∉ ps) (xs : List Prefix)
    (s : Keystream) :
    ∃ r, (selectIndex a ps xs).run s = (r, s) ∧ ∀ i, r = .ok i ↔
      ∃ x, xs[i]? = some x ∧ (Best.mk i (fixedKey a ps x)).Leads (xs.map (fixedKey a ps)) := by
  cases xs with
  | nil => exact ⟨_, run_selectIndex_empty (fun hn => (hs .none hn).1 rfl) s, fun i => by simp⟩
  | cons x xs =>
      obtain ⟨b, hb, hrun⟩ := run_selectIndex_ok hs (List.cons_ne_nil x xs) s
      rw [keysOn_eq_map h] at hb
      rw [List.count_eq_zero.mpr h, Nat.mul_zero, Keystream.drop_zero] at hrun
      refine ⟨_, hrun, fun i => ?_⟩
      constructor
      · intro he
        cases he
        have hat := hb.key_at
        rw [List.getElem?_map, Option.map_eq_some_iff] at hat
        obtain ⟨y, hy, hkey⟩ := hat
        exact ⟨y, hy, hkey ▸ hb⟩
      · intro ⟨y, _, hy⟩
        rw [hb.position_eq hy]

/-- The key of a prefix holds its scores, on any stream. -/
theorem fixedKey_eq_map (h : .random ∉ ps) (x : Prefix) (s : Keystream) :
    fixedKey a ps x = ps.map (Preference.scoreOn a s x) := by
  refine List.map_congr_left fun p hp => ?_
  rw [Preference.scoreOn, Preference.score?_of_ne_random (fun he => h (he ▸ hp)) a s.head .zero x]

end

/-! ## the main statement -/

namespace Selector

/-- Scoring under a preference succeeds. -/
def Scores (s : Selector) (p : Preference) : Prop :=
  ∀ x, ∃ v t, s.ask (.score p x) = (.ok (.score v), t)

/-- It succeeds exactly if the preference is not `none` and the classification it needs is there. -/
theorem scores_iff {s : Selector} {p : Preference} : s.Scores p ↔ p.Scorable s.analyses := by
  constructor
  · intro h
    obtain ⟨v, t, hask⟩ := h .empty
    exact scorable_of_ask_score (congrArg Prod.fst hask)
  · exact fun h x => ⟨_, _, ask_score h x⟩

/-- Each entry of a list compares the prefixes by its own scores. -/
theorem askEach_compare {s : Selector} {ps : List Preference} (h : .random ∉ ps)
    (hs : ∀ p ∈ ps, p.Scorable s.analyses) (x y : Prefix) :
    s.askEach (ps.map fun p => .compare p x y) =
      (ps.map fun p => .ok (.compare (Ord.compare (p.scoreOn s.analyses s.stream x)
        (p.scoreOn s.analyses s.stream y))), s) := by
  induction ps with
  | nil => rfl
  | cons p ps ih =>
      rw [List.mem_cons, not_or] at h
      have hfirst := ask_compare_fixed (Ne.symm h.1) (hs p List.mem_cons_self) x y
      have hrest := ih h.2 fun q hq => hs q (List.mem_cons_of_mem p hq)
      rw [List.map_cons, askEach, hfirst]
      dsimp only
      rw [hrest, List.map_cons]

end Selector

/-- **Comparing agrees with selecting.**  Where a preference other than the random one has scores, comparing
under it is a total preorder.  Where a list has scores and draws nothing, let two candidates be compared by
the first answer of its entries that tells them apart: a candidate is selected exactly if it comes strictly
before those in front of it and not behind those that follow. -/
theorem comparison_agrees_with_selection (s : Selector) :
    (∀ p, p ≠ .random → s.Scores p → ∃ cmp : Prefix → Prefix → Ordering,
      (∀ x y, s.ask (.compare p x y) = (.ok (.compare (cmp x y)), s)) ∧
      (∀ x, cmp x x = .eq) ∧ (∀ x y, cmp y x = (cmp x y).swap) ∧
      ∀ x y z, (cmp x y).isLE → (cmp y z).isLE → (cmp x z).isLE) ∧
    ∀ ps, .random ∉ ps → (∀ p ∈ ps, s.Scores p) → ∃ answers : Prefix → Prefix → List Ordering,
      (∀ x y, s.askEach (ps.map fun p => .compare p x y) =
        ((answers x y).map fun o => .ok (.compare o), s)) ∧
      ∀ xs, ∃ r, s.run (fun a => selectIndex a ps xs) = (r, s) ∧ ∀ i, r = .ok i ↔
        ∃ x, xs[i]? = some x ∧
          (∀ j < i, ∀ y, xs[j]? = some y → firstDifference (answers x y) = .lt) ∧
          ∀ j > i, ∀ y, xs[j]? = some y → (firstDifference (answers x y)).isLE := by
  refine ⟨fun p hp h => ?_, fun ps hps h => ?_⟩
  · refine ⟨fun x y => compare (p.scoreOn s.analyses s.stream x) (p.scoreOn s.analyses s.stream y),
      Selector.ask_compare_fixed hp (Selector.scores_iff.mp h), fun x => Std.ReflOrd.compare_self,
      fun x y => Std.OrientedOrd.eq_swap, fun x y z => Std.TransOrd.isLE_trans⟩
  · have hs : ∀ p ∈ ps, p.Scorable s.analyses := fun p hp => Selector.scores_iff.mp (h p hp)
    refine ⟨fun x y => ps.map fun p =>
        compare (p.scoreOn s.analyses s.stream x) (p.scoreOn s.analyses s.stream y),
      fun x y => ?_, fun xs => ?_⟩
    · rw [Selector.askEach_compare hps hs, List.map_map]
      rfl
    · obtain ⟨r, hrun, hr⟩ := run_selectIndex_fixed hs hps xs s.stream
      refine ⟨r, Selector.run_eq_iff.mpr ⟨rfl, hrun⟩, fun i => (hr i).trans ?_⟩
      refine exists_congr fun x => and_congr_right fun hx => ?_
      rw [Best.leads_map_iff hx]
      simp only [fixedKey_eq_map hps _ s.stream, firstDifference_eq_lt_iff, isLE_firstDifference_iff]

end PrefixRanking

import PrefixRanking.Proofs.Selection

/-!
# Later preferences break ties

The key under a list `ps ++ qs` is the key under `ps` followed by the key under `qs`, and such keys are
compared by their `ps` part first (`append_lt_append_iff`).  So the entries behind `ps` decide only among
the candidates that lead under `ps`, whatever they draw:

* `fixedKey` is the key under a list that draws nothing, the same on every stream;
* `leading` lists the candidates whose `ps` part is the least, with their positions;
* `Best.Leads.of_leading` -- where `qs` draws nothing, the leader of `leading` under `qs` leads under
  `ps ++ qs`;
* `later_preferences_break_ties` -- the main statement.
-/

namespace PrefixRanking

/-! ## comparing keys part by part -/

section

variable {k k' l l' : Key}

/-- Keys whose front parts are equally long are compared by these first. -/
theorem append_lt_append_iff (h : k.length = k'.length) :
    k ++ l < k' ++ l' ↔ k < k' ∨ k = k' ∧ l < l' := by
  induction k generalizing k' with
  | nil =>
      cases k' with
      | nil => simp
      | cons v k' => simp at h
  | cons u k ih =>
      cases k' with
      | nil => simp at h
      | cons v k' =>
          have hlen : k.length = k'.length := by simpa using h
          rw [List.cons_append, List.cons_append, List.cons_lt_cons_iff, List.cons_lt_cons_iff,
            ih hlen, List.cons.injEq]
          constructor
          · rintro (huv | ⟨huv, hk | ⟨hk, hl⟩⟩)
            · exact .inl (.inl huv)
            · exact .inl (.inr ⟨huv, hk⟩)
            · exact .inr ⟨⟨huv, hk⟩, hl⟩
          · rintro ((huv | ⟨huv, hk⟩) | ⟨⟨huv, hk⟩, hl⟩)
            · exact .inl huv
            · exact .inr ⟨huv, .inl hk⟩
            · exact .inr ⟨huv, .inr ⟨hk, hl⟩⟩

/-- The front part of a least key is a least front part. -/
theorem le_of_append_le (h : k.length = k'.length) (hle : k ++ l ≤ k' ++ l') : k ≤ k' := by
  refine not_lt.mp fun hlt => absurd hle (not_le.mpr ?_)
  rw [append_lt_append_iff h.symm]
  exact .inl hlt

end

/-! ## keys that draw nothing -/

/-- The key of a prefix under a list that draws nothing: it is the same on every stream. -/
def fixedKey (a : Analyses) (ps : List Preference) (x : Prefix) : Key :=
  ps.map fun p => (p.score? a .zero x).getD .sentinel

@[simp] theorem length_fixedKey (a : Analyses) (ps : List Preference) (x : Prefix) :
    (fixedKey a ps x).length = ps.length := by
  simp [fixedKey]

theorem fixedKey_append (a : Analyses) (ps qs : List Preference) (x : Prefix) :
    fixedKey a (ps ++ qs) x = fixedKey a ps x ++ fixedKey a qs x := by
  simp [fixedKey]

section

variable {a : Analyses} {ps qs : List Preference}

theorem keyOn_append (x : Prefix) (s : Keystream) :
    keyOn a x (ps ++ qs) s = keyOn a x ps s ++ keyOn a x qs (s.drop (ps.count .random)) := by
  induction ps generalizing s with
  | nil => rfl
  | cons p ps ih =>
      rw [List.cons_append, keyOn, ih, keyOn, List.cons_append, Preference.count_random_cons,
        Keystream.drop_add]

theorem keyOn_eq_fixedKey (h : .random ∉ ps) (x : Prefix) (s : Keystream) :
    keyOn a x ps s = fixedKey a ps x := by
  induction ps generalizing s with
  | nil => rfl
  | cons p ps ih =>
      rw [List.mem_cons, not_or] at h
      rw [keyOn, ih h.2, Preference.scoreOn,
        Preference.score?_of_ne_random (Ne.symm h.1) a s.head .zero x]
      rfl

/-- Under a list that draws nothing each candidate has its fixed key. -/
theorem keysOn_eq_map (h : .random ∉ ps) (xs : List Prefix) (s : Keystream) :
    keysOn a ps xs s = xs.map (fixedKey a ps) := by
  induction xs generalizing s with
  | nil => rfl
  | cons x xs ih => rw [keysOn, ih, keyOn_eq_fixedKey h, List.map_cons]

/-- The scorers of a list that draws nothing compute the fixed key, on every stream. -/
theorem run_key_fixed {scs : List Scorer} (hm : Scorer.makeEach ps = .ok scs)
    (hs : ∀ p ∈ ps, p.Scorable a) (h : .random ∉ ps) (x : Prefix) (t : Keystream) :
    (Scorer.key a scs x).run t = (.ok (fixedKey a ps x), t) := by
  rw [run_key_ok hm hs, keyOn_eq_fixedKey h, List.count_eq_zero.mpr h, Keystream.drop_zero]

/-- Every key under the whole list starts with the fixed key of its candidate. -/
theorem getElem?_keysOn_append (a : Analyses) {ps : List Preference} (qs : List Preference)
    (h : .random ∉ ps) {xs : List Prefix} {j : Nat} {x : Prefix} (hx : xs[j]? = some x)
    (s : Keystream) :
    ∃ l, (keysOn a (ps ++ qs) xs s)[j]? = some (fixedKey a ps x ++ l) := by
  rw [getElem?_keysOn, hx, Option.map_some, keyOn_append, keyOn_eq_fixedKey h]
  exact ⟨_, rfl⟩

/-! ## candidates that lead under the front of the list -/

/-- The candidate that leads under the whole list has the least key under its front. -/
theorem Best.Leads.least_fixedKey {b : Best} {xs : List Prefix} {s : Keystream}
    (hb : b.Leads (keysOn a (ps ++ qs) xs s)) (h : .random ∉ ps) {x : Prefix}
    (hx : xs[b.position]? = some x) : ∀ y ∈ xs, fixedKey a ps x ≤ fixedKey a ps y := by
  intro y hy
  obtain ⟨j, hj⟩ := List.mem_iff_getElem?.mp hy
  obtain ⟨l, hl⟩ := getElem?_keysOn_append a qs h hx s
  obtain ⟨l', hl'⟩ := getElem?_keysOn_append a qs h hj s
  have hkey : b.key = fixedKey a ps x ++ l := by
    rw [hb.key_at, Option.some.injEq] at hl
    exact hl
  have hle := hb.least _ (List.mem_of_getElem? hl')
  rw [hkey] at hle
  exact le_of_append_le (by simp) hle

end

/-- The candidates with the least key, with their positions, in input order. -/
def leading (key : Prefix → Key) (xs : List Prefix) : List (Prefix × Nat) :=
  xs.zipIdx.filter fun c => xs.all fun y => decide (key c.1 ≤ key y)

section

variable {key : Prefix → Key} {xs : List Prefix}

theorem mem_leading {x : Prefix} {i : Nat} :
    (x, i) ∈ leading key xs ↔ xs[i]? = some x ∧ ∀ y ∈ xs, key x ≤ key y := by
  simp [leading, List.mem_zipIdx_iff_getElem?]

/-- The positions of the leading candidates ascend. -/
theorem leading_ascends {i j m n : Nat} {x y : Prefix} (hm : (leading key xs)[m]? = some (x, i))
    (hn : (leading key xs)[n]? = some (y, j)) (hij : i < j) : m < n := by
  have hall : (leading key xs).Pairwise fun c d => c.2 < d.2 := by
    refine List.Pairwise.filter _ ?_
    rw [← List.pairwise_map, List.zipIdx_map_snd]
    exact List.pairwise_lt_range'
  rw [List.pairwise_iff_getElem] at hall
  obtain ⟨hmlt, hm⟩ := List.getElem?_eq_some_iff.mp hm
  obtain ⟨hnlt, hn⟩ := List.getElem?_eq_some_iff.mp hn
  by_contra hmn
  rcases Nat.lt_or_eq_of_le (Nat.not_lt.mp hmn) with hlt | heq
  · have hji := hall n m hnlt hmlt hlt
    rw [hm, hn] at hji
    dsimp only at hji
    omega
  · subst heq
    rw [hm, Prod.mk.injEq] at hn
    omega

end

section

variable {a : Analyses} {ps qs : List Preference} {xs : List Prefix}

/-- **The tie is broken behind the front**: the candidate that leads under `qs` among those leading under
`ps` leads under `ps ++ qs`. -/
theorem Best.Leads.of_leading {b : Best} {x : Prefix} {i : Nat}
    (hb : b.Leads (((leading (fixedKey a ps) xs).map Prod.fst).map (fixedKey a qs)))
    (hx : (leading (fixedKey a ps) xs)[b.position]? = some (x, i)) :
    (Best.mk i (fixedKey a (ps ++ qs) x)).Leads (xs.map (fixedKey a (ps ++ qs))) := by
  have hkey : b.key = fixedKey a qs x := by
    have hat := hb.key_at
    rw [List.getElem?_map, List.getElem?_map, hx, Option.map_some, Option.map_some,
      Option.some.injEq] at hat
    exact hat.symm
  obtain ⟨hxi, hmin⟩ := mem_leading.mp (List.mem_of_getElem? hx)
  constructor
  · rw [List.getElem?_map, hxi, Option.map_some]
  · intro k hk
    obtain ⟨y, hy, rfl⟩ := List.mem_map.mp hk
    dsimp only
    rw [fixedKey_append, fixedKey_append, ← not_lt, append_lt_append_iff (by simp)]
    rintro (hlt | ⟨heq, hlt⟩)
    · exact absurd (hmin y hy) (not_le.mpr hlt)
    · -- a candidate with the same front part is leading as well
      obtain ⟨j, hj⟩ := List.mem_iff_getElem?.mp hy
      have hyl : (y, j) ∈ leading (fixedKey a ps) xs :=
        mem_leading.mpr ⟨hj, by rw [heq]; exact hmin⟩
      have hle := hb.least (fixedKey a qs y)
        (List.mem_map_of_mem (List.mem_map_of_mem (f := Prod.fst) hyl))
      rw [hkey] at hle
      exact absurd hle (not_le.mpr hlt)
  · intro j hj k hk
    obtain ⟨y, hy, rfl⟩ := Option.map_eq_some_iff.mp (List.getElem?_map ▸ hk)
    dsimp only at hj ⊢
    rw [fixedKey_append, fixedKey_append, append_lt_append_iff (by simp)]
    rcases lt_or_eq_of_le (hmin y (List.mem_of_getElem? hy)) with hlt | heq
    · exact .inl hlt
    · have hyl : (y, j) ∈ leading (fixedKey a ps) xs :=
        mem_leading.mpr ⟨hy, by rw [← heq]; exact hmin⟩
      obtain ⟨n, hn⟩ := List.mem_iff_getElem?.mp hyl
      have hlt := hb.earliest n (leading_ascends hn hx hj) (fixedKey a qs y)
        (by rw [List.getElem?_map, List.getElem?_map, hn]; rfl)
      rw [hkey] at hlt
      exact .inr ⟨heq, hlt⟩

end

/-- Two leaders of the same keys are at the same position. -/
theorem Best.Leads.position_eq {b c : Best} {keys : List Key} (hb : b.Leads keys)
    (hc : c.Leads keys) : b.position = c.position :=
  le_antisymm (hb.isLeast.2 hc.isLeast.1) (hc.isLeast.2 hb.isLeast.1)

/-! ## the main statement -/

/-- What the candidate at a position owes to the front `ps` of a list `ps ++ qs`. -/
structure TieBroken (a : Analyses) (ps qs : List Preference) (xs : List Prefix) (i : Nat) : Prop where
  /-- The fixed key is what the scorers of the front compute, on every stream. -/
  computed : ∃ scs, Scorer.makeEach ps = .ok scs ∧
    ∀ x t, (Scorer.key a scs x).run t = (.ok (fixedKey a ps x), t)
  /-- The selected candidate has the least key under the front. -/
  least : ∃ x, xs[i]? = some x ∧ ∀ y ∈ xs, fixedKey a ps x ≤ fixedKey a ps y
  /-- If no other candidate has the least key under the front, nothing else counts. -/
  sole : ∀ j, (∀ k y, xs[k]? = some y → (∀ z ∈ xs, fixedKey a ps y ≤ fixedKey a ps z) → k = j) → i = j
  /-- If the rest draws nothing, it selects among the candidates that lead under the front. -/
  among : .random ∉ qs → ∀ t, ∃ j x,
    (selectIndex a qs ((leading (fixedKey a ps) xs).map Prod.fst)).run t = (.ok j, t) ∧
      (leading (fixedKey a ps) xs)[j]? = some (x, i)

/-- **Later preferences only break ties**: a selection under a list whose front draws nothing picks a
candidate with the least key under the front, whatever the rest of the list is and draws; and if the rest
draws nothing, it is the rest's selection among the candidates with that key, in input order. -/
theorem later_preferences_break_ties (s : Selector) (ps qs : List Preference) (xs : List Prefix)
    (hps : .random ∉ ps) {i : Nat} (h : (s.run fun a => selectIndex a (ps ++ qs) xs).1 = .ok i) :
    TieBroken s.analyses ps qs xs i := by
  obtain ⟨r, t, hrun, ho⟩ := selectIndex_outcome s.analyses (ps ++ qs) xs s.stream
  have hr : r = .ok i := by
    rw [Selector.run, hrun] at h
    exact h
  subst hr
  cases ho with
  | @selected hs hxs b hb =>
      have hlt : b.position < xs.length := by
        have hlt := hb.position_lt
        rw [length_keysOn] at hlt
        exact hlt
      have hx : xs[b.position]? = some xs[b.position] := List.getElem?_eq_getElem hlt
      have hleast := hb.least_fixedKey hps hx
      have hsp : ∀ p ∈ ps, p.Scorable s.analyses := fun p hp => hs p (List.mem_append_left qs hp)
      have hsq : ∀ q ∈ qs, q.Scorable s.analyses := fun q hq => hs q (List.mem_append_right ps hq)
      refine ⟨?_, ⟨_, hx, hleast⟩, fun j hj => hj b.position _ hx hleast, fun hqs t => ?_⟩
      · obtain ⟨scs, hm⟩ := Scorer.makeEach_ok fun hn => (hsp .none hn).1 rfl
        exact ⟨scs, hm, run_key_fixed hm hsp hps⟩
      · have hne : (leading (fixedKey s.analyses ps) xs).map Prod.fst ≠ [] :=
          List.ne_nil_of_mem (List.mem_map_of_mem (mem_leading.mpr ⟨hx, hleast⟩))
        obtain ⟨c, hc, hrun'⟩ := run_selectIndex_ok hsq hne t
        rw [List.count_eq_zero.mpr hqs, Nat.mul_zero, Keystream.drop_zero] at hrun'
        rw [keysOn_eq_map hqs] at hc
        obtain ⟨⟨x, k⟩, hcx⟩ : ∃ w, (leading (fixedKey s.analyses ps) xs)[c.position]? = some w := by
          have hlt := hc.position_lt
          rw [List.length_map, List.length_map] at hlt
          exact ⟨_, List.getElem?_eq_getElem hlt⟩
        have hall : .random ∉ ps ++ qs := by
          rw [List.mem_append, not_or]
          exact ⟨hps, hqs⟩
        rw [keysOn_eq_map hall] at hb
        have hpos : k = b.position := (hc.of_leading hcx).position_eq hb
        rw [hpos] at hcx
        exact ⟨c.position, x, hrun', hcx⟩

/-- Three candidates tie on the width, and the second and third of them on the length too. -/
theorem ties_broken_by_length :
    let s := Selector.ofSeed ⟨none, none⟩ 0
    let ps : List Preference := [.by .width .min]
    let qs : List Preference := [.by .length .max, .by .pivot .min]
    let xs : List Prefix :=
      [⟨9, 5, 0, .empty⟩, ⟨3, 4, 0, .empty⟩, ⟨7, 4, 6, .empty⟩, ⟨7, 4, 6, .empty⟩]
    .random ∉ ps ∧ (s.run fun a => selectIndex a (ps ++ qs) xs).1 = .ok 2 ∧
      TieBroken s.analyses ps qs xs 2 := by
  intro s ps qs xs
  have hps : .random ∉ ps := by decide
  have h : (s.run fun a => selectIndex a (ps ++ qs) xs).1 = .ok 2 := by decide +kernel
  exact ⟨hps, h, later_preferences_break_ties s ps qs xs hps h⟩

end PrefixRanking

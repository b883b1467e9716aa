import Mathlib.Order.Bounds.Defs
import PrefixRanking.Proofs.Keys

/-!
# The selected candidate

The invariant of the walk over the candidates is `Best.Leads`: the best candidate so far is the earliest
of the least keys among those looked at.  Two leaders are put together by comparing them
(`Best.Leads.append`), so one step keeps the invariant (`Best.Leads.better`), hence a whole walk does
(`run_bestFrom`), and a walk that meets a key without a score stops there (`run_bestFrom_error`).

`SelectionOutcome` lists all that a selection can do, and `selectIndex_outcome` says that it does one of
these.  The main statements are read off it:

* `selectIndex_earliest_least` -- the selected candidate is the earliest with the least key;
* `selection_precedence` -- which error is reported, behind how many draws.
-/

namespace PrefixRanking

/-! ## the best candidate so far -/

/-- The candidate has the least of these keys, and no earlier one has it too. -/
structure Best.Leads (b : Best) (keys : List Key) : Prop where
  key_at : keys[b.position]? = some b.key
  least : ∀ k ∈ keys, b.key ≤ k
  earliest : ∀ j < b.position, ∀ k, keys[j]? = some k → b.key < k

namespace Best

theorem Leads.position_lt {b : Best} {keys : List Key} (h : b.Leads keys) :
    b.position < keys.length := by
  obtain ⟨hlt, _⟩ := List.getElem?_eq_some_iff.mp h.key_at
  exact hlt

/-- The first candidate is the best one so far. -/
theorem leads_first (k : Key) : (better none ⟨0, k⟩).Leads [k] where
  key_at := rfl
  least := by simp [better]
  earliest j hj := by simp [better] at hj

/-- The leader of two lists of keys is the better one of their leaders, the second one counted behind the
first list: it takes the place exactly if its key is strictly smaller. -/
theorem Leads.append {b c : Best} {keys later : List Key} (hb : b.Leads keys) (hc : c.Leads later) :
    (Best.better (some b) ⟨keys.length + c.position, c.key⟩).Leads (keys ++ later) := by
  have hfront : ∀ j < keys.length, (keys ++ later)[j]? = keys[j]? := fun j hj =>
    List.getElem?_append_left hj
  have hbehind (j : Nat) : (keys ++ later)[keys.length + j]? = later[j]? := by
    rw [List.getElem?_append_right (Nat.le_add_right _ _), Nat.add_sub_cancel_left]
  by_cases hk : c.key < b.key
  · rw [Best.better, if_pos hk]
    constructor
    · exact (hbehind c.position).trans hc.key_at
    · intro k hk'
      rw [List.mem_append] at hk'
      cases hk' with
      | inl hm => exact le_trans (le_of_lt hk) (hb.least k hm)
      | inr hm => exact hc.least k hm
    · intro j hj k hk'
      rcases Nat.lt_or_ge j keys.length with hlt | hge
      · rw [hfront j hlt] at hk'
        exact lt_of_lt_of_le hk (hb.least k (List.mem_of_getElem? hk'))
      · obtain ⟨n, rfl⟩ := Nat.exists_eq_add_of_le hge
        rw [hbehind] at hk'
        exact hc.earliest n (Nat.lt_of_add_lt_add_left hj) k hk'
  · rw [Best.better, if_neg hk]
    have hlt := hb.position_lt
    constructor
    · rw [hfront b.position hlt]
      exact hb.key_at
    · intro k hk'
      rw [List.mem_append] at hk'
      cases hk' with
      | inl hm => exact hb.least k hm
      | inr hm => exact le_trans (not_lt.mp hk) (hc.least k hm)
    · intro j hj k hk'
      rw [hfront j (Nat.lt_trans hj hlt)] at hk'
      exact hb.earliest j hj k hk'

/-- One more candidate: it takes the place exactly if its key is strictly smaller than every key so
far. -/
theorem Leads.better {b : Best} {keys : List Key} (h : b.Leads keys) (k : Key) :
    (Best.better (some b) ⟨keys.length, k⟩).Leads (keys ++ [k]) :=
  h.append (leads_first k)

/-- The position of the leading key is the least of all positions whose key is at most every key. -/
theorem Leads.isLeast {b : Best} {keys : List Key} (h : b.Leads keys) :
    IsLeast {i | ∃ k, keys[i]? = some k ∧ ∀ k' ∈ keys, k ≤ k'} b.position := by
  constructor
  · exact ⟨b.key, h.key_at, h.least⟩
  · rintro j ⟨k, hk, hle⟩
    by_contra hj
    have hlt : b.key < k := h.earliest j (not_le.mp hj) k hk
    have hmem : b.key ∈ keys := List.mem_of_getElem? h.key_at
    exact absurd (hle b.key hmem) (not_le.mpr hlt)

end Best

/-! ## the walk over the candidates -/

section

variable {a : Analyses} {ps : List Preference} {scs : List Scorer}

/-- The walk keeps the invariant, from any point on. -/
theorem run_bestFrom (hm : Scorer.makeEach ps = .ok scs) (hs : ∀ p ∈ ps, p.Scorable a)
    (xs : List Prefix) (s : Keystream) {b : Best} {seen : List Key} (hb : b.Leads seen) :
    ∃ b' : Best, b'.Leads (seen ++ keysOn a ps xs s) ∧
      (bestFrom a scs (some b) seen.length xs).run s =
        (.ok (some b'), s.drop (xs.length * ps.count .random)) := by
  induction xs generalizing s b seen with
  | nil =>
      refine ⟨b, ?_, ?_⟩
      · rw [keysOn, List.append_nil]
        exact hb
      · rw [List.length_nil, Nat.zero_mul]
        rfl
  | cons x xs ih =>
      have hlen : (seen ++ [keyOn a x ps s]).length = seen.length + 1 := by simp
      obtain ⟨b', hb', hrun⟩ := ih (s.drop (ps.count .random)) (hb.better (keyOn a x ps s))
      refine ⟨b', ?_, ?_⟩
      · rw [List.append_assoc] at hb'
        exact hb'
      · rw [hlen] at hrun
        rw [bestFrom, Drawing.bind_ok (run_key_ok hm hs s), hrun, Keystream.drop_succ_mul]
        rfl

/-- A key without a score stops the walk at the first candidate. -/
theorem run_bestFrom_error {qs rs : List Preference} {p : Preference}
    (hm : Scorer.makeEach (qs ++ p :: rs) = .ok scs) (hq : ∀ q ∈ qs, q.Scorable a)
    (hp : ¬ p.Scorable a) (best : Option Best) (i : Nat) (x : Prefix) (xs : List Prefix)
    (s : Keystream) :
    (bestFrom a scs best i (x :: xs)).run s =
      (.error (.missingClassification p), s.drop (qs.count .random)) := by
  rw [bestFrom, Drawing.bind_error (run_key_error hm hq hp s)]

/-! ## all that a selection can do -/

/-- The outcomes of a selection: what it answers and the stream it leaves. -/
inductive SelectionOutcome (a : Analyses) (ps : List Preference) (xs : List Prefix) (s : Keystream) :
    Except SelectionError Nat → Keystream → Prop
  /-- `none` is somewhere in the list. -/
  | unsupported (hps : .none ∈ ps) :
      SelectionOutcome a ps xs s (.error (.unsupportedPreference .none)) s
  /-- There are no candidates. -/
  | empty (hps : .none ∉ ps) (hxs : xs = []) : SelectionOutcome a ps xs s (.error .emptyCandidates) s
  /-- The first candidate was scored up to the first entry without a score. -/
  | missing (hps : .none ∉ ps) (hxs : xs ≠ []) {qs rs : List Preference} {p : Preference}
      (he : ps = qs ++ p :: rs) (hq : ∀ q ∈ qs, q.Scorable a) (hp : ¬ p.Scorable a) :
      SelectionOutcome a ps xs s (.error (.missingClassification p)) (s.drop (qs.count .random))
  /-- Every candidate was scored under every entry. -/
  | selected (hps : ∀ p ∈ ps, p.Scorable a) (hxs : xs ≠ []) {b : Best}
      (hb : b.Leads (keysOn a ps xs s)) :
      SelectionOutcome a ps xs s (.ok b.position) (s.drop (xs.length * ps.count .random))

theorem scorable_or_first (a : Analyses) (ps : List Preference) :
    (∀ p ∈ ps, p.Scorable a) ∨
      ∃ qs p rs, ps = qs ++ p :: rs ∧ (∀ q ∈ qs, q.Scorable a) ∧ ¬ p.Scorable a := by
  induction ps with
  | nil => exact .inl (by simp)
  | cons p ps ih =>
      by_cases hp : p.Scorable a
      · cases ih with
        | inl hall => exact .inl (by simpa using ⟨hp, hall⟩)
        | inr hfirst =>
            obtain ⟨qs, q, rs, rfl, hqs, hq⟩ := hfirst
            exact .inr ⟨p :: qs, q, rs, rfl, by simpa using ⟨hp, hqs⟩, hq⟩
      · exact .inr ⟨[], p, ps, rfl, by simp, hp⟩

theorem run_selectIndex_unsupported (hps : .none ∈ ps) (xs : List Prefix) (s : Keystream) :
    (selectIndex a ps xs).run s = (.error (.unsupportedPreference .none), s) := by
  rw [selectIndex, Scorer.makeEach_of_mem hps]
  rfl

theorem run_selectIndex_empty (hps : .none ∉ ps) (s : Keystream) :
    (selectIndex a ps []).run s = (.error .emptyCandidates, s) := by
  obtain ⟨scs, hm⟩ := Scorer.makeEach_ok hps
  rw [selectIndex, hm]
  rfl

theorem run_selectIndex_missing {qs rs : List Preference} {p : Preference}
    (hps : .none ∉ qs ++ p :: rs) (hq : ∀ q ∈ qs, q.Scorable a) (hp : ¬ p.Scorable a)
    {xs : List Prefix} (hxs : xs ≠ []) (s : Keystream) :
    (selectIndex a (qs ++ p :: rs) xs).run s =
      (.error (.missingClassification p), s.drop (qs.count .random)) := by
  obtain ⟨scs, hm⟩ := Scorer.makeEach_ok hps
  cases xs with
  | nil => contradiction
  | cons x xs =>
      rw [selectIndex, hm]
      exact Drawing.bind_error (run_bestFrom_error hm hq hp none 0 x xs s)

theorem run_selectIndex_ok (hps : ∀ p ∈ ps, p.Scorable a) {xs : List Prefix} (hxs : xs ≠ [])
    (s : Keystream) :
    ∃ b : Best, b.Leads (keysOn a ps xs s) ∧
      (selectIndex a ps xs).run s =
        (.ok b.position, s.drop (xs.length * ps.count .random)) := by
  obtain ⟨scs, hm⟩ := Scorer.makeEach_ok fun hn => (hps .none hn).1 rfl
  cases xs with
  | nil => contradiction
  | cons x xs =>
      obtain ⟨b, hb, hrun⟩ := run_bestFrom hm hps xs (s.drop (ps.count .random))
        (Best.leads_first (keyOn a x ps s))
      refine ⟨b, hb, ?_⟩
      have hwalk : (bestFrom a scs none 0 (x :: xs)).run s =
          (.ok (some b), s.drop ((x :: xs).length * ps.count .random)) := by
        rw [Keystream.drop_succ_mul] at hrun
        rw [bestFrom, Drawing.bind_ok (run_key_ok hm hps s)]
        exact hrun
      rw [selectIndex, hm]
      exact Drawing.bind_ok hwalk

/-- **Every selection has one of the four outcomes.** -/
theorem selectIndex_outcome (a : Analyses) (ps : List Preference) (xs : List Prefix) (s : Keystream) :
    ∃ r t, (selectIndex a ps xs).run s = (r, t) ∧ SelectionOutcome a ps xs s r t := by
  by_cases hnone : .none ∈ ps
  · exact ⟨_, _, run_selectIndex_unsupported hnone xs s, .unsupported hnone⟩
  by_cases hxs : xs = []
  · rw [hxs]
    exact ⟨_, _, run_selectIndex_empty hnone s, .empty hnone rfl⟩
  obtain hall | ⟨qs, p, rs, rfl, hqs, hp⟩ := scorable_or_first a ps
  · obtain ⟨b, hb, hrun⟩ := run_selectIndex_ok hall hxs s
    exact ⟨_, _, hrun, .selected hall hxs hb⟩
  · exact ⟨_, _, run_selectIndex_missing hnone hqs hp hxs s, .missing hnone hxs rfl hqs hp⟩

/-- A selection that succeeds has scored every candidate under every entry. -/
theorem exists_leads_of_selectIndex {xs : List Prefix} {s t : Keystream} {i : Nat}
    (h : (selectIndex a ps xs).run s = (.ok i, t)) :
    (∀ p ∈ ps, p.Scorable a) ∧ ∃ b : Best, b.Leads (keysOn a ps xs s) ∧ b.position = i := by
  obtain ⟨r, t', hrun, ho⟩ := selectIndex_outcome a ps xs s
  rw [h] at hrun
  cases hrun
  cases ho with
  | @selected hs _ b hb => exact ⟨hs, b, hb, rfl⟩

theorem position_lt_of_selectIndex {xs : List Prefix} {s t : Keystream} {i : Nat}
    (h : (selectIndex a ps xs).run s = (.ok i, t)) : i < xs.length := by
  obtain ⟨-, b, hb, rfl⟩ := exists_leads_of_selectIndex h
  have hlt := hb.position_lt
  rw [length_keysOn] at hlt
  exact hlt

/-- The best candidate is the one at the selected position. -/
theorem run_selectBest (a : Analyses) (ps : List Preference) (xs : List Prefix) (s : Keystream) :
    (∃ e t, (selectIndex a ps xs).run s = (.error e, t) ∧
      (selectBest a ps xs).run s = (.error e, t)) ∨
    ∃ i x t, xs[i]? = some x ∧ (selectIndex a ps xs).run s = (.ok i, t) ∧
      (selectBest a ps xs).run s = (.ok x, t) := by
  cases hr : (selectIndex a ps xs).run s with
  | mk r t =>
      cases r with
      | error e => exact .inl ⟨e, t, rfl, Drawing.bind_error hr⟩
      | ok i =>
          have hlt : i < xs.length := position_lt_of_selectIndex hr
          have hx : xs[i]? = some xs[i] := List.getElem?_eq_getElem hlt
          have hbest : (selectBest a ps xs).run s = (.ok xs[i], t) := by
            rw [selectBest, Drawing.bind_ok hr]
            simp only [hx, Drawing.run_pure]
          exact .inr ⟨i, xs[i], t, hx, rfl, hbest⟩

/-- The best candidate is missing for the reasons for which its position is. -/
theorem run_selectBest_eq_error_iff {xs : List Prefix} {s t : Keystream} {e : SelectionError} :
    (selectBest a ps xs).run s = (.error e, t) ↔ (selectIndex a ps xs).run s = (.error e, t) := by
  obtain ⟨e', t', hidx, hbest⟩ | ⟨i, x, t', _, hidx, hbest⟩ := run_selectBest a ps xs s
  · rw [hidx, hbest]
    simp
  · rw [hidx, hbest]
    simp

theorem run_selectBest_eq_ok_iff {xs : List Prefix} {s t : Keystream} {x : Prefix} :
    (selectBest a ps xs).run s = (.ok x, t) ↔
      ∃ i, xs[i]? = some x ∧ (selectIndex a ps xs).run s = (.ok i, t) := by
  obtain ⟨e, t', hidx, hbest⟩ | ⟨i, y, t', hy, hidx, hbest⟩ := run_selectBest a ps xs s
  · rw [hidx, hbest]
    simp
  · rw [hidx, hbest]
    constructor
    · intro h
      cases h
      exact ⟨i, hy, rfl⟩
    · intro ⟨j, hj, h⟩
      cases h
      rw [hj, Option.some.injEq] at hy
      rw [hy]

end

/-! ## the earliest candidate with the least key -/

/-- The keys of the candidates: a row for each candidate and a column for each entry.  The random entries
take the draws of the stream row by row, in each row from left to right: `j` rows of as many draws as the
list has random entries are in front of row `j`. -/
structure KeyTable (a : Analyses) (ps : List Preference) (xs : List Prefix) (s : Keystream)
    (keys : List Key) : Prop where
  rows : keys.length = xs.length
  columns : ∀ k ∈ keys, k.length = ps.length
  entry : ∀ j x k, xs[j]? = some x → keys[j]? = some k →
    ∀ (e : Nat) (p : Preference) (v : Score), ps[e]? = some p → k[e]? = some v →
      p.score? a (s.nth (j * ps.count .random + (ps.take e).count .random)) x = some v

theorem keyTable_keysOn {a : Analyses} {ps : List Preference} (hs : ∀ p ∈ ps, p.Scorable a)
    (xs : List Prefix) (s : Keystream) : KeyTable a ps xs s (keysOn a ps xs s) where
  rows := length_keysOn a ps xs s
  columns k hk := by
    obtain ⟨j, hj⟩ := List.mem_iff_getElem?.mp hk
    rw [getElem?_keysOn, Option.map_eq_some_iff] at hj
    obtain ⟨x, _, rfl⟩ := hj
    exact length_keyOn a x ps _
  entry j x k hx hk e p v hp hv := by
    rw [getElem?_keysOn, hx, Option.map_some, Option.some.injEq] at hk
    rw [← hk, getElem?_keyOn, hp, Option.map_some, Option.some.injEq] at hv
    rw [Keystream.nth, Keystream.drop_add, ← hv]
    exact Preference.score?_eq_some (hs p (List.mem_of_getElem? hp)) _ x

/-- **The earliest least key wins**: a selection that succeeds answers the least position whose key is at
most every key, all keys in front of it are strictly greater, and each candidate took one draw for each
random entry. -/
theorem selectIndex_earliest_least (s : Selector) (ps : List Preference) (xs : List Prefix) {i : Nat}
    (h : (s.run fun a => selectIndex a ps xs).1 = .ok i) :
    ∃ keys, KeyTable s.analyses ps xs s.stream keys ∧
      IsLeast {j | ∃ k, keys[j]? = some k ∧ ∀ k' ∈ keys, k ≤ k'} i ∧
      (∀ j < i, ∀ k m, keys[j]? = some k → keys[i]? = some m → m < k) ∧
      (s.run fun a => selectIndex a ps xs).2 =
        { s with stream := s.stream.drop (xs.length * ps.count .random) } := by
  obtain ⟨r, t, hrun, ho⟩ := selectIndex_outcome s.analyses ps xs s.stream
  have hr : r = .ok i := by
    rw [Selector.run, hrun] at h
    exact h
  subst hr
  cases ho with
  | @selected hps _ b hb =>
      refine ⟨keysOn s.analyses ps xs s.stream, keyTable_keysOn hps xs s.stream, hb.isLeast, ?_, ?_⟩
      · intro j hj k m hk hm
        rw [hb.key_at, Option.some.injEq] at hm
        rw [← hm]
        exact hb.earliest j hj k hk
      · rw [Selector.run, hrun]

/-- Two candidates tie on the first key, and the draws of the second one's row are the smaller ones. -/
theorem earliest_least_of_drawn_tie :
    let s := Selector.ofSeed ⟨none, none⟩ 0
    let ps : List Preference := [.by .width .max, .random, .random]
    let xs : List Prefix := [⟨1, 4, 0, .empty⟩, ⟨1, 9, 0, .empty⟩, ⟨2, 9, 0, .empty⟩]
    (s.run fun a => selectIndex a ps xs).1 = .ok 2 ∧
      ∃ keys, KeyTable s.analyses ps xs s.stream keys ∧
        IsLeast {j | ∃ k, keys[j]? = some k ∧ ∀ k' ∈ keys, k ≤ k'} 2 ∧
        (∀ j < 2, ∀ k m, keys[j]? = some k → keys[2]? = some m → m < k) ∧
        (s.run fun a => selectIndex a ps xs).2 =
          { s with stream := s.stream.drop (xs.length * ps.count .random) } := by
  intro s ps xs
  have h : (s.run fun a => selectIndex a ps xs).1 = .ok 2 := by decide +kernel
  exact ⟨h, selectIndex_earliest_least s ps xs h⟩

/-! ## which error is reported -/

/-- What a selector does is what the computation does on its stream; its analyses stay. -/
theorem Selector.run_eq_iff {α : Type} {s t : Selector} {f : Analyses → Drawing α}
    {r : Except SelectionError α} :
    s.run f = (r, t) ↔
      s.analyses = t.analyses ∧ (f s.analyses).run s.stream = (r, t.stream) := by
  cases s with
  | mk b s =>
      cases t with
      | mk c t => simp [Selector.run, Prod.ext_iff, and_left_comm]

theorem Preference.scorable_of_not_needs {a : Analyses} {p : Preference} (hn : p ≠ .none)
    (hp : p.needsClassification = false) : p.Scorable a :=
  ⟨hn, fun h => by rw [hp] at h; contradiction⟩

theorem Preference.not_scorable_of_needs {a : Analyses} {p : Preference}
    (hp : p.needsClassification = true) (ha : a.hasClassification = false) : ¬ p.Scorable a := by
  intro h
  have hc := h.2 hp
  rw [ha] at hc
  contradiction

/-- **The order of errors**: `none` anywhere in the list, then no candidates, then the first entry that
needs a classification that is not there, behind the draws of the entries in front of it for the first
candidate; anything else is a selection of a candidate that is there.  The best candidate is that at the
selected position, with the same errors and the same draws. -/
theorem selection_precedence (s : Selector) (ps : List Preference) (xs : List Prefix) :
    (.none ∈ ps →
      s.run (fun a => selectIndex a ps xs) = (.error (.unsupportedPreference .none), s)) ∧
    (.none ∉ ps → xs = [] →
      s.run (fun a => selectIndex a ps xs) = (.error .emptyCandidates, s)) ∧
    (.none ∉ ps → xs ≠ [] → s.analyses.hasClassification = false →
      ∀ qs p rs, ps = qs ++ p :: rs → p.needsClassification = true →
        (∀ q ∈ qs, q.needsClassification = false) →
        s.run (fun a => selectIndex a ps xs) =
          (.error (.missingClassification p),
            { s with stream := s.stream.drop (qs.count .random) })) ∧
    (.none ∉ ps → xs ≠ [] →
      (s.analyses.hasClassification = true ∨ ∀ p ∈ ps, p.needsClassification = false) →
      ∃ i < xs.length, s.run (fun a => selectIndex a ps xs) =
        (.ok i, { s with stream := s.stream.drop (xs.length * ps.count .random) })) ∧
    (∀ e t, s.run (fun a => selectBest a ps xs) = (.error e, t) ↔
      s.run (fun a => selectIndex a ps xs) = (.error e, t)) ∧
    ∀ x t, s.run (fun a => selectBest a ps xs) = (.ok x, t) ↔
      ∃ i, xs[i]? = some x ∧ s.run (fun a => selectIndex a ps xs) = (.ok i, t) := by
  refine ⟨?_, ?_, ?_, ?_, ?_, ?_⟩
  · intro hps
    rw [Selector.run, run_selectIndex_unsupported hps]
  · intro hps hxs
    rw [hxs, Selector.run, run_selectIndex_empty hps]
  · intro hps hxs ha qs p rs he hp hqs
    subst he
    have hq : ∀ q ∈ qs, q.Scorable s.analyses := fun q hm =>
      Preference.scorable_of_not_needs (fun hn => hps (by simp [← hn, hm])) (hqs q hm)
    rw [Selector.run,
      run_selectIndex_missing hps hq (Preference.not_scorable_of_needs hp ha) hxs]
  · intro hps hxs ha
    have hs : ∀ p ∈ ps, p.Scorable s.analyses := fun p hm => by
      have hn : p ≠ .none := fun he => hps (by rw [← he]; exact hm)
      cases ha with
      | inl hc => exact ⟨hn, fun _ => hc⟩
      | inr hall => exact Preference.scorable_of_not_needs hn (hall p hm)
    obtain ⟨b, hb, hrun⟩ := run_selectIndex_ok hs hxs s.stream
    refine ⟨b.position, ?_, ?_⟩
    · rw [← length_keysOn s.analyses ps xs s.stream]
      exact hb.position_lt
    · rw [Selector.run, hrun]
  · intro e t
    rw [Selector.run_eq_iff, Selector.run_eq_iff, run_selectBest_eq_error_iff]
  · intro x t
    simp only [Selector.run_eq_iff, run_selectBest_eq_ok_iff]
    constructor
    · intro ⟨ha, i, hx, hi⟩
      exact ⟨i, hx, ha, hi⟩
    · intro ⟨i, hx, ha, hi⟩
      exact ⟨ha, i, hx, hi⟩

end PrefixRanking

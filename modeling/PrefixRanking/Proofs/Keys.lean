import PrefixRanking.Proofs.Draws
import PrefixRanking.Proofs.Score
import PrefixRanking.Selection

/-!
# Keys

What the scorers compute, said without a computation: the score of a prefix is a function of the analyses,
the prefix and the next draw, and a key is the list of such scores, each random entry taking one draw.

* `Preference.Scorable` is what it takes to have a score;
* `Scorer.run_score_ok` and `Scorer.run_score_error` are all a scorer does;
* `run_key_ok` and `run_key_error` say the same of a whole key: the first entry without a score stops it,
  and the draws of the entries in front of it are made;
* `getElem?_keyOn` and `getElem?_keysOn` find the draw of each random entry.
-/

namespace PrefixRanking

/-! ## the score under one preference -/

namespace Preference

/-- The score of a prefix under a preference, where `d` is the next draw; none where there is no score. -/
def score? (a : Analyses) (d : Score) (x : Prefix) : Preference → Option Score
  | .by m .min => m.score? a x
  | .by m .max => (m.score? a x).map Score.inverted
  | .random => some d
  | .none => Option.none

/-- Has every prefix a score under this preference? -/
def Scorable (a : Analyses) (p : Preference) : Prop :=
  p ≠ .none ∧ (p.needsClassification = true → a.hasClassification = true)

theorem score?_eq_none_iff {a : Analyses} {d : Score} {x : Prefix} {p : Preference} :
    p.score? a d x = Option.none ↔ ¬ p.Scorable a := by
  cases p with
  | «by» m o =>
      have hm : m.score? a x = Option.none ↔ _ := Measure.score?_eq_none_iff
      cases o <;> simp [score?, Scorable, needsClassification, hm]
  | random => simp [score?, Scorable, needsClassification]
  | none => simp [score?, Scorable]

/-- How many draws a score under this preference takes. -/
def draws : Preference → Nat
  | .random => 1
  | _ => 0

theorem count_random_cons (p : Preference) (ps : List Preference) :
    (p :: ps).count .random = p.draws + ps.count .random := by
  cases p with
  | «by» m o => simp [draws]
  | random => simp [draws, Nat.add_comm]
  | none => simp [draws]

theorem draws_eq_zero {p : Preference} (h : p ≠ .random) : p.draws = 0 := by
  cases p with
  | «by» m o => rfl
  | random => contradiction
  | none => rfl

/-- Only the random preference looks at the draw. -/
theorem score?_of_ne_random {p : Preference} (h : p ≠ .random) (a : Analyses) (d e : Score)
    (x : Prefix) : p.score? a d x = p.score? a e x := by
  cases p with
  | «by» m o => cases o <;> rfl
  | random => contradiction
  | none => rfl

/-- The score of a prefix on a stream, the sentinel where there is none. -/
def scoreOn (a : Analyses) (s : Keystream) (x : Prefix) (p : Preference) : Score :=
  (p.score? a s.head x).getD .sentinel

theorem scoreOn_of_ne_random {p : Preference} (h : p ≠ .random) (a : Analyses) (s t : Keystream)
    (x : Prefix) : p.scoreOn a s x = p.scoreOn a t x := by
  rw [scoreOn, score?_of_ne_random h a s.head t.head x, scoreOn]

theorem score?_eq_some {a : Analyses} {p : Preference} (h : p.Scorable a) (s : Keystream)
    (x : Prefix) : p.score? a s.head x = some (p.scoreOn a s x) := by
  cases hv : p.score? a s.head x with
  | none => exact absurd h (score?_eq_none_iff.mp hv)
  | some v => simp [scoreOn, hv]

end Preference

/-! ## scorers -/

namespace Scorer

/-- **All that a scorer does**: it gives the score and takes its draws, or it names its preference as the
one that lacks a classification and takes none. -/
theorem run_score {p : Preference} {sc : Scorer} (h : make p = .ok sc) (a : Analyses) (x : Prefix)
    (s : Keystream) :
    (sc.score a x).run s = match p.score? a s.head x with
      | some v => (.ok v, s.drop p.draws)
      | none => (.error (.missingClassification p), s) := by
  cases p with
  | «by» m o =>
      cases o with
      | min =>
          cases h
          simp only [score, Strategy.score, Preference.score?]
          cases m.score? a x <;> rfl
      | max =>
          cases h
          simp only [score, Strategy.score, Preference.score?, Drawing.run_bind]
          cases m.score? a x <;> rfl
  | random => cases h; rfl
  | none => cases h

theorem run_score_ok {a : Analyses} {p : Preference} {sc : Scorer} (h : make p = .ok sc)
    (hp : p.Scorable a) (x : Prefix) (s : Keystream) :
    (sc.score a x).run s = (.ok (p.scoreOn a s x), s.drop p.draws) := by
  rw [run_score h, Preference.score?_eq_some hp]

theorem run_score_error {a : Analyses} {p : Preference} {sc : Scorer} (h : make p = .ok sc)
    (hp : ¬ p.Scorable a) (x : Prefix) (s : Keystream) :
    (sc.score a x).run s = (.error (.missingClassification p), s) := by
  rw [run_score h, Preference.score?_eq_none_iff.mpr hp]

/-- A list that contains `none` has no scorers. -/
theorem makeEach_of_mem {ps : List Preference} (h : .none ∈ ps) :
    makeEach ps = .error (.unsupportedPreference .none) := by
  induction ps with
  | nil => contradiction
  | cons p ps ih =>
      rw [makeEach]
      by_cases hp : p = .none
      · rw [hp]; rfl
      · have hps : .none ∈ ps := by
          rw [List.mem_cons] at h
          exact h.resolve_left fun he => hp he.symm
        cases hm : make p with
        | ok sc => rw [ih hps]; rfl
        | error e => cases p with
          | «by» m o => cases o <;> cases hm
          | random => cases hm
          | none => contradiction

theorem make_ok {p : Preference} (h : p ≠ .none) : ∃ sc, make p = .ok sc := by
  cases p with
  | «by» m o => cases o <;> exact ⟨_, rfl⟩
  | random => exact ⟨_, rfl⟩
  | none => contradiction

/-- Any other list has one scorer for each entry. -/
theorem makeEach_ok {ps : List Preference} (h : .none ∉ ps) : ∃ scs, makeEach ps = .ok scs := by
  induction ps with
  | nil => exact ⟨[], rfl⟩
  | cons p ps ih =>
      rw [List.mem_cons, not_or] at h
      obtain ⟨sc, hsc⟩ := make_ok (Ne.symm h.1)
      obtain ⟨scs, hscs⟩ := ih h.2
      exact ⟨sc :: scs, by rw [makeEach, hsc, hscs]; rfl⟩

theorem makeEach_cons {p : Preference} {ps : List Preference} {scs : List Scorer}
    (h : makeEach (p :: ps) = .ok scs) :
    ∃ sc scs', make p = .ok sc ∧ makeEach ps = .ok scs' ∧ scs = sc :: scs' := by
  rw [makeEach] at h
  cases hsc : make p with
  | error e => rw [hsc] at h; contradiction
  | ok sc =>
      cases hscs : makeEach ps with
      | error e => rw [hsc, hscs] at h; contradiction
      | ok scs' =>
          rw [hsc, hscs] at h
          cases h
          exact ⟨sc, scs', rfl, rfl, rfl⟩

end Scorer

/-! ## keys -/

/-- The key of a prefix on a stream: entry after entry, the random ones taking the next draw. -/
def keyOn (a : Analyses) (x : Prefix) : List Preference → Keystream → Key
  | [], _ => []
  | p :: ps, s => p.scoreOn a s x :: keyOn a x ps (s.drop p.draws)

/-- The keys of a list of candidates, one after another on one stream. -/
def keysOn (a : Analyses) (ps : List Preference) : List Prefix → Keystream → List Key
  | [], _ => []
  | x :: xs, s => keyOn a x ps s :: keysOn a ps xs (s.drop (ps.count .random))

@[simp] theorem length_keyOn (a : Analyses) (x : Prefix) (ps : List Preference) (s : Keystream) :
    (keyOn a x ps s).length = ps.length := by
  induction ps generalizing s with
  | nil => rfl
  | cons p ps ih => simp [keyOn, ih]

@[simp] theorem length_keysOn (a : Analyses) (ps : List Preference) (xs : List Prefix)
    (s : Keystream) : (keysOn a ps xs s).length = xs.length := by
  induction xs generalizing s with
  | nil => rfl
  | cons x xs ih => simp [keysOn, ih]

/-- An entry of a key takes the draw behind those of the entries in front of it. -/
theorem getElem?_keyOn (a : Analyses) (x : Prefix) (ps : List Preference) (s : Keystream) (e : Nat) :
    (keyOn a x ps s)[e]? =
      ps[e]?.map fun p => p.scoreOn a (s.drop ((ps.take e).count .random)) x := by
  induction ps generalizing s e with
  | nil => rfl
  | cons p ps ih =>
      cases e with
      | zero => rfl
      | succ e =>
          rw [keyOn, List.getElem?_cons_succ, ih, List.getElem?_cons_succ, List.take_succ_cons,
            Preference.count_random_cons, Keystream.drop_add]

/-- The key of a candidate begins behind the draws of the candidates in front of it. -/
theorem getElem?_keysOn (a : Analyses) (ps : List Preference) (xs : List Prefix) (s : Keystream)
    (j : Nat) :
    (keysOn a ps xs s)[j]? = xs[j]?.map fun x => keyOn a x ps (s.drop (j * ps.count .random)) := by
  induction xs generalizing s j with
  | nil => rfl
  | cons x xs ih =>
      cases j with
      | zero => simp [keysOn]
      | succ j =>
          rw [keysOn, List.getElem?_cons_succ, ih, List.getElem?_cons_succ, Keystream.drop_succ_mul]

section

variable {a : Analyses} {x : Prefix}

/-- Where every entry has a score, the scorers give the key. -/
theorem run_key_ok {ps : List Preference} {scs : List Scorer} (hm : Scorer.makeEach ps = .ok scs)
    (hs : ∀ p ∈ ps, p.Scorable a) (s : Keystream) :
    (Scorer.key a scs x).run s = (.ok (keyOn a x ps s), s.drop (ps.count .random)) := by
  induction ps generalizing scs s with
  | nil => cases hm; rfl
  | cons p ps ih =>
      obtain ⟨sc, scs', hsc, hscs, rfl⟩ := Scorer.makeEach_cons hm
      have hp := Scorer.run_score_ok hsc (hs p List.mem_cons_self) x s
      have hps := ih hscs (fun q hq => hs q (List.mem_cons_of_mem p hq)) (s.drop p.draws)
      rw [Scorer.key] at hps ⊢
      rw [Drawing.each, Drawing.bind_ok hp, Drawing.bind_ok hps, Drawing.run_pure, keyOn,
        Preference.count_random_cons, Keystream.drop_add]

/-- The first entry without a score stops the key, behind the draws in front of it. -/
theorem run_key_error {qs rs : List Preference} {p : Preference} {scs : List Scorer}
    (hm : Scorer.makeEach (qs ++ p :: rs) = .ok scs) (hq : ∀ q ∈ qs, q.Scorable a)
    (hp : ¬ p.Scorable a) (s : Keystream) :
    (Scorer.key a scs x).run s =
      (.error (.missingClassification p), s.drop (qs.count .random)) := by
  induction qs generalizing scs s with
  | nil =>
      obtain ⟨sc, scs', hsc, _, rfl⟩ := Scorer.makeEach_cons hm
      rw [Scorer.key, Drawing.each, Drawing.bind_error (Scorer.run_score_error hsc hp x s)]
      rfl
  | cons q qs ih =>
      obtain ⟨sc, scs', hsc, hscs, rfl⟩ := Scorer.makeEach_cons hm
      have hq' := Scorer.run_score_ok hsc (hq q List.mem_cons_self) x s
      have hqs := ih hscs (fun r hr => hq r (List.mem_cons_of_mem q hr)) (s.drop q.draws)
      rw [Scorer.key] at hqs ⊢
      rw [Drawing.each, Drawing.bind_ok hq', Drawing.bind_error hqs, Preference.count_random_cons,
        Keystream.drop_add]

end

end PrefixRanking

import PrefixRanking.Proofs.Session
import PrefixRanking.Proofs.Validation

/-!
# A refiner and its bare selector

A refiner is made exactly for a valid configuration, and then it is a selector that is always asked under
one list of preferences, or not asked at all where selection is off.  `Refiner.askEach_eq` is the
simulation over whole sessions; `refiner_simulates_selector` adds what the valid list rules out.
-/

namespace PrefixRanking

/-! ## making a refiner -/

namespace Refiner

theorem make_eq (c : Config) (a : Analyses) :
    make c a = (c.validate.map fun _ => ⟨c, .ofSeed a c.seed⟩).mapError .config := by
  rw [make, Config.selector]
  cases c.validate <;> rfl

/-- A valid configuration makes one refiner, whose stream starts from the configured seed. -/
theorem make_eq_ok_iff {c : Config} {a : Analyses} {r : Refiner} :
    make c a = .ok r ↔ c.validate = .ok () ∧ r = ⟨c, .ofSeed a c.seed⟩ := by
  rw [make_eq]
  cases c.validate with
  | ok u => simp [Except.map, Except.mapError, eq_comm]
  | error e => simp [Except.map, Except.mapError]

/-- The error of a configuration that is not valid is the error of its validation. -/
theorem make_eq_error_iff {c : Config} {a : Analyses} {e : RefinementError} :
    make c a = .error e ↔ ∃ e', c.validate = .error e' ∧ e = .config e' := by
  rw [make_eq]
  cases c.validate with
  | ok u => simp [Except.map, Except.mapError]
  | error e' => simp [Except.map, Except.mapError, eq_comm]

end Refiner

/-! ## one request -/

theorem Config.isSelectionDisabled_iff {c : Config} :
    c.isSelectionDisabled = true ↔ c.preferences = [.none] := by
  simp [isSelectionDisabled, Preference.noSelection]

namespace Refiner

variable {c : Config}

/-- Selection that is off answers nothing and draws nothing. -/
theorem selectPrefix_off (h : c.preferences = [.none]) (b : Selector) (xs : List Prefix) :
    (Refiner.mk c b).selectPrefix xs = (.ok none, ⟨c, b⟩) := by
  rw [selectPrefix, if_pos (Config.isSelectionDisabled_iff.mpr h)]

/-- Selection that is on answers the best candidate of the bare selector, and leaves its stream. -/
theorem selectPrefix_on (h : c.preferences ≠ [.none]) (b : Selector) (xs : List Prefix) :
    (Refiner.mk c b).selectPrefix xs =
      (((b.run fun a => selectBest a c.preferences xs).1.map some).mapError .selection,
        ⟨c, (b.run fun a => selectBest a c.preferences xs).2⟩) := by
  rw [selectPrefix, if_neg fun hd => h (Config.isSelectionDisabled_iff.mp hd)]
  simp only [run, Selector.run, Drawing.run_map]

theorem quality_eq (b : Selector) (xs : List Prefix) (p : Preference) :
    (Refiner.mk c b).quality xs p =
      ((b.run fun a => aggregateScore a xs p).1.mapError .selection,
        ⟨c, (b.run fun a => aggregateScore a xs p).2⟩) := rfl

end Refiner

/-! ## a whole session -/

/-- The question that a request puts to the bare selector under a list of preferences; none if selection
is off. -/
def Request.question? (ps : List Preference) : Request → Option Question
  | refine xs => if ps = [.none] then none else some (.best ps xs)
  | quality xs p => some (.aggregate xs p)
  | selector q => some q

namespace Refiner

variable {c : Config}

/-- One request moves the refiner as its question moves the bare selector. -/
theorem ask_eq (b : Selector) (q : Request) :
    ((Refiner.mk c b).ask q).2 =
      ⟨c, (b.askEach (q.question? c.preferences).toList).2⟩ := by
  cases q with
  | refine xs =>
      rw [Request.question?]
      by_cases h : c.preferences = [.none]
      · rw [if_pos h, ask, selectPrefix_off h]
        rfl
      · rw [if_neg h, ask, selectPrefix_on h]
        simp only [Option.toList, Selector.askEach, Selector.ask, Selector.run, Question.answer,
          Drawing.run_map]
  | quality xs p =>
      rw [ask, quality_eq]
      simp only [Request.question?, Option.toList, Selector.askEach, Selector.ask, Selector.run,
        Question.answer, Drawing.run_map]
  | selector q => rfl

/-- **The simulation**: after any session the refiner holds the selector that the questions of its requests
lead to. -/
theorem askEach_eq (b : Selector) (reqs : List Request) :
    ((Refiner.mk c b).askEach reqs).2 =
      ⟨c, (b.askEach (reqs.filterMap (Request.question? c.preferences))).2⟩ := by
  induction reqs generalizing b with
  | nil => rfl
  | cons q reqs ih =>
      have hcons : (q :: reqs).filterMap (Request.question? c.preferences) =
          (q.question? c.preferences).toList ++
            reqs.filterMap (Request.question? c.preferences) := by
        cases hq : q.question? c.preferences <;> simp [hq]
      rw [hcons, Selector.askEach_append, askEach]
      show (((Refiner.mk c b).ask q).2.askEach reqs).2 = _
      rw [ask_eq, ih]

/-- The replies of a session end with the reply to its last request. -/
theorem askEach_concat (r : Refiner) (reqs : List Request) (q : Request) :
    (r.askEach (reqs ++ [q])).1 = (r.askEach reqs).1 ++ [((r.askEach reqs).2.ask q).1] := by
  rw [askEach_append]
  rfl

end Refiner

/-! ## what a valid list rules out -/

section

variable {a : Analyses} {ps : List Preference} {xs : List Prefix} {s t : Keystream}

/-- Without `none` in the list the best candidate fails in two ways only. -/
theorem selectBest_error (hps : .none ∉ ps) {e : SelectionError}
    (h : (selectBest a ps xs).run s = (.error e, t)) :
    e = .emptyCandidates ∨ ∃ p, e = .missingClassification p := by
  obtain ⟨r, t', hrun, ho⟩ := selectIndex_outcome a ps xs s
  rw [run_selectBest_eq_error_iff.mp h] at hrun
  cases hrun
  cases ho with
  | unsupported hn => exact absurd hn hps
  | empty _ _ => exact .inl rfl
  | missing _ _ _ _ _ => exact .inr ⟨_, rfl⟩

theorem selectBest_ok {x : Prefix} (h : (selectBest a ps xs).run s = (.ok x, t)) :
    t = s.drop (xs.length * ps.count .random) := by
  have hs := selectBest_stream a s ps xs
  rw [h] at hs
  exact hs

end

section

variable {c : Config} (hc : ValidList c.preferences) (b : Selector) (xs : List Prefix)

include hc

/-- In a valid list `none` stands alone, and then selection is off: it is never scored. -/
theorem Refiner.selectPrefix_error {e : RefinementError}
    (h : ((Refiner.mk c b).selectPrefix xs).1 = .error e) :
    e = .selection .emptyCandidates ∨ ∃ p, e = .selection (.missingClassification p) := by
  by_cases hoff : c.preferences = [.none]
  · rw [selectPrefix_off hoff] at h
    contradiction
  · rw [selectPrefix_on hoff, Selector.run] at h
    have hnone : .none ∉ c.preferences := fun hn => hoff (hc.alone hn)
    cases hr : (selectBest b.analyses c.preferences xs).run b.stream with
    | mk r t =>
        rw [hr] at h
        cases r with
        | ok x => contradiction
        | error e' =>
            cases h
            obtain rfl | ⟨p, rfl⟩ := selectBest_error hnone hr
            · exact .inl rfl
            · exact .inr ⟨p, rfl⟩

/-- In a valid list there is at most one random entry. -/
theorem Refiner.selectPrefix_draws {x : Option Prefix}
    (h : ((Refiner.mk c b).selectPrefix xs).1 = .ok x) :
    ∃ n, (n = 0 ∨ n = xs.length) ∧
      ((Refiner.mk c b).selectPrefix xs).2.selector.stream = b.stream.drop n := by
  by_cases hoff : c.preferences = [.none]
  · rw [selectPrefix_off hoff]
    exact ⟨0, .inl rfl, rfl⟩
  · rw [selectPrefix_on hoff, Selector.run] at h ⊢
    have hcount := Nat.le_one_iff_eq_zero_or_eq_one.mp hc.count_random_le_one
    have hrow : xs.length * c.preferences.count .random = 0 ∨
        xs.length * c.preferences.count .random = xs.length := by
      cases hcount with
      | inl h0 => rw [h0, Nat.mul_zero]; exact .inl rfl
      | inr h1 => rw [h1, Nat.mul_one]; exact .inr rfl
    cases hr : (selectBest b.analyses c.preferences xs).run b.stream with
    | mk r t =>
        rw [hr] at h
        cases r with
        | error e => contradiction
        | ok y => exact ⟨_, hrow, selectBest_ok hr⟩

end

/-- **A refiner is a bare selector under the configured list.**  It is made exactly if the configuration is
valid, and otherwise the validation error is its error.  After any session it holds the selector that the
same questions, put to a bare selector of the configured seed, lead to.  Selection that is off answers none
and draws nothing; selection that is on answers as the bare selector does, so that only two errors are
left, and takes no draw or one for each candidate.  The quality of a batch is the bare selector's aggregate
score. -/
theorem refiner_simulates_selector (c : Config) (a : Analyses) :
    ((∃ r, Refiner.make c a = .ok r) ↔ c.validate = .ok ()) ∧
    (∀ e, Refiner.make c a = .error e ↔ ∃ e', c.validate = .error e' ∧ e = .config e') ∧
    ∀ r, Refiner.make c a = .ok r → ∀ reqs : List Request,
      let b := ((Selector.ofSeed a c.seed).askEach
        (reqs.filterMap (Request.question? c.preferences))).2
      let r' := (r.askEach reqs).2
      r' = ⟨c, b⟩ ∧
      (∀ q, (r.askEach (reqs ++ [q])).1 = (r.askEach reqs).1 ++ [(r'.ask q).1]) ∧
      (c.preferences = [.none] → ∀ xs, r'.selectPrefix xs = (.ok none, r')) ∧
      (c.preferences ≠ [.none] → ∀ xs, r'.selectPrefix xs =
        (((b.run fun a => selectBest a c.preferences xs).1.map some).mapError .selection,
          ⟨c, (b.run fun a => selectBest a c.preferences xs).2⟩)) ∧
      (∀ xs p, r'.quality xs p =
        ((b.run fun a => aggregateScore a xs p).1.mapError .selection,
          ⟨c, (b.run fun a => aggregateScore a xs p).2⟩)) ∧
      (∀ xs e, (r'.selectPrefix xs).1 = .error e →
        e = .selection .emptyCandidates ∨ ∃ p, e = .selection (.missingClassification p)) ∧
      ∀ xs x, (r'.selectPrefix xs).1 = .ok x → ∃ n, (n = 0 ∨ n = xs.length) ∧
        (r'.selectPrefix xs).2.selector.stream = r'.selector.stream.drop n := by
  refine ⟨?_, fun e => Refiner.make_eq_error_iff, ?_⟩
  · constructor
    · intro ⟨r, hr⟩
      exact (Refiner.make_eq_ok_iff.mp hr).1
    · intro hv
      exact ⟨_, Refiner.make_eq_ok_iff.mpr ⟨hv, rfl⟩⟩
  · intro r hr reqs b r'
    obtain ⟨hv, rfl⟩ := Refiner.make_eq_ok_iff.mp hr
    have hlist : ValidList c.preferences := c.validate_eq_ok_iff.mp hv
    have hr' : r' = ⟨c, b⟩ := Refiner.askEach_eq _ reqs
    refine ⟨hr', Refiner.askEach_concat _ reqs, ?_⟩
    rw [hr']
    exact ⟨fun h => Refiner.selectPrefix_off h b, fun h => Refiner.selectPrefix_on h b,
      Refiner.quality_eq b, fun xs _ => Refiner.selectPrefix_error hlist b xs,
      fun xs _ => Refiner.selectPrefix_draws hlist b xs⟩

end PrefixRanking

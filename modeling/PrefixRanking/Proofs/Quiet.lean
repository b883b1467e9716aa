import PrefixRanking.Proofs.Except
import PrefixRanking.Proofs.Refinement

/-!
# Quiet questions

A question that involves no random preference leaves the stream as it is and has one answer, whatever the
stream.  So in a session it may be put in, left out or moved, and no other answer changes:

* `Movable` says this of sessions of any kind, and `Movable.of_fixed` derives it from what one question
  does, by induction over the session;
* `Drawing.Steady` is a computation that does not look at the stream, one lemma for each way a computation
  is put together;
* `Question.Quiet` and `Request.Quiet` list the questions that involve no random preference, and
  `Question.Quiet.steady` shows that these do not look at the stream;
* `quiet_questions_move_freely` -- the main statement.
-/

namespace PrefixRanking

/-! ## sessions of any kind -/

section

variable {σ Q A : Type} {ask : σ → Q → A × σ} {askEach : σ → List Q → List A × σ}
  {P : σ → Prop} {Quiet : Q → Prop}

/-- Questions are asked one after another, each in the state that the one before it leaves. -/
structure OneByOne (ask : σ → Q → A × σ) (askEach : σ → List Q → List A × σ) : Prop where
  nil : ∀ s, askEach s [] = ([], s)
  cons : ∀ s q qs, askEach s (q :: qs) =
    ((ask s q).1 :: (askEach (ask s q).2 qs).1, (askEach (ask s q).2 qs).2)

/-- The questions of a session with their answers, without the quiet ones. -/
def loudPart (Quiet : Q → Prop) [DecidablePred Quiet] (qs : List Q) (as : List A) : List (Q × A) :=
  (qs.zip as).filter fun c => ¬ Quiet c.1

/-- In sessions that begin in a state of `P` the quiet questions may be put anywhere. -/
structure Movable (ask : σ → Q → A × σ) (askEach : σ → List Q → List A × σ) (P : σ → Prop)
    (Quiet : Q → Prop) [DecidablePred Quiet] : Prop where
  /-- A quiet question leaves the state, and it has the same answer in every state and at every position
  of every session. -/
  fixed : ∀ q, Quiet q → ∃ r, ∀ s, P s →
    ask s q = (r, s) ∧ ∀ (qs : List Q) (n : Nat), qs[n]? = some q → (askEach s qs).1[n]? = some r
  /-- Putting one in puts its answer in. -/
  inserting : ∀ s, P s → ∀ q, Quiet q → ∀ (qs : List Q) (n : Nat),
    askEach s (qs.insertIdx n q) = ((askEach s qs).1.insertIdx n (ask s q).1, (askEach s qs).2)
  /-- Leaving one out leaves its answer out. -/
  deleting : ∀ s, P s → ∀ (qs : List Q) (n : Nat) (q : Q), qs[n]? = some q → Quiet q →
    askEach s (qs.eraseIdx n) = ((askEach s qs).1.eraseIdx n, (askEach s qs).2)
  /-- Moving one moves its answer. -/
  moving : ∀ s, P s → ∀ (qs : List Q) (m n : Nat) (q : Q), qs[m]? = some q → Quiet q →
    askEach s ((qs.eraseIdx m).insertIdx n q) =
      (((askEach s qs).1.eraseIdx m).insertIdx n (ask s q).1, (askEach s qs).2)
  /-- Sessions with the same other questions in the same order answer these alike. -/
  rearranging : ∀ s, P s → ∀ qs rs : List Q,
    qs.filter (fun q => ¬ Quiet q) = rs.filter (fun q => ¬ Quiet q) →
    loudPart Quiet qs (askEach s qs).1 = loudPart Quiet rs (askEach s rs).1 ∧
      (askEach s qs).2 = (askEach s rs).2

section

variable (hseq : OneByOne ask askEach) (hinv : ∀ s q, P s → P (ask s q).2)

include hseq hinv

theorem OneByOne.getElem?_of_fixed {q : Q} {r : A} (hfix : ∀ s, P s → ask s q = (r, s)) {s : σ}
    (hs : P s) {qs : List Q} {n : Nat} (hn : qs[n]? = some q) : (askEach s qs).1[n]? = some r := by
  induction qs generalizing s n with
  | nil => simp at hn
  | cons p qs ih =>
      rw [hseq.cons]
      cases n with
      | zero =>
          cases hn
          rw [List.getElem?_cons_zero, hfix s hs]
      | succ n =>
          rw [List.getElem?_cons_succ] at hn ⊢
          exact ih (hinv s p hs) hn

theorem OneByOne.insertIdx_of_fixed {q : Q} {r : A} (hfix : ∀ s, P s → ask s q = (r, s)) {s : σ}
    (hs : P s) (qs : List Q) (n : Nat) :
    askEach s (qs.insertIdx n q) = ((askEach s qs).1.insertIdx n r, (askEach s qs).2) := by
  induction qs generalizing s n with
  | nil =>
      cases n with
      | zero => rw [List.insertIdx_zero, hseq.cons, hfix s hs, hseq.nil]; rfl
      | succ n => rw [List.insertIdx_succ_nil, hseq.nil]; rfl
  | cons p qs ih =>
      cases n with
      | zero => rw [List.insertIdx_zero, hseq.cons, hfix s hs]; rfl
      | succ n => rw [List.insertIdx_succ_cons, hseq.cons, ih (hinv s p hs), hseq.cons]; rfl

theorem OneByOne.eraseIdx_of_fixed {q : Q} {r : A} (hfix : ∀ s, P s → ask s q = (r, s)) {s : σ}
    (hs : P s) {qs : List Q} {n : Nat} (hn : qs[n]? = some q) :
    askEach s (qs.eraseIdx n) = ((askEach s qs).1.eraseIdx n, (askEach s qs).2) := by
  induction qs generalizing s n with
  | nil => simp at hn
  | cons p qs ih =>
      cases n with
      | zero =>
          cases hn
          rw [hseq.cons, hfix s hs]
          rfl
      | succ n =>
          rw [List.getElem?_cons_succ] at hn
          rw [List.eraseIdx_cons_succ, hseq.cons, ih (hinv s p hs) hn, hseq.cons]
          rfl

/-- The other questions of a session, asked alone, have the same answers and lead to the same state. -/
theorem OneByOne.loudPart_eq [DecidablePred Quiet]
    (hfix : ∀ q, Quiet q → ∃ r, ∀ s, P s → ask s q = (r, s)) {s : σ} (hs : P s) (qs : List Q) :
    loudPart Quiet qs (askEach s qs).1 =
        (qs.filter fun q => ¬ Quiet q).zip (askEach s (qs.filter fun q => ¬ Quiet q)).1 ∧
      (askEach s qs).2 = (askEach s (qs.filter fun q => ¬ Quiet q)).2 := by
  induction qs generalizing s with
  | nil => exact ⟨rfl, rfl⟩
  | cons q qs ih =>
      rw [hseq.cons]
      by_cases hq : Quiet q
      · obtain ⟨r, hr⟩ := hfix q hq
        obtain ⟨hpart, hstate⟩ := ih hs
        rw [hr s hs]
        simp only [loudPart, List.zip_cons_cons, List.filter_cons, hq, not_true, decide_false,
          Bool.false_eq_true, if_false]
        exact ⟨hpart, hstate⟩
      · obtain ⟨hpart, hstate⟩ := ih (hinv s q hs)
        simp only [loudPart, List.zip_cons_cons, List.filter_cons, hq, not_false_eq_true, decide_true,
          if_true, hseq.cons] at hpart ⊢
        exact ⟨by rw [hpart], hstate⟩

/-- **What one quiet question does decides what a session with it does.** -/
theorem Movable.of_fixed [DecidablePred Quiet]
    (hfix : ∀ q, Quiet q → ∃ r, ∀ s, P s → ask s q = (r, s)) :
    Movable ask askEach P Quiet where
  fixed q hq := by
    obtain ⟨r, hr⟩ := hfix q hq
    exact ⟨r, fun s hs => ⟨hr s hs, fun qs n => hseq.getElem?_of_fixed hinv hr hs⟩⟩
  inserting s hs q hq qs n := by
    obtain ⟨r, hr⟩ := hfix q hq
    rw [hseq.insertIdx_of_fixed hinv hr hs, hr s hs]
  deleting s hs qs n q hn hq := by
    obtain ⟨r, hr⟩ := hfix q hq
    exact hseq.eraseIdx_of_fixed hinv hr hs hn
  moving s hs qs m n q hm hq := by
    obtain ⟨r, hr⟩ := hfix q hq
    rw [hseq.insertIdx_of_fixed hinv hr hs, hseq.eraseIdx_of_fixed hinv hr hs hm, hr s hs]
  rearranging s hs qs rs h := by
    obtain ⟨hqs, hqs'⟩ := hseq.loudPart_eq hinv hfix hs qs
    obtain ⟨hrs, hrs'⟩ := hseq.loudPart_eq hinv hfix hs rs
    rw [hqs, hqs', hrs, hrs', h]
    exact ⟨rfl, rfl⟩

end

end

/-! ## computations that do not look at the stream -/

namespace Drawing

variable {α β : Type}

/-- The computation leaves every stream as it is and has one result. -/
def Steady (x : Drawing α) : Prop := ∃ r, ∀ s, x.run s = (r, s)

theorem steady_pure (a : α) : (pure a : Drawing α).Steady := ⟨.ok a, fun _ => rfl⟩

theorem steady_fail (e : SelectionError) : (Drawing.fail e : Drawing α).Steady :=
  ⟨.error e, fun _ => rfl⟩

theorem Steady.bind {x : Drawing α} {f : α → Drawing β} (hx : x.Steady) (hf : ∀ a, (f a).Steady) :
    (x >>= f).Steady := by
  obtain ⟨r, hr⟩ := hx
  cases r with
  | ok a =>
      obtain ⟨r', hr'⟩ := hf a
      exact ⟨r', fun s => by rw [bind_ok (hr s), hr' s]⟩
  | error e => exact ⟨.error e, fun s => bind_error (hr s)⟩

theorem steady_each {f : α → Drawing β} {as : List α} (hf : ∀ a ∈ as, (f a).Steady) :
    (each f as).Steady := by
  induction as with
  | nil => exact steady_pure []
  | cons a as ih =>
      exact (hf a List.mem_cons_self).bind fun b =>
        (ih fun a' ha' => hf a' (List.mem_cons_of_mem a ha')).bind fun bs => steady_pure (b :: bs)

end Drawing

open Drawing (steady_pure steady_fail steady_each)

/-- Was the question refused before anything was scored? -/
def SelectionError.IsRefusal : SelectionError → Prop
  | unsupportedPreference _ | emptyCandidates => True
  | missingClassification _ => False

section

variable {a : Analyses} {p : Preference} {sc : Scorer}

/-! ## scores without a draw -/

/-- Only the random preference looks at the stream. -/
theorem Scorer.steady_score (h : make p = .ok sc) (hp : p ≠ .random) (x : Prefix) :
    (sc.score a x).Steady := by
  have hdraw : ∀ d : Score, p.score? a d x = p.score? a .zero x := fun d =>
    Preference.score?_of_ne_random hp a d .zero x
  cases hv : p.score? a .zero x with
  | none => exact ⟨_, fun s => by rw [run_score h, hdraw, hv]⟩
  | some v => exact ⟨_, fun s => by rw [run_score h, hdraw, hv, Preference.draws_eq_zero hp, Keystream.drop_zero]⟩

theorem Scorer.steady_compare (h : make p = .ok sc) (hp : p ≠ .random) (x y : Prefix) :
    (sc.compare a x y).Steady :=
  (steady_score h hp x).bind fun v => (steady_score h hp y).bind fun w => steady_pure (Ord.compare v w)

theorem Scorer.steady_key {ps : List Preference} {scs : List Scorer} (h : makeEach ps = .ok scs)
    (hps : .random ∉ ps) (x : Prefix) : (key a scs x).Steady := by
  refine steady_each ?_
  induction ps generalizing scs with
  | nil => cases h; exact List.forall_mem_nil _
  | cons p ps ih =>
      obtain ⟨sc, scs', hsc, hscs, rfl⟩ := makeEach_cons h
      rw [List.mem_cons, not_or] at hps
      exact List.forall_mem_cons.mpr ⟨steady_score hsc (Ne.symm hps.1) x, ih hscs hps.2⟩

theorem steady_bestFrom {ps : List Preference} {scs : List Scorer} (h : Scorer.makeEach ps = .ok scs)
    (hps : .random ∉ ps) (best : Option Best) (i : Nat) (xs : List Prefix) :
    (bestFrom a scs best i xs).Steady := by
  induction xs generalizing best i with
  | nil => exact steady_pure best
  | cons x xs ih => exact (Scorer.steady_key h hps x).bind fun k => ih _ (i + 1)

/-- A list with `none` and a batch without candidates are refused, on every stream. -/
theorem run_selectIndex_refused {ps : List Preference} {xs : List Prefix}
    (h : .none ∈ ps ∨ xs = []) :
    ∃ e : SelectionError, e.IsRefusal ∧ ∀ s, (selectIndex a ps xs).run s = (.error e, s) := by
  by_cases hnone : .none ∈ ps
  · exact ⟨.unsupportedPreference .none, trivial, run_selectIndex_unsupported hnone xs⟩
  · rw [h.resolve_left hnone]
    exact ⟨.emptyCandidates, trivial, run_selectIndex_empty hnone⟩

/-- A selection is fixed if its list has no random entry, and also where it is refused. -/
theorem steady_selectIndex {ps : List Preference} {xs : List Prefix}
    (h : .random ∉ ps ∨ .none ∈ ps ∨ xs = []) : (selectIndex a ps xs).Steady := by
  by_cases hrefused : .none ∈ ps ∨ xs = []
  · obtain ⟨e, -, hrun⟩ := run_selectIndex_refused hrefused
    exact ⟨_, hrun⟩
  have hps := h.resolve_right hrefused
  rw [not_or] at hrefused
  obtain ⟨scs, hm⟩ := Scorer.makeEach_ok hrefused.1
  rw [selectIndex, hm]
  cases xs with
  | nil => exact absurd rfl hrefused.2
  | cons x xs =>
      refine (steady_bestFrom hm hps none 0 (x :: xs)).bind fun best => ?_
      cases best with
      | none => exact steady_fail _
      | some b => exact steady_pure b.position

theorem steady_selectBest {ps : List Preference} {xs : List Prefix}
    (h : .random ∉ ps ∨ .none ∈ ps ∨ xs = []) : (selectBest a ps xs).Steady := by
  refine (steady_selectIndex h).bind fun i => ?_
  cases xs[i]? with
  | none => exact steady_fail _
  | some x => exact steady_pure x

theorem steady_aggregateScore (xs : List Prefix) (h : p ≠ .random ∨ a.hasClassification = false) :
    (aggregateScore a xs p).Steady := by
  by_cases ha : a.hasClassification = false
  · exact ⟨_, run_aggregateScore_unclassified ha xs p⟩
  · have hp : p ≠ .random := h.resolve_right ha
    rw [Bool.not_eq_false] at ha
    rw [aggregateScore, if_pos ha]
    cases hsc : Scorer.make p with
    | error e => exact steady_fail e
    | ok sc =>
        exact (steady_each fun x _ => Scorer.steady_score hsc hp x).bind fun vs => steady_pure _

end

/-! ## quiet questions -/

/-- A question to a selector that involves no random preference. -/
inductive Question.Quiet (a : Analyses) : Question → Prop
  | index {ps : List Preference} {xs : List Prefix} (h : .random ∉ ps) : Quiet a (.index ps xs)
  | best {ps : List Preference} {xs : List Prefix} (h : .random ∉ ps) : Quiet a (.best ps xs)
  | aggregate {xs : List Prefix} {p : Preference} (h : p ≠ .random) : Quiet a (.aggregate xs p)
  | score {p : Preference} {x : Prefix} (h : p ≠ .random) : Quiet a (.score p x)
  | compare {p : Preference} {x y : Prefix} (h : p ≠ .random) : Quiet a (.compare p x y)
  /-- Without a classification a batch has the sentinel, whatever the preference. -/
  | unclassified {xs : List Prefix} {p : Preference} (h : a.hasClassification = false) :
      Quiet a (.aggregate xs p)
  /-- On some stream the question is refused. -/
  | refused {q : Question} {s : Keystream} {e : SelectionError} (he : e.IsRefusal)
      (h : ((q.answer a).run s).1 = .error e) : Quiet a q

/-- The same, by what is asked. -/
def Question.HasNoDraw (a : Analyses) : Question → Prop
  | index ps xs | best ps xs => .random ∉ ps ∨ .none ∈ ps ∨ xs = []
  | aggregate _ p => p ≠ .random ∨ a.hasClassification = false
  | score p _ | compare p _ _ => p ≠ .random

instance Question.decidableHasNoDraw (a : Analyses) : (q : Question) → Decidable (q.HasNoDraw a)
  | index ps xs | best ps xs => inferInstanceAs (Decidable (.random ∉ ps ∨ .none ∈ ps ∨ xs = []))
  | aggregate _ p => inferInstanceAs (Decidable (p ≠ .random ∨ a.hasClassification = false))
  | score p _ | compare p _ _ => inferInstanceAs (Decidable (p ≠ .random))

section

variable {a : Analyses}

theorem steady_of_hasNoDraw {q : Question} (h : q.HasNoDraw a) : (q.answer a).Steady := by
  cases q with
  | index ps xs => exact (steady_selectIndex h).bind fun i => steady_pure _
  | best ps xs => exact (steady_selectBest h).bind fun x => steady_pure _
  | aggregate xs p => exact (steady_aggregateScore xs h).bind fun v => steady_pure _
  | score p x =>
      rw [Question.answer]
      cases hsc : Scorer.make p with
      | error e => exact steady_fail e
      | ok sc => exact (Scorer.steady_score hsc h x).bind fun v => steady_pure _
  | compare p x y =>
      rw [Question.answer]
      cases hsc : Scorer.make p with
      | error e => exact steady_fail e
      | ok sc => exact (Scorer.steady_compare hsc h x y).bind fun o => steady_pure _

theorem Drawing.run_map_eq_error_iff {α β : Type} {x : Drawing α} {f : α → β} {s : Keystream}
    {e : SelectionError} :
    ((x >>= fun v => pure (f v)).run s).1 = .error e ↔ (x.run s).1 = .error e := by
  rw [run_map, map_eq_error_iff]

/-- A selection is refused for its list or for want of candidates. -/
theorem none_mem_or_eq_nil_of_refused {ps : List Preference} {xs : List Prefix} {s : Keystream}
    {e : SelectionError} (he : e.IsRefusal) (h : ((selectIndex a ps xs).run s).1 = .error e) :
    .none ∈ ps ∨ xs = [] := by
  obtain ⟨r, t, hrun, ho⟩ := selectIndex_outcome a ps xs s
  rw [hrun] at h
  subst h
  cases ho with
  | unsupported hps => exact .inl hps
  | empty _ hxs => exact .inr hxs
  | missing _ _ _ _ _ => exact he.elim

theorem hasNoDraw_of_refused {q : Question} {s : Keystream} {e : SelectionError} (he : e.IsRefusal)
    (h : ((q.answer a).run s).1 = .error e) : q.HasNoDraw a := by
  cases q with
  | index ps xs =>
      rw [Question.answer, Drawing.run_map_eq_error_iff] at h
      exact .inr (none_mem_or_eq_nil_of_refused he h)
  | best ps xs =>
      rw [Question.answer, Drawing.run_map_eq_error_iff] at h
      have hidx := run_selectBest_eq_error_iff.mp (Prod.ext h rfl)
      exact .inr (none_mem_or_eq_nil_of_refused he (congrArg Prod.fst hidx))
  | aggregate xs p =>
      by_contra hno
      obtain ⟨rfl, ha⟩ : p = .random ∧ a.hasClassification = true := by
        simpa [Question.HasNoDraw] using hno
      rw [Question.answer, Drawing.run_map_eq_error_iff, run_aggregateScore_ok ha (by simp)] at h
      contradiction
  | score p x =>
      rintro rfl
      contradiction
  | compare p x y =>
      rintro rfl
      contradiction

theorem Question.answer_best_refused {ps : List Preference} {xs : List Prefix}
    (h : .none ∈ ps ∨ xs = []) :
    ∃ e : SelectionError, e.IsRefusal ∧ ∀ s, (((best ps xs).answer a).run s).1 = .error e := by
  obtain ⟨e, he, hrun⟩ := run_selectIndex_refused (a := a) h
  refine ⟨e, he, fun s => ?_⟩
  rw [answer, Drawing.run_map_eq_error_iff, run_selectBest_eq_error_iff.mpr (hrun s)]

theorem Question.quiet_iff {q : Question} : q.Quiet a ↔ q.HasNoDraw a := by
  constructor
  · intro h
    cases h with
    | index h => exact .inl h
    | best h => exact .inl h
    | aggregate h => exact .inl h
    | score h => exact h
    | compare h => exact h
    | unclassified h => exact .inr h
    | refused he h => exact hasNoDraw_of_refused he h
  · intro h
    cases q with
    | index ps xs =>
        refine h.elim .index fun hrefused => ?_
        obtain ⟨e, he, hrun⟩ := run_selectIndex_refused (a := a) hrefused
        refine .refused (s := .ofSeed 0) he ?_
        rw [answer, Drawing.run_map_eq_error_iff, hrun]
    | best ps xs =>
        refine h.elim .best fun hrefused => ?_
        obtain ⟨e, he, hrun⟩ := answer_best_refused hrefused
        exact .refused he (hrun (.ofSeed 0))
    | aggregate xs p => exact h.elim .aggregate .unclassified
    | score p x => exact .score h
    | compare p x y => exact .compare h

end

instance Question.decidableQuiet (a : Analyses) : DecidablePred (Question.Quiet a) :=
  fun _ => decidable_of_iff _ quiet_iff.symm

/-! ## quiet requests -/

/-- The error of a reply, without what a refiner wraps around it. -/
def Reply.Fails : Reply → SelectionError → Prop
  | refine r, e => r = .error (.selection e)
  | quality r, e => r = .error (.selection e)
  | selector r, e => r = .error e

/-- A question to a refiner under a list of preferences that involves no random preference. -/
inductive Request.Quiet (ps : List Preference) (a : Analyses) : Request → Prop
  /-- Selection is off. -/
  | off {xs : List Prefix} (h : ps = [.none]) : Quiet ps a (.refine xs)
  | refine {xs : List Prefix} (h : .random ∉ ps) : Quiet ps a (.refine xs)
  | quality {xs : List Prefix} {p : Preference} (h : p ≠ .random) : Quiet ps a (.quality xs p)
  | unclassified {xs : List Prefix} {p : Preference} (h : a.hasClassification = false) :
      Quiet ps a (.quality xs p)
  | selector {q : Question} (h : q.Quiet a) : Quiet ps a (.selector q)
  /-- Some refiner under this list refuses the question. -/
  | refused {req : Request} {r : Refiner} (hps : r.config.preferences = ps)
      (ha : r.selector.analyses = a) {e : SelectionError} (he : e.IsRefusal)
      (h : (r.ask req).1.Fails e) : Quiet ps a req

/-- The same, by what is asked. -/
def Request.HasNoDraw (ps : List Preference) (a : Analyses) : Request → Prop
  | refine xs => (Question.best ps xs).HasNoDraw a
  | quality xs p => (Question.aggregate xs p).HasNoDraw a
  | selector q => q.HasNoDraw a

instance Request.decidableHasNoDraw (ps : List Preference) (a : Analyses) :
    (req : Request) → Decidable (req.HasNoDraw ps a)
  | refine xs => Question.decidableHasNoDraw a (.best ps xs)
  | quality xs p => Question.decidableHasNoDraw a (.aggregate xs p)
  | selector q => Question.decidableHasNoDraw a q

section

variable {a : Analyses} {ps : List Preference}

/-- A steady computation has one answer from all selectors with the same analyses. -/
theorem Selector.run_of_steady {α : Type} {f : Analyses → Drawing α} (h : (f a).Steady) :
    ∃ r, ∀ s : Selector, s.analyses = a → s.run f = (r, s) := by
  obtain ⟨r, hr⟩ := h
  exact ⟨r, fun s hs => run_eq_iff.mpr ⟨rfl, by rw [hs, hr]⟩⟩

theorem Refiner.ask_of_hasNoDraw {req : Request} (h : req.HasNoDraw ps a) :
    ∃ reply, ∀ r : Refiner, r.config.preferences = ps ∧ r.selector.analyses = a →
      r.ask req = (reply, r) := by
  cases req with
  | refine xs =>
      by_cases hoff : ps = [.none]
      · refine ⟨.refine (.ok none), fun ⟨c, b⟩ ⟨hps, _⟩ => ?_⟩
        rw [ask, selectPrefix_off (hps.trans hoff)]
      · obtain ⟨x, hx⟩ := Selector.run_of_steady (f := fun a => selectBest a ps xs)
          (steady_selectBest h)
        refine ⟨.refine ((x.map some).mapError .selection), fun ⟨c, b⟩ ⟨hps, ha⟩ => ?_⟩
        rw [ask, selectPrefix_on fun hc => hoff (hps.symm.trans hc)]
        simp only at hps ha
        rw [hps, hx b ha]
  | quality xs p =>
      obtain ⟨v, hv⟩ := Selector.run_of_steady (f := fun a => aggregateScore a xs p)
        (steady_aggregateScore xs h)
      refine ⟨.quality (v.mapError .selection), fun ⟨c, b⟩ ⟨_, ha⟩ => ?_⟩
      rw [ask, quality_eq, hv b ha]
  | selector q =>
      obtain ⟨r, hr⟩ := Selector.run_of_steady (f := fun a => q.answer a) (steady_of_hasNoDraw h)
      refine ⟨.selector r, fun ⟨c, b⟩ ⟨_, ha⟩ => ?_⟩
      rw [ask, Selector.ask, hr b ha]

/-- A request fails as its question does, when that is put to the bare selector. -/
theorem Refiner.fails_iff {c : Config} {b : Selector} {req : Request} {q : Question}
    {e : SelectionError} (hq : req.question? c.preferences = some q) :
    ((Refiner.mk c b).ask req).1.Fails e ↔ ((q.answer b.analyses).run b.stream).1 = .error e := by
  have hwrap : ∀ {α : Type} (x : Except SelectionError α),
      x.mapError RefinementError.selection = .error (.selection e) ↔ x = .error e := by
    intro α x
    cases x <;> simp [Except.mapError]
  cases req with
  | refine xs =>
      by_cases hoff : c.preferences = [.none]
      · simp [Request.question?, hoff] at hq
      · obtain rfl : .best c.preferences xs = q := by simpa [Request.question?, hoff] using hq
        rw [ask, selectPrefix_on hoff, Question.answer, Drawing.run_map_eq_error_iff]
        exact (hwrap _).trans map_eq_error_iff
  | quality xs p =>
      cases hq
      rw [ask, quality_eq, Question.answer, Drawing.run_map_eq_error_iff]
      exact hwrap _
  | selector q' =>
      cases hq
      rfl

theorem Request.hasNoDraw_of_fails {req : Request} {r : Refiner} {e : SelectionError}
    (he : e.IsRefusal) (h : (r.ask req).1.Fails e) :
    req.HasNoDraw r.config.preferences r.selector.analyses := by
  cases req with
  | refine xs =>
      by_cases hoff : r.config.preferences = [.none]
      · exact .inl (by simp [hoff])
      · exact hasNoDraw_of_refused he ((Refiner.fails_iff (by rw [question?, if_neg hoff])).mp h)
  | quality xs p => exact hasNoDraw_of_refused he ((Refiner.fails_iff rfl).mp h)
  | selector q => exact hasNoDraw_of_refused he h

theorem Request.quiet_iff {req : Request} : req.Quiet ps a ↔ req.HasNoDraw ps a := by
  constructor
  · intro h
    cases h with
    | off h => exact .inl (by simp [h])
    | refine h => exact .inl h
    | quality h => exact .inl h
    | unclassified h => exact .inr h
    | selector h => exact Question.quiet_iff.mp h
    | refused hps ha he h =>
        subst hps ha
        exact hasNoDraw_of_fails he h
  · intro h
    cases req with
    | refine xs =>
        by_cases hoff : ps = [.none]
        · exact .off hoff
        · refine h.elim .refine fun hrefused => ?_
          obtain ⟨e, he, hrun⟩ := Question.answer_best_refused hrefused
          exact .refused (r := ⟨⟨.none, ps, 0⟩, .ofSeed a 0⟩) rfl rfl he
            ((Refiner.fails_iff (by rw [question?, if_neg hoff])).mpr (hrun _))
    | quality xs p => exact h.elim .quality .unclassified
    | selector q => exact .selector (Question.quiet_iff.mpr h)

end

instance Request.decidableQuiet (ps : List Preference) (a : Analyses) :
    DecidablePred (Request.Quiet ps a) :=
  fun _ => decidable_of_iff _ quiet_iff.symm

/-! ## the main statement -/

theorem Selector.oneByOne : OneByOne ask askEach := ⟨fun _ => rfl, fun _ _ _ => rfl⟩

theorem Refiner.oneByOne : OneByOne ask askEach := ⟨fun _ => rfl, fun _ _ _ => rfl⟩

/-- A question leaves the analyses and the list of preferences. -/
theorem Refiner.kept_ask {ps : List Preference} {a : Analyses} (r : Refiner) (req : Request)
    (h : r.config.preferences = ps ∧ r.selector.analyses = a) :
    (r.ask req).2.config.preferences = ps ∧ (r.ask req).2.selector.analyses = a := by
  refine ⟨by rw [config_ask]; exact h.1, ?_⟩
  obtain ⟨c, b⟩ := r
  rw [ask_eq, Selector.analyses_askEach]
  exact h.2

/-- **Quiet questions move freely**, in sessions of a selector and in sessions of a refiner: whatever the
stream and so whatever the seed, each has one answer, and no other answer depends on whether and where it
is asked. -/
theorem quiet_questions_move_freely (a : Analyses) :
    Movable Selector.ask Selector.askEach (fun s => s.analyses = a) (Question.Quiet a) ∧
    ∀ ps, Movable Refiner.ask Refiner.askEach
      (fun r => r.config.preferences = ps ∧ r.selector.analyses = a) (Request.Quiet ps a) := by
  constructor
  · refine .of_fixed Selector.oneByOne (fun s q hs => hs) fun q hq => ?_
    exact Selector.run_of_steady (f := fun a => q.answer a)
      (steady_of_hasNoDraw (Question.quiet_iff.mp hq))
  · intro ps
    refine .of_fixed Refiner.oneByOne Refiner.kept_ask fun req hq => ?_
    exact Refiner.ask_of_hasNoDraw (Request.quiet_iff.mp hq)

end PrefixRanking

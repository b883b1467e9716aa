import Mathlib.Data.List.Forall2
import PrefixRanking.Proofs.Selection

/-!
# What a selection reads

A selection computes with the scores of its candidates and with nothing else: where these are the same, the
same candidate is selected or the same error reported, behind the same draws (`run_selectIndex_congr`).
That covers the failing selections too, as a score may be missing on both sides.

A score in turn is a function of what its measure reads:

* `Measure.observation` is what a measure reads of a prefix;
* `Measure.SameAnswers` says that two classifications cannot be told apart by what a measure asks them
  about a set of identifiers;
* `Alike` puts these together for the entries of a list.

The main statement is

* `selection_reads_what_it_names` -- selections that are alike for a list have the same outcome under it.
-/

namespace PrefixRanking

/-! ## selections with the same scores -/

section

variable {a b : Analyses} {ps : List Preference}

/-- Under every entry of the list both prefixes have the same score, or none, whatever the next draw is. -/
def SameScores (a b : Analyses) (ps : List Preference) (x y : Prefix) : Prop :=
  ∀ p ∈ ps, ∀ d, p.score? a d x = p.score? b d y

theorem run_key_congr {scs : List Scorer} (hm : Scorer.makeEach ps = .ok scs) {x y : Prefix}
    (h : SameScores a b ps x y) (s : Keystream) :
    (Scorer.key a scs x).run s = (Scorer.key b scs y).run s := by
  induction ps generalizing scs s with
  | nil => cases hm; rfl
  | cons p ps ih =>
      obtain ⟨sc, scs', hsc, hscs, rfl⟩ := Scorer.makeEach_cons hm
      have hscore : (sc.score a x).run s = (sc.score b y).run s := by
        rw [Scorer.run_score hsc, Scorer.run_score hsc, h p List.mem_cons_self]
      have hkey := ih hscs fun q hq => h q (List.mem_cons_of_mem p hq)
      simp only [Scorer.key, Drawing.each] at hkey ⊢
      rw [Drawing.run_bind, Drawing.run_bind, hscore]
      split
      · rw [Drawing.run_bind, Drawing.run_bind, hkey]
      · rfl

/-- One step of the walk is the same on both sides, hence the whole walk is. -/
theorem run_bestFrom_congr {scs : List Scorer} (hm : Scorer.makeEach ps = .ok scs) {xs ys : List Prefix}
    (h : List.Forall₂ (SameScores a b ps) xs ys) (best : Option Best) (i : Nat) (s : Keystream) :
    (bestFrom a scs best i xs).run s = (bestFrom b scs best i ys).run s := by
  induction h generalizing best i s with
  | nil => rfl
  | cons hxy _ ih =>
      rw [bestFrom, bestFrom, Drawing.run_bind, Drawing.run_bind, run_key_congr hm hxy s]
      split
      · exact ih _ _ _
      · rfl

/-- **A selection reads only the scores of its candidates.** -/
theorem run_selectIndex_congr {xs ys : List Prefix} (h : List.Forall₂ (SameScores a b ps) xs ys)
    (s : Keystream) : (selectIndex a ps xs).run s = (selectIndex b ps ys).run s := by
  rw [selectIndex, selectIndex]
  cases hm : Scorer.makeEach ps with
  | error e => rfl
  | ok scs =>
      cases h with
      | nil => rfl
      | cons hxy hrest =>
          have hwalk := run_bestFrom_congr hm (.cons hxy hrest) none 0 s
          simp only [List.isEmpty_cons, Bool.false_eq_true, if_false]
          rw [Drawing.run_bind, Drawing.run_bind, hwalk]

end

/-! ## what a measure reads -/

namespace Measure

/-- What a measure reads of a prefix: one of the three measurements, or the identifiers. -/
def observation (x : Prefix) : Measure → UInt64 ⊕ Identifiers
  | length => .inl x.pathLength
  | width => .inl x.nontrivialLength
  | pivot => .inl x.pivotDepth
  | domain | loops | assignments | assumptions => .inr x.identifiers

/-- What a measure asks about these identifiers has the same answer from both classifications, each with
its loops. -/
def SameAnswers (c d : Classification) (l k : Option LoopStructure) (ids : Identifiers) : Measure → Prop
  | domain | loops => c.domainScore ids l = d.domainScore ids k
  | assignments => ∀ id ∈ ids.toList, c.assignedCount id = d.assignedCount id
  | assumptions => ∀ id ∈ ids.toList, c.assumedCount id = d.assumedCount id
  | length | width | pivot => True

theorem sameAnswers_of_not_needs {m : Measure} (h : m.needsClassification = false)
    (c d : Classification) (l k : Option LoopStructure) (ids : Identifiers) :
    m.SameAnswers c d l k ids := by
  cases m with
  | length | width | pivot => trivial
  | domain | loops | assignments | assumptions => cases h

/-- Only the domain and the loops read the loop structure. -/
theorem sameAnswers_of_same_classification {m : Measure} (h : m ≠ .domain ∧ m ≠ .loops)
    (c : Classification) (l k : Option LoopStructure) (ids : Identifiers) :
    m.SameAnswers c c l k ids := by
  cases m with
  | length | width | pivot => trivial
  | assignments | assumptions => exact fun _ _ => rfl
  | domain => exact absurd rfl h.1
  | loops => exact absurd rfl h.2

/-- Answers of classifications are the same if both are there or none is, and if both answer alike. -/
theorem map_classification_congr {a b : Analyses} (hpresent : a.hasClassification = b.hasClassification)
    {f g : Classification → Score}
    (h : ∀ c d, a.classification = some c → b.classification = some d → f c = g d) :
    a.classification.map f = b.classification.map g := by
  rw [Analyses.hasClassification, Analyses.hasClassification] at hpresent
  cases hc : a.classification with
  | none =>
      cases hd : b.classification with
      | none => rfl
      | some d => rw [hc, hd] at hpresent; contradiction
  | some c =>
      cases hd : b.classification with
      | none => rw [hc, hd] at hpresent; contradiction
      | some d => rw [Option.map_some, Option.map_some, h c d hc hd]

/-- **A score is a function of what its measure reads.** -/
theorem score?_congr {m : Measure} {a b : Analyses} {x y : Prefix}
    (hobs : m.observation x = m.observation y)
    (hpresent : m.needsClassification = true → a.hasClassification = b.hasClassification)
    (hanswers : ∀ c d, a.classification = some c → b.classification = some d →
      m.SameAnswers c d a.loops b.loops x.identifiers) :
    m.score? a x = m.score? b y := by
  cases m with
  | length => rw [score?, score?, Sum.inl.inj hobs]
  | width => rw [score?, score?, Sum.inl.inj hobs]
  | pivot => rw [score?, score?, Sum.inl.inj hobs]
  | domain =>
      rw [score?, score?, ← Sum.inr.inj hobs]
      exact map_classification_congr (hpresent rfl) hanswers
  | loops =>
      rw [score?, score?, ← Sum.inr.inj hobs]
      refine map_classification_congr (hpresent rfl) fun c d hc hd => ?_
      rw [show c.domainScore x.identifiers a.loops = _ from hanswers c d hc hd]
  | assignments =>
      rw [score?, score?, ← Sum.inr.inj hobs]
      refine map_classification_congr (hpresent rfl) fun c d hc hd => ?_
      rw [List.map_congr_left (hanswers c d hc hd)]
  | assumptions =>
      rw [score?, score?, ← Sum.inr.inj hobs]
      refine map_classification_congr (hpresent rfl) fun c d hc hd => ?_
      rw [List.map_congr_left (hanswers c d hc hd)]

end Measure

/-! ## selections that are alike for a list -/

/-- The entries of a list read the same of both prefixes. -/
def SameObservations (ps : List Preference) (x y : Prefix) : Prop :=
  ∀ m o, .by m o ∈ ps → m.observation x = m.observation y

/-- What the entries of a list ask about a prefix has the same answers from two classifications. -/
def SameAnswers (ps : List Preference) (a b : Analyses) (x : Prefix) : Prop :=
  ∀ c d, a.classification = some c → b.classification = some d →
    ∀ m o, .by m o ∈ ps → m.SameAnswers c d a.loops b.loops x.identifiers

/-- Two selectors, each with its candidates, that the entries of a list cannot tell apart. -/
structure Alike (ps : List Preference) (s s' : Selector) (xs ys : List Prefix) : Prop where
  stream : s.stream = s'.stream
  /-- There are as many candidates, and position by position the same is read of them. -/
  observed : List.Forall₂ (SameObservations ps) xs ys
  /-- If an entry needs a classification, both have one or none has. -/
  present : (∃ p ∈ ps, p.needsClassification = true) →
    s.analyses.hasClassification = s'.analyses.hasClassification
  answers : ∀ x ∈ xs, SameAnswers ps s.analyses s'.analyses x

/-- The same candidate is selected, or the same error reported, and the same stream is left. -/
def SameOutcome (ps : List Preference) (s s' : Selector) (xs ys : List Prefix) : Prop :=
  let outcome := s.run fun a => selectIndex a ps xs
  let outcome' := s'.run fun a => selectIndex a ps ys
  outcome.1 = outcome'.1 ∧ outcome.2.stream = outcome'.2.stream

namespace Alike

variable {ps : List Preference} {s s' : Selector} {xs ys : List Prefix}

/-- What the entries cannot tell apart has the same scores under them. -/
theorem sameScores (h : Alike ps s s' xs ys) :
    List.Forall₂ (SameScores s.analyses s'.analyses ps) xs ys := by
  -- the answers are about the identifiers of the first candidates, so these join the relation
  have hboth := (List.forall₂_and_left xs ys).mpr ⟨h.answers, h.observed⟩
  refine hboth.imp fun x y ⟨hanswers, hobs⟩ p hp d => ?_
  cases p with
  | «by» m o =>
      have hscore : m.score? s.analyses x = m.score? s'.analyses y :=
        Measure.score?_congr (hobs m o hp) (fun hm => h.present ⟨_, hp, hm⟩)
          fun c d hc hd => hanswers c d hc hd m o hp
      cases o with
      | min => exact hscore
      | max => rw [Preference.score?, Preference.score?, hscore]
  | random => rfl
  | none => rfl

theorem sameOutcome (h : Alike ps s s' xs ys) : SameOutcome ps s s' xs ys := by
  have hrun := run_selectIndex_congr h.sameScores s.stream
  simp only [SameOutcome, Selector.run]
  rw [hrun, h.stream]
  exact ⟨rfl, rfl⟩

/-- Under a list without entries that need a classification, any two selectors on the same stream are
alike. -/
theorem of_not_needs (h : ∀ p ∈ ps, p.needsClassification = false) (a b : Analyses) (t : Keystream)
    (xs : List Prefix) : Alike ps ⟨a, t⟩ ⟨b, t⟩ xs xs where
  stream := rfl
  observed := List.forall₂_same.mpr fun _ _ _ _ _ => rfl
  present := fun ⟨p, hp, hneeds⟩ => by rw [h p hp] at hneeds; contradiction
  answers x _ c d _ _ m _ hp := Measure.sameAnswers_of_not_needs (h _ hp) c d _ _ x.identifiers

/-- Under a list without the domain and the loops, the loop structure does not matter. -/
theorem of_not_loops (h : ∀ m o, .by m o ∈ ps → m ≠ .domain ∧ m ≠ .loops)
    (classification : Option Classification) (l k : Option LoopStructure) (t : Keystream)
    (xs : List Prefix) : Alike ps ⟨⟨classification, l⟩, t⟩ ⟨⟨classification, k⟩, t⟩ xs xs where
  stream := rfl
  observed := List.forall₂_same.mpr fun _ _ _ _ _ => rfl
  present _ := rfl
  answers x _ c d hc hd m o hp := by
    obtain rfl : c = d := Option.some.inj (hc.symm.trans hd)
    exact Measure.sameAnswers_of_same_classification (h m o hp) c l k x.identifiers

end Alike

/-! ## the main statement -/

/-- **A selection depends only on what its preferences name**: selectors and candidates that the entries of
a list cannot tell apart have the same outcome under it, also where the selection fails.  In particular no
classification is missed where no entry needs one, and loops matter only to the domain and the loops. -/
theorem selection_reads_what_it_names (ps : List Preference) :
    (∀ s s' xs ys, Alike ps s s' xs ys → SameOutcome ps s s' xs ys) ∧
    ((∀ p ∈ ps, p.needsClassification = false) →
      ∀ (a b : Analyses) (t : Keystream) (xs : List Prefix), SameOutcome ps ⟨a, t⟩ ⟨b, t⟩ xs xs) ∧
    ((∀ m o, .by m o ∈ ps → m ≠ .domain ∧ m ≠ .loops) →
      ∀ (c : Option Classification) (l k : Option LoopStructure) (t : Keystream) (xs : List Prefix),
        SameOutcome ps ⟨⟨c, l⟩, t⟩ ⟨⟨c, k⟩, t⟩ xs xs) :=
  ⟨fun _ _ _ _ h => h.sameOutcome, fun h a b t xs => (Alike.of_not_needs h a b t xs).sameOutcome,
    fun h c l k t xs => (Alike.of_not_loops h c l k t xs).sameOutcome⟩

end PrefixRanking

import PrefixRanking.Refinement

/-!
# Sessions

A session asks a selector, or a refiner, one question after another.  The analyses and the configuration
stay as they are, and the stream of random scores goes on from question to question, also behind an answer
that is an error.  `askEach_append` says that a session can be cut anywhere.
-/

namespace PrefixRanking

/-- A question to a selector. -/
inductive Question where
  /-- Where is the best candidate? -/
  | index (preferences : List Preference) (candidates : List Prefix)
  /-- Which is the best candidate? -/
  | best (preferences : List Preference) (candidates : List Prefix)
  /-- What is the least score of a batch? -/
  | aggregate (batch : List Prefix) (preference : Preference)
  /-- What does the scorer of a preference give a prefix? -/
  | score (preference : Preference) (candidate : Prefix)
  /-- How does the scorer of a preference compare two prefixes? -/
  | compare (preference : Preference) (first second : Prefix)
deriving DecidableEq

/-- An answer of a selector. -/
inductive Answer where
  | index (i : Nat)
  | best (x : Prefix)
  | aggregate (s : Score)
  | score (s : Score)
  | compare (o : Ordering)
deriving DecidableEq

/-- The computation of the answer. -/
def Question.answer (a : Analyses) : Question → Drawing Answer
  | index ps xs => do return .index (← selectIndex a ps xs)
  | best ps xs => do return .best (← selectBest a ps xs)
  | aggregate xs p => do return .aggregate (← aggregateScore a xs p)
  | score p x =>
    match Scorer.make p with
    | .ok sc => do return .score (← sc.score a x)
    | .error e => .fail e
  | compare p x y =>
    match Scorer.make p with
    | .ok sc => do return .compare (← sc.compare a x y)
    | .error e => .fail e

namespace Selector

/-- Ask one question. -/
def ask (s : Selector) (q : Question) : Except SelectionError Answer × Selector :=
  s.run fun a => q.answer a

/-- Ask one question after another. -/
def askEach (s : Selector) : List Question → List (Except SelectionError Answer) × Selector
  | [] => ([], s)
  | q :: qs =>
    let (answer, s) := s.ask q
    let (answers, s) := s.askEach qs
    (answer :: answers, s)

@[simp] theorem analyses_ask (s : Selector) (q : Question) : (s.ask q).2.analyses = s.analyses := rfl

@[simp] theorem analyses_askEach (s : Selector) (qs : List Question) :
    (s.askEach qs).2.analyses = s.analyses := by
  induction qs generalizing s with
  | nil => rfl
  | cons q qs ih => simp [askEach, ih]

@[simp] theorem length_askEach (s : Selector) (qs : List Question) :
    (s.askEach qs).1.length = qs.length := by
  induction qs generalizing s with
  | nil => rfl
  | cons q qs ih => simp [askEach, ih]

theorem askEach_append (s : Selector) (qs rs : List Question) :
    s.askEach (qs ++ rs) =
      ((s.askEach qs).1 ++ ((s.askEach qs).2.askEach rs).1, ((s.askEach qs).2.askEach rs).2) := by
  induction qs generalizing s with
  | nil => rfl
  | cons q qs ih => simp [askEach, ih]

end Selector

/-- A question to a refiner. -/
inductive Request where
  /-- Which prefix shall be refined with? -/
  | refine (candidates : List Prefix)
  /-- How good is a batch? -/
  | quality (batch : List Prefix) (preference : Preference)
  /-- A question to the refiner's selector. -/
  | selector (question : Question)
deriving DecidableEq

/-- An answer of a refiner. -/
inductive Reply where
  | refine (answer : Except RefinementError (Option Prefix))
  | quality (answer : Except RefinementError Score)
  | selector (answer : Except SelectionError Answer)

namespace Refiner

/-- Ask one question. -/
def ask (r : Refiner) : Request → Reply × Refiner
  | .refine xs => let (a, r) := r.selectPrefix xs; (.refine a, r)
  | .quality xs p => let (a, r) := r.quality xs p; (.quality a, r)
  | .selector q => let (a, s) := r.selector.ask q; (.selector a, { r with selector := s })

/-- Ask one question after another. -/
def askEach (r : Refiner) : List Request → List Reply × Refiner
  | [] => ([], r)
  | q :: qs =>
    let (reply, r) := r.ask q
    let (replies, r) := r.askEach qs
    (reply :: replies, r)

@[simp] theorem config_ask (r : Refiner) (q : Request) : (r.ask q).2.config = r.config := by
  cases q with
  | refine xs => simp only [ask, selectPrefix]; split <;> rfl
  | quality xs p => rfl
  | selector q => rfl

theorem askEach_append (r : Refiner) (qs rs : List Request) :
    r.askEach (qs ++ rs) =
      ((r.askEach qs).1 ++ ((r.askEach qs).2.askEach rs).1, ((r.askEach qs).2.askEach rs).2) := by
  induction qs generalizing r with
  | nil => rfl
  | cons q qs ih => simp [askEach, ih]

end Refiner

end PrefixRanking

import PrefixRanking.Scoring

/-!
# Selection

Each candidate gets a key: its scores under the preferences, in list order.  Keys are compared
lexicographically, and the earliest candidate with the least key is selected.  Every key is computed in
full, in the order of the candidates, also where an earlier score already decides, so a draw is made for
every random entry of every candidate.

`bestFrom` goes through the candidates and keeps the best one so far; `selectIndex` adds the errors, in
this order: a preference that cannot be computed, no candidates, a missing classification.
-/

namespace PrefixRanking

/-- The scores of a candidate, compared lexicographically. -/
abbrev Key := List Score

/-- A candidate, by its position, with its key. -/
structure Best where
  position : Nat
  key : Key
deriving DecidableEq

/-- The better of the best candidate so far and the next one.  Only a strictly smaller key takes the
place, so the earlier candidate keeps a tie. -/
def Best.better (best : Option Best) (next : Best) : Best :=
  match best with
  | none => next
  | some b => if next.key < b.key then next else b

/-- The best candidate, when those in front of position `i` have been looked at. -/
def bestFrom (a : Analyses) (scs : List Scorer) (best : Option Best) (i : Nat) :
    List Prefix → Drawing (Option Best)
  | [] => pure best
  | x :: xs => do
    let key ← Scorer.key a scs x
    bestFrom a scs (some (Best.better best ⟨i, key⟩)) (i + 1) xs

/-- The position of the best candidate under a list of preferences. -/
def selectIndex (a : Analyses) (ps : List Preference) (xs : List Prefix) : Drawing Nat :=
  match Scorer.makeEach ps with
  | .error e => .fail e
  | .ok scs =>
    if xs.isEmpty then .fail .emptyCandidates
    else do
      match ← bestFrom a scs none 0 xs with
      | some best => pure best.position
      | none => .fail .emptyCandidates

/-- The best candidate under a list of preferences. -/
def selectBest (a : Analyses) (ps : List Preference) (xs : List Prefix) : Drawing Prefix := do
  let i ← selectIndex a ps xs
  match xs[i]? with
  | some x => pure x
  | none => .fail .emptyCandidates

/-- The least score of a list, or the sentinel. -/
def leastScore (ss : List Score) : Score := ss.foldl min .sentinel

/-- The least score of the candidates under one preference.  It is the sentinel if there are no
candidates, and also, whatever the preference, if there is no classification. -/
def aggregateScore (a : Analyses) (xs : List Prefix) (p : Preference) : Drawing Score :=
  if a.hasClassification then
    match Scorer.make p with
    | .error e => .fail e
    | .ok sc => do return leastScore (← Drawing.each (sc.score a) xs)
  else pure .sentinel

/-- Analyses together with the stream of random scores, which goes on from call to call. -/
structure Selector where
  analyses : Analyses
  stream : Keystream

namespace Selector

/-- A selector whose stream starts from a seed. -/
def ofSeed (a : Analyses) (seed : UInt64) : Selector := ⟨a, .ofSeed seed⟩

/-- Run a computation: its result, and the selector with the stream behind the draws. -/
def run {α : Type} (s : Selector) (f : Analyses → Drawing α) : Except SelectionError α × Selector :=
  let (r, stream) := (f s.analyses).run s.stream
  (r, { s with stream })

end Selector

end PrefixRanking

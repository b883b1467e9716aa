import PrefixRanking.Preference
import PrefixRanking.Keystream

/-!
# Computations that draw

Scoring may draw from the stream of random scores, and it may fail.  A failure ends the computation and
keeps the draws made so far: `Drawing.bind_ok` and `Drawing.bind_error` say so.
-/

namespace PrefixRanking

/-- Why scoring or selecting failed. -/
inductive SelectionError where
  /-- The preference names nothing that can be computed. -/
  | unsupportedPreference (preference : Preference)
  /-- The preference reads the classification of variables, and there is none. -/
  | missingClassification (preference : Preference)
  /-- There is nothing to select from. -/
  | emptyCandidates
deriving DecidableEq

/-- The wording of the error. -/
def SelectionError.message : SelectionError → String
  | unsupportedPreference p => "Illegal prefix preference " ++ p.name ++ " given"
  | missingClassification p =>
    "Prefix preference " ++ p.name ++ " requires a variable classification, but none is available"
  | emptyCandidates => "Cannot select a prefix from an empty candidate set"

/-- A computation that may draw and may fail: its result, and the stream behind its draws. -/
def Drawing (α : Type) : Type := Keystream → Except SelectionError α × Keystream

namespace Drawing

variable {α β : Type}

/-- Run on a stream. -/
def run (x : Drawing α) (s : Keystream) : Except SelectionError α × Keystream := x s

/-- A result without a draw. -/
def result (a : α) : Drawing α := fun s => (.ok a, s)

/-- A failure without a draw. -/
def fail (e : SelectionError) : Drawing α := fun s => (.error e, s)

/-- One draw. -/
def draw : Drawing Score := fun s => (.ok s.head, s.tail)

/-- One computation and then, if it has a result, another. -/
def andThen (x : Drawing α) (f : α → Drawing β) : Drawing β := fun s =>
  match x s with
  | (.ok a, s') => f a s'
  | (.error e, s') => (.error e, s')

instance : Monad Drawing where
  pure := result
  bind := andThen

@[simp] theorem run_pure (a : α) (s : Keystream) : (pure a : Drawing α).run s = (.ok a, s) := rfl

@[simp] theorem run_fail (e : SelectionError) (s : Keystream) :
    (fail e : Drawing α).run s = (.error e, s) := rfl

@[simp] theorem run_draw (s : Keystream) : draw.run s = (.ok s.head, s.tail) := rfl

theorem run_bind (x : Drawing α) (f : α → Drawing β) (s : Keystream) :
    (x >>= f).run s = match x.run s with
      | (.ok a, s') => (f a).run s'
      | (.error e, s') => (.error e, s') := rfl

theorem bind_ok {x : Drawing α} {f : α → Drawing β} {s s' : Keystream} {a : α}
    (h : x.run s = (.ok a, s')) : (x >>= f).run s = (f a).run s' := by
  simp [run_bind, h]

theorem bind_error {x : Drawing α} {f : α → Drawing β} {s s' : Keystream} {e : SelectionError}
    (h : x.run s = (.error e, s')) : (x >>= f).run s = (.error e, s') := by
  simp [run_bind, h]

/-- Run a computation for each element, in order, up to the first failure. -/
def each (f : α → Drawing β) : List α → Drawing (List β)
  | [] => pure []
  | a :: as => do
    let b ← f a
    let bs ← each f as
    pure (b :: bs)

end Drawing

end PrefixRanking

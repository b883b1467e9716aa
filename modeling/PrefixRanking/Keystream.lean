import PrefixRanking.Keystream.Block
import PrefixRanking.Score

/-!
# The stream of random scores

The words of all blocks of a key, one after another, are a sequence without end.  A draw takes the next
word whose product with the bound falls into the part of its range that makes every result equally
likely; the high half of the product is the result.  A `Keystream` is a key and a position, so what is
drawn depends on the seed and on the number of words taken before, and on nothing else.
-/

namespace PrefixRanking

namespace Keystream

/-- Random scores are below this bound. -/
def bound : Nat := 1000

/-- The seed that is used unless another is given. -/
def defaultSeed : UInt64 := 0

/-- The word at a position of the sequence. -/
def word (key : Key) (position : Nat) : UInt32 :=
  (block key (UInt64.ofNat (position / 16))).get ⟨position % 16, by omega⟩

/-- The result that a word stands for, if it is taken: the high half of its product with the bound,
provided the low half is below the largest multiple of the bound by a power of two. -/
def accept (w : UInt32) : Option (Fin bound) :=
  if w.toNat * bound % UInt32.size < bound <<< 22 then
    some ⟨w.toNat * bound / UInt32.size, by
      have := w.toNat_lt
      simp only [bound, UInt32.size]
      omega⟩
  else none

/-- The number of words after which the sequence repeats: sixteen in each block, and a block for each
counter of 64 bits. -/
def period : Nat := 16 * UInt64.size

/-- The first accepted word from a position on, and the position behind it.  A search over as many words
as the sequence has finds whatever there is to find. -/
def firstAccepted (key : Key) : Nat → Nat → Fin bound × Nat
  | 0, position => (⟨0, by decide⟩, position)
  | n + 1, position =>
    match accept (word key position) with
    | some x => (x, position + 1)
    | none => firstAccepted key n (position + 1)

end Keystream

/-- A sequence of random scores, read from a position on. -/
structure Keystream where
  key : Keystream.Key
  position : Nat
deriving DecidableEq

namespace Keystream

/-- The stream of a seed, from its start. -/
def ofSeed (seed : UInt64) : Keystream := ⟨keyOfSeed seed, 0⟩

/-- The next score. -/
def head (s : Keystream) : Score :=
  let x := (firstAccepted s.key period s.position).1
  ⟨x.val, by omega, by have := x.isLt; simp only [bound] at this; omega⟩

/-- The stream behind the next score. -/
def tail (s : Keystream) : Keystream := ⟨s.key, (firstAccepted s.key period s.position).2⟩

/-- The stream behind the next `n` scores. -/
def drop (s : Keystream) : Nat → Keystream
  | 0 => s
  | n + 1 => s.tail.drop n

/-- The next `n` scores. -/
def take (s : Keystream) : Nat → List Score
  | 0 => []
  | n + 1 => s.head :: s.tail.take n

theorem head_nonneg (s : Keystream) : 0 ≤ s.head.val := by simp [head]

theorem head_lt (s : Keystream) : s.head.val < bound := by
  simp only [head]
  have := (firstAccepted s.key period s.position).1.isLt
  omega

@[simp] theorem length_take (s : Keystream) (n : Nat) : (s.take n).length = n := by
  induction n generalizing s with
  | zero => rfl
  | succ n ih => simp [take, ih]

theorem drop_add (s : Keystream) (m n : Nat) : s.drop (m + n) = (s.drop m).drop n := by
  induction m generalizing s with
  | zero => simp [drop]
  | succ m ih => rw [Nat.succ_add, drop, ih, drop]

theorem take_add (s : Keystream) (m n : Nat) : s.take (m + n) = s.take m ++ (s.drop m).take n := by
  induction m generalizing s with
  | zero => simp [take, drop]
  | succ m ih => simp [Nat.succ_add, take, drop, ih]

end Keystream

end PrefixRanking

/-!
# Blocks of random words

The ChaCha block function with eight rounds.  A block is sixteen 32-bit words, computed from a key of
eight words and the number of the block; blocks with different numbers need not be computed in order.
-/

namespace PrefixRanking.Keystream

/-- The key of a stream. -/
abbrev Key := Vector UInt32 8

/-- The words of one block. -/
abbrev Block := Vector UInt32 16

/-- Turn the bits of a word to the left. -/
def rotateLeft (x : UInt32) (n : UInt32) : UInt32 := (x <<< n) ||| (x >>> (32 - n))

/-- Turn the bits of a word to the right; no turn at all for `0`. -/
def rotateRight (x : UInt32) (n : UInt32) : UInt32 := (x >>> n) ||| (x <<< ((32 - n) % 32))

/-- Mix four words of a block. -/
def quarterRound (i j k l : Fin 16) (s : Block) : Block :=
  let a := s[i] + s[j]
  let d := rotateLeft (s[l] ^^^ a) 16
  let c := s[k] + d
  let b := rotateLeft (s[j] ^^^ c) 12
  let a := a + b
  let d := rotateLeft (d ^^^ a) 8
  let c := c + d
  let b := rotateLeft (b ^^^ c) 7
  (((s.set i a).set j b).set k c).set l d

/-- One round over the columns and one over the diagonals. -/
def doubleRound (s : Block) : Block :=
  let s := quarterRound 0 4 8 12 s
  let s := quarterRound 1 5 9 13 s
  let s := quarterRound 2 6 10 14 s
  let s := quarterRound 3 7 11 15 s
  let s := quarterRound 0 5 10 15 s
  let s := quarterRound 1 6 11 12 s
  let s := quarterRound 2 7 8 13 s
  quarterRound 3 4 9 14 s

/-- The block before mixing: four constants, the key, the 64-bit number of the block, and zeros. -/
def initial (key : Key) (number : UInt64) : Block :=
  #v[0x61707865, 0x3320646e, 0x79622d32, 0x6b206574,
    key[0], key[1], key[2], key[3], key[4], key[5], key[6], key[7],
    number.toUInt32, (number >>> 32).toUInt32, 0, 0]

/-- The block of this number under this key. -/
def block (key : Key) (number : UInt64) : Block :=
  let s := initial key number
  let mixed := doubleRound (doubleRound (doubleRound (doubleRound s)))
  mixed.zipWith (· + ·) s

/-- A number generator of 64-bit state that spreads a seed over the eight words of a key: a linear
step, and a word made of the state by a shift and a turn that depends on the state itself. -/
def keyWords : Nat → UInt64 → List UInt32
  | 0, _ => []
  | n + 1, state =>
    let state := state * 6364136223846793005 + 11634580027462260723
    let word := (((state >>> 18) ^^^ state) >>> 27).toUInt32
    rotateRight word (state >>> 59).toUInt32 :: keyWords n state

theorem length_keyWords (n : Nat) (state : UInt64) : (keyWords n state).length = n := by
  induction n generalizing state with
  | zero => rfl
  | succ n ih => simp [keyWords, ih]

/-- The key of a seed. -/
def keyOfSeed (seed : UInt64) : Key := ⟨(keyWords 8 seed).toArray, by simp [length_keyWords]⟩

end PrefixRanking.Keystream

/-!
# Random Words

A permuted congruential generator: a 64-bit state that steps by a linear congruence, and a 32-bit
output word that is cut from the old state and rotated by its top bits. A seed fixes all words.
-/

namespace ShaderWeave

/-- State of a generator of random 32-bit words. -/
structure Pcg where
  /-- The number that steps. -/
  state : UInt64
  /-- The number added in each step; it is odd. -/
  increment : UInt64
deriving DecidableEq, Inhabited

namespace Pcg

/-- The factor of the congruence. -/
def multiplier : UInt64 := 6364136223846793005

/-- The number added in each step while a seed is spread. -/
def seedIncrement : UInt64 := 11634580027462260723

/-- A word rotated to the right. -/
def rotateRight (word : UInt32) (count : UInt32) : UInt32 :=
  (word >>> count) ||| (word <<< ((32 - count) % 32))

/-- The output word of a state. -/
def output (state : UInt64) : UInt32 :=
  rotateRight ((((state >>> 18) ^^^ state) >>> 27).toUInt32) ((state >>> 59).toUInt32)

/-- A 64-bit number from its low and its high half. -/
def join (low high : UInt32) : UInt64 :=
  low.toUInt64 ||| (high.toUInt64 <<< 32)

/-- The generator that a seed fixes. -/
def ofSeed (seed : UInt64) : Pcg :=
  let step (s : UInt64) : UInt64 := s * multiplier + seedIncrement
  let s1 := step seed
  let s2 := step s1
  let s3 := step s2
  let s4 := step s3
  let increment := join (output s3) (output s4) ||| 1
  let start := join (output s1) (output s2)
  { state := (start + increment) * multiplier + increment, increment }

/-- The next word, and the generator after it. -/
def next (g : Pcg) : UInt32 × Pcg :=
  (output g.state, { g with state := g.state * multiplier + g.increment })

end Pcg

end ShaderWeave

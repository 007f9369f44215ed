import ShaderWeave.Random.Pcg

/-!
# Shuffling

Each element in turn is swapped with one at a random place not after it. The places come from few
random words: one word is scaled to a product of consecutive bounds, from which the places are divided
off one by one.
-/

namespace ShaderWeave

/-- Source of the places of a shuffle. -/
structure PlaceSource where
  /-- Generator of words. -/
  generator : Pcg
  /-- Number of places given so far. -/
  given : Nat
  /-- What is left of the last scaled word. -/
  chunk : Nat
  /-- Number of places that can still be divided off it. -/
  remaining : Nat

namespace PlaceSource

/-- The source before the first place, which is always zero. -/
def init (generator : Pcg) : PlaceSource :=
  { generator, given := 0, chunk := 0, remaining := 1 }

/-- The product of `product` and consecutive bounds from `bound` on, as long as it fits 32 bits, and
the number of bounds taken. -/
def extendBound : (fuel product bound taken : Nat) → Nat × Nat
  | 0, product, _, taken => (product, taken)
  | fuel + 1, product, bound, taken =>
    if product * bound < 0x100000000 then extendBound fuel (product * bound) (bound + 1) (taken + 1)
    else (product, taken)

/-- A random number below `bound`, from one word, or from two where the first one leaves a bias. -/
def below (generator : Pcg) (bound : Nat) : Nat × Pcg :=
  let (word, generator) := generator.next
  let scaled := word.toNat * bound
  let chunk := scaled / 0x100000000
  let low := scaled % 0x100000000
  if 0x100000000 - bound < low then
    let (second, generator) := generator.next
    let carry := if 0x100000000 ≤ low + second.toNat * bound / 0x100000000 then 1 else 0
    (chunk + carry, generator)
  else
    (chunk, generator)

/-- The source with at least one place to divide off. -/
def refill (source : PlaceSource) : PlaceSource :=
  if source.remaining = 0 then
    let first := source.given + 1
    let (bound, count) := extendBound 32 first (first + 1) 1
    let (chunk, generator) := below source.generator bound
    { source with generator, chunk, remaining := count }
  else
    source

/-- The next place, which is at most the number of places given before, and the source after it. -/
def next (source : PlaceSource) : Nat × PlaceSource :=
  let source := source.refill
  let bound := source.given + 1
  if source.remaining = 1 then
    (source.chunk, { source with given := bound, remaining := 0 })
  else
    (source.chunk % bound,
      { source with
        given := bound, chunk := source.chunk / bound, remaining := source.remaining - 1 })

end PlaceSource

/-- The elements after each of those at the given places, in order, was swapped with one not after
it. -/
def shuffleFrom {α : Type} (source : PlaceSource) : List Nat → Array α → Array α
  | [], items => items
  | i :: rest, items =>
    let (place, source) := source.next
    shuffleFrom source rest (items.swapIfInBounds i place)

/-- Swapping keeps the elements, whatever the places. -/
theorem shuffleFrom_perm {α : Type} (places : List Nat) :
    ∀ (source : PlaceSource) (items : Array α), (shuffleFrom source places items).Perm items := by
  induction places with
  | nil => exact fun _ items => .refl items
  | cons i rest ih =>
    intro source items
    refine (ih source.next.2 _).trans ?_
    unfold Array.swapIfInBounds
    split
    · split
      · exact Array.swap_perm _ _
      · exact .refl items
    · exact .refl items

/-- The items in random order. Fewer than two items take no random word. -/
def shuffle {α : Type} (generator : Pcg) (items : List α) : List α :=
  if items.length ≤ 1 then items
  else (shuffleFrom (.init generator) (List.range items.length) items.toArray).toList

end ShaderWeave

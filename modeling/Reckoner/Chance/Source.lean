/-
# Sources of random numbers

A random source is a state from which numbers in `[0, 1)` are drawn one after the other; drawing
gives the number and the source that follows it.  Nothing else in the library makes randomness, so
a computation is a function of the source it starts from.  `Cycle` is the plainest source: a list
of numbers, over and over.
-/

namespace Reckoner.Chance

/-- A state from which random numbers are drawn. -/
class Source (σ : Type) where
  /-- The next number and the source after it. -/
  draw : σ → Float × σ

export Source (draw)

/-- Draws several numbers. -/
def drawMany {σ : Type} [Source σ] : Nat → σ → List Float × σ
  | 0, source => ([], source)
  | n + 1, source =>
    let (x, next) := draw source
    let (xs, last) := drawMany n next
    (x :: xs, last)

/-- The numbers of a list in turn, cyclically; zero if there are none. -/
structure Cycle where
  numbers : List Float
  position : Nat
  deriving DecidableEq

/-- The cycle that begins with the first number. -/
def Cycle.ofList (numbers : List Float) : Cycle := ⟨numbers, 0⟩

instance : Source Cycle where
  draw c :=
    (c.numbers.getD (c.position % c.numbers.length) 0, { c with position := c.position + 1 })

end Reckoner.Chance

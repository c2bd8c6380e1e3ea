import AesTrials.Bytes

/-!
# Entropy

Random bytes come from one endless stream and are used once, in order. An operation that draws
returns the supply it leaves.
-/

namespace AesTrials

/-- An endless stream of bytes, of which some have been drawn. -/
structure Entropy where
  /-- The byte at each position. -/
  source : Nat → UInt8
  /-- How many bytes have been drawn. -/
  drawn : Nat

namespace Entropy

/-- The next bytes and the supply after them. -/
def draw (entropy : Entropy) (count : Nat) : Bytes × Entropy :=
  ((List.range count).map fun i => entropy.source (entropy.drawn + i),
    { entropy with drawn := entropy.drawn + count })

/-- The supply that repeats the given bytes for ever; zeros if there are none. -/
def cycle (bytes : Bytes) : Entropy :=
  let table := bytes.toArray
  { source := fun i => table.getD (i % table.size) 0, drawn := 0 }

/-- A draw takes as many bytes as are asked for. -/
theorem length_draw (entropy : Entropy) (count : Nat) : (entropy.draw count).1.length = count := by
  simp [draw]

end Entropy

end AesTrials

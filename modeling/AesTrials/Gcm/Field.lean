import AesTrials.Aes.Block

/-!
# The field of 128-bit blocks

Blocks are polynomials over two elements modulo x¹²⁸ + x⁷ + x² + x + 1, the constant coefficient in
the most significant bit of the first byte.
-/

namespace AesTrials.Gcm

/-- A polynomial as two words: bytes 0 to 7 and bytes 8 to 15, most significant first. -/
structure Element where
  /-- Coefficients 0 to 63. -/
  upper : UInt64
  /-- Coefficients 64 to 127. -/
  lower : UInt64
deriving DecidableEq, Repr, Inhabited

namespace Element

/-- The zero polynomial. -/
def zero : Element := ⟨0, 0⟩

/-- The coefficientwise sum. -/
protected def add (x y : Element) : Element := ⟨x.upper ^^^ y.upper, x.lower ^^^ y.lower⟩

instance : Add Element := ⟨Element.add⟩

/-- The polynomial of a block. -/
def ofBlock (block : Aes.Block) : Element :=
  ⟨block.c₀.toBigWord.toUInt64 <<< 32 ||| block.c₁.toBigWord.toUInt64,
    block.c₂.toBigWord.toUInt64 <<< 32 ||| block.c₃.toBigWord.toUInt64⟩

/-- The block of a polynomial. -/
def toBlock (element : Element) : Aes.Block :=
  ⟨.ofBigWord (element.upper >>> 32).toUInt32, .ofBigWord element.upper.toUInt32,
    .ofBigWord (element.lower >>> 32).toUInt32, .ofBigWord element.lower.toUInt32⟩

/-- The product with x. -/
def timesX (element : Element) : Element :=
  let carry := element.lower &&& 1
  ⟨element.upper >>> 1 ^^^ (if carry = 0 then 0 else 0xe100000000000000),
    element.lower >>> 1 ||| element.upper <<< 63⟩

/-- A sum of products and the multiplicand it goes on with, as four words. -/
structure Product where
  /-- Upper word of the sum. -/
  sumUpper : UInt64
  /-- Lower word of the sum. -/
  sumLower : UInt64
  /-- Upper word of the multiplicand. -/
  upper : UInt64
  /-- Lower word of the multiplicand. -/
  lower : UInt64
deriving DecidableEq, Repr, Inhabited

/-- The sum raised by the multiplicand for each of the leading bits of a word, the multiplicand
times x after each. -/
def accumulate : Nat → UInt64 → UInt64 → UInt64 → UInt64 → UInt64 → Product
  | 0, _, sumUpper, sumLower, upper, lower => ⟨sumUpper, sumLower, upper, lower⟩
  | bits + 1, word, sumUpper, sumLower, upper, lower =>
    let chosen := (0 : UInt64) - (word >>> 63)
    let reduction := ((0 : UInt64) - (lower &&& 1)) &&& 0xe100000000000000
    accumulate bits (word <<< 1) (sumUpper ^^^ (upper &&& chosen))
      (sumLower ^^^ (lower &&& chosen)) (upper >>> 1 ^^^ reduction)
      (lower >>> 1 ||| upper <<< 63)

/-- The product of two polynomials. -/
protected def mul (x y : Element) : Element :=
  let first := accumulate 64 x.upper 0 0 y.upper y.lower
  let second := accumulate 64 x.lower first.sumUpper first.sumLower first.upper first.lower
  ⟨second.sumUpper, second.sumLower⟩

instance : Mul Element := ⟨Element.mul⟩

end Element

/-- The value at the key of the polynomial whose coefficients are the blocks, the first block the
leading one and the constant term zero. -/
def hash (key : Element) (blocks : List Aes.Block) : Element :=
  blocks.foldl (fun sum block => (sum + .ofBlock block) * key) .zero

end AesTrials.Gcm

import AesTrials.Aes.Round
import AesTrials.KeyWidth

/-!
# The block cipher

A key is expanded into round keys once; enciphering folds the rounds over a block and deciphering
folds their inverses in the opposite order. Under every key, well expanded or not, the two undo each
other, so enciphering is a permutation of the blocks.
-/

namespace AesTrials.Aes

/-- The round keys of one key. -/
structure Cipher where
  /-- Width of the key that was expanded. -/
  width : KeyWidth
  /-- Key added before the first round. -/
  initial : Block
  /-- Keys of the inner rounds, in order. -/
  inner : List Block
  /-- Key of the last round. -/
  last : Block
deriving DecidableEq, Repr, Inhabited

/-- The columns of a byte string, after the columns read so far in reverse. -/
def columnsOnto : List Column → Bytes → List Column
  | read, b₀ :: b₁ :: b₂ :: b₃ :: rest => columnsOnto (⟨b₀, b₁, b₂, b₃⟩ :: read) rest
  | read, _ => read.reverse

/-- The round constant that follows the given number of others. -/
def roundConstant : Nat → UInt8
  | 0 => 1
  | n + 1 => double (roundConstant n)

/-- The column added to the one a key length back, given its index and the column before it. -/
def keyStep (keyColumns index : Nat) (previous : Column) : Column :=
  if index % keyColumns = 0 then
    (⟨previous.r₁, previous.r₂, previous.r₃, previous.r₀⟩ : Column).substitute ^^^
      ⟨roundConstant (index / keyColumns - 1), 0, 0, 0⟩
  else if 6 < keyColumns ∧ index % keyColumns = 4 then previous.substitute
  else previous

/-- One more column after the columns of a key schedule. -/
def extendKey (keyColumns : Nat) (columns : Array Column) : Array Column :=
  let index := columns.size
  columns.push (columns.getD (index - keyColumns) .zero ^^^
    keyStep keyColumns index (columns.getD (index - 1) .zero))

/-- The key schedule: the columns of the key, then one new column at a time. -/
def expand (width : KeyWidth) (key : Bytes) : Array Column :=
  let keyColumns := width.byteLength / 4
  (List.range (4 * (width.rounds + 1) - keyColumns)).foldl
    (fun columns _ => extendKey keyColumns columns) (columnsOnto [] key).toArray

/-- The round key at a position of a key schedule. -/
def roundKey (columns : Array Column) (position : Nat) : Block :=
  let column (i : Nat) : Column := columns.getD (4 * position + i) .zero
  ⟨column 0, column 1, column 2, column 3⟩

namespace Cipher

/-- The cipher of a key of the given width. -/
def ofKey (width : KeyWidth) (key : Bytes) : Cipher :=
  let columns := expand width key
  { width
    initial := roundKey columns 0
    inner := (List.range (width.rounds - 1)).map fun position => roundKey columns (position + 1)
    last := roundKey columns width.rounds }

/-- The block enciphered. -/
def encipher (cipher : Cipher) (block : Block) : Block :=
  (cipher.inner.foldl Block.round (block ^^^ cipher.initial)).lastRound cipher.last

/-- The block deciphered. -/
def decipher (cipher : Cipher) (block : Block) : Block :=
  cipher.inner.foldr Block.unround (Block.unlastRound cipher.last block) ^^^ cipher.initial

/-- Inner rounds undone after they were done give the block back. -/
theorem foldr_unround_foldl_round (keys : List Block) (block : Block) :
    keys.foldr Block.unround (keys.foldl Block.round block) = block := by
  induction keys generalizing block with
  | nil => rfl
  | cons key keys ih =>
    rw [List.foldl_cons, List.foldr_cons, ih, Block.unround_round]

/-- Inner rounds done after they were undone give the block back. -/
theorem foldl_round_foldr_unround (keys : List Block) (block : Block) :
    keys.foldl Block.round (keys.foldr Block.unround block) = block := by
  induction keys generalizing block with
  | nil => rfl
  | cons key keys ih =>
    rw [List.foldl_cons, List.foldr_cons, Block.round_unround, ih]

/-- Deciphering undoes enciphering. -/
theorem decipher_encipher (cipher : Cipher) (block : Block) :
    cipher.decipher (cipher.encipher block) = block := by
  rw [decipher, encipher, Block.unlastRound_lastRound, foldr_unround_foldl_round,
    Block.xor_xor_cancel_right]

/-- Enciphering undoes deciphering. -/
theorem encipher_decipher (cipher : Cipher) (block : Block) :
    cipher.encipher (cipher.decipher block) = block := by
  rw [decipher, encipher, Block.xor_xor_cancel_right, foldl_round_foldr_unround,
    Block.lastRound_unlastRound]

end Cipher

end AesTrials.Aes

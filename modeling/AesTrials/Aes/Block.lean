import AesTrials.Aes.Field

/-!
# Blocks

A block is sixteen bytes, held as four columns of four. Byte strings are cut into blocks and blocks
are joined into byte strings. Nothing is lost either way.
-/

namespace AesTrials.Aes

/-- Four bytes of a block, or one word of a key schedule. -/
structure Column where
  /-- First byte. -/
  r₀ : UInt8
  /-- Second byte. -/
  r₁ : UInt8
  /-- Third byte. -/
  r₂ : UInt8
  /-- Fourth byte. -/
  r₃ : UInt8
deriving DecidableEq, Repr, Inhabited

namespace Column

/-- The column of four zero bytes. -/
def zero : Column := ⟨0, 0, 0, 0⟩

/-- The bytewise exclusive or. -/
protected def xor (left right : Column) : Column :=
  ⟨left.r₀ ^^^ right.r₀, left.r₁ ^^^ right.r₁, left.r₂ ^^^ right.r₂, left.r₃ ^^^ right.r₃⟩

instance : XorOp Column := ⟨Column.xor⟩

/-- The four bytes in order. -/
def toBytes (column : Column) : Bytes := [column.r₀, column.r₁, column.r₂, column.r₃]

/-- The word whose most significant byte is the first of the column. -/
def toBigWord (column : Column) : UInt32 :=
  Bytes.bigWord column.r₀ column.r₁ column.r₂ column.r₃

/-- The word whose least significant byte is the first of the column. -/
def toLittleWord (column : Column) : UInt32 :=
  Bytes.littleWord column.r₀ column.r₁ column.r₂ column.r₃

/-- The column whose first byte is the most significant of the word. -/
def ofBigWord (word : UInt32) : Column :=
  ⟨(word >>> 24).toUInt8, (word >>> 16).toUInt8, (word >>> 8).toUInt8, word.toUInt8⟩

/-- The column whose first byte is the least significant of the word. -/
def ofLittleWord (word : UInt32) : Column :=
  ⟨word.toUInt8, (word >>> 8).toUInt8, (word >>> 16).toUInt8, (word >>> 24).toUInt8⟩

/-- Every byte replaced by its substitution. -/
def substitute (column : Column) : Column :=
  ⟨Aes.substitute column.r₀, Aes.substitute column.r₁, Aes.substitute column.r₂,
    Aes.substitute column.r₃⟩

/-- Every byte replaced by the byte it is the substitution of. -/
def restore (column : Column) : Column :=
  ⟨Aes.restore column.r₀, Aes.restore column.r₁, Aes.restore column.r₂, Aes.restore column.r₃⟩

/-- The product with the matrix of the cipher, each row of which is the one above rotated. -/
def mix : Column → Column
  | ⟨a, b, c, d⟩ => ⟨mixRow a b c d, mixRow b c d a, mixRow c d a b, mixRow d a b c⟩

/-- The product with the inverse matrix. -/
def unmix : Column → Column
  | ⟨a, b, c, d⟩ => ⟨unmixRow a b c d, unmixRow b c d a, unmixRow c d a b, unmixRow d a b c⟩

/-- Restoring undoes the substitution. -/
theorem restore_substitute (column : Column) : column.substitute.restore = column := by
  simp only [substitute, restore, Aes.restore_substitute]

/-- The substitution undoes restoring. -/
theorem substitute_restore (column : Column) : column.restore.substitute = column := by
  simp only [substitute, restore, Aes.substitute_restore]

/-- Unmixing undoes mixing. -/
theorem unmix_mix (column : Column) : column.mix.unmix = column := by
  simp only [mix, unmix, unmixRow_mixRow]

/-- Mixing undoes unmixing. -/
theorem mix_unmix (column : Column) : column.unmix.mix = column := by
  simp only [mix, unmix, mixRow_unmixRow]

/-- A column added twice is gone. -/
theorem xor_xor_cancel_right (left right : Column) : left ^^^ right ^^^ right = left := by
  obtain ⟨a, b, c, d⟩ := left
  obtain ⟨a', b', c', d'⟩ := right
  change Column.mk (a ^^^ a' ^^^ a') (b ^^^ b' ^^^ b') (c ^^^ c' ^^^ c') (d ^^^ d' ^^^ d') = _
  simp only [UInt8.xor_assoc, UInt8.xor_self, UInt8.xor_zero]

end Column

/-- Sixteen bytes as four columns. -/
structure Block where
  /-- Bytes 0 to 3. -/
  c₀ : Column
  /-- Bytes 4 to 7. -/
  c₁ : Column
  /-- Bytes 8 to 11. -/
  c₂ : Column
  /-- Bytes 12 to 15. -/
  c₃ : Column
deriving DecidableEq, Repr, Inhabited

/-- Bytes in a block. -/
def blockLength : Nat := 16

namespace Block

/-- The block of sixteen zero bytes. -/
def zero : Block := ⟨.zero, .zero, .zero, .zero⟩

/-- The bytewise exclusive or. -/
protected def xor (left right : Block) : Block :=
  ⟨left.c₀ ^^^ right.c₀, left.c₁ ^^^ right.c₁, left.c₂ ^^^ right.c₂, left.c₃ ^^^ right.c₃⟩

instance : XorOp Block := ⟨Block.xor⟩

/-- A block added twice is gone. -/
theorem xor_xor_cancel_right (left right : Block) : left ^^^ right ^^^ right = left := by
  obtain ⟨a, b, c, d⟩ := left
  obtain ⟨a', b', c', d'⟩ := right
  change Block.mk (a ^^^ a' ^^^ a') (b ^^^ b' ^^^ b') (c ^^^ c' ^^^ c') (d ^^^ d' ^^^ d') = _
  simp only [Column.xor_xor_cancel_right]

/-- The sixteen bytes in order. -/
def toBytes (block : Block) : Bytes :=
  [block.c₀.r₀, block.c₀.r₁, block.c₀.r₂, block.c₀.r₃,
    block.c₁.r₀, block.c₁.r₁, block.c₁.r₂, block.c₁.r₃,
    block.c₂.r₀, block.c₂.r₁, block.c₂.r₂, block.c₂.r₃,
    block.c₃.r₀, block.c₃.r₁, block.c₃.r₂, block.c₃.r₃]

/-- The first sixteen bytes, with zeros for those past the end. -/
def ofBytes (bytes : Bytes) : Block :=
  let byte (i : Nat) : UInt8 := bytes.getD i 0
  ⟨⟨byte 0, byte 1, byte 2, byte 3⟩, ⟨byte 4, byte 5, byte 6, byte 7⟩,
    ⟨byte 8, byte 9, byte 10, byte 11⟩, ⟨byte 12, byte 13, byte 14, byte 15⟩⟩

/-- The bytes of the blocks one after the other. -/
def join (blocks : List Block) : Bytes :=
  blocks.flatMap toBytes

/-- The whole blocks at the front of a byte string, after the blocks read so far in reverse, and
the fewer than sixteen bytes behind them. -/
def splitOnto : List Block → Bytes → List Block × Bytes
  | read, b₀ :: b₁ :: b₂ :: b₃ :: b₄ :: b₅ :: b₆ :: b₇ :: b₈ :: b₉ :: b₁₀ :: b₁₁ :: b₁₂ :: b₁₃ ::
      b₁₄ :: b₁₅ :: rest =>
    splitOnto (⟨⟨b₀, b₁, b₂, b₃⟩, ⟨b₄, b₅, b₆, b₇⟩, ⟨b₈, b₉, b₁₀, b₁₁⟩, ⟨b₁₂, b₁₃, b₁₄, b₁₅⟩⟩ ::
      read) rest
  | read, rest => (read.reverse, rest)

/-- The whole blocks at the front of a byte string, and the fewer than sixteen bytes behind
them. -/
def split (bytes : Bytes) : List Block × Bytes :=
  splitOnto [] bytes

/-- The blocks of a byte string, the last one filled up with zeros when it is not whole. -/
def fill (bytes : Bytes) : List Block :=
  match split bytes with
  | (whole, []) => whole
  | (whole, rest) => whole ++ [ofBytes rest]

/-- A block has sixteen bytes. -/
theorem length_toBytes (block : Block) : block.toBytes.length = blockLength := rfl

/-- Blocks joined and split again are the same blocks, after those read before them. -/
theorem splitOnto_join (read blocks : List Block) (rest : Bytes) :
    splitOnto read (join blocks ++ rest) = splitOnto (blocks.reverse ++ read) rest := by
  induction blocks generalizing read with
  | nil => rfl
  | cons block blocks ih =>
    have step : join (block :: blocks) ++ rest = block.toBytes ++ (join blocks ++ rest) := by
      simp [join]
    rw [step, toBytes]
    simp only [List.cons_append, List.nil_append, splitOnto, List.reverse_cons, List.append_assoc]
    exact ih _

/-- Blocks joined and split again are the same blocks. -/
theorem split_join (blocks : List Block) : split (join blocks) = (blocks, []) := by
  have h := splitOnto_join [] blocks []
  simpa [split, splitOnto] using h

/-- The blocks of a byte string and what is left of it give the byte string back. -/
theorem join_splitOnto (read : List Block) (bytes : Bytes) :
    join (splitOnto read bytes).1 ++ (splitOnto read bytes).2 = join read.reverse ++ bytes := by
  fun_induction splitOnto read bytes with
  | case1 read b₀ b₁ b₂ b₃ b₄ b₅ b₆ b₇ b₈ b₉ b₁₀ b₁₁ b₁₂ b₁₃ b₁₄ b₁₅ rest ih =>
    rw [ih]
    simp [join, toBytes]
  | case2 => rfl

/-- The blocks of a byte string and what is left of it give the byte string back. -/
theorem join_split (bytes : Bytes) : join (split bytes).1 ++ (split bytes).2 = bytes :=
  join_splitOnto [] bytes

end Block

end AesTrials.Aes

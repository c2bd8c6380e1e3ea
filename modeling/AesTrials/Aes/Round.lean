import AesTrials.Aes.Block

/-!
# Rounds

A round substitutes every byte, rotates the rows, mixes the columns and adds a round key. Each of
the four steps has an inverse beside it; the last round leaves the mixing out. Undoing a round after
it, or before it, gives the block back.
-/

namespace AesTrials.Aes

namespace Block

/-- Every byte replaced by its substitution. -/
def substitute (block : Block) : Block :=
  ⟨block.c₀.substitute, block.c₁.substitute, block.c₂.substitute, block.c₃.substitute⟩

/-- Every byte replaced by the byte it is the substitution of. -/
def restore (block : Block) : Block :=
  ⟨block.c₀.restore, block.c₁.restore, block.c₂.restore, block.c₃.restore⟩

/-- Row i rotated left by i places. -/
def rotateRows : Block → Block
  | ⟨a, b, c, d⟩ =>
    ⟨⟨a.r₀, b.r₁, c.r₂, d.r₃⟩, ⟨b.r₀, c.r₁, d.r₂, a.r₃⟩, ⟨c.r₀, d.r₁, a.r₂, b.r₃⟩,
      ⟨d.r₀, a.r₁, b.r₂, c.r₃⟩⟩

/-- Row i rotated right by i places. -/
def unrotateRows : Block → Block
  | ⟨a, b, c, d⟩ =>
    ⟨⟨a.r₀, d.r₁, c.r₂, b.r₃⟩, ⟨b.r₀, a.r₁, d.r₂, c.r₃⟩, ⟨c.r₀, b.r₁, a.r₂, d.r₃⟩,
      ⟨d.r₀, c.r₁, b.r₂, a.r₃⟩⟩

/-- Every column mixed. -/
def mix (block : Block) : Block :=
  ⟨block.c₀.mix, block.c₁.mix, block.c₂.mix, block.c₃.mix⟩

/-- Every column unmixed. -/
def unmix (block : Block) : Block :=
  ⟨block.c₀.unmix, block.c₁.unmix, block.c₂.unmix, block.c₃.unmix⟩

/-- One inner round under a round key. -/
def round (block roundKey : Block) : Block :=
  block.substitute.rotateRows.mix ^^^ roundKey

/-- The inner round undone. -/
def unround (roundKey block : Block) : Block :=
  (block ^^^ roundKey).unmix.unrotateRows.restore

/-- The last round under a round key. -/
def lastRound (block roundKey : Block) : Block :=
  block.substitute.rotateRows ^^^ roundKey

/-- The last round undone. -/
def unlastRound (roundKey block : Block) : Block :=
  (block ^^^ roundKey).unrotateRows.restore

/-- Restoring undoes the substitution. -/
theorem restore_substitute (block : Block) : block.substitute.restore = block := by
  simp only [substitute, restore, Column.restore_substitute]

/-- The substitution undoes restoring. -/
theorem substitute_restore (block : Block) : block.restore.substitute = block := by
  simp only [substitute, restore, Column.substitute_restore]

/-- Unmixing undoes mixing. -/
theorem unmix_mix (block : Block) : block.mix.unmix = block := by
  simp only [mix, unmix, Column.unmix_mix]

/-- Mixing undoes unmixing. -/
theorem mix_unmix (block : Block) : block.unmix.mix = block := by
  simp only [mix, unmix, Column.mix_unmix]

/-- Rotating the rows back undoes the rotation. -/
theorem unrotateRows_rotateRows (block : Block) : block.rotateRows.unrotateRows = block := rfl

/-- Rotating the rows undoes the rotation back. -/
theorem rotateRows_unrotateRows (block : Block) : block.unrotateRows.rotateRows = block := rfl

/-- Undoing a round after it gives the block back. -/
theorem unround_round (block roundKey : Block) :
    unround roundKey (block.round roundKey) = block := by
  rw [unround, round, xor_xor_cancel_right, unmix_mix, unrotateRows_rotateRows, restore_substitute]

/-- A round gives the block back that was undone before it. -/
theorem round_unround (block roundKey : Block) :
    (unround roundKey block).round roundKey = block := by
  rw [unround, round, substitute_restore, rotateRows_unrotateRows, mix_unmix, xor_xor_cancel_right]

/-- Undoing the last round after it gives the block back. -/
theorem unlastRound_lastRound (block roundKey : Block) :
    unlastRound roundKey (block.lastRound roundKey) = block := by
  rw [unlastRound, lastRound, xor_xor_cancel_right, unrotateRows_rotateRows, restore_substitute]

/-- The last round gives the block back that was undone before it. -/
theorem lastRound_unlastRound (block roundKey : Block) :
    (unlastRound roundKey block).lastRound roundKey = block := by
  rw [unlastRound, lastRound, substitute_restore, rotateRows_unrotateRows, xor_xor_cancel_right]

end Block

end AesTrials.Aes

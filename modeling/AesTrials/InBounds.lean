import AesTrials.Frame

/-!
# Steps that stay in bounds

A sum of sizes has to fit a word, a difference must not fall below zero, only a number below 256 is
a byte, bytes are cut only at a position that they reach, and a text, whose positions are counted in
bytes of UTF-8, only between two characters. Here each such step has no result where it would leave
its bounds, so what is put together from these steps and always comes to a result never leaves them.
-/

namespace AesTrials.InBounds

/-- The sum of two sizes, if a word holds it. -/
def sum? (left right : UInt64) : Option UInt64 :=
  if left.toNat + right.toNat < sizeLimit then some (left + right) else none

/-- The difference of two sizes, if it does not fall below zero. -/
def difference? (whole part : Nat) : Option Nat :=
  if part ≤ whole then some (whole - part) else none

/-- The number as a byte, if it is one. -/
def byte? (number : Nat) : Option UInt8 :=
  if number < 256 then some (UInt8.ofNat number) else none

/-- The difference of two bytes, if it does not fall below zero. -/
def byteDifference? (whole part : UInt8) : Option UInt8 :=
  if part ≤ whole then some (whole - part) else none

/-- The bytes in front of a position and those behind it, if there are as many in front. -/
def cut? (bytes : Bytes) (position : Nat) : Option (Bytes × Bytes) :=
  if position ≤ bytes.length then some (bytes.take position, bytes.drop position) else none

/-- The characters in front of a position counted in bytes and those behind it, if there are as many
bytes and the position is not inside a character. -/
def cutText? : Nat → List Char → Option (List Char × List Char)
  | 0, text => some ([], text)
  | _ + 1, [] => none
  | position + 1, c :: text =>
    if c.utf8Size ≤ position + 1 then
      (cutText? (position + 1 - c.utf8Size) text).map fun (front, back) => (c :: front, back)
    else none

/-- A sum that a word holds is the sum of the numbers. -/
theorem sum?_eq_some_iff {left right sum : UInt64} :
    sum? left right = some sum ↔ sum.toNat = left.toNat + right.toNat := by
  have limit : sizeLimit = 2 ^ 64 := rfl
  have wraps := UInt64.toNat_add left right
  have held := sum.toNat_lt
  unfold sum?
  constructor
  · intro added
    split at added
    · rename_i small
      rw [← Option.some.inj added, wraps]
      exact Nat.mod_eq_of_lt small
    · contradiction
  · intro same
    rw [if_pos (by omega), Option.some_inj, ← UInt64.toNat_inj, wraps]
    omega

/-- Two sizes have no sum if a word does not hold it. -/
theorem sum?_eq_none_iff {left right : UInt64} :
    sum? left right = none ↔ sizeLimit ≤ left.toNat + right.toNat := by
  simp only [sum?, ite_eq_right_iff, reduceCtorEq, imp_false, Nat.not_lt]

theorem difference?_of_le {whole part : Nat} (le : part ≤ whole) :
    difference? whole part = some (whole - part) := if_pos le

theorem byte?_of_lt {number : Nat} (lt : number < 256) :
    byte? number = some (UInt8.ofNat number) := if_pos lt

theorem byteDifference?_of_le {whole part : UInt8} (le : part ≤ whole) :
    byteDifference? whole part = some (whole - part) := if_pos le

theorem cut?_of_le {bytes : Bytes} {position : Nat} (le : position ≤ bytes.length) :
    cut? bytes position = some (bytes.take position, bytes.drop position) := if_pos le

/-- A text is cut into two texts, the first of which has as many bytes as the position says. -/
theorem cutText?_eq_some_iff {position : Nat} {text front back : List Char} :
    cutText? position text = some (front, back) ↔
      text = front ++ back ∧ (front.flatMap String.utf8EncodeChar).length = position := by
  induction text generalizing position front with
  | nil =>
    cases position with
    | zero =>
      constructor
      · intro cut
        cases cut
        exact ⟨rfl, rfl⟩
      · rintro ⟨parts, _⟩
        obtain ⟨rfl, rfl⟩ := List.append_eq_nil_iff.mp parts.symm
        rfl
    | succ position =>
      constructor
      · intro cut
        contradiction
      · rintro ⟨parts, count⟩
        obtain ⟨rfl, rfl⟩ := List.append_eq_nil_iff.mp parts.symm
        contradiction
  | cons c text ih =>
    cases position with
    | zero =>
      constructor
      · intro cut
        cases cut
        exact ⟨rfl, rfl⟩
      · rintro ⟨parts, count⟩
        -- A character has a byte at least, so there is none in front of the first position.
        cases front with
        | nil => exact congrArg (fun back => some ([], back)) parts
        | cons first front =>
          have nothing := List.append_eq_nil_iff.mp (List.eq_nil_of_length_eq_zero count)
          exact absurd nothing.1 String.utf8EncodeChar_ne_nil
    | succ position =>
      rw [cutText?]
      constructor
      · intro cut
        split at cut
        · rename_i fits
          obtain ⟨⟨inner, rest⟩, later, same⟩ := Option.map_eq_some_iff.mp cut
          cases same
          obtain ⟨rfl, count⟩ := ih.mp later
          refine ⟨rfl, ?_⟩
          rw [List.flatMap_cons, List.length_append, String.length_utf8EncodeChar, count]
          omega
        · contradiction
      · rintro ⟨parts, count⟩
        cases front with
        | nil => contradiction
        | cons first front =>
          obtain ⟨rfl, behind⟩ := List.cons.inj parts
          rw [List.flatMap_cons, List.length_append, String.length_utf8EncodeChar] at count
          have later : cutText? (position + 1 - c.utf8Size) text = some (front, back) :=
            ih.mpr ⟨behind, by omega⟩
          rw [if_pos (by omega), later]
          rfl

end AesTrials.InBounds

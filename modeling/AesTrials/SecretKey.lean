import AesTrials.Bytes

/-!
# Secret keys

The bytes of a key are shown to no one: a description of a key gives its length only. Wiping leaves
no bytes behind.
-/

namespace AesTrials

/-- The bytes of a key. -/
structure SecretKey where
  /-- The bytes. -/
  bytes : Bytes

namespace SecretKey

/-- A description for diagnostics that shows the length only. -/
def describe (key : SecretKey) : String :=
  "KeyMaterial([REDACTED; " ++ toString key.bytes.length ++ "])"

/-- Descriptions tell keys apart by their lengths only. -/
theorem describe_eq_iff {key other : SecretKey} :
    key.describe = other.describe ↔ key.bytes.length = other.bytes.length := by
  unfold describe
  constructor
  · intro same
    have texts := congrArg String.toList same
    simp only [Nat.toString_eq_ofList_toDigits, String.toList_append, String.toList_ofList,
      List.append_cancel_left_eq, List.append_cancel_right_eq] at texts
    have lengths := congrArg (Nat.ofDigitChars 10 · 0) texts
    simpa only [Nat.ofDigitChars_ten_toDigits] using lengths
  · intro same
    rw [same]

/-- The key after its bytes were wiped. -/
def wipe (_ : SecretKey) : SecretKey := ⟨[]⟩

end SecretKey

end AesTrials

/-!
# Hexadecimal digits

The digits 0 to 9 and the letters a to f, which are read in either case and written in lower case.
-/

namespace AesTrials.Text

/-- The value of a hexadecimal digit. -/
def hexValue? (c : Char) : Option Nat :=
  let n := c.toNat
  if 48 ≤ n ∧ n ≤ 57 then some (n - 48)
  else if 97 ≤ n ∧ n ≤ 102 then some (n - 87)
  else if 65 ≤ n ∧ n ≤ 70 then some (n - 55)
  else none

/-- The hexadecimal digit of a value. -/
def hexDigit (value : Nat) : Char :=
  if value < 10 then Char.ofNat (48 + value) else Char.ofNat (87 + value)

/-- A digit that is written is read back. -/
theorem hexValue?_hexDigit {value : Nat} (h : value < 16) :
    hexValue? (hexDigit value) = some value := by
  have table : ∀ digit : Fin 16, hexValue? (hexDigit digit) = some digit.val := by decide
  exact table ⟨value, h⟩

end AesTrials.Text

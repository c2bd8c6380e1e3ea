import AesTrials.Bytes

/-!
# Base64

Three bytes are written as four digits of six bits; one or two bytes at the end are written as two
or three digits, the unused bits zero, and filled up with equals signs. Only such texts are read,
so every byte string has one written form.
-/

namespace AesTrials.Base64

/-- The digit of a value below 64. -/
def digit (value : Nat) : Char :=
  if value < 26 then Char.ofNat (value + 65)
  else if value < 52 then Char.ofNat (value + 71)
  else if value < 62 then Char.ofNat (value - 4)
  else if value = 62 then '+'
  else '/'

/-- The value of a digit. -/
def value? (c : Char) : Option Nat :=
  let n := c.toNat
  if 65 ≤ n ∧ n ≤ 90 then some (n - 65)
  else if 97 ≤ n ∧ n ≤ 122 then some (n - 71)
  else if 48 ≤ n ∧ n ≤ 57 then some (n + 4)
  else if c = '+' then some 62
  else if c = '/' then some 63
  else none

/-- The digits of a byte string. -/
def encode : Bytes → List Char
  | [] => []
  | [a] => [digit (a.toNat / 4), digit (a.toNat % 4 * 16), '=', '=']
  | [a, b] =>
    [digit (a.toNat / 4), digit (a.toNat % 4 * 16 + b.toNat / 16), digit (b.toNat % 16 * 4), '=']
  | a :: b :: c :: rest =>
    digit (a.toNat / 4) :: digit (a.toNat % 4 * 16 + b.toNat / 16) ::
      digit (b.toNat % 16 * 4 + c.toNat / 64) :: digit (c.toNat % 64) :: encode rest

/-- The byte of two digits whose last four bits are zero. -/
def decodeOne (w x : Char) : Option Bytes := do
  let w ← value? w
  let x ← value? x
  if x % 16 = 0 then some [UInt8.ofNat (w * 4 + x / 16)] else none

/-- The bytes of three digits whose last two bits are zero. -/
def decodeTwo (w x y : Char) : Option Bytes := do
  let w ← value? w
  let x ← value? x
  let y ← value? y
  if y % 4 = 0 then some [UInt8.ofNat (w * 4 + x / 16), UInt8.ofNat (x % 16 * 16 + y / 4)]
  else none

/-- The three bytes of four digits. -/
def decodeThree (w x y z : Char) : Option Bytes := do
  let w ← value? w
  let x ← value? x
  let y ← value? y
  let z ← value? z
  some [UInt8.ofNat (w * 4 + x / 16), UInt8.ofNat (x % 16 * 16 + y / 4),
    UInt8.ofNat (y % 4 * 64 + z)]

/-- The bytes of a text, if it is the written form of some. -/
def decode? : List Char → Option Bytes
  | [] => some []
  | [w, x, '=', '='] => decodeOne w x
  | [w, x, y, '='] => decodeTwo w x y
  | w :: x :: y :: z :: rest => do
    let bytes ← decodeThree w x y z
    let more ← decode? rest
    some (bytes ++ more)
  | _ => none

/-- A digit of a value below 64 has that value. -/
theorem value?_digit {value : Nat} (h : value < 64) : value? (digit value) = some value := by
  have all : ∀ v : Fin 64, value? (digit v.val) = some v.val := by decide +kernel
  exact all ⟨value, h⟩

/-- A digit is no equals sign. -/
theorem digit_ne_equals {value : Nat} (h : value < 64) : digit value ≠ '=' := by
  have all : ∀ v : Fin 64, digit v.val ≠ '=' := by decide +kernel
  exact all ⟨value, h⟩

/-- Three bytes come back from their four digits. -/
theorem decodeThree_digits (a b c : UInt8) :
    decodeThree (digit (a.toNat / 4)) (digit (a.toNat % 4 * 16 + b.toNat / 16))
      (digit (b.toNat % 16 * 4 + c.toNat / 64)) (digit (c.toNat % 64)) = some [a, b, c] := by
  have ha := a.toNat_lt
  have hb := b.toNat_lt
  have hc := c.toNat_lt
  have first : a.toNat / 4 * 4 + (a.toNat % 4 * 16 + b.toNat / 16) / 16 = a.toNat := by omega
  have second : (a.toNat % 4 * 16 + b.toNat / 16) % 16 * 16 +
      (b.toNat % 16 * 4 + c.toNat / 64) / 4 = b.toNat := by omega
  have third : (b.toNat % 16 * 4 + c.toNat / 64) % 4 * 64 + c.toNat % 64 = c.toNat := by omega
  rw [decodeThree, value?_digit (by omega), value?_digit (by omega), value?_digit (by omega),
    value?_digit (by omega)]
  simp only [Option.bind_eq_bind, Option.bind_some, first, second, third, UInt8.ofNat_toNat]

/-- Two bytes come back from their three digits. -/
theorem decodeTwo_digits (a b : UInt8) :
    decodeTwo (digit (a.toNat / 4)) (digit (a.toNat % 4 * 16 + b.toNat / 16))
      (digit (b.toNat % 16 * 4)) = some [a, b] := by
  have ha := a.toNat_lt
  have hb := b.toNat_lt
  have first : a.toNat / 4 * 4 + (a.toNat % 4 * 16 + b.toNat / 16) / 16 = a.toNat := by omega
  have second : (a.toNat % 4 * 16 + b.toNat / 16) % 16 * 16 + b.toNat % 16 * 4 / 4 = b.toNat := by
    omega
  have unused : b.toNat % 16 * 4 % 4 = 0 := by omega
  rw [decodeTwo, value?_digit (by omega), value?_digit (by omega), value?_digit (by omega)]
  simp only [Option.bind_eq_bind, Option.bind_some, first, second, unused, if_true,
    UInt8.ofNat_toNat]

/-- One byte comes back from its two digits. -/
theorem decodeOne_digits (a : UInt8) :
    decodeOne (digit (a.toNat / 4)) (digit (a.toNat % 4 * 16)) = some [a] := by
  have ha := a.toNat_lt
  have first : a.toNat / 4 * 4 + a.toNat % 4 * 16 / 16 = a.toNat := by omega
  have unused : a.toNat % 4 * 16 % 16 = 0 := by omega
  rw [decodeOne, value?_digit (by omega), value?_digit (by omega)]
  simp only [Option.bind_eq_bind, Option.bind_some, first, unused, if_true, UInt8.ofNat_toNat]

/-- The written form reads back. -/
theorem decode?_encode (bytes : Bytes) : decode? (encode bytes) = some bytes := by
  fun_induction encode bytes with
  | case1 => rfl
  | case2 a => exact decodeOne_digits a
  | case3 a b =>
    have hb := b.toNat_lt
    have last := digit_ne_equals (show b.toNat % 16 * 4 < 64 by omega)
    rw [decode?]
    · exact decodeTwo_digits a b
    · exact fun h => last h
  | case4 a b c rest ih =>
    have last := digit_ne_equals (show c.toNat % 64 < 64 by omega)
    rw [decode?, decodeThree_digits, ih]
    · rfl
    · exact fun _ h _ => last h
    · exact fun h _ => last h

/-- A character with a value is the digit of that value, which is below 64. -/
theorem digit_of_value? {c : Char} {value : Nat} (read : value? c = some value) :
    value < 64 ∧ digit value = c := by
  simp only [value?] at read
  split at read
  · rename_i upper
    cases read
    have back : c.toNat - 65 + 65 = c.toNat := by omega
    rw [digit, if_pos (by omega), back, Char.ofNat_toNat]
    exact ⟨by omega, rfl⟩
  split at read
  · rename_i lower
    cases read
    have back : c.toNat - 71 + 71 = c.toNat := by omega
    rw [digit, if_neg (by omega), if_pos (by omega), back, Char.ofNat_toNat]
    exact ⟨by omega, rfl⟩
  split at read
  · rename_i decimal
    cases read
    have back : c.toNat + 4 - 4 = c.toNat := by omega
    rw [digit, if_neg (by omega), if_neg (by omega), if_pos (by omega), back, Char.ofNat_toNat]
    exact ⟨by omega, rfl⟩
  split at read
  · rename_i plus
    cases read
    rw [plus]
    decide
  split at read
  · rename_i slash
    cases read
    rw [slash]
    decide
  · contradiction

/-- The byte of two digits is written as them. -/
theorem encode_of_decodeOne {w x : Char} {bytes : Bytes} (read : decodeOne w x = some bytes) :
    encode bytes = [w, x, '=', '='] := by
  simp only [decodeOne, Option.bind_eq_bind, Option.bind_eq_some_iff] at read
  obtain ⟨u, readW, v, readX, taken⟩ := read
  obtain ⟨smallU, rfl⟩ := digit_of_value? readW
  obtain ⟨smallV, rfl⟩ := digit_of_value? readX
  split at taken
  · rename_i unused
    cases taken
    have first : (u * 4 + v / 16) / 4 = u := by omega
    have second : (u * 4 + v / 16) % 4 * 16 = v := by omega
    simp (disch := omega) only [encode, UInt8.toNat_ofNat', Nat.mod_eq_of_lt]
    rw [first, second]
  · contradiction

/-- The bytes of three digits are written as them. -/
theorem encode_of_decodeTwo {w x y : Char} {bytes : Bytes}
    (read : decodeTwo w x y = some bytes) : encode bytes = [w, x, y, '='] := by
  simp only [decodeTwo, Option.bind_eq_bind, Option.bind_eq_some_iff] at read
  obtain ⟨u, readW, v, readX, s, readY, taken⟩ := read
  obtain ⟨smallU, rfl⟩ := digit_of_value? readW
  obtain ⟨smallV, rfl⟩ := digit_of_value? readX
  obtain ⟨smallS, rfl⟩ := digit_of_value? readY
  split at taken
  · rename_i unused
    cases taken
    have first : (u * 4 + v / 16) / 4 = u := by omega
    have second : (u * 4 + v / 16) % 4 * 16 + (v % 16 * 16 + s / 4) / 16 = v := by omega
    have third : (v % 16 * 16 + s / 4) % 16 * 4 = s := by omega
    simp (disch := omega) only [encode, UInt8.toNat_ofNat', Nat.mod_eq_of_lt]
    rw [first, second, third]
  · contradiction

/-- The bytes of four digits are written as them, in front of what is written of more bytes. -/
theorem encode_of_decodeThree {w x y z : Char} {bytes : Bytes}
    (read : decodeThree w x y z = some bytes) (more : Bytes) :
    encode (bytes ++ more) = w :: x :: y :: z :: encode more := by
  simp only [decodeThree, Option.bind_eq_bind, Option.bind_eq_some_iff] at read
  obtain ⟨u, readW, v, readX, s, readY, t, readZ, taken⟩ := read
  obtain ⟨smallU, rfl⟩ := digit_of_value? readW
  obtain ⟨smallV, rfl⟩ := digit_of_value? readX
  obtain ⟨smallS, rfl⟩ := digit_of_value? readY
  obtain ⟨smallT, rfl⟩ := digit_of_value? readZ
  cases taken
  have first : (u * 4 + v / 16) / 4 = u := by omega
  have second : (u * 4 + v / 16) % 4 * 16 + (v % 16 * 16 + s / 4) / 16 = v := by omega
  have third : (v % 16 * 16 + s / 4) % 16 * 4 + (s % 4 * 64 + t) / 64 = s := by omega
  have fourth : (s % 4 * 64 + t) % 64 = t := by omega
  simp (disch := omega) only [List.cons_append, List.nil_append, encode, UInt8.toNat_ofNat',
    Nat.mod_eq_of_lt]
  rw [first, second, third, fourth]

/-- A text that is read is the written form of what is read. -/
theorem encode_of_decode? {text : List Char} {bytes : Bytes} (read : decode? text = some bytes) :
    encode bytes = text := by
  fun_induction decode? text generalizing bytes with
  | case1 =>
    cases read
    rfl
  | case2 w x => exact encode_of_decodeOne read
  | case3 w x y => exact encode_of_decodeTwo read
  | case4 w x y z rest _ _ ih =>
    simp only [Option.bind_eq_bind, Option.bind_eq_some_iff] at read
    obtain ⟨front, readFront, more, readMore, taken⟩ := read
    cases taken
    rw [encode_of_decodeThree readFront, ih readMore]
  | case5 => contradiction

/-- The one text that reads as bytes is their written form. -/
theorem decode?_eq_some_iff {text : List Char} {bytes : Bytes} :
    decode? text = some bytes ↔ text = encode bytes := by
  constructor
  · exact fun read => (encode_of_decode? read).symm
  · rintro rfl
    exact decode?_encode bytes

end AesTrials.Base64

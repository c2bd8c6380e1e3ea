import AesTrials.Proofs.Loading
import AesTrials.Proofs.Rounding
import AesTrials.Proofs.WholeNumbers

/-!
# Unsigned settings

A setting that is an unsigned number is given by its digits, but not every number is read as a whole
one: from two to the power of 63 on it is taken for a float first, and comes back as the nearest
float. So it is kept exactly if it is smaller, or a multiple of 2048, or the largest number of all,
at which everything above the largest float ends. The other settings do not matter to this, and
nothing is refused over it.
-/

namespace AesTrials

namespace Decimal

variable {number : Nat} {c : Char}

/-- A number is written with digits only. -/
theorem isDigit_of_mem_write (member : c ∈ write number) : isDigit c = true := by
  obtain ⟨digit, small, rfl⟩ := mem_write member
  exact isDigit_digitChar digit small

/-- A list of digits is read as the number that is written so. -/
theorem readDigits?_write (number : Nat) : readDigits? (write number) = some number :=
  readDigits?_eq_some_iff.mpr ⟨digits number, digits_ne_nil number,
    fun _ member => lt_of_mem_digits member, (map_digitChar_digits number).symm,
    ofDigits_digits number⟩

/-- A written number does not begin with what is no digit. -/
theorem write_ne_cons (other : isDigit c = false) (rest : List Char) :
    write number ≠ c :: rest := by
  intro same
  have digit : isDigit c = true := isDigit_of_mem_write (same ▸ List.mem_cons_self)
  rw [other] at digit
  contradiction

/-- A written number has no sign. -/
theorem splitSign_write (number : Nat) : splitSign (write number) = (false, write number) := by
  unfold splitSign
  split
  · rename_i rest same
    exact absurd same (write_ne_cons (by decide) rest)
  · rename_i rest same
    exact absurd same (write_ne_cons (by decide) rest)
  · rfl

/-- A written number is the same in lower case. -/
theorem map_toLower_write (number : Nat) : (write number).map Char.toLower = write number := by
  have table : ∀ digit < 10, (digitChar digit).toLower = digitChar digit := by decide
  refine (List.map_congr_left fun c member => ?_).trans (List.map_id _)
  obtain ⟨digit, small, rfl⟩ := mem_write member
  exact table digit small

/-- A written number is no word. -/
theorem write_beq_word {word : String} (letters : ∃ c rest, word.toList = c :: rest ∧
    isDigit c = false) : (String.ofList (write number) == word) = false := by
  obtain ⟨c, rest, spelled, other⟩ := letters
  rw [beq_eq_false_iff_ne]
  rintro rfl
  rw [String.toList_ofList] at spelled
  exact write_ne_cons other rest spelled

/-- A written number is read below a bound if it is below it. -/
theorem readBelow?_write (bound number : Nat) :
    readBelow? bound (write number) = if number < bound then some number else none := by
  have bare : readBelow? bound (write number) =
      (readDigits? (write number)).bind fun read => if read < bound then some read else none := by
    rw [readBelow?]
    · rfl
    · intro behind same
      exact write_ne_cons (by decide) behind same
  rw [bare, readDigits?_write, Option.bind_some]

/-- A written number is read as a whole number if it has 63 bits at most. -/
theorem readSigned?_write (number : Nat) :
    readSigned? (write number) = if number < 2 ^ 63 then some (number : Int) else none := by
  have bare : readSigned? (write number) =
      (readBelow? (Nat.pow 2 63) (write number)).map fun number => (number : Int) := by
    rw [readSigned?]
    intro behind same
    exact write_ne_cons (by decide) behind same
  rw [bare, readBelow?_write, Nat.pow_eq]
  split <;> rfl

/-- A written number is read as a decimal without a point and without a power of ten. -/
theorem readUnsigned?_write (number : Nat) : readUnsigned? (write number) = some ⟨number, 0⟩ := by
  have whole : (write number).takeWhile isDigit = write number :=
    List.takeWhile_eq_self_iff.mpr fun c member => isDigit_of_mem_write member
  have rest : (write number).dropWhile isDigit = [] :=
    List.dropWhile_eq_nil_iff.mpr fun c member => isDigit_of_mem_write member
  simp only [readUnsigned?, whole, rest, List.append_nil, readDigits?_write]
  rfl

/-- A written number is read as the float nearest to it. -/
theorem readFloat?_write (number : Nat) :
    readFloat? (write number) = some (toFloat false ⟨number, 0⟩) := by
  have first : (String.ofList (write number) == "inf") = false :=
    write_beq_word ⟨'i', ['n', 'f'], by decide⟩
  have second : (String.ofList (write number) == "infinity") = false :=
    write_beq_word ⟨'i', ['n', 'f', 'i', 'n', 'i', 't', 'y'], by decide⟩
  have third : (String.ofList (write number) == "nan") = false :=
    write_beq_word ⟨'n', ['a', 'n'], by decide⟩
  simp only [readFloat?, splitSign_write, map_toLower_write, first, second, third,
    readUnsigned?_write]
  rfl

/-- A positive whole number far from infinity is made a float as it stands. -/
theorem toFloat_whole (positive : 0 < number) (small : number < 10 ^ 20) :
    toFloat false ⟨number, 0⟩ = Float.ofScientific number false 0 := by
  have count : digitCount number ≤ 20 :=
    (Nat.length_toDigits_le_iff (by decide) (by decide)).mpr small
  have some : ¬ (number = 0 ∨ (digitCount number : Int) + 0 < tinyPower) := by
    rw [tinyPower]
    omega
  have finite : ¬ hugePower ≤ (digitCount number : Int) + 0 := by
    rw [hugePower]
    omega
  simp only [toFloat, some, finite]
  rfl

end Decimal

namespace Setting

/-- The number that the digits of a number are read as. -/
def nearest (number : Nat) : Nat :=
  if number < 2 ^ 63 then number
  else min (2048 * Decimal.roundHalfEven number 2048) (2 ^ 64 - 1)

variable {number : Nat}

/-- The digits of a number are read as the number if it has 63 bits at most, else as the nearest
float. -/
theorem toNat?_ofText_write (small : number < 2 ^ 64) :
    (ofText (String.ofList (Decimal.write number))).toNat? = some (nearest number) := by
  have lower : Text.lower (String.ofList (Decimal.write number)) =
      String.ofList (Decimal.write number) := by
    rw [Text.lower, String.toList_ofList, Decimal.map_toLower_write]
  have first : (String.ofList (Decimal.write number) == "true") = false :=
    Decimal.write_beq_word ⟨'t', ['r', 'u', 'e'], by decide⟩
  have second : (String.ofList (Decimal.write number) == "false") = false :=
    Decimal.write_beq_word ⟨'f', ['a', 'l', 's', 'e'], by decide⟩
  simp only [ofText, lower, first, second, String.toList_ofList, Decimal.readSigned?_write,
    Decimal.readFloat?_write, nearest]
  by_cases whole : number < 2 ^ 63
  · have positive : ¬ (number : Int) < 0 := by omega
    simp only [whole, Bool.false_eq_true, ↓reduceIte, toNat?, positive, Int.toNat_natCast]
  · have long : 2 ^ (52 + 11) ≤ number := by omega
    have float := @Decimal.toFloat_whole number (by omega) (by omega)
    have read := Decimal.toNatBelow_ofScientific unsignedLimit long small (by decide) (by decide)
    have factor : 2 ^ 11 = 2048 := rfl
    have largest : unsignedLimit - 1 = 2 ^ 64 - 1 := rfl
    rw [factor, largest] at read
    simp only [whole, Bool.false_eq_true, ↓reduceIte, toNat?, float, read]

/-- Every number is read as one that is 1024 away at most. -/
theorem nearest_near (small : number < 2 ^ 64) :
    nearest number ≤ number + 1024 ∧ number ≤ nearest number + 1024 := by
  obtain ⟨above, below⟩ := Decimal.roundHalfEven_near number (by decide : 0 < 2048)
  unfold nearest
  split <;> omega

/-- Half a step above an even float, and half a step above an odd one. -/
example : nearest (2 ^ 63 + 1024) = 2 ^ 63 ∧ nearest (2 ^ 63 + 3072) = 2 ^ 63 + 4096 := by decide

/-- No number but zero is read as zero. -/
theorem nearest_ne_zero (small : number < 2 ^ 64) (positive : number ≠ 0) :
    nearest number ≠ 0 := by
  have near := (nearest_near small).2
  by_cases whole : number < 2 ^ 63
  · rw [nearest, if_pos whole]
    exact positive
  · omega

/-- The numbers that are kept exactly. -/
theorem nearest_eq_iff (small : number < 2 ^ 64) :
    nearest number = number ↔ number < 2 ^ 63 ∨ 2048 ∣ number ∨ number = 2 ^ 64 - 1 := by
  have exact := Decimal.mul_roundHalfEven_eq_iff number (by decide : 0 < 2048)
  obtain ⟨above, below⟩ := Decimal.roundHalfEven_near number (by decide : 0 < 2048)
  by_cases whole : number < 2 ^ 63
  · rw [nearest, if_pos whole]
    exact iff_of_true rfl (.inl whole)
  · rw [nearest, if_neg whole]
    omega

end Setting

/-- The settings that are unsigned numbers. -/
inductive UnsignedSetting where
  /-- Plaintext length in bytes. -/
  | payloadSize
  /-- Additional data length in bytes. -/
  | aadSize
  /-- Cycles for each variant. -/
  | iterations
  /-- The number that seeds the inputs. -/
  | seed
deriving DecidableEq, Repr, Inhabited

namespace UnsignedSetting

/-- The name of the setting. -/
def name : UnsignedSetting → String
  | .payloadSize => "payload_size"
  | .aadSize => "aad_size"
  | .iterations => "iterations"
  | .seed => "seed"

/-- The usual name of the variable that gives it. -/
def variableName : UnsignedSetting → String
  | .payloadSize => "CIPHERBENCH_PAYLOAD_SIZE"
  | .aadSize => "CIPHERBENCH_AAD_SIZE"
  | .iterations => "CIPHERBENCH_ITERATIONS"
  | .seed => "CIPHERBENCH_SEED"

/-- The usual variable has the name of the setting for its key. -/
theorem key?_variableName (setting : UnsignedSetting) :
    SettingPath.key? setting.variableName = some setting.name := by
  cases setting <;> decide +kernel

/-- The number that is read for the setting, if there is one. -/
def get? (draft : Draft) : UnsignedSetting → Option Nat
  | .payloadSize => some draft.payloadSize
  | .aadSize => some draft.aadSize
  | .iterations => some draft.iterations
  | .seed => draft.seed

/-- The same settings but for this one. -/
def put (number : Nat) (draft : Draft) : UnsignedSetting → Draft
  | .payloadSize => { draft with payloadSize := number }
  | .aadSize => { draft with aadSize := number }
  | .iterations => { draft with iterations := number }
  | .seed => { draft with seed := some number }

variable (setting : UnsignedSetting) (number : Nat) (draft : Draft)

@[simp] theorem get?_put : setting.get? (setting.put number draft) = some number := by
  cases setting <;> rfl

@[simp] theorem put_selectors : (setting.put number draft).selectors = draft.selectors := by
  cases setting <;> rfl

@[simp] theorem put_sweep : (setting.put number draft).sweep = draft.sweep := by
  cases setting <;> rfl

/-- Only the iteration count must not be zero. -/
theorem put_iterations_ne_zero (counted : setting = .iterations → number ≠ 0)
    (given : draft.iterations ≠ 0) : (setting.put number draft).iterations ≠ 0 := by
  cases setting with
  | iterations => exact counted rfl
  | payloadSize => exact given
  | aadSize => exact given
  | seed => exact given

section Loads

variable {setting number draft} {root other value : Setting} {base : Settings}

/-- Two groups of settings that differ in one unsigned setting give drafts that differ in it. -/
theorem read?_of_agreeBut (agree : Setting.AgreeBut setting.name root other)
    (given : root.part? setting.name = some value) (read : value.toNat? = some number)
    (drafted : Draft.read? other = some draft) :
    Draft.read? root = some (setting.put number draft) := by
  have same {α : Type} (name : String) (differs : name ≠ setting.name) (read : Setting → Option α)
      (standard : α) : root.read? name read standard = other.read? name read standard := by
    rw [Setting.read?, Setting.read?, agree name differs]
  have whole (standard : Nat) : root.read? setting.name Setting.toNat? standard = some number := by
    rw [Setting.read?, given]
    exact read
  have optional : root.read? setting.name (fun s => s.toNat?.map some) none =
      some (some number) := by
    simp only [Setting.read?, given, read, Option.map_some]
  rw [Draft.read?_eq_some_iff] at drafted ⊢
  obtain ⟨payload, aad, iterations, variants, sweep, mode, format, warm, seed, level⟩ := drafted
  -- Of the ten settings one is given anew; the nine others are read as before.
  cases setting <;> constructor
  all_goals
    first
      | exact whole _
      | exact optional
      | exact (same _ (by decide) _ _).trans ‹_›

/-- A group of settings that is valid but for one unsigned setting, and gives this a number, is run
with that number. -/
theorem ofRoot_of_agreeBut (agree : Setting.AgreeBut setting.name root other)
    (valid : Settings.ofRoot other = .ok base)
    (given : root.part? setting.name = some value) (read : value.toNat? = some number)
    (counted : setting = .iterations → number ≠ 0) :
    Settings.ofRoot root = .ok { base with toDraft := setting.put number base.toDraft } := by
  obtain ⟨draft, drafted, valid⟩ := Settings.ofRoot_eq_ok_iff.mp valid
  obtain ⟨some, selectors, sweep, rfl⟩ := Draft.validate_eq_ok_iff.mp valid
  have drafted := read?_of_agreeBut agree given read drafted
  refine Settings.ofRoot_eq_ok_iff.mpr ⟨_, drafted, Draft.validate_eq_ok_iff.mpr ?_⟩
  refine ⟨setting.put_iterations_ne_zero number _ counted some, ?_, ?_, rfl⟩
  · rw [put_selectors]
    exact selectors
  · rw [put_sweep]
    exact sweep

/-- Entries that give the digits of a number for an unsigned setting as a whole, and are valid
without it, are loaded with the number that the digits are read as. -/
theorem load?_of_digits {environment : Environment} {entries : Entries}
    (order : entries.Perm environment.entries) (whole : entries.Whole setting.name)
    (given : environment.given? setting.name = some (String.ofList (Decimal.write number)))
    (small : number < 2 ^ 64) (counted : setting = .iterations → number ≠ 0)
    (valid : Settings.load? (entries.filter fun entry => entry.1 != setting.name) =
      some (.ok base)) :
    Settings.load? entries =
      some (.ok { base with toDraft := setting.put (Setting.nearest number) base.toDraft }) := by
  obtain ⟨other, built, valid⟩ := Option.map_eq_some_iff.mp valid
  obtain ⟨root, built, agree⟩ := Setting.exists_build?_of_filter whole built
  have distinct : (entries.map Prod.fst).Nodup :=
    (order.map Prod.fst).nodup_iff.mpr Environment.nodup_entries
  have digits := Setting.part?_build? distinct whole built
  rw [Environment.lookup_of_perm order, given] at digits
  rw [Settings.load?, built, Option.map_some, ofRoot_of_agreeBut agree valid digits
    (Setting.toNat?_ofText_write small)]
  intro iterations
  exact Setting.nearest_ne_zero small (counted iterations)

end Loads

/-- An environment that gives the digits of a number below two to the power of 64 for an unsigned
setting, has no variable that leads to a place inside it, and is valid otherwise, always loads, in
whatever order its entries come, and no other setting changes. The usual variable of the setting is
one that gives it. The number that is loaded is 1024 away at most; it is the one that was given
exactly if that is below two to the power of 63, or a multiple of 2048, or the largest of all. -/
theorem load_nearest (setting : UnsignedSetting) {environment : Environment} {entries : Entries}
    {number : Nat} {base : Settings} (order : entries.Perm environment.entries)
    (whole : entries.Whole setting.name)
    (given : environment.given? setting.name = some (String.ofList (Decimal.write number)))
    (small : number < 2 ^ 64) (counted : setting = .iterations → number ≠ 0)
    (valid : Settings.load? (entries.filter fun entry => entry.1 != setting.name) =
      some (.ok base)) :
    SettingPath.key? setting.variableName = some setting.name ∧
    ∃ loaded, Settings.load? entries =
        some (.ok { base with toDraft := setting.put loaded base.toDraft }) ∧
      setting.get? (setting.put loaded base.toDraft) = some loaded ∧
      (loaded = number ↔ number < 2 ^ 63 ∨ 2048 ∣ number ∨ number = 2 ^ 64 - 1) ∧
      (number < 2 ^ 63 ∨ loaded = min (2048 * Decimal.roundHalfEven number 2048) (2 ^ 64 - 1)) ∧
      loaded ≤ number + 1024 ∧ number ≤ loaded + 1024 := by
  refine ⟨setting.key?_variableName, Setting.nearest number,
    load?_of_digits order whole given small counted valid, get?_put ..,
    Setting.nearest_eq_iff small, ?_, Setting.nearest_near small⟩
  by_cases small : number < 2 ^ 63
  · exact .inl small
  · rw [Setting.nearest, if_neg small]
    exact .inr rfl

/-- The seed after two to the power of 63, between a mode and a switch, entered last. -/
theorem load_nearest_seed :
    Environment.given? [("CIPHERBENCH_MODE", "suite"), ("CIPHERBENCH_SEED", "9223372036854775809"),
        ("CIPHERBENCH_WARMUP", "no")] "seed" = some "9223372036854775809" ∧
      Entries.Whole [("mode", "suite"), ("warmup", "no"), ("seed", "9223372036854775809")] "seed" ∧
      ∃ base, Settings.load? [("mode", "suite"), ("warmup", "no")] = some (.ok base) ∧
        Settings.load? [("mode", "suite"), ("warmup", "no"), ("seed", "9223372036854775809")] =
          some (.ok { base with seed := some (2 ^ 63) }) := by
  let environment : Environment := [("CIPHERBENCH_MODE", "suite"),
    ("CIPHERBENCH_SEED", "9223372036854775809"), ("CIPHERBENCH_WARMUP", "no")]
  let entries : Entries :=
    [("mode", "suite"), ("warmup", "no"), ("seed", "9223372036854775809")]
  have entered : environment.entries =
      [("mode", "suite"), ("seed", "9223372036854775809"), ("warmup", "no")] := by decide +kernel
  have order : entries.Perm environment.entries := by
    rw [entered]
    exact .cons _ (.swap ..)
  have given : environment.given? "seed" = some "9223372036854775809" := by decide +kernel
  have whole : entries.Whole "seed" := by
    have flat : entries.all fun entry => (SettingPath.ofKey entry.1).steps = [] := by
      decide +kernel
    exact fun entry member _ => by simpa using List.all_eq_true.mp flat entry member
  obtain ⟨base, valid⟩ : ∃ base : Settings,
      Settings.load? [("mode", "suite"), ("warmup", "no")] = some (.ok base) :=
    ⟨{ payloadSize := 10, aadSize := 0, iterations := 100, variantsText := none,
       sweepText := "aes256-gcm", mode := .suite, reportFormat := .table, warmUp := false,
       seed := none, logLevel := "warn", selectors := Selector.standardSuite,
       sweep := ⟨.gcm, .w256⟩ }, by decide +kernel⟩
  have digits : String.ofList (Decimal.write (2 ^ 63 + 1)) = "9223372036854775809" := by
    decide +kernel
  obtain ⟨_, loaded, loads, _, _, rounded, _⟩ := load_nearest seed order whole
    (given.trans (congrArg some digits.symm)) (by decide) nofun valid
  have even : loaded = 2 ^ 63 := by
    obtain small | rounded := rounded
    · exact absurd small (by decide)
    · rw [rounded]
      decide
  rw [even] at loads
  exact ⟨given, whole, base, valid, loads⟩

/-- Not every number is loaded exactly: the seed after two to the power of 63 is not. -/
theorem not_load_exact :
    ¬ ∀ (setting : UnsignedSetting) (environment : Environment) (entries : Entries) (number : Nat)
      (base : Settings), entries.Perm environment.entries → entries.Whole setting.name →
      environment.given? setting.name = some (String.ofList (Decimal.write number)) →
      number < 2 ^ 64 → (setting = .iterations → number ≠ 0) →
      Settings.load? (entries.filter fun entry => entry.1 != setting.name) = some (.ok base) →
      ∃ settings, Settings.load? entries = some (.ok settings) ∧
        setting.get? settings.toDraft = some number := by
  intro exact
  let environment : Environment := [("CIPHERBENCH_SEED", "9223372036854775809")]
  have entered : environment.entries = [("seed", "9223372036854775809")] := by decide +kernel
  have digits : String.ofList (Decimal.write (2 ^ 63 + 1)) = "9223372036854775809" := by
    decide +kernel
  have given : environment.given? seed.name =
      some (String.ofList (Decimal.write (2 ^ 63 + 1))) := by
    rw [digits]
    decide +kernel
  have whole : environment.entries.Whole seed.name := by
    rw [entered]
    intro entry member _
    obtain rfl := List.mem_singleton.mp member
    decide +kernel
  obtain ⟨base, valid⟩ : ∃ base : Settings, Settings.load?
      (environment.entries.filter fun entry => entry.1 != seed.name) = some (.ok base) :=
    ⟨{ payloadSize := 10, aadSize := 0, iterations := 100, variantsText := none,
       sweepText := "aes256-gcm", mode := .interactive, reportFormat := .table, warmUp := true,
       seed := none, logLevel := "warn", selectors := Selector.standardSuite,
       sweep := ⟨.gcm, .w256⟩ }, by decide +kernel⟩
  have small : 2 ^ 63 + 1 < 2 ^ 64 := by decide
  obtain ⟨settings, loaded, same⟩ :=
    exact seed environment _ _ base (.refl _) whole given small nofun valid
  rw [load?_of_digits (.refl _) whole given small nofun valid] at loaded
  cases loaded
  rw [get?_put] at same
  have kept := (Setting.nearest_eq_iff small).mp (Option.some.inj same)
  omega

end UnsignedSetting

end AesTrials

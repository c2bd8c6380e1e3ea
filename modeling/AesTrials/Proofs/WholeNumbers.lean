import AesTrials.Decimal.Layout
import AesTrials.Session.Dialogue
import AesTrials.Text.Case
import Mathlib.Data.List.TakeWhile
import Mathlib.Tactic.SplitIfs

/-!
# What a line says

An answer is a number if digits are left of it once white space is taken off both ends, with a plus
sign in front of them or not, and if they stand for less than two to the power of 64. A line of the
menu is judged by its first character that is not white space alone.
-/

namespace AesTrials

namespace Decimal

/-- A character has the value of a digit if it is the character of that digit. -/
theorem digitValue?_eq_some_iff {c : Char} {digit : Nat} :
    digitValue? c = some digit ↔ digit < 10 ∧ c = digitChar digit := by
  constructor
  · intro valued
    rw [digitValue?] at valued
    split at valued
    · rename_i bounds
      cases valued
      refine ⟨by omega, ?_⟩
      rw [digitChar, show 48 + (c.toNat - 48) = c.toNat by omega, Char.ofNat_toNat]
    · contradiction
  · rintro ⟨small, rfl⟩
    have table : ∀ digit < 10, digitValue? (digitChar digit) = some digit := by decide
    exact table digit small

/-- Characters have the values of digits if they are the characters of those digits. -/
theorem digitValues?_eq_some_iff {text : List Char} {digits : List Nat} :
    digitValues? text = some digits ↔
      (∀ digit ∈ digits, digit < 10) ∧ text = digits.map digitChar := by
  induction text generalizing digits with
  | nil =>
    have nothing : digitValues? [] = some [] := rfl
    rw [nothing, Option.some_inj]
    constructor
    · rintro rfl
      exact ⟨nofun, rfl⟩
    · rintro ⟨_, same⟩
      exact (List.map_eq_nil_iff.mp same.symm).symm
  | cons c text ih =>
    have step : digitValues? (c :: text) =
        (digitValue? c).bind fun digit => (digitValues? text).map (List.cons digit) := by
      simp only [digitValues?, List.mapM_cons, Option.bind_eq_bind, Option.pure_def,
        Option.map_eq_bind]
      rfl
    rw [step]
    constructor
    · intro valued
      obtain ⟨digit, first, later⟩ := Option.bind_eq_some_iff.mp valued
      obtain ⟨digits, rest, rfl⟩ := Option.map_eq_some_iff.mp later
      obtain ⟨small, rfl⟩ := digitValue?_eq_some_iff.mp first
      obtain ⟨others, rfl⟩ := ih.mp rest
      exact ⟨List.forall_mem_cons.mpr ⟨small, others⟩, rfl⟩
    · rintro ⟨small, same⟩
      cases digits with
      | nil => contradiction
      | cons digit digits =>
        obtain ⟨first, others⟩ := List.forall_mem_cons.mp small
        obtain ⟨rfl, rfl⟩ := List.cons.inj same
        rw [digitValue?_eq_some_iff.mpr ⟨first, rfl⟩, Option.bind_some, ih.mpr ⟨others, rfl⟩,
          Option.map_some]

/-- Whether a text is one or more digits that stand for a number. -/
def Digits (text : List Char) (number : Nat) : Prop :=
  ∃ digits : List Nat, digits ≠ [] ∧ (∀ digit ∈ digits, digit < 10) ∧
    text = digits.map digitChar ∧ ofDigits digits = number

/-- What is read from digits is the number that they stand for. -/
theorem readDigits?_eq_some_iff {text : List Char} {number : Nat} :
    readDigits? text = some number ↔ Digits text number := by
  cases text with
  | nil =>
    constructor
    · intro read
      contradiction
    · rintro ⟨digits, some, _, same, _⟩
      exact absurd (List.map_eq_nil_iff.mp same.symm) some
  | cons c text =>
    have step : readDigits? (c :: text) = (digitValues? (c :: text)).map ofDigits := rfl
    rw [step, Option.map_eq_some_iff]
    constructor
    · rintro ⟨digits, valued, stands⟩
      obtain ⟨small, same⟩ := digitValues?_eq_some_iff.mp valued
      refine ⟨digits, ?_, small, same, stands⟩
      rintro rfl
      contradiction
    · rintro ⟨digits, _, small, same, stands⟩
      exact ⟨digits, digitValues?_eq_some_iff.mpr ⟨small, same⟩, stands⟩

/-- Whether a text is digits that stand for a number, behind a plus sign or not. -/
def Numeral (text : List Char) (number : Nat) : Prop :=
  Digits text number ∨ ∃ behind, text = '+' :: behind ∧ Digits behind number

/-- Digits do not begin with a plus sign. -/
theorem not_digits_plus (text : List Char) (number : Nat) : ¬ Digits ('+' :: text) number := by
  rintro ⟨digits, _, small, same, _⟩
  cases digits with
  | nil => contradiction
  | cons digit digits =>
    have other : ∀ digit < 10, '+' ≠ digitChar digit := by decide
    exact other digit (small digit List.mem_cons_self) (List.cons.inj same).1

/-- What is read below a bound is the number of a numeral. -/
theorem readBelow?_eq_some_iff {bound number : Nat} {text : List Char} :
    readBelow? bound text = some number ↔ number < bound ∧ Numeral text number := by
  have below (digits : List Char) :
      ((readDigits? digits).bind fun read => if read < bound then some read else none) =
        some number ↔ number < bound ∧ Digits digits number := by
    rw [← readDigits?_eq_some_iff, Option.bind_eq_some_iff]
    constructor
    · rintro ⟨read, digits, bounded⟩
      split at bounded
      · rename_i small
        cases bounded
        exact ⟨small, digits⟩
      · contradiction
    · rintro ⟨small, digits⟩
      exact ⟨number, digits, if_pos small⟩
  by_cases signed : ∃ behind, text = '+' :: behind
  · obtain ⟨behind, rfl⟩ := signed
    refine (below behind).trans (and_congr_right fun _ => ?_)
    constructor
    · exact fun digits => .inr ⟨behind, rfl, digits⟩
    · rintro (digits | ⟨_, same, digits⟩)
      · exact absurd digits (not_digits_plus behind number)
      · cases same
        exact digits
  · have bare : readBelow? bound text =
        (readDigits? text).bind fun read => if read < bound then some read else none := by
      rw [readBelow?]
      · rfl
      · exact fun behind same => signed ⟨behind, same⟩
    rw [bare, below]
    refine and_congr_right fun _ => ?_
    constructor
    · exact .inl
    · rintro (digits | ⟨behind, same, _⟩)
      · exact digits
      · exact absurd ⟨behind, same⟩ signed

end Decimal

/-- Whether a line answers a question with a number: white space at both ends left out, it is a
numeral of a number below two to the power of 64. -/
def Dialogue.Answers (line : String) (number : Nat) : Prop :=
  number < Nat.pow 2 64 ∧ Decimal.Numeral (Text.trim line.toList) number

/-- The answers that are taken are numbers. -/
theorem Dialogue.answer?_eq_some_iff {line : String} {number : Nat} :
    answer? line.toList = some number ↔ Answers line number :=
  Decimal.readBelow?_eq_some_iff

/-- A line is refused as an answer if it is no number. -/
theorem Dialogue.answer?_eq_none_iff {line : String} :
    answer? line.toList = none ↔ ∀ number, ¬ Answers line number := by
  simp only [Option.eq_none_iff_forall_not_mem, Option.mem_def, answer?_eq_some_iff]

/-- The first character of a line that is not white space. -/
def Text.mark? (line : String) : Option Char := line.toList.find? fun c => !isBlank c

/-- A character has a letter from a to z as its lower case if it is that letter, small or
capital. -/
theorem Text.toLower_eq_iff {c small capital : Char} (apart : small.toNat = capital.toNat + 32)
    (first : 65 ≤ capital.toNat) (last : capital.toNat ≤ 90) :
    c.toLower = small ↔ c = small ∨ c = capital := by
  rw [← Char.toNat_inj, ← Char.toNat_inj (c := c), ← Char.toNat_inj (c := c)]
  rw [toNat_toLower]
  split <;> omega

namespace MenuChoice

/-- Whether a line with a first character that is not white space, or with none, means the
choice. -/
def Meant (mark : Option Char) : MenuChoice → Prop
  | .rerun => mark = none ∨ mark = some 'r' ∨ mark = some 'R'
  | .change => mark = some 'c' ∨ mark = some 'C'
  | .sweep => mark = some 's' ∨ mark = some 'S'
  | .quit => mark = some 'q' ∨ mark = some 'Q'
  | .unknown =>
    ∃ c, mark = some c ∧ c ∉ ['r', 'R', 'c', 'C', 's', 'S', 'q', 'Q']

/-- No line means two choices. -/
theorem Meant.unique {mark : Option Char} {choice other : MenuChoice} (one : choice.Meant mark)
    (two : other.Meant mark) : choice = other := by
  cases choice <;> cases other <;> first | rfl | (simp only [Meant] at one two; grind)

/-- What a line is read as is what it means. -/
theorem meant_read (line : String) : (read line.toList).Meant (Text.mark? line) := by
  have mark : Text.mark? line = (Text.trimStart line.toList).head? := by
    simp only [Text.mark?, List.find?_eq_head?_dropWhile_not, Bool.not_not, Text.trimStart]
  rw [mark, read]
  cases Text.trimStart line.toList with
  | nil => exact .inl rfl
  | cons c rest =>
    have rerun : c.toLower = 'r' ↔ c = 'r' ∨ c = 'R' :=
      Text.toLower_eq_iff (by decide) (by decide) (by decide)
    have change : c.toLower = 'c' ↔ c = 'c' ∨ c = 'C' :=
      Text.toLower_eq_iff (by decide) (by decide) (by decide)
    have sweep : c.toLower = 's' ↔ c = 's' ∨ c = 'S' :=
      Text.toLower_eq_iff (by decide) (by decide) (by decide)
    have quit : c.toLower = 'q' ↔ c = 'q' ∨ c = 'Q' :=
      Text.toLower_eq_iff (by decide) (by decide) (by decide)
    simp only [rerun, change, sweep, quit, List.head?_cons]
    split_ifs <;> simp_all [Meant]

/-- A line is read as the choice that it means. -/
theorem read_eq_iff {line : String} {choice : MenuChoice} :
    read line.toList = choice ↔ choice.Meant (Text.mark? line) :=
  ⟨fun same => same ▸ meant_read line, fun meant => (meant_read line).unique meant⟩

end MenuChoice

end AesTrials

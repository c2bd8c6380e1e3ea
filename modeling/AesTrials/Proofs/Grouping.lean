import AesTrials.Proofs.Unsigned
import Mathlib.Data.List.Basic

/-!
# Groups of three digits

A number is written with a comma wherever a multiple of three digits is left, but not in front of
all of them. So the commas cut it into groups of three digits behind a first group of one to three,
and without the commas it is the numeral of the number again. The pass that writes it counts digits
from the left; the invariant that carries it is how many are left.
-/

namespace AesTrials.Decimal

/-! ## The pass from the left -/

/-- What has been written once the next digit is behind it: a comma is put between if the digit is
not the first and a multiple of three digits is left. -/
def pushDigit (length : Nat) (written : List Char) (next : Char × Nat) : List Char :=
  if 0 < next.2 ∧ (length - next.2) % 3 = 0 then written ++ [',', next.1]
  else written ++ [next.1]

/-- The number with commas, written digit by digit behind what has been written so far. -/
def groupInSteps (number : Nat) : String :=
  String.ofList ((write number).zipIdx.foldl (pushDigit (write number).length) [])

/-- The comma in front of digits that are not the first, if there is one. -/
def comma (position : Nat) (digits : List Char) : List Char :=
  if 0 < position ∧ digits ≠ [] ∧ digits.length % 3 = 0 then [','] else []

/-- Digits with commas, the one in front of them apart. -/
theorem group_cons (c : Char) (rest : List Char) :
    group (c :: rest) = c :: (comma 1 rest ++ group rest) := by
  rw [group, comma]
  by_cases cut : rest ≠ [] ∧ rest.length % 3 = 0
  · rw [if_pos cut, if_pos ⟨Nat.one_pos, cut⟩]
    rfl
  · rw [if_neg cut, if_neg (fun here => cut here.2)]
    rfl

/-- Digits from a position on are written with the comma in front of them. -/
theorem foldl_pushDigit (written digits : List Char) (position : Nat) :
    (digits.zipIdx position).foldl (pushDigit (position + digits.length)) written =
      written ++ (comma position digits ++ group digits) := by
  induction digits generalizing written position with
  | nil => simp [comma, group]
  | cons c rest ih =>
    have left : position + (c :: rest).length - position = (c :: rest).length := by omega
    have next : position + (c :: rest).length = position + 1 + rest.length := by
      rw [List.length_cons]
      omega
    have behind : comma (position + 1) rest = comma 1 rest := by
      simp only [comma, Nat.succ_pos]
    have step : pushDigit (position + (c :: rest).length) written (c, position) =
        written ++ (comma position (c :: rest) ++ [c]) := by
      simp only [pushDigit, comma, left]
      by_cases cut : 0 < position ∧ (c :: rest).length % 3 = 0
      · rw [if_pos cut, if_pos ⟨cut.1, List.cons_ne_nil c rest, cut.2⟩]
        rfl
      · rw [if_neg cut, if_neg (fun here => cut ⟨here.1, here.2.2⟩)]
        rfl
    rw [List.zipIdx_cons, List.foldl_cons, step, next, ih, behind, group_cons]
    simp only [List.append_assoc, List.singleton_append]

/-- The pass writes the number with commas between groups of three digits. -/
theorem groupInSteps_eq (number : Nat) : groupInSteps number = writeGrouped number := by
  have whole := foldl_pushDigit [] (write number) 0
  have first : comma 0 (write number) = [] := by simp [comma]
  rw [Nat.zero_add, first] at whole
  rw [groupInSteps, writeGrouped, whole]
  rfl

/-! ## The groups -/

variable {digits : List Char}

/-- Whether groups are as they should be: one to three digits in the first and three in each of the
others. -/
def Triads : List (List Char) → Prop
  | [] => False
  | first :: later => (1 ≤ first.length ∧ first.length ≤ 3) ∧ ∀ part ∈ later, part.length = 3

/-- Without the commas the digits are left. -/
theorem filter_group (plain : ',' ∉ digits) :
    (group digits).filter (fun c => c != ',') = digits := by
  induction digits with
  | nil => rfl
  | cons c rest ih =>
    have other : c ≠ ',' := by
      rintro rfl
      exact plain List.mem_cons_self
    have gone : (comma 1 rest).filter (fun c => c != ',') = [] := by
      rw [comma]
      split <;> rfl
    rw [group_cons, List.filter_cons_of_pos (by simpa using other), List.filter_append, gone,
      List.nil_append, ih (fun later => plain (List.mem_cons_of_mem c later))]

/-- The commas cut digits into groups of three behind a first group with what is left over. -/
theorem splitAt_group (plain : ',' ∉ digits) (some : digits ≠ []) :
    ∃ first later, Text.splitAt ',' (group digits) = first :: later ∧
      first.length = (digits.length - 1) % 3 + 1 ∧ ∀ part ∈ later, part.length = 3 := by
  induction digits with
  | nil => contradiction
  | cons c rest ih =>
    have other : c ≠ ',' := by
      rintro rfl
      exact plain List.mem_cons_self
    have length : (c :: rest).length - 1 = rest.length := rfl
    rw [group_cons, Text.splitAt_cons other, length]
    by_cases alone : rest = []
    · subst alone
      exact ⟨[c], [], rfl, rfl, nofun⟩
    · have positive : 0 < rest.length := List.length_pos_iff.mpr alone
      obtain ⟨first, later, parts, front, back⟩ :=
        ih (fun within => plain (List.mem_cons_of_mem c within)) alone
      by_cases cut : rest.length % 3 = 0
      · -- The comma ends the first group, and the group behind it has its three digits.
        have here : comma 1 rest = [','] := if_pos ⟨Nat.one_pos, alone, cut⟩
        rw [here, List.singleton_append, Text.splitAt_separator, parts]
        refine ⟨[c], first :: later, rfl, by rw [cut]; rfl, ?_⟩
        exact List.forall_mem_cons.mpr ⟨by omega, back⟩
      · have none : comma 1 rest = [] := if_neg (fun here => cut here.2.2)
        rw [none, List.nil_append, parts]
        refine ⟨c :: first, later, rfl, ?_, back⟩
        rw [List.length_cons]
        omega

/-- Digits with commas begin with the first digit. -/
theorem head?_group (digits : List Char) : (group digits).head? = digits.head? := by
  cases digits with
  | nil => rfl
  | cons c rest =>
    rw [group_cons]
    rfl

/-- Digits with commas end with the last digit. -/
theorem getLast?_group (digits : List Char) : (group digits).getLast? = digits.getLast? := by
  induction digits with
  | nil => rfl
  | cons c rest ih =>
    rw [group_cons]
    cases rest with
    | nil => rfl
    | cons next rest =>
      have some : group (next :: rest) ≠ [] := by
        rw [group_cons]
        exact List.cons_ne_nil _ _
      rw [← List.cons_append, List.getLast?_append_of_ne_nil _ some, ih, List.getLast?_cons_cons]

/-! ## Numbers -/

variable {number : Nat}

/-- A comma is no digit. -/
theorem comma_notMem_write (number : Nat) : ',' ∉ write number := by
  intro member
  have digit : isDigit ',' = true := isDigit_of_mem_write member
  contradiction

theorem write_ne_nil (number : Nat) : write number ≠ [] := Nat.toDigits_ne_nil

/-- Whether a text is the numeral of a number as it is usually written: digits that stand for the
number, the first of several no zero. -/
structure Canonical (text : List Char) (number : Nat) : Prop where
  /-- The text is one or more digits that stand for the number. -/
  digits : Digits text number
  /-- A zero in front stands alone. -/
  lone_zero : text.head? = some '0' → text = ['0']

/-- A number is written as it usually is. -/
theorem canonical_write (number : Nat) : Canonical (write number) number := by
  constructor
  · exact readDigits?_eq_some_iff.mp (readDigits?_write number)
  · intro zero
    obtain ⟨first, more, shape⟩ := List.exists_cons_of_ne_nil (digits_ne_nil number)
    have front : digitChar first = '0' := by
      rw [← map_digitChar_digits, shape] at zero
      exact Option.some.inj zero
    have small : first < 10 := lt_of_mem_digits (shape ▸ List.mem_cons_self)
    have value := digitChar_toNat first small
    rw [front] at value
    obtain rfl : 0 = first := value
    rw [eq_zero_of_digits shape]
    rfl

/-- The numeral of a number, in groups of three digits: without its commas it is the number as it is
usually written; it neither begins nor ends with a comma; its first group has one to three digits
and each of the others three; no other number is written so; and it is what the pass from the left
writes. -/
theorem writeGrouped_in_triads (number : Nat) :
    let text := (writeGrouped number).toList
    Canonical (text.filter fun c => c != ',') number ∧
      text.head? ≠ some ',' ∧ text.getLast? ≠ some ',' ∧
      Triads (Text.splitAt ',' text) ∧
      (∀ other, writeGrouped other = writeGrouped number → other = number) ∧
      groupInSteps number = writeGrouped number := by
  intro text
  have grouped (number : Nat) : (writeGrouped number).toList = group (write number) :=
    String.toList_ofList
  have bare (number : Nat) :
      (writeGrouped number).toList.filter (fun c => c != ',') = write number := by
    rw [grouped, filter_group (comma_notMem_write number)]
  refine ⟨?_, ?_, ?_, ?_, ?_, groupInSteps_eq number⟩
  · show Canonical ((writeGrouped number).toList.filter fun c => c != ',') number
    rw [bare]
    exact canonical_write number
  · show (writeGrouped number).toList.head? ≠ some ','
    rw [grouped, head?_group]
    exact fun first => comma_notMem_write number (List.mem_of_head? first)
  · show (writeGrouped number).toList.getLast? ≠ some ','
    rw [grouped, getLast?_group]
    exact fun last => comma_notMem_write number (List.mem_of_getLast? last)
  · show Triads (Text.splitAt ',' (writeGrouped number).toList)
    obtain ⟨first, later, parts, front, back⟩ :=
      splitAt_group (comma_notMem_write number) (write_ne_nil number)
    rw [grouped, parts]
    exact ⟨by omega, back⟩
  · intro other same
    have digits : write other = write number := by
      rw [← bare other, same, bare number]
    have read := readDigits?_write other
    rw [digits, readDigits?_write number] at read
    exact (Option.some.inj read).symm

/-- Four digits have a comma behind the first, three have none. -/
example : writeGrouped 1000 = "1,000" ∧ writeGrouped 999 = "999" := by decide

end AesTrials.Decimal

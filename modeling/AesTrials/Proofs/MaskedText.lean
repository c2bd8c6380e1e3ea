import AesTrials.Proofs.Numerals
import AesTrials.Proofs.WholeNumbers
import AesTrials.Session.Masking
import Mathlib.Data.List.Basic

/-!
# Texts without measured times

Two texts are alike if putting one in the place of the other does not show once times are hidden,
whatever stands around them; so what is put together from texts that are alike is alike. A text is
hidden line by line, and the beginnings of lines are alike that differ in a measured time only.
-/

namespace AesTrials

namespace Masking

/-- The lines of a text without measured times, as characters. -/
def hidden (text : List Char) : List (List Char) := (Text.splitAt '\n' text).map hideLine

/-- Whether two texts stand for each other once times are hidden, whatever stands around them. -/
def Alike (text other : List Char) : Prop :=
  ∀ front back, hidden (front ++ text ++ back) = hidden (front ++ other ++ back)

namespace Alike

variable {text other : List Char}

theorem refl (text : List Char) : Alike text text := fun _ _ => rfl

/-- What is put together from texts that are alike is alike. -/
theorem append {behind otherBehind : List Char} (one : Alike text other)
    (two : Alike behind otherBehind) : Alike (text ++ behind) (other ++ otherBehind) := by
  intro front back
  have first := one front (behind ++ back)
  have second := two (front ++ other) back
  simp only [List.append_assoc] at first second ⊢
  rw [first, second]

/-- What stands behind the same text is alike. -/
theorem cons (c : Char) (alike : Alike text other) : Alike (c :: text) (c :: other) :=
  (refl [c]).append alike

/-- Beginnings of lines are alike that make the same line once times are hidden, whatever the rest
of the line is. -/
theorem line (unbroken : ∀ c ∈ text, c ≠ '\n') (otherUnbroken : ∀ c ∈ other, c ≠ '\n')
    (same : ∀ rest, hideLine (text ++ rest) = hideLine (other ++ rest)) :
    Alike ('\n' :: text) ('\n' :: other) := by
  intro front back
  have cut {text : List Char} (whole : ∀ c ∈ text, c ≠ '\n') :
      hidden (front ++ '\n' :: text ++ back) =
        hidden front ++ hideLine (text ++ (Text.splitAt '\n' back).headD []) ::
          (Text.splitAt '\n' back).tail.map hideLine := by
    rw [hidden, List.append_assoc, List.cons_append, Text.splitAt_append,
      Text.splitAt_unbroken_append whole]
    simp [hidden]
  rw [cut unbroken, cut otherUnbroken, same]

/-- Texts that are alike are the same once times are hidden. -/
theorem hide_eq {text other : String} (alike : Alike text.toList other.toList) :
    hide text = hide other := by
  have same := alike [] []
  simp only [List.nil_append, List.append_nil, hidden] at same
  have whole (text : String) : hide text =
      ((Text.splitAt '\n' text.toList).map hideLine).map String.ofList := by
    rw [hide, List.map_map]
    rfl
  rw [whole, whole, same]

end Alike

/-- A field of an object on a line of its own, up to its value. -/
def fieldLine (level : Nat) (name : String) (value : List Char) : List Char :=
  List.replicate (2 * level) ' ' ++ (name.toList ++ value)

section FieldLine

variable {level : Nat} {name : String} {more value : List Char}

/-- The blanks in front of a name in quotes. -/
theorem blanks_fieldLine (level : Nat) (value : List Char) (quoted : name.toList = '"' :: more) :
    (fieldLine level name value).takeWhile Text.isBlank = List.replicate (2 * level) ' ' ∧
      Text.trimStart (fieldLine level name value) = name.toList ++ value := by
  have blank : ∀ c ∈ List.replicate (2 * level) ' ', Text.isBlank c = true := by
    intro c member
    rw [List.eq_of_mem_replicate member]
    rfl
  have quote : Text.isBlank '"' = false := by decide
  rw [fieldLine, Text.trimStart, List.takeWhile_append_of_pos blank,
    List.dropWhile_append_of_pos blank, quoted]
  simp [quote]

/-- The digits behind the name of a field are hidden. -/
theorem hideField?_fieldLine (quoted : name.toList = '"' :: more)
    (digits : ∀ c ∈ value, Decimal.isDigit c = true) (rest : List Char) :
    hideField? name (fieldLine level name (value ++ rest)) =
      some (fieldLine level name ('0' :: rest.dropWhile Decimal.isDigit)) := by
  obtain ⟨blanks, named⟩ := blanks_fieldLine level (value ++ rest) quoted
  have found :
      Text.behind? name.toList (name.toList ++ (value ++ rest)) = some (value ++ rest) := by
    simp [Text.behind?, List.isPrefixOf_iff_prefix]
  simp only [hideField?, blanks, named, found, Option.map_some,
    List.dropWhile_append_of_pos digits]
  simp only [fieldLine, List.append_assoc]

/-- A field with another name is left as it is. -/
theorem hideField?_other {hiddenName : String} (quoted : name.toList = '"' :: more)
    (other : ∀ value, hiddenName.toList.isPrefixOf (name.toList ++ value) = false) :
    hideField? hiddenName (fieldLine level name value) = none := by
  obtain ⟨_, named⟩ := blanks_fieldLine level value quoted
  rw [hideField?, named, Text.behind?, other]
  rfl

end FieldLine

/-- A digit is neither white space nor the end of a line. -/
theorem digit_ne {c : Char} (digit : Decimal.isDigit c = true) :
    Text.isBlank c = false ∧ c ≠ '\n' := by
  obtain ⟨value, valued⟩ := Option.isSome_iff_exists.mp digit
  obtain ⟨small, rfl⟩ := Decimal.digitValue?_eq_some_iff.mp valued
  have table : ∀ value < 10, Text.isBlank (Decimal.digitChar value) = false ∧
      Decimal.digitChar value ≠ '\n' := by decide
  exact table value small

/-- A time is digits, of which there is one at least, a point and digits. -/
theorem exists_of_isTime {text : List Char} (time : isTime text = true) :
    ∃ whole places, whole ≠ [] ∧ (∀ c ∈ whole, Decimal.isDigit c = true) ∧
      (∀ c ∈ places, Decimal.isDigit c = true) ∧ text = whole ++ '.' :: places := by
  rw [isTime] at time
  split at time
  · rename_i places behind
    simp only [Bool.and_eq_true, Bool.not_eq_true', List.isEmpty_eq_false_iff,
      List.all_eq_true] at time
    obtain ⟨⟨some, _⟩, digits⟩ := time
    refine ⟨text.takeWhile Decimal.isDigit, places, some, ?_, digits, ?_⟩
    · exact fun c member => List.mem_takeWhile_imp member
    · rw [← behind, List.takeWhile_append_dropWhile]
  · contradiction

/-- A time stands on one line and begins with no white space. -/
theorem unbroken_of_isTime {text : List Char} (time : isTime text = true) :
    (∀ c ∈ text, c ≠ '\n') ∧ Text.trimStart text = text := by
  obtain ⟨whole, places, some, digits, placed, rfl⟩ := exists_of_isTime time
  constructor
  · refine List.forall_mem_append.mpr ⟨fun c member => (digit_ne (digits c member)).2, ?_⟩
    exact List.forall_mem_cons.mpr ⟨by decide, fun c member => (digit_ne (placed c member)).2⟩
  · obtain ⟨c, whole, rfl⟩ := List.exists_cons_of_ne_nil some
    have first := (digit_ne (digits c List.mem_cons_self)).1
    rw [Text.trimStart, List.cons_append, List.dropWhile_cons_of_neg (by simp [first])]

/-- The names of the fields of a duration, as they are printed. -/
def timeNames : List String := ["\"secs\": ", "\"nanos\": "]

/-- The digits of the fields of a duration are hidden. -/
theorem hideLine_fieldLine {name : String} (timed : name ∈ timeNames) (level : Nat)
    {value : List Char} (digits : ∀ c ∈ value, Decimal.isDigit c = true) (rest : List Char) :
    hideLine (fieldLine level name (value ++ rest)) =
      fieldLine level name ('0' :: rest.dropWhile Decimal.isDigit) := by
  have seconds : "\"secs\": ".toList = '"' :: ['s', 'e', 'c', 's', '"', ':', ' '] := rfl
  have nanos : "\"nanos\": ".toList = '"' :: ['n', 'a', 'n', 'o', 's', '"', ':', ' '] := rfl
  rw [hideLine]
  rcases List.mem_pair.mp timed with rfl | rfl
  · rw [hideField?_fieldLine seconds digits]
  · have other (value : List Char) :
        "\"secs\": ".toList.isPrefixOf ("\"nanos\": ".toList ++ value) = false := by
      rw [seconds, nanos]
      rfl
    rw [hideField?_other nanos other, hideField?_fieldLine nanos digits]

/-- Fields of a duration are alike whatever numbers they have. -/
theorem alike_fieldLine {name : String} (timed : name ∈ timeNames) (level number other : Nat) :
    Alike ('\n' :: fieldLine level name (Decimal.write number))
      ('\n' :: fieldLine level name (Decimal.write other)) := by
  have digits (number : Nat) : ∀ c ∈ Decimal.write number, Decimal.isDigit c = true := by
    intro c member
    obtain ⟨digit, small, rfl⟩ := Decimal.mem_write member
    exact Decimal.isDigit_digitChar digit small
  have unbroken (number : Nat) :
      ∀ c ∈ fieldLine level name (Decimal.write number), c ≠ '\n' := by
    intro c member same
    subst same
    simp only [fieldLine, List.mem_append, List.mem_replicate] at member
    rcases member with ⟨_, blank⟩ | named | digit
    · contradiction
    · rcases List.mem_pair.mp timed with rfl | rfl <;> revert named <;> decide
    · exact absurd (digits number _ digit) (by decide)
  refine .line (unbroken number) (unbroken other) fun rest => ?_
  have behind (value : List Char) :
      fieldLine level name value ++ rest = fieldLine level name (value ++ rest) := by
    simp only [fieldLine, List.append_assoc]
  rw [behind, behind, hideLine_fieldLine timed level (digits number),
    hideLine_fieldLine timed level (digits other)]

/-- The time in its column behind a name is hidden. -/
theorem hideLine_row {name time : List Char} (begins : ['A', 'E', 'S'] <+: name)
    (column : name.length = timeColumn) (width : time.length = timeWidth)
    (isTime : isTime (Text.trimStart time) = true) (rest : List Char) :
    hideLine (name ++ (time ++ rest)) =
      name ++ List.replicate (timeWidth - 1) ' ' ++ 'T' :: rest := by
  have hidden : hideTime? (name ++ (time ++ rest)) =
      some (name ++ List.replicate (timeWidth - 1) ' ' ++ 'T' :: rest) := by
    have row : ['A', 'E', 'S'].isPrefixOf (name ++ (time ++ rest)) = true :=
      List.isPrefixOf_iff_prefix.mpr (begins.trans (List.prefix_append _ _))
    have behind : (name ++ (time ++ rest)).drop (timeColumn + timeWidth) = rest := by
      rw [← List.append_assoc]
      exact List.drop_left' (by rw [List.length_append, column, width])
    simp only [hideTime?, row, List.drop_left' column, List.take_left' column,
      List.take_left' width, isTime, behind, Bool.and_self, if_true]
  -- What begins with a letter is no field.
  have plain {field : String} {quoted : List Char} (begun : field.toList = '"' :: quoted) :
      hideField? field (name ++ (time ++ rest)) = none := by
    obtain ⟨more, rfl⟩ := begins
    rw [hideField?, begun]
    rfl
  have seconds : hideField? "\"secs\": " (name ++ (time ++ rest)) = none := plain rfl
  rw [hideLine, seconds, plain rfl, hidden]

end Masking

end AesTrials

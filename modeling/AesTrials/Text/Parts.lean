/-!
# Parts of texts

Texts are cut behind a beginning, at a separator, at the end of a line, or where another text is
found in them.
-/

namespace AesTrials.Text

/-- The text behind a beginning, if it has that beginning. -/
def behind? (beginning text : List Char) : Option (List Char) :=
  if beginning.isPrefixOf text then some (text.drop beginning.length) else none

/-- The parts of a text that begins with the given character, from those of the text behind it. -/
def splitStep (separator c : Char) (parts : List (List Char)) : List (List Char) :=
  if c = separator then [] :: parts
  else match parts with
    | [] => [[c]]
    | part :: parts => (c :: part) :: parts

/-- The parts of a text between the occurrences of a separator. -/
def splitAt (separator : Char) (text : List Char) : List (List Char) :=
  text.foldr (splitStep separator) [[]]

/-- The text before the first occurrence of a separator and the text behind it. -/
def splitFirst? (separator : Char) (text : List Char) : Option (List Char × List Char) :=
  match text.dropWhile (fun c => c != separator) with
  | [] => none
  | _ :: rest => some (text.takeWhile (fun c => c != separator), rest)

/-- The text up to the end of the first occurrence of another one; all of it if there is none. -/
def upTo (found : List Char) : List Char → List Char
  | [] => []
  | c :: rest => if found.isPrefixOf (c :: rest) then found else c :: upTo found rest

/-- The first line of a text, without a carriage return at its end. -/
def firstLine (text : List Char) : List Char :=
  let line := text.takeWhile fun c => c != '\n'
  if line.getLast? = some '\r' then line.dropLast else line

/-- A separator is cut at. -/
theorem splitAt_separator (separator : Char) (text : List Char) :
    splitAt separator (separator :: text) = [] :: splitAt separator text := by
  have step : splitAt separator (separator :: text) =
      splitStep separator separator (splitAt separator text) := rfl
  simp [step, splitStep]

/-- A character that is no separator stands at the front of the first part. -/
theorem splitAt_cons {separator c : Char} (other : c ≠ separator) (text : List Char) :
    splitAt separator (c :: text) =
      (c :: (splitAt separator text).headD []) :: (splitAt separator text).tail := by
  have step : splitAt separator (c :: text) =
      splitStep separator c (splitAt separator text) := rfl
  rw [step]
  cases splitAt separator text <;> simp [splitStep, other]

/-- A text has at least one part. -/
theorem splitAt_ne_nil (separator : Char) (text : List Char) : splitAt separator text ≠ [] := by
  cases text with
  | nil => exact List.cons_ne_nil _ _
  | cons c text =>
    by_cases same : c = separator
    · rw [same, splitAt_separator]
      exact List.cons_ne_nil _ _
    · rw [splitAt_cons same]
      exact List.cons_ne_nil _ _

/-- A text is cut at a separator as the texts before and behind it are. -/
theorem splitAt_append (separator : Char) (front back : List Char) :
    splitAt separator (front ++ separator :: back) =
      splitAt separator front ++ splitAt separator back := by
  induction front with
  | nil => exact splitAt_separator separator back
  | cons c front ih =>
    by_cases same : c = separator
    · rw [List.cons_append, same, splitAt_separator, splitAt_separator, ih]
      rfl
    · obtain ⟨part, parts, found⟩ := List.exists_cons_of_ne_nil (splitAt_ne_nil separator front)
      rw [List.cons_append, splitAt_cons same, splitAt_cons same, ih, found]
      rfl

/-- A text without the separator stands at the front of the first part. -/
theorem splitAt_unbroken_append {separator : Char} {front : List Char}
    (unbroken : ∀ c ∈ front, c ≠ separator) (back : List Char) :
    splitAt separator (front ++ back) =
      (front ++ (splitAt separator back).headD []) :: (splitAt separator back).tail := by
  induction front with
  | nil =>
    obtain ⟨part, parts, found⟩ := List.exists_cons_of_ne_nil (splitAt_ne_nil separator back)
    rw [List.nil_append, found]
    rfl
  | cons c front ih =>
    obtain ⟨other, later⟩ := List.forall_mem_cons.mp unbroken
    rw [List.cons_append, splitAt_cons other, ih later]
    rfl

end AesTrials.Text

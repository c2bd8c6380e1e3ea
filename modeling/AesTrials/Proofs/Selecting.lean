import AesTrials.InBounds
import AesTrials.Proofs.Characters
import AesTrials.Proofs.WholeNumbers
import AesTrials.Selector
import Mathlib.Data.List.Basic

/-!
# Texts that select a variant

A selector is the letters `aes` of either case, a numeral of a key width without a hyphen in it, a
hyphen, and the name of a family in letters of either case. A text without white space around it
that is not of this form is refused for the first part in which it fails: letters and hyphen, width,
name. Where the letters end is found by counting three bytes, which never falls into the middle of a
character.
-/

namespace AesTrials

namespace Text

/-- Texts are the same up to the case of letters in one order as in the other. -/
theorem sameLetters_iff {left right : List Char} :
    sameLetters left right = true ↔ left.map Char.toLower = right.map Char.toLower :=
  beq_iff_eq

/-- A text is cut at the first separator, which stands behind characters none of which is one. -/
theorem splitFirst?_eq_some_iff {separator : Char} {text front back : List Char} :
    splitFirst? separator text = some (front, back) ↔
      text = front ++ separator :: back ∧ separator ∉ front := by
  have others : ∀ c ∈ text.takeWhile (fun c => c != separator), c ≠ separator := by
    intro c member
    simpa using List.mem_takeWhile_imp member
  constructor
  · intro cut
    have whole := List.takeWhile_append_dropWhile (p := fun c => c != separator) (l := text)
    unfold splitFirst? at cut
    split at cut
    · contradiction
    · rename_i first rest found
      cases cut
      have stop : first = separator := by
        have head := List.head?_dropWhile_not (fun c => c != separator) text
        rw [found] at head
        simpa using head
      rw [found, stop] at whole
      refine ⟨whole.symm, ?_⟩
      intro member
      exact others separator member rfl
  · rintro ⟨rfl, absent⟩
    have all : ∀ c ∈ front, (c != separator) = true := by
      intro c member
      rw [bne_iff_ne]
      rintro rfl
      exact absent member
    rw [splitFirst?, List.dropWhile_append_of_pos all, List.takeWhile_append_of_pos all]
    simp

end Text

/-- A number of bits is that of a width exactly if the width has as many. -/
theorem KeyWidth.ofBits?_eq_some_iff {number : Nat} {width : KeyWidth} :
    ofBits? number = some width ↔ number = width.bits := by
  constructor
  · intro read
    unfold ofBits? at read
    split at read <;> cases read <;> rfl
  · rintro rfl
    exact ofBits?_bits width

namespace Family

/-- A name is that of one family at most. -/
theorem eq_of_sameLetters {family other : Family} {name : List Char}
    (one : Text.sameLetters family.id.toList name = true)
    (two : Text.sameLetters other.id.toList name = true) : family = other := by
  have apart : ∀ family other : Family,
      family.id.toList.map Char.toLower = other.id.toList.map Char.toLower → family = other := by
    intro family other
    cases family <;> cases other <;> decide
  rw [Text.sameLetters_iff] at one two
  exact apart family other (one.trans two.symm)

theorem mem_all (family : Family) : family ∈ all := by
  cases family <;> decide

/-- A name is read as the family that has it, whatever the case of its letters. -/
theorem read_eq_ok_iff {family : Family} {name : List Char} :
    read name = .ok family ↔ Text.sameLetters family.id.toList name = true := by
  unfold read
  constructor
  · intro named
    split at named
    · rename_i found first
      cases named
      have same := List.find?_some first
      exact same
    · contradiction
  · intro same
    cases found : all.find? (fun family => Text.sameLetters family.id.toList name) with
    | none =>
      have refused := List.find?_eq_none.mp found family (mem_all family)
      exact absurd same refused
    | some other =>
      have named := List.find?_some found
      rw [eq_of_sameLetters named same]

/-- A name that no family has is refused. -/
theorem read_eq_error_iff {name : List Char} {error : SelectorError} :
    read name = .error error ↔ error = .unknownFamily (String.ofList name) ∧
      ∀ family : Family, ¬ Text.sameLetters family.id.toList name = true := by
  constructor
  · intro refused
    constructor
    · unfold read at refused
      split at refused
      · contradiction
      · cases refused
        rfl
    · intro family same
      rw [read_eq_ok_iff.mpr same] at refused
      contradiction
  · rintro ⟨rfl, none⟩
    cases answer : read name with
    | ok family => exact absurd (read_eq_ok_iff.mp answer) (none family)
    | error error =>
      unfold read at answer
      split at answer
      · contradiction
      · cases answer
        rfl

end Family

namespace Selector

open InBounds

/-- Whether bytes begin with the letters `aes` of either case and have a hyphen behind these. -/
def Formed (bytes : Bytes) : Prop :=
  ∃ a e s rest, bytes = a :: e :: s :: rest ∧ (a = 97 ∨ a = 65) ∧ (e = 101 ∨ e = 69) ∧
    (s = 115 ∨ s = 83) ∧ 45 ∈ rest

/-- Whether a text is three letters that spell `aes`, characters without a hyphen, a hyphen, and a
name. -/
def Parts (text bits name : List Char) : Prop :=
  ∃ letters, text = letters ++ (bits ++ '-' :: name) ∧
    Text.sameLetters letters ['a', 'e', 's'] = true ∧ '-' ∉ bits

/-- The selector of a text read step by step, with the end of the letters in front counted in bytes;
no result at all if a step leaves its bounds. -/
def readInSteps (text : String) : Option (Except SelectorError Selector) :=
  let trimmed := Text.trim text.toList
  match (cutText? 3 trimmed).filter fun cut => Text.sameLetters cut.1 ['a', 'e', 's'] with
  | none => some (.error (.malformed (String.ofList trimmed)))
  | some _ => do
    let (_, rest) ← cutText? 3 trimmed
    match Text.splitFirst? '-' rest with
    | none => some (.error (.malformed (String.ofList trimmed)))
    | some (bits, name) =>
      match readWidth? bits with
      | none => some (.error (.unsupportedKeySize (String.ofList bits)))
      | some width => some ((Family.read name).map fun family => ⟨family, width⟩)

section Letters

variable {text letters rest : List Char}

/-- Letters that spell `aes` are three, each small or capital. -/
theorem spelled_iff :
    Text.sameLetters letters ['a', 'e', 's'] = true ↔
      ∃ a e s, letters = [a, e, s] ∧ (a = 'a' ∨ a = 'A') ∧ (e = 'e' ∨ e = 'E') ∧
        (s = 's' ∨ s = 'S') := by
  have first (c : Char) : c.toLower = 'a' ↔ c = 'a' ∨ c = 'A' :=
    Text.toLower_eq_iff (by decide) (by decide) (by decide)
  have second (c : Char) : c.toLower = 'e' ↔ c = 'e' ∨ c = 'E' :=
    Text.toLower_eq_iff (by decide) (by decide) (by decide)
  have third (c : Char) : c.toLower = 's' ↔ c = 's' ∨ c = 'S' :=
    Text.toLower_eq_iff (by decide) (by decide) (by decide)
  constructor
  · intro same
    have length := Text.length_eq_of_sameLetters same
    obtain ⟨a, e, s, rfl⟩ := List.length_eq_three.mp length
    have lower := Text.sameLetters_iff.mp same
    simp only [List.map_cons, List.map_nil, List.cons.injEq, and_true] at lower
    obtain ⟨one, two, three⟩ := lower
    exact ⟨a, e, s, rfl, (first a).mp one, (second e).mp two, (third s).mp three⟩
  · rintro ⟨a, e, s, rfl, one, two, three⟩
    rw [Text.sameLetters_iff]
    simp only [List.map_cons, List.map_nil, List.cons.injEq, and_true]
    exact ⟨(first a).mpr one, (second e).mpr two, (third s).mpr three⟩

/-- Letters that spell `aes` are three bytes. -/
theorem length_of_spelled (spelled : Text.sameLetters letters ['a', 'e', 's'] = true) :
    (letters.flatMap String.utf8EncodeChar).length = 3 := by
  obtain ⟨a, e, s, rfl, rfl | rfl, rfl | rfl, rfl | rfl⟩ := spelled_iff.mp spelled <;> rfl

/-- What follows the letters of a text. -/
theorem afterLetters?_eq_some_iff :
    afterLetters? text = some rest ↔
      ∃ letters, text = letters ++ rest ∧ Text.sameLetters letters ['a', 'e', 's'] = true := by
  constructor
  · intro found
    unfold afterLetters? at found
    split at found
    · rename_i a e s behind
      split at found
      · rename_i spelled
        cases found
        exact ⟨[a, e, s], rfl, spelled⟩
      · contradiction
    · contradiction
  · rintro ⟨letters, rfl, spelled⟩
    obtain ⟨a, e, s, rfl, _⟩ := spelled_iff.mp spelled
    exact if_pos spelled

/-- The cut behind three bytes passes for the letters exactly if the letters are in front of it. -/
theorem filter_cutText?_eq_some_iff :
    (cutText? 3 text).filter (fun cut => Text.sameLetters cut.1 ['a', 'e', 's']) =
        some (letters, rest) ↔
      text = letters ++ rest ∧ Text.sameLetters letters ['a', 'e', 's'] = true := by
  rw [Option.filter_eq_some_iff, cutText?_eq_some_iff]
  constructor
  · rintro ⟨⟨parts, _⟩, spelled⟩
    exact ⟨parts, spelled⟩
  · rintro ⟨parts, spelled⟩
    exact ⟨⟨parts, length_of_spelled spelled⟩, spelled⟩

end Letters

/-- No step of reading a selector leaves its bounds, and all of them together read it. -/
theorem readInSteps_eq (text : String) : readInSteps text = some (read text) := by
  unfold readInSteps read readTrimmed
  simp only
  generalize Text.trim text.toList = trimmed
  cases behind : afterLetters? trimmed with
  | none =>
    have refused : (cutText? 3 trimmed).filter
        (fun cut => Text.sameLetters cut.1 ['a', 'e', 's']) = none := by
      rw [Option.eq_none_iff_forall_ne_some]
      rintro ⟨letters, rest⟩ passed
      have found := afterLetters?_eq_some_iff.mpr ⟨letters, filter_cutText?_eq_some_iff.mp passed⟩
      rw [behind] at found
      contradiction
    rw [refused]
    rfl
  | some rest =>
    obtain ⟨letters, parts, spelled⟩ := afterLetters?_eq_some_iff.mp behind
    have passed := filter_cutText?_eq_some_iff.mpr ⟨parts, spelled⟩
    have cut : cutText? 3 trimmed = some (letters, rest) :=
      cutText?_eq_some_iff.mpr ⟨parts, length_of_spelled spelled⟩
    rw [passed]
    simp only [cut, Option.bind_eq_bind, Option.bind_some]
    cases Text.splitFirst? '-' rest with
    | none => rfl
    | some hyphened =>
      obtain ⟨bits, name⟩ := hyphened
      simp only
      cases readWidth? bits with
      | none => rfl
      | some width => cases Family.read name <;> rfl

section Grammar

variable {text bits name : List Char}

/-- The parts of a text are what is read of it. -/
theorem bind_splitFirst?_eq_some_iff :
    (afterLetters? text).bind (Text.splitFirst? '-') = some (bits, name) ↔
      Parts text bits name := by
  rw [Option.bind_eq_some_iff]
  constructor
  · rintro ⟨rest, found, cut⟩
    obtain ⟨letters, rfl, spelled⟩ := afterLetters?_eq_some_iff.mp found
    obtain ⟨rfl, absent⟩ := Text.splitFirst?_eq_some_iff.mp cut
    exact ⟨letters, rfl, spelled, absent⟩
  · rintro ⟨letters, rfl, spelled, absent⟩
    exact ⟨_, afterLetters?_eq_some_iff.mpr ⟨letters, rfl, spelled⟩,
      Text.splitFirst?_eq_some_iff.mpr ⟨rfl, absent⟩⟩

/-- A text has parts in one way at most. -/
theorem Parts.unique {otherBits otherName : List Char} (one : Parts text bits name)
    (two : Parts text otherBits otherName) : otherBits = bits ∧ otherName = name := by
  have same := (bind_splitFirst?_eq_some_iff.mpr two).symm.trans
    (bind_splitFirst?_eq_some_iff.mpr one)
  simpa using same

/-- A text whose bytes begin with that of a small or capital letter begins with that letter. -/
theorem exists_letter_of_begins (small capital : Char) (low : small.toNat < 128)
    (high : capital.toNat < 128) {byte : UInt8} {rest : Bytes}
    (either : byte = UInt8.ofNat small.toNat ∨ byte = UInt8.ofNat capital.toNat)
    (begins : text.flatMap String.utf8EncodeChar = byte :: rest) :
    ∃ c behind, (c = small ∨ c = capital) ∧ text = c :: behind ∧
      behind.flatMap String.utf8EncodeChar = rest := by
  obtain rfl | rfl := either
  · obtain ⟨behind, first, later⟩ := (Bytes.flatMap_eq_cons_iff low).mp begins
    exact ⟨small, behind, .inl rfl, first, later⟩
  · obtain ⟨behind, first, later⟩ := (Bytes.flatMap_eq_cons_iff high).mp begins
    exact ⟨capital, behind, .inr rfl, first, later⟩

/-- A text has parts exactly if its bytes begin with the letters and have a hyphen behind them. -/
theorem formed_iff : Formed (Bytes.ofText (String.ofList text)) ↔
    ∃ bits name, Parts text bits name := by
  rw [Bytes.ofText_ofList]
  constructor
  · rintro ⟨a, e, s, rest, begins, one, two, three, hyphen⟩
    obtain ⟨a, afterA, first, rfl, behindA⟩ :=
      exists_letter_of_begins 'a' 'A' (by decide) (by decide) one begins
    obtain ⟨e, afterE, second, rfl, behindE⟩ :=
      exists_letter_of_begins 'e' 'E' (by decide) (by decide) two behindA
    obtain ⟨s, afterS, third, rfl, rfl⟩ :=
      exists_letter_of_begins 's' 'S' (by decide) (by decide) three behindE
    have member : '-' ∈ afterS := (Bytes.mem_flatMap_iff (c := '-') (by decide)).mp hyphen
    obtain ⟨bits, name, rfl, absent⟩ := List.eq_append_cons_of_mem member
    exact ⟨bits, name, [a, e, s], rfl, spelled_iff.mpr ⟨a, e, s, rfl, first, second, third⟩, absent⟩
  · rintro ⟨bits, name, letters, rfl, spelled, _⟩
    obtain ⟨a, e, s, rfl, first, second, third⟩ := spelled_iff.mp spelled
    have hyphen : UInt8.ofNat '-'.toNat ∈
        (bits ++ '-' :: name).flatMap String.utf8EncodeChar :=
      (Bytes.mem_flatMap_iff (by decide)).mpr (by simp)
    refine ⟨UInt8.ofNat a.toNat, UInt8.ofNat e.toNat, UInt8.ofNat s.toNat, _, ?_, ?_, ?_, ?_,
      hyphen⟩
    · have one : a.toNat < 128 := by obtain rfl | rfl := first <;> decide
      have two : e.toNat < 128 := by obtain rfl | rfl := second <;> decide
      have three : s.toNat < 128 := by obtain rfl | rfl := third <;> decide
      simp only [List.cons_append, List.nil_append, List.flatMap_cons,
        Bytes.utf8EncodeChar_of_lt one, Bytes.utf8EncodeChar_of_lt two,
        Bytes.utf8EncodeChar_of_lt three]
    · obtain rfl | rfl := first <;> decide
    · obtain rfl | rfl := second <;> decide
    · obtain rfl | rfl := third <;> decide

/-- A width is read from a numeral of its bits. -/
theorem readWidth?_eq_some_iff {width : KeyWidth} :
    readWidth? bits = some width ↔ Decimal.Numeral bits width.bits := by
  have small : width.bits < Nat.pow 2 32 := by cases width <;> decide
  unfold readWidth?
  rw [Option.bind_eq_bind, Option.bind_eq_some_iff]
  constructor
  · rintro ⟨number, read, found⟩
    rw [KeyWidth.ofBits?_eq_some_iff] at found
    subst found
    exact (Decimal.readBelow?_eq_some_iff.mp read).2
  · intro numeral
    exact ⟨width.bits, Decimal.readBelow?_eq_some_iff.mpr ⟨small, numeral⟩,
      KeyWidth.ofBits?_bits width⟩

end Grammar

section Verdict

variable {text bits name : List Char}

/-- A text without the parts of a selector is malformed. -/
theorem readTrimmed_of_unformed (unformed : ¬ ∃ bits name, Parts text bits name) :
    readTrimmed text = .error (.malformed (String.ofList text)) := by
  have nothing : (afterLetters? text).bind (Text.splitFirst? '-') = none := by
    rw [Option.eq_none_iff_forall_ne_some]
    rintro ⟨bits, name⟩ found
    exact unformed ⟨bits, name, bind_splitFirst?_eq_some_iff.mp found⟩
  simp only [readTrimmed, nothing]

/-- A text with the parts of a selector is refused over its width, or else over its name, or read
as what both say. -/
theorem readTrimmed_of_parts (parts : Parts text bits name) :
    ((∀ width : KeyWidth, ¬ Decimal.Numeral bits width.bits) ∧
        readTrimmed text = .error (.unsupportedKeySize (String.ofList bits))) ∨
      (∃ width : KeyWidth, Decimal.Numeral bits width.bits ∧
        (∀ family : Family, ¬ Text.sameLetters family.id.toList name = true) ∧
        readTrimmed text = .error (.unknownFamily (String.ofList name))) ∨
      ∃ selector : Selector, Decimal.Numeral bits selector.width.bits ∧
        Text.sameLetters selector.family.id.toList name = true ∧
        readTrimmed text = .ok selector := by
  have found := bind_splitFirst?_eq_some_iff.mpr parts
  cases width : readWidth? bits with
  | none =>
    refine .inl ⟨?_, by simp only [readTrimmed, found, width]⟩
    intro other numeral
    rw [readWidth?_eq_some_iff.mpr numeral] at width
    contradiction
  | some bound =>
    have numeral := readWidth?_eq_some_iff.mp width
    cases family : Family.read name with
    | error error =>
      obtain ⟨rfl, unnamed⟩ := Family.read_eq_error_iff.mp family
      exact .inr (.inl ⟨bound, numeral, unnamed, by simp only [readTrimmed, found, width, family]⟩)
    | ok known =>
      have named := Family.read_eq_ok_iff.mp family
      exact .inr (.inr ⟨⟨known, bound⟩, numeral, named,
        by simp only [readTrimmed, found, width, family]⟩)

/-- A text is malformed exactly if it lacks the letters in front or a hyphen behind them. -/
theorem readTrimmed_eq_malformed_iff {shown : String} :
    readTrimmed text = .error (.malformed shown) ↔
      shown = String.ofList text ∧ ¬ Formed (Bytes.ofText (String.ofList text)) := by
  rw [formed_iff]
  constructor
  · intro refused
    by_cases formed : ∃ bits name, Parts text bits name
    · obtain ⟨bits, name, parts⟩ := formed
      obtain ⟨_, answer⟩ | ⟨_, _, _, answer⟩ | ⟨_, _, _, answer⟩ := readTrimmed_of_parts parts
      all_goals
        rw [answer] at refused
        cases refused
    · rw [readTrimmed_of_unformed formed] at refused
      cases refused
      exact ⟨rfl, formed⟩
  · rintro ⟨rfl, unformed⟩
    exact readTrimmed_of_unformed unformed

/-- A text with all parts is refused over its width exactly if that is no numeral of a width. -/
theorem readTrimmed_eq_unsupported_iff (parts : Parts text bits name) {shown : String} :
    readTrimmed text = .error (.unsupportedKeySize shown) ↔
      shown = String.ofList bits ∧ ∀ width : KeyWidth, ¬ Decimal.Numeral bits width.bits := by
  obtain ⟨none, answer⟩ | ⟨width, numeral, _, answer⟩ | ⟨selector, numeral, _, answer⟩ :=
    readTrimmed_of_parts parts
  · rw [answer, Except.error.injEq, SelectorError.unsupportedKeySize.injEq, eq_comm]
    exact (and_iff_left none).symm
  · rw [answer]
    simp only [Except.error.injEq, reduceCtorEq, false_iff, not_and]
    exact fun _ none => none width numeral
  · rw [answer]
    simp only [reduceCtorEq, false_iff, not_and]
    exact fun _ none => none selector.width numeral

/-- A text with all parts is refused over its name exactly if its width is good and no family has
that name. -/
theorem readTrimmed_eq_unknown_iff (parts : Parts text bits name) {shown : String} :
    readTrimmed text = .error (.unknownFamily shown) ↔
      shown = String.ofList name ∧ (∃ width : KeyWidth, Decimal.Numeral bits width.bits) ∧
        ∀ family : Family, ¬ Text.sameLetters family.id.toList name = true := by
  obtain ⟨none, answer⟩ | ⟨width, numeral, unnamed, answer⟩ | ⟨selector, _, named, answer⟩ :=
    readTrimmed_of_parts parts
  · rw [answer]
    simp only [Except.error.injEq, reduceCtorEq, false_iff, not_and]
    exact fun _ ⟨width, numeral⟩ => absurd numeral (none width)
  · rw [answer, Except.error.injEq, SelectorError.unknownFamily.injEq, eq_comm]
    exact (and_iff_left ⟨⟨width, numeral⟩, unnamed⟩).symm
  · rw [answer]
    simp only [reduceCtorEq, false_iff, not_and]
    exact fun _ _ unnamed => unnamed selector.family named

/-- A text with all parts is read as a selector exactly if its parts say so. -/
theorem readTrimmed_eq_ok_iff (parts : Parts text bits name) {selector : Selector} :
    readTrimmed text = .ok selector ↔ Decimal.Numeral bits selector.width.bits ∧
      Text.sameLetters selector.family.id.toList name = true := by
  obtain ⟨none, answer⟩ | ⟨_, _, unnamed, answer⟩ | ⟨found, numeral, named, answer⟩ :=
    readTrimmed_of_parts parts
  · rw [answer]
    simp only [reduceCtorEq, false_iff, not_and]
    exact fun numeral => absurd numeral (none selector.width)
  · rw [answer]
    simp only [reduceCtorEq, false_iff, not_and]
    exact fun _ => unnamed selector.family
  · rw [answer, Except.ok.injEq]
    constructor
    · rintro rfl
      exact ⟨numeral, named⟩
    · rintro ⟨other, same⟩
      -- One numeral is that of one width, and one name that of one family.
      have width := (readWidth?_eq_some_iff.mpr numeral).symm.trans
        (readWidth?_eq_some_iff.mpr other)
      have family := Family.eq_of_sameLetters named same
      obtain ⟨_, _⟩ := found
      obtain ⟨_, _⟩ := selector
      cases family
      cases width
      rfl

end Verdict

/-- Reading a selector always comes to an answer, none of its steps leaving its bounds, and the
answer is settled by the text without the white space around it. It is malformed exactly if its
first three bytes are not the letters `aes` of either case or no hyphen is behind them. Otherwise it
has a width, up to the first hyphen behind the letters, and a name, in one way only; it is refused
over its width exactly if that is no numeral of 128, 192 or 256 bits, else over its name exactly if
no family has that name up to the case of letters, and else it is read as the one family with that
name at that width. What is read is read again from its canonical form, which is therefore written
again as it stands. -/
theorem read_verdict (text : String) :
    let trimmed := Text.trim text.toList
    readInSteps text = some (read text) ∧
      (∀ shown, read text = .error (.malformed shown) ↔ shown = String.ofList trimmed ∧
        ¬ Formed (Bytes.ofText (String.ofList trimmed))) ∧
      (Formed (Bytes.ofText (String.ofList trimmed)) → ∃ bits name, Parts trimmed bits name ∧
        (∀ otherBits otherName, Parts trimmed otherBits otherName →
          otherBits = bits ∧ otherName = name) ∧
        (∀ shown, read text = .error (.unsupportedKeySize shown) ↔ shown = String.ofList bits ∧
          ∀ width : KeyWidth, ¬ Decimal.Numeral bits width.bits) ∧
        (∀ shown, read text = .error (.unknownFamily shown) ↔ shown = String.ofList name ∧
          (∃ width : KeyWidth, Decimal.Numeral bits width.bits) ∧
          ∀ family : Family, ¬ Text.sameLetters family.id.toList name = true) ∧
        (∀ selector, read text = .ok selector ↔ Decimal.Numeral bits selector.width.bits ∧
          Text.sameLetters selector.family.id.toList name = true) ∧
        ∀ family other : Family, Text.sameLetters family.id.toList name = true →
          Text.sameLetters other.id.toList name = true → family = other) ∧
      ∀ selector, read text = .ok selector →
        read selector.write = .ok selector ∧
          (read selector.write).map write = .ok selector.write := by
  intro trimmed
  refine ⟨readInSteps_eq text, fun shown => readTrimmed_eq_malformed_iff, ?_, ?_⟩
  · intro formed
    obtain ⟨bits, name, parts⟩ := formed_iff.mp formed
    refine ⟨bits, name, parts, ?_, ?_, ?_, ?_, ?_⟩
    · intro otherBits otherName others
      exact parts.unique others
    · exact fun shown => readTrimmed_eq_unsupported_iff parts
    · exact fun shown => readTrimmed_eq_unknown_iff parts
    · exact fun selector => readTrimmed_eq_ok_iff parts
    · exact fun family other => Family.eq_of_sameLetters
  · intro selector _
    rw [read_write]
    exact ⟨rfl, rfl⟩

/-- The letters of either case, a sign and zeros in front of the width, and a family whose name
begins like that of another. -/
theorem read_verdict_ragged :
    Formed (Bytes.ofText "AeS+0256-GCM-Siv") ∧
      read " AeS+0256-GCM-Siv\n" = .ok ⟨.gcmSiv, .w256⟩ ∧
      read (write ⟨.gcmSiv, .w256⟩) = .ok ⟨.gcmSiv, .w256⟩ := by
  have formed : Formed (Bytes.ofText "AeS+0256-GCM-Siv") := by
    refine ⟨65, 101, 83, [43, 48, 50, 53, 54, 45, 71, 67, 77, 45, 83, 105, 118], ?_, ?_⟩
    all_goals decide +kernel
  have found : read " AeS+0256-GCM-Siv\n" = .ok ⟨.gcmSiv, .w256⟩ := by decide +kernel
  obtain ⟨_, _, _, again⟩ := read_verdict " AeS+0256-GCM-Siv\n"
  exact ⟨formed, found, (again _ found).1⟩

end Selector

end AesTrials

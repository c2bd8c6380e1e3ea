import AesTrials.Proofs.Selecting
import Mathlib.Data.List.Forall2
import Mathlib.Data.List.TakeWhile

/-!
# Lists of selectors

A list is cut at its commas, and of the entries those with a character that is not white space are
read one by one: all of them, in their order, or none if one of them is no selector. What stands
around a selector and the case of its letters make no difference to what is read.
-/

namespace AesTrials

namespace Text

/-- Nothing is left of a text exactly if all of it is white space. -/
theorem trim_eq_nil_iff {text : List Char} : trim text = [] ↔ ∀ c ∈ text, isBlank c = true := by
  unfold trim trimEnd trimStart
  rw [List.reverse_eq_nil_iff, List.dropWhile_eq_nil_iff]
  constructor
  · intro rest
    have whole := List.takeWhile_append_dropWhile (p := isBlank) (l := text)
    rw [← whole]
    refine List.forall_mem_append.mpr ⟨fun c member => List.mem_takeWhile_imp member, ?_⟩
    exact fun c member => rest c (List.mem_reverse.mpr member)
  · intro blank c member
    exact blank c ((List.dropWhile_sublist isBlank).subset (List.mem_reverse.mp member))

/-- White space in front of a text without any is all that is taken off in front. -/
theorem trimStart_append {before text : List Char} (front : ∀ c ∈ before, isBlank c = true)
    (inner : ∀ c ∈ text, isBlank c = false) (some : text ≠ []) (behind : List Char) :
    trimStart (before ++ (text ++ behind)) = text ++ behind := by
  obtain ⟨c, rest, rfl⟩ := List.exists_cons_of_ne_nil some
  have first : isBlank c = false := inner c List.mem_cons_self
  rw [trimStart, List.dropWhile_append_of_pos front, List.cons_append]
  exact List.dropWhile_cons_of_neg (by simp [first])

/-- White space around a text without any is all that is taken off. -/
theorem trim_append {before text behind : List Char} (front : ∀ c ∈ before, isBlank c = true)
    (inner : ∀ c ∈ text, isBlank c = false) (back : ∀ c ∈ behind, isBlank c = true) :
    trim (before ++ (text ++ behind)) = text := by
  by_cases some : text = []
  · subst some
    exact trim_eq_nil_iff.mpr (List.forall_mem_append.mpr ⟨front, back⟩)
  · have turned : ∀ c ∈ behind.reverse, isBlank c = true :=
      fun c member => back c (List.mem_reverse.mp member)
    have innerTurned : ∀ c ∈ text.reverse, isBlank c = false :=
      fun c member => inner c (List.mem_reverse.mp member)
    have stripped := trimStart_append turned innerTurned (List.reverse_ne_nil_iff.mpr some) []
    rw [List.append_nil] at stripped
    rw [trim, trimStart_append front inner some, trimEnd, List.reverse_append, stripped,
      List.reverse_reverse]

/-- A character is white space exactly if its lower case is. -/
theorem isBlank_toLower (c : Char) : isBlank c.toLower = isBlank c := by
  have value := toNat_toLower c
  unfold isBlank
  rw [value]
  split
  · grind
  · rfl

/-- A character of a text has the lower case of a character of any text that is the same up to the
case of letters. -/
theorem exists_of_sameLetters {left right : List Char} (same : sameLetters left right = true)
    {c : Char} (member : c ∈ left) : ∃ other ∈ right, c.toLower = other.toLower := by
  have found := List.mem_map_of_mem (f := Char.toLower) member
  rw [sameLetters_iff.mp same, List.mem_map] at found
  obtain ⟨other, among, lower⟩ := found
  exact ⟨other, among, lower.symm⟩

/-- A text that is the same as one of digits and signs up to the case of letters is that text. -/
theorem eq_of_sameLetters {left right : List Char} (plain : ∀ c ∈ right, c.toNat < 65)
    (same : sameLetters left right = true) : left = right := by
  rw [sameLetters_iff] at same
  induction left generalizing right with
  | nil => exact (List.map_eq_nil_iff.mp same.symm).symm
  | cons c left ih =>
    cases right with
    | nil => exact absurd same (List.cons_ne_nil _ _)
    | cons other right =>
      obtain ⟨small, later⟩ := List.forall_mem_cons.mp plain
      obtain ⟨first, rest⟩ := List.cons.inj same
      have value : other.toLower.toNat = other.toNat := by
        rw [toNat_toLower, if_neg (by omega)]
      rw [Char.toNat_inj.mp value] at first
      rw [eq_of_toLower_eq first (.inl (by omega)), ih later rest]

/-- The parts of a text are those that the separators stand between. -/
theorem splitAt_eq_splitOn (separator : Char) (text : List Char) :
    splitAt separator text = text.splitOn separator := by
  induction text with
  | nil => rfl
  | cons c text ih =>
    rw [List.splitOn, List.splitOnP_cons_eq_if_modifyHead]
    by_cases same : c = separator
    · rw [same, splitAt_separator, if_pos (beq_self_eq_true separator), ih]
      rfl
    · obtain ⟨part, parts, found⟩ := List.exists_cons_of_ne_nil (splitAt_ne_nil separator text)
      rw [splitAt_cons same, if_neg (by simpa using same)]
      rw [ih, List.splitOn] at found
      rw [ih, List.splitOn, found]
      rfl

/-- A text is its parts with the separator between them. -/
theorem intercalate_splitAt (separator : Char) (text : List Char) :
    [separator].intercalate (splitAt separator text) = text := by
  rw [splitAt_eq_splitOn, List.intercalate_splitOn]

/-- Parts without the separator in them are those of the text that is put together from them. -/
theorem splitAt_intercalate {separator : Char} {parts : List (List Char)}
    (unbroken : ∀ part ∈ parts, separator ∉ part) (some : parts ≠ []) :
    splitAt separator ([separator].intercalate parts) = parts := by
  rw [splitAt_eq_splitOn, List.splitOn_intercalate separator unbroken some]

/-- No part of a text has the separator in it. -/
theorem not_mem_of_mem_splitAt {separator : Char} {text part : List Char}
    (member : part ∈ splitAt separator text) : separator ∉ part := by
  induction text generalizing part with
  | nil =>
    have empty : part = [] := List.mem_singleton.mp member
    rw [empty]
    exact List.not_mem_nil
  | cons c text ih =>
    by_cases same : c = separator
    · rw [same, splitAt_separator, List.mem_cons] at member
      obtain rfl | member := member
      · exact List.not_mem_nil
      · exact ih member
    · obtain ⟨first, parts, found⟩ := List.exists_cons_of_ne_nil (splitAt_ne_nil separator text)
      rw [found] at ih
      rw [splitAt_cons same, found, List.mem_cons] at member
      obtain rfl | member := member
      · rw [List.mem_cons, not_or]
        exact ⟨Ne.symm same, ih List.mem_cons_self⟩
      · exact ih (List.mem_cons_of_mem first member)

end Text

section Entries

variable {ε α β : Type} {read : α → Except ε β} {entries : List α}

/-- What is read of entries one by one is what each of them is read as. -/
theorem mapM_eq_ok_iff {found : List β} :
    entries.mapM read = .ok found ↔
      List.Forall₂ (fun entry one => read entry = .ok one) entries found := by
  induction entries generalizing found with
  | nil =>
    rw [List.mapM_nil, List.forall₂_nil_left_iff]
    exact ⟨fun same => (Except.ok.inj same).symm, fun same => same ▸ rfl⟩
  | cons entry entries ih =>
    rw [List.mapM_cons, List.forall₂_cons_left_iff]
    cases first : read entry with
    | error error =>
      constructor
      · intro refused
        contradiction
      · rintro ⟨one, _, other, _⟩
        contradiction
    | ok one =>
      cases rest : entries.mapM read with
      | error error =>
        constructor
        · intro refused
          contradiction
        · rintro ⟨_, others, _, later, _⟩
          rw [← ih, rest] at later
          contradiction
      | ok others =>
        constructor
        · intro same
          cases same
          exact ⟨one, others, rfl, ih.mp rest, rfl⟩
        · rintro ⟨_, found, same, later, rfl⟩
          rw [← ih, rest] at later
          cases same
          cases later
          rfl

/-- Entries are refused over the first of them that is refused. -/
theorem mapM_eq_error_iff {error : ε} :
    entries.mapM read = .error error ↔ ∃ front entry back, entries = front ++ entry :: back ∧
      (∀ earlier ∈ front, ∃ one, read earlier = .ok one) ∧ read entry = .error error := by
  induction entries with
  | nil =>
    constructor
    · intro refused
      contradiction
    · rintro ⟨front, entry, back, same, _⟩
      exact absurd same.symm
        (List.append_ne_nil_of_right_ne_nil front (List.cons_ne_nil entry back))
  | cons first entries ih =>
    rw [List.mapM_cons]
    constructor
    · intro refused
      cases answer : read first with
      | error other =>
        rw [answer] at refused
        cases refused
        exact ⟨[], first, entries, rfl, List.forall_mem_nil _, answer⟩
      | ok one =>
        rw [answer] at refused
        cases rest : entries.mapM read with
        | ok others =>
          rw [rest] at refused
          contradiction
        | error other =>
          rw [rest] at refused
          cases refused
          obtain ⟨front, entry, back, parts, accepted, offends⟩ := ih.mp rest
          refine ⟨first :: front, entry, back, by rw [parts, List.cons_append], ?_, offends⟩
          exact List.forall_mem_cons.mpr ⟨⟨one, answer⟩, accepted⟩
    · rintro ⟨front, entry, back, parts, accepted, offends⟩
      cases front with
      | nil =>
        obtain ⟨rfl, rfl⟩ := List.cons.inj parts
        rw [offends]
        rfl
      | cons earlier front =>
        obtain ⟨rfl, rfl⟩ := List.cons.inj parts
        obtain ⟨⟨one, answer⟩, others⟩ := List.forall_mem_cons.mp accepted
        rw [answer, ih.mpr ⟨front, entry, back, rfl, others, offends⟩]
        rfl

end Entries

namespace Selector

/-- The entries with a character that is not white space. -/
def named (entries : List String) : List String :=
  entries.filter fun entry => !entry.toList.all Text.isBlank

/-- Whether an entry is the canonical form of a selector up to the case of its letters, with or
without white space around it. -/
def Spells (entry : String) (selector : Selector) : Prop :=
  ∃ before word behind, entry.toList = before ++ (word ++ behind) ∧
    (∀ c ∈ before, Text.isBlank c = true) ∧ (∀ c ∈ behind, Text.isBlank c = true) ∧
    Text.sameLetters word selector.write.toList = true

/-- Whether entries spell selectors one behind the other, with blank entries anywhere among them. -/
inductive Spelled : List String → List Selector → Prop where
  | nil : Spelled [] []
  | blank {entry : String} {entries : List String} {selectors : List Selector}
      (blank : ∀ c ∈ entry.toList, Text.isBlank c = true) (rest : Spelled entries selectors) :
      Spelled (entry :: entries) selectors
  | selector {entry : String} {entries : List String} {selector : Selector}
      {selectors : List Selector} (spells : Spells entry selector)
      (rest : Spelled entries selectors) : Spelled (entry :: entries) (selector :: selectors)

/-- A list is read entry by entry, the blank entries left out. -/
theorem readList_intercalate {entries : List String}
    (whole : ∀ entry ∈ entries, ',' ∉ entry.toList) :
    readList (",".intercalate entries) = (named entries).mapM read := by
  have kept (entry : String) :
      (!(Text.trim entry.toList).isEmpty) = !entry.toList.all Text.isBlank := by
    rw [Bool.eq_iff_iff, Bool.not_eq_true', Bool.not_eq_true', ← Bool.not_eq_true,
      ← Bool.not_eq_true, List.isEmpty_iff, Text.trim_eq_nil_iff, List.all_eq_true]
  by_cases some : entries = []
  · subst some
    decide
  · have unbroken : ∀ part ∈ entries.map String.toList, ',' ∉ part := by
      intro part member
      obtain ⟨entry, among, rfl⟩ := List.mem_map.mp member
      exact whole entry among
    have cut : Text.splitAt ',' (",".intercalate entries).toList = entries.map String.toList := by
      rw [String.toList_intercalate]
      exact Text.splitAt_intercalate unbroken (fun none => some (List.map_eq_nil_iff.mp none))
    rw [readList, cut, List.map_map, List.filter_map, List.mapM_map, named]
    congr 1
    exact List.filter_congr fun entry _ => kept entry

/-- Every text is a list of entries without commas in them. -/
theorem exists_entries (text : String) :
    ∃ entries : List String, (∀ entry ∈ entries, ',' ∉ entry.toList) ∧
      text = ",".intercalate entries := by
  refine ⟨(Text.splitAt ',' text.toList).map String.ofList, ?_, ?_⟩
  · intro entry member
    obtain ⟨part, among, rfl⟩ := List.mem_map.mp member
    rw [String.toList_ofList]
    exact Text.not_mem_of_mem_splitAt among
  · have same : String.toList ∘ String.ofList = id := funext fun _ => String.toList_ofList
    rw [← String.toList_inj, String.toList_intercalate, List.map_map, same, List.map_id]
    exact (Text.intercalate_splitAt ',' text.toList).symm

/-- A list behind another is read behind it. -/
theorem readList_append (front back : String) :
    readList (front ++ "," ++ back) =
      match readList front with
      | .error error => .error error
      | .ok first =>
        match readList back with
        | .error error => .error error
        | .ok second => .ok (first ++ second) := by
  have cut : Text.splitAt ',' (front ++ "," ++ back).toList =
      Text.splitAt ',' front.toList ++ Text.splitAt ',' back.toList := by
    rw [String.toList_append, String.toList_append, List.append_assoc]
    exact Text.splitAt_append ',' front.toList back.toList
  simp only [readList, cut, List.map_append, List.filter_append, List.mapM_append]
  split
  · rename_i error refused
    rw [refused]
    rfl
  · rename_i first found
    rw [found]
    split
    · rename_i error refused
      rw [refused]
      rfl
    · rename_i second later
      rw [later]
      rfl

section Spelling

variable {word : List Char} {selector : Selector}

/-- A selector spelled with letters of either case is read. -/
theorem readTrimmed_of_sameLetters
    (same : Text.sameLetters word selector.write.toList = true) :
    readTrimmed word = .ok selector := by
  have canonical : selector.write.toList =
      ['a', 'e', 's'] ++
        ((toString selector.width.bits).toList ++ '-' :: selector.family.id.toList) := by
    simp [write]
  -- Tested along the text, since a statement about every character would be tested on all of them.
  have digit : (toString selector.width.bits).toList.all
      (fun c => decide (c.toNat < 65 ∧ c ≠ '-')) = true := by
    cases selector.width <;> decide
  have small : ∀ c ∈ (toString selector.width.bits).toList, c.toNat < 65 ∧ c ≠ '-' :=
    fun c member => of_decide_eq_true (List.all_eq_true.mp digit c member)
  have read : readWidth? (toString selector.width.bits).toList = some selector.width := by
    cases selector.width <;> decide
  rw [Text.sameLetters_iff, canonical, List.map_append, List.map_append, List.map_cons,
    List.map_eq_append_iff] at same
  obtain ⟨letters, behind, rfl, spelled, rest⟩ := same
  obtain ⟨bits, hyphened, rfl, digits, rest⟩ := List.map_eq_append_iff.mp rest
  obtain ⟨hyphen, name, rfl, dash, named⟩ := List.map_eq_cons_iff.mp rest
  have bitsSame : bits = (toString selector.width.bits).toList :=
    Text.eq_of_sameLetters (fun c member => (small c member).1) (Text.sameLetters_iff.mpr digits)
  have hyphenSame : hyphen = '-' := Text.eq_of_toLower_eq dash (.inl (by decide))
  subst bitsSame hyphenSame
  have parts : Parts (letters ++ ((toString selector.width.bits).toList ++ '-' :: name))
      (toString selector.width.bits).toList name :=
    ⟨letters, rfl, Text.sameLetters_iff.mpr spelled, fun member => (small '-' member).2 rfl⟩
  rw [readTrimmed_eq_ok_iff parts]
  exact ⟨readWidth?_eq_some_iff.mp read, Text.sameLetters_iff.mpr named.symm⟩

/-- No character of a selector, whatever the case of its letters, is white space or a comma. -/
theorem plain_of_sameLetters (same : Text.sameLetters word selector.write.toList = true)
    {c : Char} (member : c ∈ word) : Text.isBlank c = false ∧ c ≠ ',' := by
  have plain : selector.write.toList.all
      (fun other => decide (Text.isBlank other.toLower = false ∧ other.toLower ≠ ',')) = true := by
    obtain ⟨family, width⟩ := selector
    cases family <;> cases width <;> decide
  obtain ⟨other, among, lower⟩ := Text.exists_of_sameLetters same member
  obtain ⟨inner, apart⟩ := of_decide_eq_true (List.all_eq_true.mp plain other among)
  rw [← lower] at inner apart
  refine ⟨by rwa [Text.isBlank_toLower] at inner, ?_⟩
  rintro rfl
  exact apart rfl

variable {entry : String}

/-- An entry that spells a selector is read as it. -/
theorem Spells.read_eq (spells : Spells entry selector) : read entry = .ok selector := by
  obtain ⟨before, word, behind, parts, front, back, same⟩ := spells
  have inner : ∀ c ∈ word, Text.isBlank c = false :=
    fun c member => (plain_of_sameLetters same member).1
  rw [read, parts, Text.trim_append front inner back]
  exact readTrimmed_of_sameLetters same

/-- White space has no comma in it. -/
theorem not_comma_of_blank {text : List Char} (blank : ∀ c ∈ text, Text.isBlank c = true) :
    ',' ∉ text := by
  intro member
  have white := blank ',' member
  contradiction

/-- An entry that spells a selector has no comma in it. -/
theorem Spells.not_comma (spells : Spells entry selector) : ',' ∉ entry.toList := by
  obtain ⟨before, word, behind, parts, front, back, same⟩ := spells
  rw [parts, List.mem_append, List.mem_append, not_or, not_or]
  exact ⟨not_comma_of_blank front, fun member => (plain_of_sameLetters same member).2 rfl,
    not_comma_of_blank back⟩

/-- An entry that spells a selector is not blank. -/
theorem Spells.not_blank (spells : Spells entry selector) :
    ¬ ∀ c ∈ entry.toList, Text.isBlank c = true := by
  intro blank
  have found := spells.read_eq
  rw [read, Text.trim_eq_nil_iff.mpr blank] at found
  contradiction

end Spelling

section Lists

variable {entries : List String} {selectors : List Selector}

/-- Entries that spell selectors have no commas in them. -/
theorem Spelled.not_comma (spelled : Spelled entries selectors) :
    ∀ entry ∈ entries, ',' ∉ entry.toList := by
  induction spelled with
  | nil => exact List.forall_mem_nil _
  | blank blank _ ih => exact List.forall_mem_cons.mpr ⟨not_comma_of_blank blank, ih⟩
  | selector spells _ ih => exact List.forall_mem_cons.mpr ⟨spells.not_comma, ih⟩

/-- Blank entries are left out. -/
theorem named_cons_of_blank {entry : String} (blank : ∀ c ∈ entry.toList, Text.isBlank c = true) :
    named (entry :: entries) = named entries :=
  List.filter_cons_of_neg (by simpa using blank)

/-- All other entries are kept. -/
theorem named_cons_of_not_blank {entry : String}
    (marked : ¬ ∀ c ∈ entry.toList, Text.isBlank c = true) :
    named (entry :: entries) = entry :: named entries :=
  List.filter_cons_of_pos (by simpa using marked)

/-- Entries that spell selectors are read as these, the blank ones left out. -/
theorem Spelled.forall₂_read (spelled : Spelled entries selectors) :
    List.Forall₂ (fun entry selector => read entry = .ok selector) (named entries) selectors := by
  induction spelled with
  | nil => exact .nil
  | blank blank _ ih =>
    rw [named_cons_of_blank blank]
    exact ih
  | selector spells _ ih =>
    rw [named_cons_of_not_blank spells.not_blank]
    exact .cons spells.read_eq ih

end Lists

/-- Lists put behind each other with a comma between them are read one behind the other, and are
refused as the first is or else as the second is. Selectors in letters of either case, with white
space around each and blank entries anywhere among them, are read as they were joined: all of them,
in their order, as often as they stand there. Whatever entries are joined, those that are not blank
are read one by one: the list is what each of them is read as, or is refused over the first that is
no selector; and every text is a list of such entries. -/
theorem readList_joined :
    (∀ front back : String, readList (front ++ "," ++ back) =
      match readList front with
      | .error error => .error error
      | .ok first =>
        match readList back with
        | .error error => .error error
        | .ok second => .ok (first ++ second)) ∧
    (∀ entries selectors, Spelled entries selectors →
      readList (",".intercalate entries) = .ok selectors) ∧
    (∀ entries : List String, (∀ entry ∈ entries, ',' ∉ entry.toList) →
      (∀ selectors, readList (",".intercalate entries) = .ok selectors ↔
        List.Forall₂ (fun entry selector => read entry = .ok selector) (named entries) selectors) ∧
      ∀ error, readList (",".intercalate entries) = .error error ↔
        ∃ front entry back, named entries = front ++ entry :: back ∧
          (∀ earlier ∈ front, ∃ selector, read earlier = .ok selector) ∧
          read entry = .error error) ∧
    ∀ text : String, ∃ entries : List String, (∀ entry ∈ entries, ',' ∉ entry.toList) ∧
      text = ",".intercalate entries := by
  refine ⟨readList_append, ?_, ?_, exists_entries⟩
  · intro entries selectors spelled
    rw [readList_intercalate spelled.not_comma, mapM_eq_ok_iff]
    exact spelled.forall₂_read
  · intro entries whole
    rw [readList_intercalate whole]
    exact ⟨fun selectors => mapM_eq_ok_iff, fun error => mapM_eq_error_iff⟩

/-- White space around a selector, letters of either case, blank entries at both ends and inside,
and a selector that stands there twice; and a list with two entries that are no selectors. -/
theorem readList_joined_ragged :
    Spelled ["", " AES128-cbc\t", "\n", "Aes256-GCM-siv", "aes128-cbc", " "]
        [⟨.cbc, .w128⟩, ⟨.gcmSiv, .w256⟩, ⟨.cbc, .w128⟩] ∧
      readList (",".intercalate ["", " AES128-cbc\t", "\n", "Aes256-GCM-siv", "aes128-cbc", " "]) =
        .ok [⟨.cbc, .w128⟩, ⟨.gcmSiv, .w256⟩, ⟨.cbc, .w128⟩] ∧
      (∀ entry ∈ ["aes128-cbc", " ", "nope", "aes1-cbc"], ',' ∉ entry.toList) ∧
      readList (",".intercalate ["aes128-cbc", " ", "nope", "aes1-cbc"]) =
        .error (.malformed "nope") := by
  have spelled : Spelled ["", " AES128-cbc\t", "\n", "Aes256-GCM-siv", "aes128-cbc", " "]
      [⟨.cbc, .w128⟩, ⟨.gcmSiv, .w256⟩, ⟨.cbc, .w128⟩] := by
    refine .blank (List.all_eq_true.mp rfl) (.selector ?_ (.blank (List.all_eq_true.mp rfl)
      (.selector ?_ (.selector ?_ (.blank (List.all_eq_true.mp rfl) .nil)))))
    · exact ⟨[' '], "AES128-cbc".toList, ['\t'], by decide, List.all_eq_true.mp rfl,
        List.all_eq_true.mp rfl, by decide⟩
    · exact ⟨[], "Aes256-GCM-siv".toList, [], by decide, List.all_eq_true.mp rfl,
        List.all_eq_true.mp rfl, by decide⟩
    · exact ⟨[], "aes128-cbc".toList, [], by decide, List.all_eq_true.mp rfl,
        List.all_eq_true.mp rfl, by decide⟩
  have whole : ∀ entry ∈ ["aes128-cbc", " ", "nope", "aes1-cbc"], ',' ∉ entry.toList := by decide
  obtain ⟨_, joined, entered, _⟩ := readList_joined
  refine ⟨spelled, joined _ _ spelled, whole, ((entered _ whole).2 _).mpr ?_⟩
  refine ⟨["aes128-cbc"], "nope", ["aes1-cbc"], by decide, ?_, rfl⟩
  exact List.forall_mem_cons.mpr ⟨⟨⟨.cbc, .w128⟩, rfl⟩, List.forall_mem_nil _⟩

end Selector

end AesTrials

import AesTrials.Proofs.Numerals

/-!
# JSON text

`Written` says which texts write a value: its tokens in order, space allowed between them. The
reader takes the value back from every such text, however it is laid out.
-/

namespace AesTrials.Json

/-! ## Strings -/

theorem toNat_ofNat {unit : Nat} (valid : unit.isValidChar) : (Char.ofNat unit).toNat = unit := by
  rw [Char.ofNat, dif_pos valid]
  rfl

theorem hexUnit?_escape {unit : Nat} (small : unit < 65536) :
    hexUnit? (Text.hexDigit (unit / 4096 % 16)) (Text.hexDigit (unit / 256 % 16))
      (Text.hexDigit (unit / 16 % 16)) (Text.hexDigit (unit % 16)) = some unit := by
  have digit (value : Nat) : Text.hexValue? (Text.hexDigit (value % 16)) = some (value % 16) :=
    Text.hexValue?_hexDigit (Nat.mod_lt _ (by decide))
  simp only [hexUnit?, digit, bind, Option.bind, Option.some.injEq]
  omega

/-- A character that ends no string and begins no escape stands for itself. -/
theorem readUnits_plain (read : List Nat) {c : Char} (rest : List Char) (quote : c ≠ '"')
    (backslash : c ≠ '\\') (printable : 32 ≤ c.toNat) :
    readUnits read (c :: rest) = readUnits (c.toNat :: read) rest := by
  rw [readUnits.eq_def]
  grind

/-- One more than the largest code point. -/
def unitLimit : Nat := 0x110000

/-- A unit that is written is read back. -/
theorem readUnits_writeUnit (read : List Nat) {unit : Nat} (small : unit < unitLimit)
    (rest : List Char) :
    readUnits read (writeUnit unit ++ rest) = readUnits (unit :: read) rest := by
  by_cases letter : unit ∈ [34, 92, 8, 9, 10, 12, 13]
  · simp only [List.mem_cons, List.not_mem_nil, or_false] at letter
    obtain rfl | rfl | rfl | rfl | rfl | rfl | rfl := letter <;>
      simp [writeUnit, readUnits, escaped?]
  · -- The other units are escaped by their digits or stand as they are.
    have noLetter : writeUnit unit =
        if unit < 32 ∨ isSurrogate unit then escapeUnit unit else [Char.ofNat unit] := by
      simp only [List.mem_cons, List.not_mem_nil, or_false, not_or] at letter
      simp only [writeUnit, letter, if_false]
    rw [noLetter]
    split
    next escape =>
      have word : unit < 65536 := by
        simp only [isSurrogate, Bool.and_eq_true, decide_eq_true_eq] at escape
        omega
      simp [escapeUnit, readUnits, hexUnit?_escape word]
    next plain =>
      simp only [isSurrogate, Bool.and_eq_true, decide_eq_true_eq] at plain
      have code : (Char.ofNat unit).toNat = unit := by
        refine toNat_ofNat ?_
        simp only [Nat.isValidChar, unitLimit] at small ⊢
        omega
      have other (c : Char) (coded : c.toNat ∈ [34, 92]) : Char.ofNat unit ≠ c := by
        rintro rfl
        rw [code] at coded
        simp_all
      rw [List.singleton_append, readUnits_plain read rest (other '"' (by decide))
        (other '\\' (by decide)) (by omega), code]

/-- The units of a string are read back up to its closing quote. -/
theorem readUnits_write (read : List Nat) {units : List Nat} (rest : List Char)
    (small : ∀ unit ∈ units, unit < unitLimit) :
    readUnits read (units.flatMap writeUnit ++ '"' :: rest) =
      some (read.reverse ++ units, rest) := by
  induction units generalizing read with
  | nil => simp [readUnits]
  | cons unit units hyp =>
    obtain ⟨first, later⟩ := List.forall_mem_cons.mp small
    rw [List.flatMap_cons, List.append_assoc, readUnits_writeUnit read first, hyp _ later]
    simp

/-! ## Texts of values -/

/-- Space between tokens. -/
def Gap (text : List Char) : Prop := ∀ c ∈ text, isSpace c = true

/-- What a stretch of text writes. -/
inductive Part where
  /-- A value, no space around it. -/
  | value (json : Json)
  /-- A value and the space around it. -/
  | element (json : Json)
  /-- The items of an array, at least one. -/
  | elements (items : List Json)
  /-- The fields of an object, at least one. -/
  | members (fields : List (List Nat × Json))

/-- Which texts write a part: its tokens in order, space wherever JSON allows it. -/
inductive Written : Part → List Char → Prop where
  | null : Written (.value .null) ['n', 'u', 'l', 'l']
  | bool (value : Bool) : Written (.value (.bool value)) (writeBool value)
  | number {number : Number} (proper : number.Proper) :
    Written (.value (.number number)) number.write
  | string {units : List Nat} (small : ∀ unit ∈ units, unit < unitLimit) :
    Written (.value (.string units)) (writeString units)
  | emptyArray {gap : List Char} (space : Gap gap) :
    Written (.value (.array [])) ('[' :: (gap ++ [']']))
  | array {items : List Json} {text : List Char} (inside : Written (.elements items) text) :
    Written (.value (.array items)) ('[' :: (text ++ [']']))
  | emptyObject {gap : List Char} (space : Gap gap) :
    Written (.value (.object [])) ('{' :: (gap ++ ['}']))
  | object {fields : List (List Nat × Json)} {text : List Char}
    (inside : Written (.members fields) text) :
    Written (.value (.object fields)) ('{' :: (text ++ ['}']))
  | element {json : Json} {before text behind : List Char} (space : Gap before ∧ Gap behind)
    (inside : Written (.value json) text) :
    Written (.element json) (before ++ (text ++ behind))
  | lastItem {item : Json} {text : List Char} (last : Written (.element item) text) :
    Written (.elements [item]) text
  | nextItem {item : Json} {items : List Json} {text more : List Char}
    (first : Written (.element item) text) (later : Written (.elements items) more) :
    Written (.elements (item :: items)) (text ++ ',' :: more)
  | lastField {name : List Nat} {value : Json} {before behind text : List Char}
    (small : ∀ unit ∈ name, unit < unitLimit) (space : Gap before ∧ Gap behind)
    (last : Written (.element value) text) :
    Written (.members [(name, value)]) (before ++ (writeString name ++ (behind ++ ':' :: text)))
  | nextField {name : List Nat} {value : Json} {fields : List (List Nat × Json)}
    {before behind text more : List Char} (small : ∀ unit ∈ name, unit < unitLimit)
    (space : Gap before ∧ Gap behind) (first : Written (.element value) text)
    (later : Written (.members fields) more) :
    Written (.members ((name, value) :: fields))
      (before ++ (writeString name ++ (behind ++ ':' :: (text ++ ',' :: more))))

/-! ## Reading texts of values -/

/-- Whether a text ends a value and the space behind it: there is no more text, or a comma or a
closing bracket. -/
def Ends (text : List Char) : Prop := ∀ c ∈ text.head?, c ∈ [',', ']', '}']

theorem skip_gap {gap : List Char} (space : Gap gap) (rest : List Char) :
    skip (gap ++ rest) = skip rest := by
  rw [skip, skip, List.dropWhile_append_of_pos space]

theorem skip_token {c : Char} (token : isSpace c = false) (rest : List Char) :
    skip (c :: rest) = c :: rest := by
  simp [skip, token]

/-- The reader of values passes over space. -/
theorem readValue_gap (fuel : Nat) {gap : List Char} (space : Gap gap) (rest : List Char) :
    readValue fuel (gap ++ rest) = readValue fuel rest := by
  cases fuel with
  | zero => rfl
  | succ fuel => rw [readValue, readValue, skip_gap space]

theorem stops_of_isSpace {c : Char} (h : isSpace c = true) :
    Decimal.isDigit c = false ∧ c ≠ '.' ∧ c ≠ 'e' ∧ c ≠ 'E' := by
  simp only [isSpace, Bool.or_eq_true, decide_eq_true_eq] at h
  obtain ((rfl | rfl) | rfl) | rfl := h <;> decide

theorem stops_of_closing {c : Char} (h : c ∈ [',', ']', '}']) :
    Decimal.isDigit c = false ∧ c ≠ '.' ∧ c ≠ 'e' ∧ c ≠ 'E' := by
  simp only [List.mem_cons, List.not_mem_nil, or_false] at h
  obtain rfl | rfl | rfl := h <;> decide

/-- What ends a value does not continue a number, nor does space in front of it. -/
theorem Ends.noNumber {gap rest : List Char} (space : Gap gap) (ends : Ends rest) :
    NoNumber (gap ++ rest) := by
  have stops : ∀ c ∈ (gap ++ rest).head?,
      Decimal.isDigit c = false ∧ c ≠ '.' ∧ c ≠ 'e' ∧ c ≠ 'E' := by
    intro c first
    cases gap with
    | nil => exact stops_of_closing (ends c first)
    | cons head gap =>
      obtain rfl : head = c := by simpa using first
      exact stops_of_isSpace (space head (by simp))
  exact ⟨fun c first => (stops c first).1, fun c first => (stops c first).2⟩

section Readers

attribute [local simp] readValue readItems readFields

/-- What the reader makes of a text that writes a part, with enough fuel and whatever may follow. -/
def Reads : Part → List Char → Prop
  | .value json, text => ∀ fuel rest, text.length ≤ fuel → NoNumber rest →
      readValue fuel (text ++ rest) = some (json, rest)
  | .element json, text => ∀ fuel rest, text.length ≤ fuel → Ends rest →
      ∃ behind, Gap behind ∧ readValue fuel (text ++ rest) = some (json, behind ++ rest)
  | .elements items, text => ∀ fuel read rest, text.length < fuel →
      readItems fuel read (text ++ ']' :: rest) = some (.array (read.reverse ++ items), rest)
  | .members fields, text => ∀ fuel read rest, text.length < fuel →
      readFields fuel read (text ++ '}' :: rest) = some (.object (read.reverse ++ fields), rest)

/-- A value has a first character, so there is fuel for it. -/
theorem reads_value {json : Json} {c : Char} {text : List Char}
    (reads : ∀ fuel rest, text.length ≤ fuel → NoNumber rest →
      readValue (fuel + 1) (c :: (text ++ rest)) = some (json, rest)) :
    Reads (.value json) (c :: text) := by
  intro fuel rest enough ends
  match fuel with
  | 0 => simp at enough
  | fuel + 1 => exact reads fuel rest (Nat.le_of_succ_le_succ enough) ends

theorem reads_null : Reads (.value .null) ['n', 'u', 'l', 'l'] := by
  refine reads_value fun fuel rest _ _ => ?_
  simp [skip_token, isSpace, readWord, behindWord?]

theorem reads_bool (value : Bool) : Reads (.value (.bool value)) (writeBool value) := by
  cases value <;> refine reads_value fun fuel rest _ _ => ?_ <;>
    simp [skip_token, isSpace, readWord, behindWord?]

theorem reads_string {units : List Nat} (small : ∀ unit ∈ units, unit < unitLimit) :
    Reads (.value (.string units)) (writeString units) := by
  refine reads_value fun fuel rest _ _ => ?_
  simp [skip_token, isSpace, readUnits_write [] rest small]

/-- A value that begins with a digit is a number. -/
theorem readValue_digit (fuel : Nat) {digit : Nat} (small : digit < 10) (rest : List Char) :
    readValue (fuel + 1) (Decimal.digitChar digit :: rest) =
      readNumber false (Decimal.digitChar digit :: rest) := by
  have other : ∀ digit < 10, isSpace (Decimal.digitChar digit) = false ∧
      Decimal.digitChar digit ∉ ['"', '[', '{', '-', 'n', 't', 'f'] := by decide
  obtain ⟨token, other⟩ := other digit small
  rw [readValue, skip_token token]
  grind

theorem reads_number {number : Number} (proper : number.Proper) :
    Reads (.value (.number number)) number.write := by
  obtain ⟨digit, small, more, front⟩ := proper.head
  -- A minus sign says that a number follows; without one its first digit has to.
  have unsigned (rest : List Char) (ends : NoNumber rest) :
      readNumber number.negative (Decimal.digitChar digit ::
        (more ++ writeExponent number.exponent ++ rest)) = some (.number number, rest) := by
    simpa [front] using readNumber_write proper ends
  have shape : number.write = Decimal.sign number.negative ++
      Decimal.digitChar digit :: (more ++ writeExponent number.exponent) := by
    simp [Number.write, front]
  rw [shape]
  cases sign : number.negative with
  | true =>
    refine reads_value fun fuel rest _ ends => ?_
    simpa [skip_token, isSpace, sign] using unsigned rest ends
  | false =>
    refine reads_value fun fuel rest _ ends => ?_
    rw [sign] at unsigned
    exact (readValue_digit fuel small _).trans (unsigned rest ends)

/-! ### Arrays and objects -/

theorem reads_emptyArray {gap : List Char} (space : Gap gap) :
    Reads (.value (.array [])) ('[' :: (gap ++ [']'])) := by
  refine reads_value fun fuel rest _ _ => ?_
  simp [skip_token, skip_gap space, isSpace]

theorem reads_emptyObject {gap : List Char} (space : Gap gap) :
    Reads (.value (.object [])) ('{' :: (gap ++ ['}'])) := by
  refine reads_value fun fuel rest _ _ => ?_
  simp [skip_token, skip_gap space, isSpace]

/-- Items are not read from a text that begins with a closing bracket. -/
theorem readItems_bracket {fuel : Nat} {read : List Json} {text rest : List Char}
    (h : skip text = ']' :: rest) : readItems fuel read text = none := by
  match fuel with
  | 0 => rfl
  | 1 => rfl
  | fuel + 2 =>
    simp [h, readNumber, readWhole, readDigits, Decimal.isDigit, Decimal.digitValue?]

theorem reads_array {items : List Json} {text : List Char} (inside : Reads (.elements items) text) :
    Reads (.value (.array items)) ('[' :: (text ++ [']'])) := by
  refine reads_value fun fuel rest enough _ => ?_
  have read := inside fuel [] rest (by simpa [Nat.succ_le_iff] using enough)
  simp only [readValue, skip_token (c := '[') (by decide), List.append_assoc, List.singleton_append]
  -- The reader tries the empty array first; no item could have been read from such a text.
  split
  next empty => simp [readItems_bracket empty] at read
  next => simpa using read

/-- Fields are not read from a text that begins with a closing brace. -/
theorem readFields_brace {fuel : Nat} {read : List (List Nat × Json)} {text rest : List Char}
    (h : skip text = '}' :: rest) : readFields fuel read text = none := by
  cases fuel <;> simp [h]

theorem reads_object {fields : List (List Nat × Json)} {text : List Char}
    (inside : Reads (.members fields) text) :
    Reads (.value (.object fields)) ('{' :: (text ++ ['}'])) := by
  refine reads_value fun fuel rest enough _ => ?_
  have read := inside fuel [] rest (by simpa [Nat.succ_le_iff] using enough)
  simp only [readValue, skip_token (c := '{') (by decide), List.append_assoc, List.singleton_append]
  split
  next empty => simp [readFields_brace empty] at read
  next => simpa using read

theorem reads_element {json : Json} {before text behind : List Char}
    (space : Gap before ∧ Gap behind) (inside : Reads (.value json) text) :
    Reads (.element json) (before ++ (text ++ behind)) := by
  intro fuel rest enough ends
  refine ⟨behind, space.2, ?_⟩
  simp only [List.length_append] at enough
  rw [List.append_assoc, readValue_gap fuel space.1, List.append_assoc]
  exact inside fuel (behind ++ rest) (by omega) (ends.noNumber space.2)

theorem ends_cons {c : Char} (mark : c ∈ [',', ']', '}']) (rest : List Char) :
    Ends (c :: rest) := by
  intro head first
  obtain rfl : c = head := by simpa using first
  exact mark

theorem reads_lastItem {item : Json} {text : List Char} (last : Reads (.element item) text) :
    Reads (.elements [item]) text := by
  intro fuel read rest enough
  match fuel with
  | fuel + 1 =>
    obtain ⟨gap, space, value⟩ :=
      last fuel (']' :: rest) (Nat.le_of_lt_succ enough) (ends_cons (by decide) rest)
    simp [value, skip_gap space, skip_token, isSpace]

theorem reads_nextItem {item : Json} {items : List Json} {text more : List Char}
    (first : Reads (.element item) text) (later : Reads (.elements items) more) :
    Reads (.elements (item :: items)) (text ++ ',' :: more) := by
  intro fuel read rest enough
  simp only [List.length_append, List.length_cons] at enough
  match fuel with
  | fuel + 1 =>
    obtain ⟨gap, space, value⟩ :=
      first fuel (',' :: (more ++ ']' :: rest)) (by omega) (ends_cons (by decide) _)
    have others := later fuel (item :: read) rest (by omega)
    simp [value, skip_gap space, skip_token, isSpace, others]

theorem reads_lastField {name : List Nat} {value : Json} {before behind text : List Char}
    (small : ∀ unit ∈ name, unit < unitLimit) (space : Gap before ∧ Gap behind)
    (last : Reads (.element value) text) :
    Reads (.members [(name, value)])
      (before ++ (writeString name ++ (behind ++ ':' :: text))) := by
  intro fuel read rest enough
  simp only [List.length_append, List.length_cons] at enough
  match fuel with
  | fuel + 1 =>
    obtain ⟨gap, spaceBehind, found⟩ :=
      last fuel ('}' :: rest) (by omega) (ends_cons (by decide) rest)
    simp [writeString, skip_gap space.1, skip_gap space.2, readUnits_write [] _ small, found,
      skip_gap spaceBehind, skip_token, isSpace]

theorem reads_nextField {name : List Nat} {value : Json} {fields : List (List Nat × Json)}
    {before behind text more : List Char} (small : ∀ unit ∈ name, unit < unitLimit)
    (space : Gap before ∧ Gap behind) (first : Reads (.element value) text)
    (later : Reads (.members fields) more) :
    Reads (.members ((name, value) :: fields))
      (before ++ (writeString name ++ (behind ++ ':' :: (text ++ ',' :: more)))) := by
  intro fuel read rest enough
  simp only [List.length_append, List.length_cons] at enough
  match fuel with
  | fuel + 1 =>
    obtain ⟨gap, spaceBehind, found⟩ :=
      first fuel (',' :: (more ++ '}' :: rest)) (by omega) (ends_cons (by decide) _)
    have others := later fuel ((name, value) :: read) rest (by omega)
    simp [writeString, skip_gap space.1, skip_gap space.2, readUnits_write [] _ small, found,
      skip_gap spaceBehind, skip_token, isSpace, others]

/-- The reader takes what a text writes back. -/
theorem reads_of_written {part : Part} {text : List Char} (written : Written part text) :
    Reads part text := by
  induction written with
  | null => exact reads_null
  | bool value => exact reads_bool value
  | number proper => exact reads_number proper
  | string small => exact reads_string small
  | emptyArray space => exact reads_emptyArray space
  | array _ inside => exact reads_array inside
  | emptyObject space => exact reads_emptyObject space
  | object _ inside => exact reads_object inside
  | element space _ inside => exact reads_element space inside
  | lastItem _ last => exact reads_lastItem last
  | nextItem _ _ first later => exact reads_nextItem first later
  | lastField small space _ last => exact reads_lastField small space last
  | nextField small space _ _ first later => exact reads_nextField small space first later

end Readers

/-- A whole text is read as the value that it writes. -/
theorem read?_of_written {json : Json} {text : List Char} (written : Written (.element json) text) :
    read? text = some json := by
  obtain ⟨gap, space, value⟩ :=
    reads_of_written written (text.length + 1) [] (Nat.le_succ _) (by simp [Ends])
  simp only [List.append_nil] at value
  have rest : skip gap = [] := by simpa [skip] using skip_gap space []
  simp [read?, value, rest]

end AesTrials.Json

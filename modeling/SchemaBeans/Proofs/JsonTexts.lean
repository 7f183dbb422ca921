import Mathlib.Data.List.Basic
import SchemaBeans.Json.Reader

/-!
# JSON texts

The compact text of a value is read back as the value, unless arrays and objects
are nested deeper in it than the reader goes. Writing knows no such limit.
-/

namespace SchemaBeans.Json

section Strings

/-- A hexadecimal digit is read back as the number that it was written for. -/
theorem hexValue?_hexDigit {digit : Nat} (small : digit < 16) :
    Text.hexValue? (hexDigit digit) = some digit := by
  have all : ∀ digit : Fin 16, Text.hexValue? (hexDigit digit) = some digit.val := by decide
  exact all ⟨digit, small⟩

variable {character : Char} {rest : List Char}

/-- A control character is read back from the last two digits of its code point. -/
theorem escaped?_code (control : character.toNat < 0x20) :
    escaped? ('u' :: '0' :: '0' :: hexDigit (character.toNat / 16) ::
        hexDigit (character.toNat % 16) :: rest) = some (character, rest) := by
  have high : Text.hexValue? (hexDigit (character.toNat / 16)) = some (character.toNat / 16) :=
    hexValue?_hexDigit (by omega)
  have low : Text.hexValue? (hexDigit (character.toNat % 16)) = some (character.toNat % 16) :=
    hexValue?_hexDigit (by omega)
  have zero : Text.hexValue? '0' = some 0 := by decide
  have whole : 0 * 4096 + 0 * 256 + character.toNat / 16 * 16 + character.toNat % 16 =
      character.toNat := by omega
  have code : fourDigits? ('0' :: '0' :: hexDigit (character.toNat / 16) ::
      hexDigit (character.toNat % 16) :: rest) = some (character.toNat, rest) := by
    simp only [fourDigits?, zero, high, low, Option.bind_eq_bind, Option.bind_some, whole]
  rw [escaped?, code]
  dsimp only
  rw [if_neg (by simp; omega), if_neg (by simp; omega), Char.ofNat_toNat]

/-- A character of a string is read back, whatever its escape. -/
theorem stringBody_escape (character : Char) (fuel : Nat) :
    stringBody (fuel + 1) (escape character ++ rest) =
      (stringBody fuel rest).map fun (more, rest) => (character :: more, rest) := by
  unfold escape
  split
  · rfl
  · rfl
  · rfl
  · rfl
  · rfl
  · rfl
  · rfl
  · next noQuote noBackslash _ _ _ _ _ =>
      split
      · next control =>
          simp only [List.cons_append, List.nil_append]
          rw [stringBody, if_neg (by decide), if_pos rfl, escaped?_code control]
      · next plain =>
          rw [List.singleton_append, stringBody, if_neg noQuote, if_neg noBackslash, if_neg plain]

/-- The body of a string is read back up to the closing quote. -/
theorem stringBody_flatMap_escape (text : List Char) (fuel : Nat) :
    stringBody (text.length + fuel + 1) (text.flatMap escape ++ '\x22' :: rest) =
      some (text, rest) := by
  induction text with
  | nil =>
      rw [List.flatMap_nil, List.nil_append, stringBody, if_pos rfl]
  | cons character text hypothesis =>
      have steps : (character :: text).length + fuel + 1 = text.length + fuel + 1 + 1 := by
        rw [List.length_cons]
        omega
      rw [steps, List.flatMap_cons, List.append_assoc, stringBody_escape, hypothesis]
      rfl

/-- Every character is written with at least one. -/
theorem escape_ne_nil (character : Char) : escape character ≠ [] := by
  unfold escape
  split <;> try exact List.cons_ne_nil _ _
  split <;> exact List.cons_ne_nil _ _

/-- A string is read back after its opening quote. -/
theorem readString_flatMap_escape (text : String) :
    readString (text.toList.flatMap escape ++ '\x22' :: rest) = some (text, rest) := by
  obtain ⟨fuel, enough⟩ := Nat.exists_eq_add_of_le
    (Text.length_le_length_flatMap escape_ne_nil text.toList)
  have length : (text.toList.flatMap escape ++ '\x22' :: rest).length + 1 =
      text.toList.length + (fuel + (rest.length + 1)) + 1 := by
    rw [List.length_append, enough, List.length_cons]
    omega
  rw [readString, length, stringBody_flatMap_escape]
  simp

end Strings

section Nesting

mutual

/-- How deep arrays and objects are nested in a value. -/
def nesting : Json → Nat
  | array elements => elementsNesting elements + 1
  | object members => membersNesting members + 1
  | _ => 0

/-- The greatest nesting of the elements of an array. -/
def elementsNesting : List Json → Nat
  | [] => 0
  | element :: elements => max (nesting element) (elementsNesting elements)

/-- The greatest nesting of the members of an object. -/
def membersNesting : List (String × Json) → Nat
  | [] => 0
  | (_, value) :: members => max (nesting value) (membersNesting members)

end

mutual

/-- A value is wordy when no numbers occur in it. -/
def IsWordy : Json → Prop
  | number _ => False
  | array elements => AreWordy elements
  | object members => HasWordyMembers members
  | _ => True

/-- Whether all elements of an array are wordy. -/
def AreWordy : List Json → Prop
  | [] => True
  | element :: elements => IsWordy element ∧ AreWordy elements

/-- Whether all members of an object are wordy. -/
def HasWordyMembers : List (String × Json) → Prop
  | [] => True
  | (_, value) :: members => IsWordy value ∧ HasWordyMembers members

end

/-- Elements are wordy when each of them is. -/
theorem areWordy_iff {elements : List Json} :
    AreWordy elements ↔ ∀ element ∈ elements, element.IsWordy := by
  induction elements with
  | nil => simp [AreWordy]
  | cons element elements hypothesis => simp [AreWordy, hypothesis]

/-- Elements are nested within a depth when each of them is. -/
theorem elementsNesting_le_iff {elements : List Json} {depth : Nat} :
    elementsNesting elements ≤ depth ↔ ∀ element ∈ elements, element.nesting ≤ depth := by
  induction elements with
  | nil => simp [elementsNesting]
  | cons element elements hypothesis =>
      rw [elementsNesting, Nat.max_le, hypothesis, List.forall_mem_cons]

end Nesting

section Values

variable {first : Char} {rest : List Char}

/-- No blanks are skipped where there are none. -/
theorem skipSpace_of_not_isSpace (noSpace : isSpace first = false) :
    skipSpace (first :: rest) = first :: rest := by
  simp [skipSpace, noSpace]

/-- The text of a value does not start with a blank or a closing bracket. -/
theorem exists_compact {value : Json} (wordy : value.IsWordy) :
    ∃ first others, value.compact = first :: others ∧ isSpace first = false ∧ first ≠ ']' := by
  cases value with
  | null => exact ⟨'n', _, rfl, by decide, by decide⟩
  | bool value =>
      cases value with
      | false => exact ⟨'f', _, rfl, by decide, by decide⟩
      | true => exact ⟨'t', _, rfl, by decide, by decide⟩
  | number text => cases wordy
  | string text => exact ⟨'\x22', _, rfl, by decide, by decide⟩
  | array elements => exact ⟨'[', _, rfl, by decide, by decide⟩
  | object members => exact ⟨'\x7b', _, rfl, by decide, by decide⟩

/-- A word is read once its first character is, by what is left of it. -/
theorem map_after?_append (ending : String) (word : Json) :
    (after? ending (ending.toList ++ rest)).map (fun rest => (word, rest)) = some (word, rest) := by
  simp [after?, String.length_toList]

/-- A quote opens a string. -/
theorem readValue_quote (fuel depth : Nat) :
    readValue (fuel + 1) depth ('\x22' :: rest) =
      (readString rest).map fun (content, rest) => (string content, rest) := by
  rw [readValue, skipSpace_of_not_isSpace (by decide)]
  rfl

/-- A string is read back as a value. -/
theorem readValue_stringText (text : String) (fuel depth : Nat) :
    readValue (fuel + 1) depth (stringText text ++ rest) = some (string text, rest) := by
  have shape : stringText text ++ rest =
      '\x22' :: (text.toList.flatMap escape ++ '\x22' :: rest) := by
    simp [stringText]
  rw [shape, readValue_quote, readString_flatMap_escape]
  rfl

/-- The word for nothing is read back. -/
theorem readValue_null (fuel depth : Nat) :
    readValue (fuel + 1) depth (null.compact ++ rest) = some (null, rest) := by
  calc readValue (fuel + 1) depth ('n' :: ("ull".toList ++ rest))
      = (after? "ull" ("ull".toList ++ rest)).map fun rest => (null, rest) := by
        rw [readValue, skipSpace_of_not_isSpace (by decide)]
        rfl
    _ = some (null, rest) := map_after?_append "ull" null

/-- The word for a truth value is read back. -/
theorem readValue_bool (value : Bool) (fuel depth : Nat) :
    readValue (fuel + 1) depth ((bool value).compact ++ rest) = some (bool value, rest) := by
  cases value with
  | false =>
      calc readValue (fuel + 1) depth ('f' :: ("alse".toList ++ rest))
          = (after? "alse" ("alse".toList ++ rest)).map fun rest => (bool false, rest) := by
            rw [readValue, skipSpace_of_not_isSpace (by decide)]
            rfl
        _ = some (bool false, rest) := map_after?_append "alse" (bool false)
  | true =>
      calc readValue (fuel + 1) depth ('t' :: ("rue".toList ++ rest))
          = (after? "rue" ("rue".toList ++ rest)).map fun rest => (bool true, rest) := by
            rw [readValue, skipSpace_of_not_isSpace (by decide)]
            rfl
        _ = some (bool true, rest) := map_after?_append "rue" (bool true)

/-- A bracket opens an array, unless no depth is left for it. -/
theorem readValue_bracket (noSpace : isSpace first = false) (noBracket : first ≠ ']')
    (fuel depth : Nat) :
    readValue (fuel + 1) depth ('[' :: first :: rest) =
      match depth with
      | 0 => none
      | depth + 1 =>
          (readElements fuel depth (first :: rest)).map fun (elements, rest) =>
            (array elements, rest) := by
  rw [readValue, skipSpace_of_not_isSpace (by decide)]
  cases depth with
  | zero => rfl
  | succ depth =>
      simp only [skipSpace_of_not_isSpace noSpace]
      split
      · next closed => exact absurd (List.cons.inj closed).1 noBracket
      · rfl

/-- A brace opens an object, unless no depth is left for it. -/
theorem readValue_brace (noSpace : isSpace first = false) (noBrace : first ≠ '\x7d')
    (fuel depth : Nat) :
    readValue (fuel + 1) depth ('\x7b' :: first :: rest) =
      match depth with
      | 0 => none
      | depth + 1 =>
          (readMembers fuel depth (first :: rest)).map fun (members, rest) =>
            (object members, rest) := by
  rw [readValue, skipSpace_of_not_isSpace (by decide)]
  cases depth with
  | zero => rfl
  | succ depth =>
      simp only [skipSpace_of_not_isSpace noSpace]
      split
      · next closed => exact absurd (List.cons.inj closed).1 noBrace
      · rfl

/-- An empty array is read where some depth is left. -/
theorem readValue_emptyArray (fuel depth : Nat) :
    readValue (fuel + 1) depth ('[' :: ']' :: rest) =
      if 1 ≤ depth then some (array [], rest) else none := by
  rw [readValue, skipSpace_of_not_isSpace (by decide)]
  cases depth with
  | zero => rfl
  | succ depth => rfl

/-- An empty object is read where some depth is left. -/
theorem readValue_emptyObject (fuel depth : Nat) :
    readValue (fuel + 1) depth ('\x7b' :: '\x7d' :: rest) =
      if 1 ≤ depth then some (object [], rest) else none := by
  rw [readValue, skipSpace_of_not_isSpace (by decide)]
  cases depth with
  | zero => rfl
  | succ depth => rfl

section Elements

variable {fuel depth : Nat} {fits : Prop} [Decidable fits] {element : Json} {text : List Char}

/-- The last element of an array, in front of its bracket. -/
theorem readElements_last
    (read : readValue fuel depth text = if fits then some (element, ']' :: rest) else none) :
    readElements (fuel + 1) depth text = if fits then some ([element], rest) else none := by
  by_cases holds : fits <;> simp [readElements, read, holds, skipSpace, isSpace]

/-- An element of an array that others follow. -/
theorem readElements_more
    (read : readValue fuel depth text = if fits then some (element, ',' :: rest) else none) :
    readElements (fuel + 1) depth text =
      if fits then
        (readElements fuel depth rest).map fun (elements, rest) => (element :: elements, rest)
      else none := by
  by_cases holds : fits <;> simp [readElements, read, holds, skipSpace, isSpace]

end Elements

section Members

variable {fuel depth : Nat} {fits : Prop} [Decidable fits] {name : String} {value : Json}
  {text : List Char}

/-- What is read of an object from the value of a member on: the value, and other members where a
comma follows it. -/
def readFromValue (fuel depth : Nat) (name : String) (text : List Char) :
    Option (List (String × Json) × List Char) :=
  match readValue fuel depth text with
  | none => none
  | some (value, rest) =>
      match skipSpace rest with
      | ',' :: rest =>
          (readMembers fuel depth rest).map fun (members, rest) => ((name, value) :: members, rest)
      | '\x7d' :: rest => some ([(name, value)], rest)
      | _ => none

/-- A member is read up to its value. -/
theorem readMembers_name (name : String) (fuel depth : Nat) (text : List Char) :
    readMembers (fuel + 1) depth (stringText name ++ ':' :: text) =
      readFromValue fuel depth name text := by
  have shape : stringText name ++ ':' :: text =
      '\x22' :: (name.toList.flatMap escape ++ '\x22' :: ':' :: text) := by
    simp [stringText]
  have colon : skipSpace (':' :: text) = ':' :: text := skipSpace_of_not_isSpace (by decide)
  rw [shape, readMembers, skipSpace_of_not_isSpace (by decide)]
  simp only [readString_flatMap_escape, colon]
  rfl

/-- The last member of an object, in front of its brace. -/
theorem readMembers_last
    (read : readValue fuel depth text = if fits then some (value, '\x7d' :: rest) else none) :
    readMembers (fuel + 1) depth (stringText name ++ ':' :: text) =
      if fits then some ([(name, value)], rest) else none := by
  rw [readMembers_name, readFromValue, read]
  by_cases holds : fits <;> simp [holds, skipSpace, isSpace]

/-- A member of an object that others follow. -/
theorem readMembers_more
    (read : readValue fuel depth text = if fits then some (value, ',' :: rest) else none) :
    readMembers (fuel + 1) depth (stringText name ++ ':' :: text) =
      if fits then
        (readMembers fuel depth rest).map fun (members, rest) => ((name, value) :: members, rest)
      else none := by
  rw [readMembers_name, readFromValue, read]
  by_cases holds : fits <;> simp [holds, skipSpace, isSpace]

end Members

/-- Two things are within a limit when the greater one is. -/
theorem map_within {α β : Type} (first second limit : Nat) (result : α) (next : α → β) :
    (if first ≤ limit then (if second ≤ limit then some result else none).map next else none) =
      if max first second ≤ limit then some (next result) else none := by
  simp only [Nat.max_le]
  by_cases left : first ≤ limit <;> by_cases right : second ≤ limit <;> simp [left, right]

/-- What is nested in something else is within a limit when there is some depth left for it. -/
theorem map_inside {α β : Type} (inner limit : Nat) (result : α) (next : α → β)
    {reads : Nat → Option α}
    (inside : ∀ limit, reads limit = if inner ≤ limit then some result else none) :
    (match limit with
      | 0 => none
      | limit + 1 => (reads limit).map next) =
      if inner + 1 ≤ limit then some (next result) else none := by
  cases limit with
  | zero => rfl
  | succ limit =>
      by_cases fits : inner ≤ limit <;> simp [inside, fits]

/-- The elements of an array up to its bracket. -/
def elementsText (elements : List Json) : List Char := Text.join [','] (compactElements elements)

/-- The members of an object up to its brace. -/
def membersText (members : List (String × Json)) : List Char :=
  Text.join [','] (compactMembers members)

/-- A comma stands between an element and the next. -/
theorem elementsText_cons (element next : Json) (others : List Json) :
    elementsText (element :: next :: others) =
      element.compact ++ ',' :: elementsText (next :: others) := by
  rw [elementsText, compactElements, Text.join_cons (by simp [compactElements]), List.append_assoc]
  rfl

/-- A comma stands between a member and the next. -/
theorem membersText_cons (name : String) (value : Json) (next : String × Json)
    (others : List (String × Json)) :
    membersText ((name, value) :: next :: others) =
      stringText name ++ ':' :: (value.compact ++ ',' :: membersText (next :: others)) := by
  rw [membersText, compactMembers, Text.join_cons (by simp [compactMembers]), List.append_assoc,
    List.append_assoc]
  rfl

/-- The text of the elements of an array does not start with a blank or a bracket. -/
theorem exists_elementsText {element : Json} (elements : List Json) (wordy : element.IsWordy) :
    ∃ first others, elementsText (element :: elements) = first :: others ∧
      isSpace first = false ∧ first ≠ ']' := by
  obtain ⟨first, body, same, noSpace, noBracket⟩ := exists_compact wordy
  cases elements with
  | nil => exact ⟨first, body, same, noSpace, noBracket⟩
  | cons next others =>
      refine ⟨first, body ++ ',' :: elementsText (next :: others), ?_, noSpace, noBracket⟩
      rw [elementsText_cons, same, List.cons_append]

/-- The text of the members of an object starts with a quote. -/
theorem exists_membersText (member : String × Json) (members : List (String × Json)) :
    ∃ others, membersText (member :: members) = '\x22' :: others := by
  obtain ⟨name, value⟩ := member
  cases members with
  | nil => exact ⟨_, rfl⟩
  | cons next others =>
      rw [membersText_cons]
      exact ⟨_, rfl⟩

mutual

/-- The text of a value is read back where the value is nested no deeper than the reader goes, and
refused where it is. -/
theorem readValue_compact : ∀ (value : Json) (fuel depth : Nat) (rest : List Char),
    value.IsWordy → 2 * value.compact.length ≤ fuel →
    readValue fuel depth (value.compact ++ rest) =
      if value.nesting ≤ depth then some (value, rest) else none
  | null, fuel, depth, rest, _, enough => by
      obtain ⟨steps, rfl⟩ := Nat.exists_eq_add_of_le' (Nat.le_trans (by decide : 1 ≤ 8) enough)
      exact (readValue_null steps depth).trans (if_pos (Nat.zero_le depth)).symm
  | bool value, fuel, depth, rest, _, enough => by
      have proper : 1 ≤ fuel := Nat.le_trans (by cases value <;> decide) enough
      obtain ⟨steps, rfl⟩ := Nat.exists_eq_add_of_le' proper
      exact (readValue_bool value steps depth).trans (if_pos (Nat.zero_le depth)).symm
  | string text, fuel, depth, rest, _, enough => by
      have proper : 1 ≤ fuel := Nat.le_trans (by simp [compact, stringText]; omega) enough
      obtain ⟨steps, rfl⟩ := Nat.exists_eq_add_of_le' proper
      exact (readValue_stringText text steps depth).trans (if_pos (Nat.zero_le depth)).symm
  | array [], fuel, depth, rest, wordy, enough => by
      obtain ⟨steps, rfl⟩ := Nat.exists_eq_add_of_le' (Nat.le_trans (by decide : 1 ≤ 4) enough)
      exact readValue_emptyArray steps depth
  | array (element :: elements), fuel, depth, rest, wordy, enough => by
      have shape : (array (element :: elements)).compact =
          '[' :: (elementsText (element :: elements) ++ [']']) := rfl
      obtain ⟨first, others, same, noSpace, noBracket⟩ := exists_elementsText elements wordy.1
      rw [shape, List.length_cons, List.length_append] at enough
      obtain ⟨steps, rfl⟩ := Nat.exists_eq_add_of_le' (Nat.le_trans (by omega : 1 ≤ _) enough)
      have inside (depth : Nat) := readElements_compact (element :: elements) steps depth rest
        (by simp) wordy (by omega)
      rw [shape, List.cons_append, List.append_assoc, List.singleton_append]
      rw [same, List.cons_append] at inside ⊢
      exact (readValue_bracket noSpace noBracket steps depth).trans (map_inside _ _ _ _ inside)
  | object [], fuel, depth, rest, wordy, enough => by
      obtain ⟨steps, rfl⟩ := Nat.exists_eq_add_of_le' (Nat.le_trans (by decide : 1 ≤ 4) enough)
      exact readValue_emptyObject steps depth
  | object (member :: members), fuel, depth, rest, wordy, enough => by
      have shape : (object (member :: members)).compact =
          '\x7b' :: (membersText (member :: members) ++ ['\x7d']) := rfl
      obtain ⟨others, same⟩ := exists_membersText member members
      rw [shape, List.length_cons, List.length_append] at enough
      obtain ⟨steps, rfl⟩ := Nat.exists_eq_add_of_le' (Nat.le_trans (by omega : 1 ≤ _) enough)
      have inside (depth : Nat) := readMembers_compact (member :: members) steps depth rest
        (by simp) wordy (by omega)
      rw [shape, List.cons_append, List.append_assoc, List.singleton_append]
      rw [same, List.cons_append] at inside ⊢
      exact (readValue_brace (by decide) (by decide) steps depth).trans (map_inside _ _ _ _ inside)

/-- Elements are read back up to the bracket that closes them, as deep as the reader goes. -/
theorem readElements_compact : ∀ (elements : List Json) (fuel depth : Nat) (rest : List Char),
    elements ≠ [] → AreWordy elements → 2 * (elementsText elements).length + 1 ≤ fuel →
    readElements fuel depth (elementsText elements ++ ']' :: rest) =
      if elementsNesting elements ≤ depth then some (elements, rest) else none
  | [], _, _, _, proper, _, _ => absurd rfl proper
  | [element], fuel, depth, rest, _, wordy, enough => by
      obtain ⟨steps, rfl⟩ := Nat.exists_eq_add_of_le' (Nat.le_of_add_left_le enough)
      have length : (elementsText [element]).length = element.compact.length := rfl
      have read := readValue_compact element steps depth (']' :: rest) wordy.1 (by omega)
      rw [elementsNesting, elementsNesting, Nat.max_zero]
      exact readElements_last read
  | element :: next :: others, fuel, depth, rest, _, wordy, enough => by
      obtain ⟨steps, rfl⟩ := Nat.exists_eq_add_of_le' (Nat.le_of_add_left_le enough)
      rw [elementsText_cons] at enough ⊢
      simp only [List.length_append, List.length_cons] at enough
      have read := readValue_compact element steps depth
        (',' :: (elementsText (next :: others) ++ ']' :: rest)) wordy.1 (by omega)
      have later := readElements_compact (next :: others) steps depth rest (by simp) wordy.2
        (by omega)
      rw [List.append_assoc, List.cons_append, readElements_more read, later]
      exact map_within _ _ _ _ _

/-- Members are read back up to the brace that closes them, as deep as the reader goes. -/
theorem readMembers_compact : ∀ (members : List (String × Json)) (fuel depth : Nat)
    (rest : List Char), members ≠ [] → HasWordyMembers members →
    2 * (membersText members).length + 1 ≤ fuel →
    readMembers fuel depth (membersText members ++ '\x7d' :: rest) =
      if membersNesting members ≤ depth then some (members, rest) else none
  | [], _, _, _, proper, _, _ => absurd rfl proper
  | [(name, value)], fuel, depth, rest, _, wordy, enough => by
      obtain ⟨steps, rfl⟩ := Nat.exists_eq_add_of_le' (Nat.le_of_add_left_le enough)
      have shape : membersText [(name, value)] = stringText name ++ ':' :: value.compact := rfl
      rw [shape] at enough ⊢
      simp only [List.length_append, List.length_cons] at enough
      have read := readValue_compact value steps depth ('\x7d' :: rest) wordy.1 (by omega)
      rw [membersNesting, membersNesting, Nat.max_zero, List.append_assoc, List.cons_append]
      exact readMembers_last read
  | (name, value) :: next :: others, fuel, depth, rest, _, wordy, enough => by
      obtain ⟨steps, rfl⟩ := Nat.exists_eq_add_of_le' (Nat.le_of_add_left_le enough)
      rw [membersText_cons] at enough ⊢
      simp only [List.length_append, List.length_cons] at enough
      have read := readValue_compact value steps depth
        (',' :: (membersText (next :: others) ++ '\x7d' :: rest)) wordy.1 (by omega)
      have later := readMembers_compact (next :: others) steps depth rest (by simp) wordy.2
        (by omega)
      rw [List.append_assoc, List.cons_append, List.append_assoc, List.cons_append,
        readMembers_more read, later]
      exact map_within _ _ _ _ _

end

/-- The compact text of a wordy value is read back as the value, unless arrays and objects are
nested too deep in it. -/
theorem parse?_render {value : Json} (wordy : value.IsWordy) :
    parse? value.render = if value.nesting ≤ nestingLimit then some value else none := by
  have read := readValue_compact value (2 * value.compact.length + 2) nestingLimit [] wordy
    (Nat.le_add_right _ _)
  rw [List.append_nil] at read
  unfold parse? render
  rw [String.toList_ofList]
  dsimp only
  rw [read]
  by_cases fits : value.nesting ≤ nestingLimit
  · simp [fits, skipSpace]
  · simp [fits]

end Values

end SchemaBeans.Json

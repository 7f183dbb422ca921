import Mathlib.Data.List.Basic
import SchemaBeans.Proofs.QuotedStrings

/-!
# Texts of values

Strings, numbers, truth values and lists of strings are written in such a way that
each is read back at the end of a line. A number is written by its digits, of which
the first is no needless zero.
-/

namespace SchemaBeans.Toml

section Numbers

/-- A number above zero does not start with a zero. -/
theorem head?_toDigits {number : Nat} (positive : 0 < number) :
    (Nat.toDigits 10 number).head? ≠ some '0' := by
  induction number using Nat.strongRecOn with
  | ind number hypothesis =>
      by_cases small : number < 10
      · rw [Nat.toDigits_of_lt_base small, List.head?_cons]
        intro same
        have zero := Nat.digitChar_eq_zero.mp (Option.some.inj same)
        omega
      · have front := hypothesis (number / 10) (by omega) (by omega)
        rw [Nat.toDigits_of_base_le (by decide) (by omega)]
        cases digits : Nat.toDigits 10 (number / 10) with
        | nil => exact absurd digits Nat.toDigits_ne_nil
        | cons first rest =>
            rw [digits] at front
            exact front

/-- The digits of a number have no needless zero. -/
theorem hasNeedlessZero_toDigits (number : Nat) :
    hasNeedlessZero (Nat.toDigits 10 number) = false := by
  rcases Nat.eq_zero_or_pos number with rfl | positive
  · decide
  · have first := head?_toDigits positive
    unfold hasNeedlessZero
    split
    · next same =>
        rw [same] at first
        exact absurd rfl first
    · rfl

/-- The digits of a number. -/
theorem isDigit_of_mem_toDigits {number : Nat} :
    ∀ digit ∈ Nat.toDigits 10 number, digit.isDigit = true :=
  fun _ inside => Nat.isDigit_of_mem_toDigits (by decide) (by decide) inside

/-- The codes of the decimal digits lie between those of zero and nine. -/
theorem toNat_of_isDigit {digit : Char} (decimal : digit.isDigit = true) :
    48 ≤ digit.toNat ∧ digit.toNat ≤ 57 := by
  simp only [Char.isDigit, Bool.and_eq_true, decide_eq_true_iff] at decimal
  exact ⟨UInt32.le_iff_toNat_le.mp decimal.1, UInt32.le_iff_toNat_le.mp decimal.2⟩

/-- A decimal digit has the value that it stands for. -/
theorem digitValue?_of_isDigit {digit : Char} (decimal : digit.isDigit = true) :
    Text.digitValue? 10 digit = some (digit.toNat - 48) := by
  have bound : digit.toNat - 48 < 10 := by
    have range := toNat_of_isDigit decimal
    omega
  simp [Text.digitValue?, Text.hexValue?, decimal, bound]

/-- The digits of a number are read back as the number. -/
theorem natural?_toDigits (number : Nat) : natural? 10 (Nat.toDigits 10 number) = some number := by
  have decimal := @isDigit_of_mem_toDigits number
  have bare : bareDigits? 10 (Nat.toDigits 10 number) = some (Nat.toDigits 10 number) := by
    have each : (Nat.toDigits 10 number).all (fun digit => (Text.digitValue? 10 digit).isSome) := by
      refine List.all_eq_true.mpr fun digit inside => ?_
      rw [digitValue?_of_isDigit (decimal digit inside)]
      rfl
    unfold bareDigits?
    rw [Text.split_eq_singleton Nat.underscore_not_in_toDigits]
    simp [each, Nat.toDigits_ne_nil]
  have value : numberOf 10 (Nat.toDigits 10 number) =
      Nat.ofDigitChars 10 (Nat.toDigits 10 number) 0 := by
    rw [Nat.ofDigitChars_eq_foldl]
    refine List.foldl_ext _ _ _ fun sum digit inside => ?_
    rw [digitValue?_of_isDigit (decimal digit inside), Nat.mul_comm]
    rfl
  rw [natural?, bare, Option.map_some, value, Nat.ofDigitChars_ten_toDigits]

/-- A text of digits has no sign and no mark of a base. -/
theorem integer?_of_isDigit {digits : List Char} (decimal : ∀ digit ∈ digits, digit.isDigit = true)
    (noZero : hasNeedlessZero digits = false) :
    integer? digits = (natural? 10 digits).map fun value => (value : Int) := by
  unfold integer?
  split
  · exact absurd (decimal 'x' (by simp)) (by decide)
  · exact absurd (decimal 'o' (by simp)) (by decide)
  · exact absurd (decimal 'b' (by simp)) (by decide)
  · have sign : splitSign digits = (false, digits) := by
      unfold splitSign
      split
      · exact absurd (decimal '+' (by simp)) (by decide)
      · exact absurd (decimal '-' (by simp)) (by decide)
      · rfl
    rw [sign]
    simp [noZero]

/-- The digits of a number mean the integer. -/
theorem scalar?_toDigits (number : Nat) :
    scalar? (Nat.toDigits 10 number) = some (.integer number) := by
  have decimal := @isDigit_of_mem_toDigits number
  have other {word : List Char} (letter : word.all Char.isDigit = false) :
      Nat.toDigits 10 number ≠ word := by
    rintro same
    rw [← same, List.all_eq_true.mpr decimal] at letter
    cases letter
  unfold scalar?
  rw [if_neg (other (by decide)), if_neg (other (by decide)),
    integer?_of_isDigit decimal (hasNeedlessZero_toDigits number), natural?_toDigits]
  rfl

/-- A text without a minus is no date. -/
theorem afterDate?_eq_none {text : List Char} (plain : '-' ∉ text) : afterDate? text = none := by
  unfold afterDate?
  cases year : fixedDigits? 4 text with
  | none => rfl
  | some found =>
      have rest : found.2 = text.drop 4 := by
        unfold fixedDigits? at year
        dsimp only at year
        split at year
        · cases year
          rfl
        · cases year
      have month : after? '-' found.2 = none := by
        rw [rest]
        unfold after?
        split
        · next first others same =>
            have different : first ≠ '-' := by
              rintro rfl
              exact plain (List.mem_of_mem_drop (same ▸ List.mem_cons_self))
            rw [if_neg different]
        · rfl
      simp [month]

/-- A word that is no date is read as a scalar up to the end of its line. -/
theorem readScalar_line {word rest : List Char} {value : Value}
    (whole : ∀ character ∈ word, isScalarCharacter character = true) (plain : '-' ∉ word)
    (means : scalar? word = some value) :
    readScalar (word ++ '\n' :: rest) = some (value, '\n' :: rest) := by
  have taken : (word ++ '\n' :: rest).takeWhile isScalarCharacter = word := by
    rw [List.takeWhile_append_of_pos whole]
    simp [isScalarCharacter]
  have dropped : (word ++ '\n' :: rest).dropWhile isScalarCharacter = '\n' :: rest := by
    rw [List.dropWhile_append_of_pos whole]
    simp [isScalarCharacter]
  simp only [readScalar, taken, dropped, afterDate?_eq_none plain, means]
  rfl

end Numbers

section Skipping

/-- A character that neither is skipped in front of a line nor ends one. -/
structure Visible (character : Char) : Prop where
  noWhite : isWhite character = false
  noComment : character ≠ '#'
  noFeed : character ≠ '\n'
  noReturn : character ≠ '\r'

instance (character : Char) : Decidable (Visible character) :=
  decidable_of_iff (isWhite character = false ∧ character ≠ '#' ∧ character ≠ '\n' ∧
    character ≠ '\r') ⟨fun ⟨white, comment, feed, carriage⟩ => ⟨white, comment, feed, carriage⟩,
    fun visible => ⟨visible.1, visible.2, visible.3, visible.4⟩⟩

variable {first : Char} {rest : List Char}

/-- No white space is skipped where there is none. -/
theorem skipWhite_of_visible (noWhite : isWhite first = false) :
    skipWhite (first :: rest) = first :: rest := by
  simp [skipWhite, noWhite]

/-- No comment is skipped where none starts. -/
theorem skipComment?_of_visible (noComment : first ≠ '#') :
    skipComment? (first :: rest) = some (first :: rest) := by
  unfold skipComment?
  split
  · next same => exact absurd (List.cons.inj same).1 noComment
  · rfl

/-- A visible character is no break of a line. -/
theorem breakWidth_of_visible (visible : Visible first) : breakWidth (first :: rest) = 0 :=
  breakWidth_eq_zero (by simpa using visible.noFeed) (by simpa using visible.noReturn)

/-- Nothing is skipped in front of a visible character. -/
theorem skipLines?_of_visible (visible : Visible first) (fuel : Nat) :
    skipLines? (fuel + 1) (first :: rest) = some (first :: rest) := by
  rw [skipLines?, skipWhite_of_visible visible.noWhite, skipComment?_of_visible visible.noComment]
  simp [breakWidth_of_visible visible]

/-- An empty line is skipped. -/
theorem skipLines?_feed (fuel : Nat) :
    skipLines? (fuel + 1) ('\n' :: rest) = skipLines? fuel rest := by
  rw [skipLines?, skipWhite_of_visible (by decide), skipComment?_of_visible (by decide)]
  simp [breakWidth]

/-- Blanks in front of a visible character are skipped. -/
theorem skipLines?_indented {indent : List Char} (white : ∀ blank ∈ indent, isWhite blank = true)
    (visible : Visible first) (fuel : Nat) :
    skipLines? (fuel + 1) (indent ++ first :: rest) = some (first :: rest) := by
  have skipped : skipWhite (indent ++ first :: rest) = first :: rest := by
    rw [skipWhite, List.dropWhile_append_of_pos white]
    exact skipWhite_of_visible visible.noWhite
  rw [skipLines?, skipped, skipComment?_of_visible visible.noComment]
  simp [breakWidth_of_visible visible]

/-- The characters of a scalar without quotes are visible. -/
theorem visible_of_isScalarCharacter (letter : isScalarCharacter first = true) : Visible first := by
  constructor
  · rw [isWhite, Bool.or_eq_false_iff, decide_eq_false_iff_not, decide_eq_false_iff_not]
    constructor
    all_goals
      rintro rfl
      exact absurd letter (by decide)
  all_goals
    rintro rfl
    exact absurd letter (by decide)

end Skipping

section Values

variable {text rest : List Char} {value : Value} {first : Char}

/-- A string starts with a quote. -/
theorem exists_stringText (text : String) :
    ∃ quote rest, (stringText text).toList = quote :: rest ∧ (quote = '\x22' ∨ quote = '\x27') := by
  rw [stringText, String.toList_ofList]
  cases (StringTraits.of text.toList).form with
  | basic | multiBasic => exact ⟨'\x22', _, rfl, .inl rfl⟩
  | literal | multiLiteral => exact ⟨'\x27', _, rfl, .inr rfl⟩

/-- A quote is visible. -/
theorem visible_of_quote {quote : Char} (quoted : quote = '\x22' ∨ quote = '\x27') :
    Visible quote := by
  rcases quoted with rfl | rfl
  · decide
  · decide

/-- A mark that no string takes for one of its quotes. -/
structure Ends (text : List Char) : Prop where
  double : NoQuote '\x22' text
  single : NoQuote '\x27' text

/-- A string is read back as a value. -/
theorem readValue_stringText (text : String) (ends : Ends rest) (fuel depth : Nat) :
    readValue (fuel + 1) depth ((stringText text).toList ++ rest) = some (.string text, rest) := by
  have reads := readString_stringText text ends.double ends.single
  obtain ⟨quote, body, same, double | single⟩ := exists_stringText text
  · subst double
    rw [same, List.cons_append] at reads ⊢
    rw [readValue, reads]
    rfl
  · subst single
    rw [same, List.cons_append] at reads ⊢
    rw [readValue, reads]
    rfl

/-- A character that starts a scalar without quotes. -/
theorem readValue_readScalar (letter : isScalarCharacter first = true) (fuel depth : Nat) :
    readValue (fuel + 1) depth (first :: rest) = readScalar (first :: rest) := by
  rw [readValue]
  all_goals
    rintro other same
    cases same
    exact absurd letter (by decide)

/-- The text of a value at the end of a line. -/
structure IsValueText (text : List Char) (value : Value) : Prop where
  start : ∃ first rest, text = first :: rest ∧ Visible first
  reads : ∀ fuel rest, text.length < fuel →
    readValue fuel nestingLimit (text ++ '\n' :: rest) = some (value, '\n' :: rest)

/-- The text of a string is the text of a value. -/
theorem isValueText_string (text : String) :
    IsValueText (stringText text).toList (.string text) := by
  constructor
  · obtain ⟨quote, rest, same, quoted⟩ := exists_stringText text
    exact ⟨quote, rest, same, visible_of_quote quoted⟩
  · intro fuel rest long
    obtain ⟨steps, rfl⟩ : ∃ steps, fuel = steps + 1 := ⟨fuel - 1, by omega⟩
    exact readValue_stringText text ⟨by simp [NoQuote], by simp [NoQuote]⟩ steps nestingLimit

/-- A word that is no date is the text of the scalar that it means. -/
theorem isValueText_scalar {word : List Char} (proper : word ≠ [])
    (whole : ∀ character ∈ word, isScalarCharacter character = true) (plain : '-' ∉ word)
    (means : scalar? word = some value) : IsValueText word value := by
  obtain ⟨first, others, rfl⟩ := List.exists_cons_of_ne_nil proper
  have letter := whole first List.mem_cons_self
  constructor
  · exact ⟨first, others, rfl, visible_of_isScalarCharacter letter⟩
  · intro fuel rest long
    obtain ⟨steps, rfl⟩ : ∃ steps, fuel = steps + 1 := ⟨fuel - 1, by omega⟩
    rw [List.cons_append, readValue_readScalar letter, ← List.cons_append]
    exact readScalar_line whole plain means

/-- The word for a truth value is the text of this value. -/
theorem isValueText_bool (value : Bool) : IsValueText (boolText value).toList (.bool value) := by
  cases value with
  | false =>
      have whole : (boolText false).toList.all isScalarCharacter = true := by decide
      exact isValueText_scalar (by decide) (List.all_eq_true.mp whole) (by decide) rfl
  | true =>
      have whole : (boolText true).toList.all isScalarCharacter = true := by decide
      exact isValueText_scalar (by decide) (List.all_eq_true.mp whole) (by decide) rfl

/-- The digits of a number are the text of this number. -/
theorem isValueText_natural (number : Nat) :
    IsValueText (toString number).toList (.integer number) := by
  rw [Nat.toString_eq_ofList_toDigits, String.toList_ofList]
  refine isValueText_scalar Nat.toDigits_ne_nil (fun digit inside => ?_) ?_
    (scalar?_toDigits number)
  · have decimal := isDigit_of_mem_toDigits digit inside
    simp [isScalarCharacter, Char.isAlphanum, decimal]
  · intro inside
    exact absurd (isDigit_of_mem_toDigits _ inside) (by decide)

end Values

section Arrays

variable {text rest : List Char}

/-- An array ends at its bracket, which may stand on a line of its own. -/
theorem readItems_bracket (fuel depth : Nat) :
    readItems (fuel + 1) depth (']' :: rest) = some ([], rest) := by
  rw [readItems, skipLines?_of_visible (by decide)]
  rfl

/-- An array ends at a bracket on a line of its own. -/
theorem readItems_feed_bracket (fuel depth : Nat) :
    readItems (fuel + 1) depth ('\n' :: ']' :: rest) = some ([], rest) := by
  have skipped : skipLines? (('\n' :: ']' :: rest).length + 1) ('\n' :: ']' :: rest) =
      some (']' :: rest) := by
    rw [skipLines?_feed]
    exact skipLines?_of_visible (by decide) _
  rw [readItems, skipped]
  rfl

/-- A string is read where it stands in an array, and what follows is read after it. -/
theorem readItems_stringText {after : List Char} {mark : Char} (text : String)
    (skipped : skipLines? (after.length + 1) after =
      some ((stringText text).toList ++ mark :: rest))
    (visible : Visible mark) (noDouble : mark ≠ '\x22') (noSingle : mark ≠ '\x27')
    (fuel depth : Nat) :
    readItems (fuel + 2) depth after =
      if mark = ']' then some ([.string text], rest)
      else if mark = ',' then
        (readItems (fuel + 1) depth rest).map fun (items, rest) => (.string text :: items, rest)
      else none := by
  have ends : Ends (mark :: rest) :=
    ⟨by simpa [NoQuote] using noDouble, by simpa [NoQuote] using noSingle⟩
  have value := readValue_stringText text ends fuel depth
  obtain ⟨quote, others, same, quoted⟩ := exists_stringText text
  rw [same, List.cons_append] at skipped value
  have noBracket : quote ≠ ']' := by
    rcases quoted with rfl | rfl
    · decide
    · decide
  rw [readItems, skipped]
  split
  · next none => cases none
  · next bracket => exact absurd (List.cons.inj (Option.some.inj bracket)).1 noBracket
  · next found =>
      cases found
      rw [value]
      dsimp only
      rw [skipLines?_of_visible visible]
      split
      · next last =>
          cases last
          rfl
      · next more =>
          cases more
          rfl
      · next noBracket noComma =>
          have proper : mark ≠ ']' := by
            rintro rfl
            exact noBracket _ rfl
          have separate : mark ≠ ',' := by
            rintro rfl
            exact noComma _ rfl
          rw [if_neg proper, if_neg separate]

/-- An item stands on a line of its own, behind blanks. -/
theorem skipLines?_item (text : String) (fuel : Nat) :
    skipLines? (fuel + 2) ('\n' :: ("    ".toList ++ ((stringText text).toList ++ rest))) =
      some ((stringText text).toList ++ rest) := by
  obtain ⟨quote, others, same, quoted⟩ := exists_stringText text
  have white : "    ".toList.all isWhite = true := by decide
  rw [same, List.cons_append, skipLines?_feed]
  exact skipLines?_indented (List.all_eq_true.mp white) (visible_of_quote quoted) _

/-- An item on a line of its own is read, and the items behind its comma after it. -/
theorem readItems_item (text : String) (fuel depth : Nat) :
    readItems (fuel + 2) depth
        ('\n' :: ("    ".toList ++ ((stringText text).toList ++ ',' :: rest))) =
      (readItems (fuel + 1) depth rest).map fun (items, rest) => (.string text :: items, rest) := by
  obtain ⟨after, shape⟩ : ∃ after,
      after = '\n' :: ("    ".toList ++ ((stringText text).toList ++ ',' :: rest)) := ⟨_, rfl⟩
  have skipped : skipLines? (after.length + 1) after =
      some ((stringText text).toList ++ ',' :: rest) := by
    rw [shape]
    exact skipLines?_item text _
  rw [← shape, readItems_stringText text skipped (by decide) (by decide) (by decide),
    if_neg (by decide), if_pos rfl]

/-- The items of an array with a line for each. -/
def itemLines (texts : List String) : List Char :=
  texts.flatMap fun text => '\n' :: ("    ".toList ++ ((stringText text).toList ++ [',']))

/-- The line of the first item comes before those of the others. -/
theorem itemLines_cons_append (text : String) (texts : List String) (rest : List Char) :
    itemLines (text :: texts) ++ rest =
      '\n' :: ("    ".toList ++
        ((stringText text).toList ++ ',' :: (itemLines texts ++ rest))) := by
  simp [itemLines]

/-- The items of an array are read where each has a line of its own. -/
theorem readItems_itemLines (texts : List String) (fuel depth : Nat) :
    readItems (texts.length + fuel + 1) depth (itemLines texts ++ '\n' :: ']' :: rest) =
      some (texts.map .string, rest) := by
  induction texts with
  | nil => exact readItems_feed_bracket _ depth
  | cons text texts hypothesis =>
      have steps : (text :: texts).length + fuel + 1 = texts.length + fuel + 2 := by
        rw [List.length_cons]
        omega
      rw [steps, itemLines_cons_append, readItems_item, hypothesis]
      rfl

/-- Lines that end with a break are lines that start with one, but for the first and the last. -/
theorem toList_stringsText (first second : String) (others : List String) :
    (stringsText (first :: second :: others)).toList =
      '[' :: (itemLines (first :: second :: others) ++ ['\n', ']']) := by
  have moved (texts : List String) :
      '\n' :: (String.join (texts.map fun text => "    " ++ stringText text ++ ",\n")).toList =
        itemLines texts ++ ['\n'] := by
    induction texts with
    | nil => rfl
    | cons text texts hypothesis =>
        rw [itemLines_cons_append, ← hypothesis]
        simp
  calc (stringsText (first :: second :: others)).toList
      = '[' :: ('\n' :: (String.join ((first :: second :: others).map fun text =>
          "    " ++ stringText text ++ ",\n")).toList ++ [']']) := by
        simp only [stringsText, String.toList_append]
        rfl
    _ = '[' :: (itemLines (first :: second :: others) ++ ['\n', ']']) := by
        rw [moved]
        simp

/-- A bracket opens an array. -/
theorem readValue_bracket (fuel depth : Nat) :
    readValue (fuel + 1) (depth + 1) ('[' :: rest) =
      (readItems fuel depth rest).map fun (items, rest) => (.array items false, rest) := by
  rw [readValue]

/-- An array of strings is read after its opening bracket. -/
theorem exists_readItems (texts : List String) :
    ∃ body, (stringsText texts).toList = '[' :: body ∧
      ∀ fuel depth rest, body.length ≤ fuel →
        readItems fuel depth (body ++ rest) = some (texts.map .string, rest) := by
  match texts with
  | [] =>
      refine ⟨[']'], rfl, fun fuel depth rest long => ?_⟩
      obtain ⟨steps, rfl⟩ := Nat.exists_eq_add_of_le long
      rw [Nat.add_comm]
      exact readItems_bracket steps depth
  | [only] =>
      obtain ⟨quote, others, same, quoted⟩ := exists_stringText only
      refine ⟨(stringText only).toList ++ [']'], ?_, fun fuel depth rest long => ?_⟩
      · simp only [stringsText, String.toList_append]
        rfl
      · have two : 2 ≤ ((stringText only).toList ++ [']']).length := by simp [same]
        obtain ⟨steps, rfl⟩ := Nat.exists_eq_add_of_le (Nat.le_trans two long)
        have skipped : skipLines? (((stringText only).toList ++ ']' :: rest).length + 1)
            ((stringText only).toList ++ ']' :: rest) =
              some ((stringText only).toList ++ ']' :: rest) := by
          rw [same]
          exact skipLines?_of_visible (visible_of_quote quoted) _
        rw [Nat.add_comm, List.append_assoc, List.singleton_append,
          readItems_stringText only skipped (by decide) (by decide) (by decide), if_pos rfl]
        rfl
  | first :: second :: others =>
      refine ⟨_, toList_stringsText first second others, fun fuel depth rest long => ?_⟩
      have items : (first :: second :: others).length ≤
          (itemLines (first :: second :: others)).length :=
        Text.length_le_length_flatMap (fun _ => List.cons_ne_nil _ _) _
      have enough : (first :: second :: others).length + 1 ≤ fuel := by
        rw [List.length_append] at long
        exact Nat.le_trans (Nat.add_le_add items (by decide)) long
      obtain ⟨steps, rfl⟩ := Nat.exists_eq_add_of_le enough
      rw [List.append_assoc, Nat.add_right_comm]
      exact readItems_itemLines _ steps depth

/-- The text of some strings is the text of their array, whether on one line or on several. -/
theorem isValueText_strings (texts : List String) :
    IsValueText (stringsText texts).toList (.array (texts.map .string) false) := by
  obtain ⟨body, same, reads⟩ := exists_readItems texts
  constructor
  · exact ⟨'[', body, same, by decide⟩
  · intro fuel rest long
    rw [same, List.length_cons] at long
    obtain ⟨steps, rfl⟩ : ∃ steps, fuel = steps + 1 := ⟨fuel - 1, by omega⟩
    have items := reads steps 79 ('\n' :: rest) (by omega)
    rw [same, List.cons_append, nestingLimit, readValue_bracket, items]
    rfl

end Arrays

end SchemaBeans.Toml

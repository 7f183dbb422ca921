import SchemaBeans.Toml.Reader
import SchemaBeans.Toml.Writer

/-!
# Strings that are written and read back

A string is written in one of four forms, which depends on the quotes, breaks and
controls in it. Each form is read back as the string, as long as no quote follows
it. Between three quotes up to two quotes stand for themselves; where the text ends
with such quotes they are read together with the closing ones.
-/

namespace SchemaBeans.Toml

/-- A text does not go on with a quote. -/
def NoQuote (quote : Char) (text : List Char) : Prop := text.head? ≠ some quote

section Runs

variable {quote : Char} {text rest : List Char}

theorem quoteRun_cons_self : quoteRun quote (quote :: text) = quoteRun quote text + 1 := by
  simp [quoteRun]

/-- A text that does not go on with a quote starts with none. -/
theorem quoteRun_eq_zero (different : NoQuote quote text) : quoteRun quote text = 0 := by
  cases text with
  | nil => rfl
  | cons character text =>
      have other : character ≠ quote := fun same => different (by rw [same, List.head?_cons])
      simp [quoteRun, other]

/-- Quotes in front of something else are counted exactly. -/
theorem quoteRun_replicate (count : Nat) (different : NoQuote quote rest) :
    quoteRun quote (List.replicate count quote ++ rest) = count := by
  induction count with
  | zero => exact quoteRun_eq_zero different
  | succ count hypothesis =>
      rw [List.replicate_succ, List.cons_append, quoteRun_cons_self, hypothesis]

end Runs

section Escapes

/-- A hexadecimal digit is read back as the number that it was written for. -/
theorem hexValue?_upperDigit {digit : Nat} (small : digit < 16) :
    Text.hexValue? (upperDigit digit) = some digit := by
  have all : ∀ digit : Fin 16, Text.hexValue? (upperDigit digit) = some digit.val := by decide
  exact all ⟨digit, small⟩

/-- The code of a character stands for this character. -/
theorem codePoint?_toNat (character : Char) : Text.codePoint? character.toNat = some character := by
  have valid : character.toNat < 0xD800 ∨ 0xDFFF < character.toNat ∧ character.toNat < 0x110000 :=
    character.valid
  unfold Text.codePoint?
  rw [if_neg (by simp; omega), Char.ofNat_toNat]

variable {multi : Bool} {character : Char} {rest text : List Char}

/-- What needs no escape can be printed as it is, unless it is a line feed. -/
theorem isPrintable_of_plain (plain : needsEscape character = false) (noFeed : character ≠ '\n') :
    isPrintable character = true := by
  unfold needsEscape at plain
  unfold isPrintable
  by_cases tab : character = '\t'
  · simp [tab]
  · simp [tab, noFeed] at plain ⊢
    omega

/-- A character that stands for itself is read as such. -/
theorem readBasic_plain (plain : isStringCharacter multi character rest = true)
    (noQuote : character ≠ '\x22') (noBackslash : character ≠ '\\') :
    readBasic multi (character :: rest) .text text =
      readBasic multi rest .text (character :: text) := by
  rw [readBasic] <;> simp [noQuote, noBackslash, plain]

/-- A backslash starts an escape. -/
theorem readBasic_backslash :
    readBasic multi ('\\' :: rest) .text text = readBasic multi rest .escape text := by
  rw [readBasic] <;> simp

/-- What is read after a backslash as a short escape. -/
theorem readBasic_short (mark : Char) (escape : shortEscape? mark = some character)
    (noBlank : isWhite mark = false) (noFeed : mark ≠ '\n') (noReturn : mark ≠ '\r') :
    readBasic multi ('\\' :: mark :: rest) .text text =
      readBasic multi rest .text (character :: text) := by
  rw [readBasic_backslash, readBasic]
  simp [escape, noBlank, noFeed, noReturn]

/-- A digit of a code point is taken to the value, and more digits are awaited. -/
theorem readBasic_digit {left value digit : Nat} (hex : Text.hexValue? character = some digit)
    (more : 1 < left) :
    readBasic multi (character :: rest) (.code left value) text =
      readBasic multi rest (.code (left - 1) (value * 16 + digit)) text := by
  rw [readBasic, hex]
  simp [Nat.not_le.mpr more]

/-- The last digit of a code point completes the character. -/
theorem readBasic_lastDigit {value digit : Nat} {decoded : Char}
    (hex : Text.hexValue? character = some digit)
    (code : Text.codePoint? (value * 16 + digit) = some decoded) :
    readBasic multi (character :: rest) (.code 1 value) text =
      readBasic multi rest .text (decoded :: text) := by
  rw [readBasic, hex]
  simp [code]

/-- A code point below 256 is read back from its last two digits. -/
theorem readBasic_code (small : character.toNat < 256) :
    readBasic multi ('\\' :: 'u' :: '0' :: '0' :: upperDigit (character.toNat / 16) ::
        upperDigit (character.toNat % 16) :: rest) .text text =
      readBasic multi rest .text (character :: text) := by
  have unicode (rest : List Char) :
      readBasic multi ('u' :: rest) .escape text = readBasic multi rest (.code 4 0) text := by
    rw [readBasic]
    simp [isWhite, shortEscape?, escapeDigits?]
  have high : Text.hexValue? (upperDigit (character.toNat / 16)) = some (character.toNat / 16) :=
    hexValue?_upperDigit (by omega)
  have low : Text.hexValue? (upperDigit (character.toNat % 16)) = some (character.toNat % 16) :=
    hexValue?_upperDigit (by omega)
  have zero : Text.hexValue? '0' = some 0 := by decide
  have whole : (((0 * 16 + 0) * 16 + 0) * 16 + character.toNat / 16) * 16 + character.toNat % 16 =
      character.toNat := by omega
  have code := codePoint?_toNat character
  rw [← whole] at code
  rw [readBasic_backslash, unicode, readBasic_digit zero (by decide),
    readBasic_digit zero (by decide), readBasic_digit high (by decide),
    readBasic_lastDigit low code]

/-- A character of a basic string is read back, whatever its escape. -/
theorem readBasic_basicCharacter (noQuote : character ≠ '\x22') (noFeed : character ≠ '\n') :
    readBasic multi (basicCharacter character ++ rest) .text text =
      readBasic multi rest .text (character :: text) := by
  unfold basicCharacter
  split
  · exact readBasic_short 'b' rfl (by decide) (by decide) (by decide)
  · exact readBasic_short 't' rfl (by decide) (by decide) (by decide)
  · exact readBasic_short 'f' rfl (by decide) (by decide) (by decide)
  · exact readBasic_short 'r' rfl (by decide) (by decide) (by decide)
  · exact readBasic_short '\\' rfl (by decide) (by decide) (by decide)
  · next noTab _ _ noBackslash =>
      split
      · next escape =>
          refine readBasic_code ?_
          simp only [needsEscape, Bool.and_eq_true, Bool.or_eq_true, decide_eq_true_iff] at escape
          omega
      · next plain =>
          have printable := isPrintable_of_plain (eq_false_of_ne_true plain) noFeed
          exact readBasic_plain (by simp [isStringCharacter, printable]) noQuote noBackslash

end Escapes

section Bodies

variable {text acc rest tail : List Char} {quotes : Nat}

/-- What is written for a character other than a quote does not start with one. -/
theorem noQuote_basicCharacter {character : Char} (different : character ≠ '\x22') :
    NoQuote '\x22' (basicCharacter character ++ rest) := by
  unfold basicCharacter NoQuote
  split
  · simp
  · simp
  · simp
  · simp
  · simp
  · split <;> simp [different]

/-- Between three quotes, a body is nothing but the quotes that may stand there, or its quotes at
the start are too few to close it. -/
theorem quoteRun_basicBody (text tail : List Char) (few : quotes ≤ 2) :
    (∃ count, text = List.replicate count '\x22' ∧ count + quotes ≤ 2 ∧
        basicBody true quotes text = List.replicate count '\x22') ∨
      quoteRun '\x22' (basicBody true quotes text ++ tail) + quotes ≤ 2 := by
  induction text generalizing quotes with
  | nil => exact .inl ⟨0, rfl, by omega, rfl⟩
  | cons character text hypothesis =>
      by_cases quote : character = '\x22'
      · subst quote
        by_cases full : 2 ≤ quotes
        · right
          rw [basicBody, if_pos rfl, if_pos (by simpa using full),
            quoteRun_eq_zero (by simp [NoQuote])]
          omega
        · have written : basicBody true quotes ('\x22' :: text) =
              '\x22' :: basicBody true (quotes + 1) text := by
            rw [basicBody, if_pos rfl, if_neg (by simpa using full)]
          rw [written]
          rcases @hypothesis (quotes + 1) (by omega) with ⟨count, rfl, bound, body⟩ | bound
          · exact .inl ⟨count + 1, rfl, by omega, by rw [body]; rfl⟩
          · right
            rw [List.cons_append, quoteRun_cons_self]
            omega
      · right
        have other : NoQuote '\x22' (basicBody true quotes (character :: text) ++ tail) := by
          rw [basicBody, if_neg quote]
          split
          · simp [NoQuote]
          · rw [List.append_assoc]
            exact noQuote_basicCharacter quote
        rw [quoteRun_eq_zero other]
        omega

/-- The quotes that close a string. -/
def closing (multi : Bool) (quote : Char) : List Char :=
  List.replicate (if multi then 3 else 1) quote

/-- Quotes in front of the closing ones are at the end of the string. -/
theorem quotesAtEnd?_closing {quote : Char} {multi : Bool} {count : Nat}
    (single : multi = false → count = 0) (noQuote : NoQuote quote rest) :
    quotesAtEnd? multi quote (List.replicate count quote ++ (closing multi quote ++ rest)) =
      some count := by
  cases multi with
  | false => simp [quotesAtEnd?, single rfl]
  | true =>
      have run := quoteRun_replicate (count + 3) noQuote
      rw [← List.replicate_append_replicate, List.append_assoc] at run
      simp only [quotesAtEnd?, closing, if_true, run]
      simp

/-- The end of a string is read with the quotes in front of it. -/
theorem endString_closing {quote : Char} {multi : Bool} {count : Nat} (few : count ≤ 2)
    (single : multi = false → count = 0) :
    endString quote count multi acc
        (List.replicate count quote ++ (closing multi quote ++ rest)) =
      some (String.ofList (acc.reverse ++ List.replicate count quote), rest) := by
  have dropped : (List.replicate count quote ++ (closing multi quote ++ rest)).drop
      (if multi then count + 3 else 1) = rest := by
    rw [← List.append_assoc]
    refine List.drop_left' ?_
    cases multi with
    | false => simp [closing, single rfl]
    | true => simp [closing]
  rw [endString, if_neg (by omega), dropped]

/-- Quotes that are read together with the closing ones start with a quote. -/
theorem exists_cons_closing (quote : Char) (multi : Bool) (count : Nat) (rest : List Char) :
    ∃ tail, List.replicate count quote ++ (closing multi quote ++ rest) = quote :: tail := by
  cases count with
  | zero => cases multi <;> exact ⟨_, rfl⟩
  | succ count => exact ⟨_, rfl⟩

/-- A basic string ends where its closing quotes are, and keeps the quotes in front of them. -/
theorem readBasic_closing {multi : Bool} (count : Nat) (few : count ≤ 2)
    (single : multi = false → count = 0) (noQuote : NoQuote '\x22' rest) :
    readBasic multi (List.replicate count '\x22' ++ (closing multi '\x22' ++ rest)) .text acc =
      some (String.ofList (acc.reverse ++ List.replicate count '\x22'), rest) := by
  have ends := quotesAtEnd?_closing single noQuote
  have reads : endString '\x22' count multi acc
      (List.replicate count '\x22' ++ (closing multi '\x22' ++ rest)) = _ :=
    endString_closing few single
  obtain ⟨tail, same⟩ := exists_cons_closing '\x22' multi count rest
  rw [same] at ends reads ⊢
  rw [readBasic] <;> simp [ends, reads]

/-- The body of a basic string is read back up to the quotes that close it. -/
theorem readBasic_basicBody (multi : Bool) (few : quotes ≤ 2) (noQuote : NoQuote '\x22' rest) :
    readBasic multi (basicBody multi quotes text ++ (closing multi '\x22' ++ rest)) .text acc =
      some (String.ofList (acc.reverse ++ text), rest) := by
  induction text generalizing quotes acc with
  | nil => exact readBasic_closing 0 (by omega) (fun _ => rfl) noQuote
  | cons character text hypothesis =>
      have shifted : acc.reverse ++ character :: text = (character :: acc).reverse ++ text := by
        simp
      by_cases quote : character = '\x22'
      · subst quote
        by_cases full : (if multi then 2 else 0) ≤ quotes
        · rw [basicBody, if_pos rfl, if_pos full, shifted]
          simp only [List.cons_append]
          rw [readBasic_short '\x22' rfl (by decide) (by decide) (by decide),
            hypothesis (by omega)]
        · cases multi with
          | false => exact absurd (Nat.zero_le quotes) full
          | true =>
              rcases quoteRun_basicBody ('\x22' :: text) (closing true '\x22' ++ rest) few with
                ⟨count, same, bound, body⟩ | bound
              · rw [body, same]
                exact readBasic_closing _ (by omega) nofun noQuote
              · have none : quotesAtEnd? true '\x22' (basicBody true quotes ('\x22' :: text) ++
                    (closing true '\x22' ++ rest)) = none := by
                  unfold quotesAtEnd?
                  rw [if_neg (by decide), if_neg (by omega)]
                rw [basicBody, if_pos rfl, if_neg full, List.cons_append] at none ⊢
                rw [shifted, ← @hypothesis _ (quotes + 1) (by simp at full; omega)]
                rw [readBasic] <;> simp [none]
      · rw [basicBody, if_neg quote, shifted]
        split
        · next feed =>
            subst feed
            cases multi with
            | false =>
                rw [← @hypothesis _ 0 (by omega)]
                exact readBasic_short 'n' rfl (by decide) (by decide) (by decide)
            | true =>
                rw [← @hypothesis _ 0 (by omega)]
                exact readBasic_plain (by simp [isStringCharacter]) quote (by decide)
        · next noFeed =>
            rw [List.append_assoc, readBasic_basicCharacter quote noFeed, hypothesis (by omega)]

end Bodies

section Literals

variable {quote : Char} {text acc rest tail : List Char}

/-- The quotes at the start of a text end inside it, unless it is nothing but quotes. -/
theorem quoteRun_append (text tail : List Char) :
    text = List.replicate (quoteRun quote text) quote ∨
      quoteRun quote (text ++ tail) = quoteRun quote text := by
  induction text with
  | nil => exact .inl rfl
  | cons character text hypothesis =>
      by_cases same : character = quote
      · subst same
        rw [List.cons_append, quoteRun_cons_self, quoteRun_cons_self]
        rcases hypothesis with whole | inside
        · left
          rw [List.replicate_succ, ← whole]
        · right
          rw [inside]
      · right
        have other (text : List Char) : NoQuote quote (character :: text) := by
          simpa [NoQuote] using same
        rw [List.cons_append, quoteRun_eq_zero (other _), quoteRun_eq_zero (other _)]

/-- No run of quotes in a text is longer than the longest one that was counted. -/
theorem quoteRun_le_longestRun (quote : Char) (current longest : Nat) (text : List Char) :
    longest ≤ longestRun quote current longest text ∧
      (quoteRun quote text ≠ 0 →
        current + quoteRun quote text ≤ longestRun quote current longest text) ∧
      ∀ suffix, suffix <:+ text →
        quoteRun quote suffix ≤ longestRun quote current longest text := by
  induction text generalizing current longest with
  | nil =>
      refine ⟨Nat.le_refl _, fun some => absurd rfl some, fun suffix inside => ?_⟩
      rw [List.suffix_nil.mp inside]
      exact Nat.zero_le _
  | cons character text hypothesis =>
      by_cases same : character = quote
      · subst same
        obtain ⟨before, first, inner⟩ := hypothesis (current + 1) (max longest (current + 1))
        rw [longestRun, if_pos rfl, quoteRun_cons_self]
        have whole : current + (quoteRun character text + 1) ≤
            longestRun character (current + 1) (max longest (current + 1)) text := by
          by_cases none : quoteRun character text = 0
          · omega
          · have bound := first none
            omega
        refine ⟨by omega, fun _ => whole, fun suffix inside => ?_⟩
        rcases List.suffix_cons_iff.mp inside with rfl | later
        · rw [quoteRun_cons_self]
          omega
        · exact inner suffix later
      · obtain ⟨before, _, inner⟩ := hypothesis 0 longest
        have none : quoteRun quote (character :: text) = 0 :=
          quoteRun_eq_zero (by simpa [NoQuote] using same)
        rw [longestRun, if_neg same, none]
        refine ⟨before, fun some => absurd rfl some, fun suffix inside => ?_⟩
        rcases List.suffix_cons_iff.mp inside with rfl | later
        · rw [none]
          exact Nat.zero_le _
        · exact inner suffix later

/-- A literal string ends where its closing quotes are, and keeps the quotes in front of them. -/
theorem readLiteral_closing {multi : Bool} (count : Nat) (few : count ≤ 2)
    (single : multi = false → count = 0) (noQuote : NoQuote '\x27' rest) :
    readLiteral multi (List.replicate count '\x27' ++ (closing multi '\x27' ++ rest)) acc =
      some (String.ofList (acc.reverse ++ List.replicate count '\x27'), rest) := by
  have ends := quotesAtEnd?_closing single noQuote
  have reads : endString '\x27' count multi acc
      (List.replicate count '\x27' ++ (closing multi '\x27' ++ rest)) = _ :=
    endString_closing few single
  obtain ⟨tail, same⟩ := exists_cons_closing '\x27' multi count rest
  rw [same] at ends reads ⊢
  rw [readLiteral, if_pos rfl, ends]
  exact reads

/-- A literal text is read back up to the quotes that close it. -/
theorem readLiteral_text (multi : Bool)
    (plain : ∀ character ∈ text, isPrintable character = true ∨ multi = true ∧ character = '\n')
    (short : ∀ suffix, suffix <:+ text → quoteRun '\x27' suffix ≤ if multi then 2 else 0)
    (noQuote : NoQuote '\x27' rest) :
    readLiteral multi (text ++ (closing multi '\x27' ++ rest)) acc =
      some (String.ofList (acc.reverse ++ text), rest) := by
  induction text generalizing acc with
  | nil => exact readLiteral_closing 0 (by omega) (fun _ => rfl) noQuote
  | cons character text hypothesis =>
      obtain ⟨first, plain⟩ := List.forall_mem_cons.mp plain
      have shifted : acc.reverse ++ character :: text = (character :: acc).reverse ++ text := by
        simp
      have later := @hypothesis (character :: acc) plain fun suffix inside =>
        short suffix (inside.trans (List.suffix_cons _ _))
      by_cases quote : character = '\x27'
      · have bound := short _ (List.suffix_refl _)
        subst quote
        cases multi with
        | false =>
            rw [quoteRun_cons_self] at bound
            exact absurd bound (by simp)
        | true =>
            rcases quoteRun_append ('\x27' :: text) (closing true '\x27' ++ rest) with
              whole | inside
            · rw [whole]
              exact readLiteral_closing _ bound nofun noQuote
            · have none : quotesAtEnd? true '\x27'
                  ('\x27' :: text ++ (closing true '\x27' ++ rest)) = none := by
                unfold quotesAtEnd?
                rw [if_neg (by decide), if_neg (by rw [inside]; simp at bound; omega)]
              rw [List.cons_append] at none ⊢
              rw [readLiteral, if_pos rfl, none, shifted, ← later]
      · rw [List.cons_append, readLiteral, if_neg quote, if_pos, shifted, ← later]
        rcases first with printable | ⟨rfl, rfl⟩
        · simp [isStringCharacter, printable]
        · simp [isStringCharacter]

end Literals

section Strings

variable {text rest : List Char}

/-- A text that starts with neither a line feed nor a carriage return starts with no break. -/
theorem breakWidth_eq_zero (noFeed : text.head? ≠ some '\n') (noReturn : text.head? ≠ some '\r') :
    breakWidth text = 0 := by
  unfold breakWidth
  split <;> simp_all

/-- The break that opens a string on a line of its own is left out. -/
theorem drop_opening (text body : List Char) (start : '\n' ∉ text → breakWidth body = 0) :
    ((if text.contains '\n' then ['\n'] else []) ++ body).drop
      (breakWidth ((if text.contains '\n' then ['\n'] else []) ++ body)) = body := by
  by_cases feed : '\n' ∈ text
  · rw [if_pos (List.contains_iff_mem.mpr feed)]
    rfl
  · rw [if_neg (mt List.contains_iff_mem.mp feed), List.nil_append, start feed, List.drop_zero]

/-- The text after one opening quote does not make it three: it starts otherwise, or it closes the
string at once and goes on without a quote. -/
def Opens (quote : Char) (body : List Char) : Prop :=
  NoQuote quote body ∨ ∃ rest, body = quote :: rest ∧ NoQuote quote rest

/-- Behind one opening quote, two more would open a string of several lines. -/
theorem Opens.not_triple {quote : Char} {body : List Char} (opens : Opens quote body)
    (rest : List Char) : body ≠ quote :: quote :: rest := by
  rintro rfl
  rcases opens with different | ⟨tail, same, different⟩
  · exact different rfl
  · cases same
    exact different rfl

/-- A single quotation mark opens a basic string. -/
theorem readString_basicBody {body : List Char} (opens : Opens '\x22' body) :
    readString ('\x22' :: body) = readBasic false body .text [] := by
  rw [readString]
  exact opens.not_triple

/-- A single apostrophe opens a literal string. -/
theorem readString_literalBody {body : List Char} (opens : Opens '\x27' body) :
    readString ('\x27' :: body) = readLiteral false body [] := by
  rw [readString]
  exact opens.not_triple

/-- A basic string is read back, whatever its text. -/
theorem readString_basic (text : List Char) (noQuote : NoQuote '\x22' rest) :
    readString (writeString .basic text ++ rest) = some (String.ofList text, rest) := by
  have written : writeString .basic text ++ rest =
      '\x22' :: (basicBody false 0 text ++ (closing false '\x22' ++ rest)) := by
    simp [writeString, closing]
  have opens : Opens '\x22' (basicBody false 0 text ++ (closing false '\x22' ++ rest)) := by
    cases text with
    | nil => exact .inr ⟨rest, rfl, noQuote⟩
    | cons character text =>
        left
        by_cases quote : character = '\x22'
        · subst quote
          simp [basicBody, NoQuote]
        · rw [basicBody, if_neg quote]
          split
          · simp [NoQuote]
          · rw [List.append_assoc]
            exact noQuote_basicCharacter quote
  rw [written, readString_basicBody opens, readBasic_basicBody false (by omega) noQuote]
  rfl

/-- A literal string without apostrophes is read back. -/
theorem readString_literal {text : List Char}
    (plain : ∀ character ∈ text, isPrintable character = true)
    (short : ∀ suffix, suffix <:+ text → quoteRun '\x27' suffix ≤ 0)
    (noQuote : NoQuote '\x27' rest) :
    readString (writeString .literal text ++ rest) = some (String.ofList text, rest) := by
  have written : writeString .literal text ++ rest =
      '\x27' :: (text ++ (closing false '\x27' ++ rest)) := by
    simp [writeString, closing]
  have opens : Opens '\x27' (text ++ (closing false '\x27' ++ rest)) := by
    cases text with
    | nil => exact .inr ⟨rest, rfl, noQuote⟩
    | cons character text =>
        left
        have bound := short _ (List.suffix_refl _)
        rintro same
        obtain rfl : character = '\x27' := by simpa using same
        rw [quoteRun_cons_self] at bound
        omega
  rw [written, readString_literalBody opens,
    readLiteral_text false (fun character inside => .inl (plain character inside)) short noQuote]
  rfl

/-- A body without line feeds does not start with a break. -/
theorem breakWidth_basicBody (whole : '\n' ∉ text) (tail : List Char) :
    breakWidth (basicBody true 0 text ++ ('\x22' :: tail)) = 0 := by
  cases text with
  | nil => rfl
  | cons character text =>
      obtain ⟨noFeed, _⟩ := not_or.mp (mt List.mem_cons.mpr whole)
      by_cases quote : character = '\x22'
      · subst quote
        rfl
      · rw [basicBody, if_neg quote, if_neg (Ne.symm noFeed), List.append_assoc]
        unfold basicCharacter
        split
        · rfl
        · rfl
        · rfl
        · rfl
        · rfl
        · next noReturn _ =>
            split
            · rfl
            · exact breakWidth_eq_zero (by simpa using Ne.symm noFeed) (by simpa using noReturn)

/-- A basic string of several lines is read back, whatever its text. -/
theorem readString_multiBasic (text : List Char) (noQuote : NoQuote '\x22' rest) :
    readString (writeString .multiBasic text ++ rest) = some (String.ofList text, rest) := by
  have written : writeString .multiBasic text ++ rest = '\x22' :: '\x22' :: '\x22' ::
      ((if text.contains '\n' then ['\n'] else []) ++
        (basicBody true 0 text ++ (closing true '\x22' ++ rest))) := by
    simp [writeString, closing, List.replicate_succ]
  have dropped := drop_opening text (basicBody true 0 text ++ (closing true '\x22' ++ rest))
    fun whole => breakWidth_basicBody whole _
  rw [written, readString, dropped, readBasic_basicBody true (by omega) noQuote]
  rfl

/-- A literal string of several lines is read back where no more than two apostrophes stand
together. -/
theorem readString_multiLiteral {text : List Char}
    (plain : ∀ character ∈ text, isPrintable character = true ∨ character = '\n')
    (short : ∀ suffix, suffix <:+ text → quoteRun '\x27' suffix ≤ 2)
    (noQuote : NoQuote '\x27' rest) :
    readString (writeString .multiLiteral text ++ rest) = some (String.ofList text, rest) := by
  have written : writeString .multiLiteral text ++ rest = '\x27' :: '\x27' :: '\x27' ::
      ((if text.contains '\n' then ['\n'] else []) ++
        (text ++ (closing true '\x27' ++ rest))) := by
    simp [writeString, closing, List.replicate_succ]
  have start (whole : '\n' ∉ text) : breakWidth (text ++ (closing true '\x27' ++ rest)) = 0 := by
    cases text with
    | nil => rfl
    | cons character text =>
        obtain ⟨noFeed, _⟩ := not_or.mp (mt List.mem_cons.mpr whole)
        have printable := (plain character List.mem_cons_self).resolve_right (Ne.symm noFeed)
        refine breakWidth_eq_zero (by simpa using Ne.symm noFeed) ?_
        simp only [List.cons_append, List.head?_cons, ne_eq, Option.some.injEq]
        rintro rfl
        exact absurd printable (by decide)
  rw [written, readString, drop_opening _ _ start, readLiteral_text true
    (fun character inside => (plain character inside).imp_right fun feed => ⟨rfl, feed⟩) short
    noQuote]
  rfl

/-- A string in the form that is chosen for it is read back, if no quote follows it. -/
theorem readString_stringText (text : String) (noDouble : NoQuote '\x22' rest)
    (noSingle : NoQuote '\x27' rest) :
    readString ((stringText text).toList ++ rest) = some (text, rest) := by
  rw [stringText, String.toList_ofList]
  generalize same : text.toList = characters
  have whole : text = String.ofList characters := by rw [← same, String.ofList_toList]
  rw [whole]
  have bound := (quoteRun_le_longestRun '\x27' 0 0 characters).2.2
  have plain (controls : (StringTraits.of characters).controls = false) :
      ∀ character ∈ characters, isPrintable character = true ∨ character = '\n' := by
    intro character inside
    by_cases feed : character = '\n'
    · exact .inr feed
    · have quiet := List.any_eq_false.mp controls character inside
      exact .inl (isPrintable_of_plain (eq_false_of_ne_true quiet) feed)
  unfold StringTraits.form
  split
  · exact readString_basic characters noDouble
  · split
    · next literal =>
        simp only [Bool.and_eq_true, Bool.not_eq_true', decide_eq_true_iff] at literal
        obtain ⟨⟨controls, quotes⟩, noFeed⟩ := literal
        refine readString_literal (fun character inside => ?_)
          (fun suffix inside => Nat.le_trans (bound suffix inside) (Nat.le_of_eq quotes)) noSingle
        refine (plain controls character inside).resolve_right ?_
        rintro rfl
        have listed : (StringTraits.of characters).lineFeed = true :=
          List.contains_iff_mem.mpr inside
        rw [noFeed] at listed
        cases listed
    · split
      · exact readString_multiBasic characters noDouble
      · split
        · next literal =>
            simp only [Bool.and_eq_true, Bool.not_eq_true', decide_eq_true_iff] at literal
            exact readString_multiLiteral (plain literal.1)
              (fun suffix inside => Nat.le_trans (bound suffix inside) literal.2) noSingle
        · split
          · exact readString_multiBasic characters noDouble
          · exact readString_basic characters noDouble

end Strings

end SchemaBeans.Toml

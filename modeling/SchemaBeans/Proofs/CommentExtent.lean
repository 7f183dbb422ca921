import Mathlib.Data.List.TakeWhile
import SchemaBeans.Proofs.DocComment
import SchemaBeans.Proofs.UnicodeEscapes

/-!
# Where a comment ends

A comment of a generated source ends at the first `*` and `/` that its compiler reads
side by side. The two are kept apart where a text has them as they are, but a text may
also spell either as a Unicode escape, and may hold an escape without its digits. The
comment ends where it should exactly for the texts that do neither.
-/

namespace SchemaBeans.Lexical

open DocComment

/-- Two characters that end a comment. -/
def Closes (first second : InputCharacter) : Prop :=
  first.code = '*'.toNat ∧ second.code = '/'.toNat

instance (first second : InputCharacter) : Decidable (Closes first second) :=
  inferInstanceAs (Decidable (_ ∧ _))

/-- What follows the end of an open comment. -/
def afterClosing : List InputCharacter → Option (List InputCharacter)
  | first :: second :: rest =>
      if Closes first second then some rest else afterClosing (second :: rest)
  | _ => none

/-- What follows the comment that a text starts with, behind its indentation. -/
def afterComment : List InputCharacter → Option (List InputCharacter)
  | first :: second :: rest =>
      if first = .written ' ' then afterComment (second :: rest)
      else if first.code = '/'.toNat ∧ second.code = '*'.toNat then afterClosing rest
      else none
  | _ => none

/-- A text is a single comment up to its last line feed: its escapes can be translated, and the
comment that it starts with ends in front of the line feed. -/
def IsComment (block : List Char) : Prop :=
  ∃ read, translate block = some read ∧ afterComment read = some [.written '\n']

/-- Neighbours in a text that do not end a comment. -/
def Apart (first second : InputCharacter) : Prop := ¬ Closes first second

/-- Neighbours in a text that end no comment, unless both are written as they are. -/
def Innocent (first second : InputCharacter) : Prop :=
  Closes first second → first = .written '*' ∧ second = .written '/'

/-- A text without broken escapes, in which no escape takes part in the end of a comment. -/
def Readable (text : List Char) : Prop :=
  ∃ read, translate text = some read ∧ read.IsChain Innocent

/-- A relation of neighbours that only those which end a comment may miss. -/
def Lenient (relation : InputCharacter → InputCharacter → Prop) : Prop :=
  ∀ first second, ¬ Closes first second → relation first second

/-- Neighbours that do not end a comment are apart. -/
theorem lenient_apart : Lenient Apart := fun _ _ open_ => open_

/-- Neighbours that do not end a comment are innocent. -/
theorem lenient_innocent : Lenient Innocent := fun _ _ open_ closes => absurd closes open_

section Reading

variable {relation : InputCharacter → InputCharacter → Prop} {before other : InputCharacter}
  {character : Char} {stage : Stage} {left right text : List Char}

/-- A character that takes part in no escape and may follow every other one inside a comment. -/
structure Cuts (character : Char) : Prop extends Inert character where
  not_slash : character ≠ '/'

instance (character : Char) : Decidable (Cuts character) :=
  decidable_of_iff (Inert character ∧ character ≠ '/')
    ⟨fun ⟨inert, slash⟩ => ⟨inert, slash⟩, fun cuts => ⟨cuts.toInert, cuts.not_slash⟩⟩

/-- A character other than a slash ends no comment, so it may follow every other one. -/
theorem Lenient.follows (lenient : Lenient relation) (plain : character ≠ '/') :
    ∀ other, relation other (.written character) := by
  intro other
  refine lenient other _ fun closes => plain ?_
  exact Char.toNat_inj.mp closes.2

/-- A text is read in two parts around a character that cuts it. -/
theorem Lenient.chained_cut (lenient : Lenient relation) (cuts : Cuts character) :
    Chained relation before stage (left ++ character :: right) ↔
      Chained relation before stage left ∧ Chained relation (.written character) .even right :=
  Lexical.chained_cut cuts.toInert (lenient.follows cuts.not_slash)

/-- A character that cuts a text separates what came before it from the rest. -/
theorem Lenient.chained_cons (lenient : Lenient relation) (cuts : Cuts character) :
    Chained relation before stage (character :: right) ↔
      Chained relation before stage [] ∧ Chained relation (.written character) .even right := by
  rw [← List.nil_append (character :: right)]
  exact lenient.chained_cut cuts

/-- Only a `*` makes a difference to what follows it. -/
theorem Lenient.chained_before (lenient : Lenient relation) (plain : before.code ≠ '*'.toNat)
    (otherPlain : other.code ≠ '*'.toNat) :
    Chained relation before stage text ↔ Chained relation other stage text := by
  have same : ∀ read, (before :: read).IsChain relation ↔ (other :: read).IsChain relation := by
    intro read
    cases read with
    | nil => simp
    | cons first read =>
        rw [List.isChain_cons_cons, List.isChain_cons_cons]
        refine and_congr_left fun _ => ?_
        exact ⟨fun _ => lenient _ _ fun closes => otherPlain closes.1,
          fun _ => lenient _ _ fun closes => plain closes.1⟩
  exact exists_congr fun read => and_congr_right fun _ => same read

/-- Outside of escapes, a text without slashes and backslashes is read without more ado. -/
theorem Lenient.chained_plain (lenient : Lenient relation)
    (plain : ∀ character ∈ text, character ≠ '\\' ∧ character ≠ '/') :
    Chained relation before .even text := by
  induction text generalizing before with
  | nil => exact ⟨[], rfl, List.isChain_singleton _⟩
  | cons character text hypothesis =>
      obtain ⟨⟨backslash, slash⟩, plain⟩ := List.forall_mem_cons.mp plain
      refine chained_cons_iff.mpr ⟨.even, [.written character], if_neg backslash, ?_,
        hypothesis plain⟩
      exact List.isChain_pair.mpr (lenient.follows slash before)

/-- At the end of a text, it only matters that no escape is open. -/
theorem Lenient.chained_nil (lenient : Lenient relation) :
    Chained relation before stage [] ↔ stage.finish?.isSome = true := by
  unfold Chained
  cases stage with
  | even => simp [translateFrom, Stage.finish?]
  | backslash =>
      have follows := lenient.follows (by decide : '\\' ≠ '/') before
      simp [translateFrom, Stage.finish?, follows]
  | escape digits value => simp [translateFrom, Stage.finish?]

/-- What a line is sanitized with stands outside of escapes behind its first character, and ends no
comment. -/
theorem Lenient.chained_insert (lenient : Lenient relation) {first last : Char} {inner : List Char}
    (opening : Cuts first) (closing : Cuts last)
    (plain : ∀ character ∈ inner, character ≠ '\\' ∧ character ≠ '/') :
    Chained relation before stage (first :: inner ++ last :: right) ↔
      Chained relation before stage [] ∧ Chained relation (.written last) .even right := by
  rw [lenient.chained_cut closing, lenient.chained_cons opening]
  simp only [lenient.chained_plain plain, and_true]

end Reading

variable {before : InputCharacter} {stage : Stage} {character : Char} {line sanitized : List Char}

/-- Unless both are written as they are, two characters are innocent when they do not end a
comment. -/
theorem innocent_iff_apart {first second : InputCharacter}
    (spelled : ¬ (first = .written '*' ∧ second = .written '/')) :
    Innocent first second ↔ Apart first second :=
  ⟨fun innocent closes => spelled (innocent closes), fun apart closes => absurd closes apart⟩

/-- The characters that end a comment are innocent if both are written as they are. -/
theorem chained_closing :
    Chained Innocent (.written '*') .even ('/' :: line) ↔
      Chained Innocent (.written '/') .even line := by
  have advanced : Stage.even.advance? '/' = some (.even, [.written '/']) := rfl
  rw [chained_cons_iff]
  constructor
  · rintro ⟨next, read, taken, _, chained⟩
    cases advanced.symm.trans taken
    exact chained
  · intro chained
    exact ⟨.even, [.written '/'], advanced, List.isChain_pair.mpr fun _ => ⟨rfl, rfl⟩, chained⟩

/-- A character that stands in a text and in what it is sanitized to. -/
theorem chained_cons_congr
    (guarded : stage = .even → before = .written '*' → character ≠ '/')
    (rest : ∀ next behind, (next = .even → behind = .written '*' → character = '*') →
      (Chained Apart behind next sanitized ↔ Chained Innocent behind next line)) :
    Chained Apart before stage (character :: sanitized) ↔
      Chained Innocent before stage (character :: line) := by
  rw [chained_cons_iff, chained_cons_iff]
  refine exists_congr fun next => exists_congr fun read => and_congr_right fun advanced => ?_
  rcases Stage.advance?_cases advanced with ⟨inside, rfl⟩ | ⟨rfl, rfl, rfl⟩ | ⟨_, rfl, rfl⟩ |
    ⟨unit, rfl, rfl⟩
  · exact and_congr (by simp) (rest next before fun even => absurd even inside)
  · refine and_congr ?_ (rest _ _ fun _ same => InputCharacter.written.inj same)
    rw [List.isChain_pair, List.isChain_pair]
    refine (innocent_iff_apart fun spelled => ?_).symm
    exact guarded rfl spelled.1 (InputCharacter.written.inj spelled.2)
  · refine and_congr ?_ (rest _ _ fun _ same => InputCharacter.written.inj same)
    simp only [List.isChain_cons_cons, List.isChain_singleton, and_true]
    refine (and_congr (innocent_iff_apart ?_) (innocent_iff_apart ?_)).symm <;> simp
  · refine and_congr ?_ (rest _ _ fun _ same => by cases same)
    rw [List.isChain_pair, List.isChain_pair]
    exact (innocent_iff_apart (by simp)).symm

/-- A sanitized line ends no comment exactly when no escape of the line is broken or takes part in
the end of a comment. -/
theorem chained_sanitizeFrom (blankSoFar : Bool)
    (guarded : stage = .even → before = .written '*' → line.head? ≠ some '/') :
    Chained Apart before stage (sanitizeFrom blankSoFar line) ↔
      Chained Innocent before stage line := by
  -- The line may start in any stage and behind any character. The guard leaves out only a slash that
  -- would complete a `*` before the line; such a pair is taken in one step.
  fun_induction sanitizeFrom blankSoFar line generalizing before stage with
  | case1 blankSoFar rest hypothesis =>
      have spelled : "*&#47;".toList ++ sanitizeFrom false rest =
          '*' :: "&#47".toList ++ ';' :: sanitizeFrom false rest := by simp
      rw [spelled, lenient_apart.chained_insert (by decide) (by decide) (by simp),
        lenient_innocent.chained_cons (by decide), chained_closing, lenient_apart.chained_nil,
        lenient_innocent.chained_nil, hypothesis (by simp)]
      exact and_congr_right fun _ => lenient_innocent.chained_before (by decide) (by decide)
  | case2 rest hypothesis =>
      have spelled : "\x7b@literal @\x7d".toList ++ sanitizeFrom false rest =
          '\x7b' :: "@literal @".toList ++ '\x7d' :: sanitizeFrom false rest := by simp
      rw [spelled, lenient_apart.chained_insert (by decide) (by decide) (by simp),
        lenient_innocent.chained_cons (by decide), lenient_apart.chained_nil,
        lenient_innocent.chained_nil, hypothesis (by simp)]
      exact and_congr_right fun _ => lenient_innocent.chained_before (by decide) (by decide)
  | case3 blankSoFar rest notBlank hypothesis =>
      refine chained_cons_congr (fun _ _ => by decide) fun next behind start => hypothesis ?_
      intro even same
      exact absurd (start even same) (by decide)
  | case4 blankSoFar character rest notClosing notTag hypothesis =>
      refine chained_cons_congr (fun even same equal => guarded even same (by simp [equal])) ?_
      intro next behind start
      refine hypothesis fun even same opening => ?_
      cases rest with
      | nil => cases opening
      | cons first rest =>
          exact notClosing rest (start even same) (by simpa using opening)
  | case5 => rw [lenient_apart.chained_nil, lenient_innocent.chained_nil]

/-- A text is read on its own, with each two neighbours related. -/
def Reads (relation : InputCharacter → InputCharacter → Prop) (text : List Char) : Prop :=
  Chained relation (.written '\n') .even text

section Lines

variable {relation : InputCharacter → InputCharacter → Prop} {left right text : List Char}

/-- A text is read when its translation has all neighbours related, since a line feed may stand
before any character. -/
theorem Lenient.reads_iff (lenient : Lenient relation) :
    Reads relation text ↔ ∃ read, translate text = some read ∧ read.IsChain relation := by
  refine exists_congr fun read => and_congr_right fun _ => ?_
  cases read with
  | nil => simp
  | cons first read =>
      rw [List.isChain_cons_cons, and_iff_right]
      exact lenient _ _ fun closes => absurd closes.1 (by decide)

/-- A text without slashes and backslashes is read. -/
theorem Lenient.reads_plain (lenient : Lenient relation)
    (plain : ∀ character ∈ text, character ≠ '\\' ∧ character ≠ '/') : Reads relation text :=
  lenient.chained_plain plain

/-- A character that has no part in escapes or in the end of comments stands between two texts that
are read apart. -/
theorem Lenient.reads_cut (lenient : Lenient relation) {character : Char} (cuts : Cuts character)
    (star : character ≠ '*') :
    Reads relation (left ++ character :: right) ↔ Reads relation left ∧ Reads relation right := by
  refine (lenient.chained_cut cuts).trans (and_congr_right fun _ => ?_)
  exact lenient.chained_before (mt Char.toNat_inj.mp star) (by decide)

/-- The codes of blanks are not those of visible ASCII characters. -/
theorem toNat_of_isBlank {character : Char} (blank : Text.isBlank character = true) :
    character.toNat ≤ 32 ∨ 133 ≤ character.toNat := by
  obtain ⟨range, present, low, high⟩ := Text.Ranges.contains_iff.mp blank
  simp only [Text.blankRanges, List.mem_cons, List.not_mem_nil, or_false] at present
  rcases present with rfl | rfl | rfl | rfl | rfl | rfl | rfl | rfl | rfl | rfl <;> omega

/-- Blanks take part in no escape and in no end of a comment. -/
theorem cuts_of_isBlank {character : Char} (blank : Text.isBlank character = true) :
    Cuts character ∧ character ≠ '*' := by
  have different : ∀ other, Text.isBlank other = false → character ≠ other := by
    rintro other visible rfl
    rw [blank] at visible
    cases visible
  refine ⟨⟨⟨different _ (by decide), different _ (by decide), ?_⟩, different _ (by decide)⟩,
    different _ (by decide)⟩
  refine Option.eq_none_iff_forall_ne_some.mpr fun value digit => ?_
  have bounds := toNat_of_hexValue? digit
  have outside := toNat_of_isBlank blank
  omega

/-- A blank at the start of a text makes no difference. -/
theorem Lenient.reads_cons_of_isBlank (lenient : Lenient relation) {character : Char}
    (blank : Text.isBlank character = true) :
    Reads relation (character :: text) ↔ Reads relation text := by
  obtain ⟨cuts, star⟩ := cuts_of_isBlank blank
  rw [← List.nil_append (character :: text), lenient.reads_cut cuts star,
    and_iff_right (lenient.reads_plain (List.forall_mem_nil _))]

/-- Blanks at the end of a text make no difference. -/
theorem Lenient.reads_append_of_isBlank (lenient : Lenient relation)
    (blank : ∀ character ∈ right, Text.isBlank character = true) :
    Reads relation (left ++ right) ↔ Reads relation left := by
  cases right with
  | nil => rw [List.append_nil]
  | cons character right =>
      obtain ⟨cuts, star⟩ := cuts_of_isBlank (blank character List.mem_cons_self)
      rw [lenient.reads_cut cuts star, and_iff_left]
      refine lenient.reads_plain fun other inside => ?_
      obtain ⟨later, _⟩ := cuts_of_isBlank (blank other (List.mem_cons_of_mem _ inside))
      exact ⟨later.not_backslash, later.not_slash⟩

/-- Trimming the start of a text makes no difference. -/
theorem Lenient.reads_trimStart (lenient : Lenient relation) :
    Reads relation (Text.trimStart text) ↔ Reads relation text := by
  induction text with
  | nil => exact Iff.rfl
  | cons character text hypothesis =>
      unfold Text.trimStart at hypothesis ⊢
      by_cases blank : Text.isBlank character = true
      · rw [List.dropWhile_cons_of_pos blank, hypothesis, lenient.reads_cons_of_isBlank blank]
      · rw [List.dropWhile_cons_of_neg blank]

/-- Trimming the end of a text makes no difference. -/
theorem Lenient.reads_trimEnd (lenient : Lenient relation) :
    Reads relation (Text.trimEnd text) ↔ Reads relation text := by
  have whole : text = Text.trimEnd text ++ (text.reverse.takeWhile Text.isBlank).reverse := by
    rw [Text.trimEnd, ← List.reverse_append, List.takeWhile_append_dropWhile, List.reverse_reverse]
  conv_rhs => rw [whole]
  refine (lenient.reads_append_of_isBlank fun character inside => ?_).symm
  exact List.mem_takeWhile_imp (List.mem_reverse.mp inside)

/-- Blanks at the ends of a line make no difference. -/
theorem Lenient.reads_trim (lenient : Lenient relation) :
    Reads relation (Text.trim text) ↔ Reads relation text := by
  rw [Text.trim, lenient.reads_trimEnd, lenient.reads_trimStart]

/-- A carriage return at the end of a line makes no difference. -/
theorem Lenient.reads_dropCarriageReturn (lenient : Lenient relation) (reversed : List Char) :
    Reads relation (Text.dropCarriageReturn reversed).reverse ↔
      Reads relation reversed.reverse := by
  unfold Text.dropCarriageReturn
  split
  · next reversed =>
      rw [List.reverse_cons,
        lenient.reads_append_of_isBlank (List.forall_mem_singleton.mpr (by decide))]
  · exact Iff.rfl

/-- A text is read as its lines are, each on its own. -/
theorem Lenient.reads_linesFrom (lenient : Lenient relation) (reversed : List Char) :
    (∀ line ∈ Text.linesFrom text reversed, Reads relation line) ↔
      Reads relation (reversed.reverse ++ text) := by
  fun_induction Text.linesFrom text reversed with
  | case1 => simp [lenient.reads_plain]
  | case2 character reversed => simp
  | case3 rest reversed hypothesis =>
      rw [List.forall_mem_cons, hypothesis, lenient.reads_dropCarriageReturn,
        lenient.reads_cut (by decide) (by decide), List.reverse_nil, List.nil_append]
  | case4 character rest reversed _ hypothesis =>
      rw [hypothesis, List.reverse_cons, List.append_assoc, List.singleton_append]

/-- The lines of a text are read exactly when the text is. -/
theorem Lenient.reads_lines (lenient : Lenient relation) :
    (∀ line ∈ Text.lines text, Reads relation line) ↔ Reads relation text :=
  lenient.reads_linesFrom []

/-- What holds of empty lines holds of all lines if it holds of those behind the first empty
ones. -/
theorem forall_mem_dropWhile_isEmpty {property : List Char → Prop} (empty : property [])
    (lines : List (List Char)) :
    (∀ line ∈ lines.dropWhile List.isEmpty, property line) ↔ ∀ line ∈ lines, property line := by
  induction lines with
  | nil => exact Iff.rfl
  | cons line lines hypothesis =>
      cases line with
      | nil => rw [List.dropWhile_cons_of_pos rfl, hypothesis, List.forall_mem_cons,
          and_iff_right empty]
      | cons first line => rw [List.dropWhile_cons_of_neg (by simp)]

/-- A text is read as the lines of its comment are. -/
theorem Lenient.reads_contentLines (lenient : Lenient relation) :
    (∀ line ∈ contentLines text, Reads relation line) ↔ Reads relation text := by
  have empty : Reads relation [] := lenient.reads_plain (List.forall_mem_nil _)
  have outer : ∀ lines, (∀ line ∈ withoutOuterEmpty lines, Reads relation line) ↔
      ∀ line ∈ lines, Reads relation line := by
    intro lines
    simp only [withoutOuterEmpty, List.mem_reverse, forall_mem_dropWhile_isEmpty empty]
  rw [contentLines, outer, List.forall_mem_map, ← lenient.reads_lines]
  exact forall_congr' fun line => forall_congr' fun _ => lenient.reads_trim

end Lines

/-- A comment ends at two given characters exactly when no two before them end it. -/
theorem afterClosing_append_iff {front rest : List InputCharacter} :
    afterClosing (front ++ .written '*' :: .written '/' :: rest) = some rest ↔
      (front ++ [InputCharacter.written '*']).IsChain Apart := by
  induction front with
  | nil => exact iff_of_true rfl (List.isChain_singleton _)
  | cons first front hypothesis =>
      have step : ∀ second more, front ++ .written '*' :: .written '/' :: rest = second :: more →
          (afterClosing (first :: second :: more) = some rest ↔
            Apart first second ∧ (front ++ [InputCharacter.written '*']).IsChain Apart) := by
        intro second more same
        rw [afterClosing]
        split
        · next closes =>
            -- What follows here is longer than what follows the last two characters.
            refine iff_of_false (fun equal => ?_) fun apart => apart.1 closes
            have lengths := congrArg List.length same
            cases Option.some.inj equal
            simp only [List.length_append, List.length_cons] at lengths
            omega
        · next apart =>
            rw [← same, hypothesis]
            exact (and_iff_right apart).symm
      cases front with
      | nil => simpa using step _ _ rfl
      | cons second front => simpa [List.isChain_cons_cons] using step _ _ rfl

/-- Behind its indentation and opening mark, a comment goes on to its end. -/
theorem afterComment_append {indent : List Char} (blank : ∀ character ∈ indent, character = ' ')
    (rest : List InputCharacter) :
    afterComment ((indent ++ "/*".toList).map .written ++ rest) = afterClosing rest := by
  induction indent with
  | nil => rfl
  | cons character indent hypothesis =>
      obtain ⟨rfl, later⟩ := List.forall_mem_cons.mp blank
      obtain ⟨first, more, same⟩ : ∃ first more,
          (indent ++ "/*".toList).map .written ++ rest = first :: more := by
        cases indent <;> exact ⟨_, _, rfl⟩
      rw [List.cons_append, List.map_cons, List.cons_append, same, afterComment, if_pos rfl, ← same,
        hypothesis later]

/-- A block is a single comment if what stands between its marks does not end it. -/
theorem isComment_iff {indent body : List Char} (blank : ∀ character ∈ indent, character = ' ') :
    IsComment (indent ++ "/*".toList ++ (body ++ "*/\n".toList)) ↔ Reads Apart body := by
  have plain : ∀ character ∈ indent ++ "/*".toList, character ≠ '\\' := by
    intro character inside
    rcases List.mem_append.mp inside with indented | mark
    · rw [blank character indented]
      decide
    · exact (by simp : ∀ character ∈ "/*".toList, character ≠ '\\') character mark
  have ending : "*/\n".toList = '*' :: "/\n".toList := by decide
  have closing : translate "/\n".toList = some [.written '/', .written '\n'] := by decide
  have inner : translate (body ++ '*' :: "/\n".toList) = (translate body).map fun read =>
      read ++ [.written '*', .written '/', .written '\n'] := by
    rw [translate, translateFrom_cut (by decide), closing, ← translate]
    cases translate body <;> rfl
  rw [IsComment, translate_append plain, ending, inner, lenient_apart.reads_iff]
  simp only [Option.map_map, Option.map_eq_some_iff, Function.comp_apply]
  constructor
  · rintro ⟨_, ⟨read, translated, rfl⟩, ended⟩
    rw [afterComment_append blank, afterClosing_append_iff, List.isChain_append] at ended
    exact ⟨read, translated, ended.1⟩
  · rintro ⟨read, translated, chain⟩
    refine ⟨_, ⟨read, translated, rfl⟩, ?_⟩
    rw [afterComment_append blank, afterClosing_append_iff, List.isChain_append]
    refine ⟨chain, List.isChain_singleton _, fun other _ next isNext => ?_⟩
    cases Option.some.inj isNext
    exact lenient_apart.follows (by decide : '*' ≠ '/') other

section Block

variable {indent line text : List Char} {lines : List (List Char)}

/-- Lines that are put together are read when each of them is. -/
theorem reads_unlines (rest : List Char) :
    Reads Apart (Text.unlines lines ++ rest) ↔
      (∀ line ∈ lines, Reads Apart line) ∧ Reads Apart rest := by
  induction lines with
  | nil => simp
  | cons line lines hypothesis =>
      rw [Text.unlines_cons, List.append_assoc, List.cons_append,
        lenient_apart.reads_cut (by decide) (by decide), hypothesis,
        List.forall_mem_cons, and_assoc]

/-- A sanitized line ends no comment exactly when the line is innocent. -/
theorem reads_sanitize : Reads Apart (sanitize line) ↔ Reads Innocent line :=
  chained_sanitizeFrom true (by simp)

/-- The indentation and the mark in front of a line make no difference. -/
theorem reads_contentLine (blank : ∀ character ∈ indent, character = ' ') :
    Reads Apart (contentLine indent line) ↔ Reads Innocent line := by
  have front : Reads Apart (indent ++ " *".toList) := by
    refine lenient_apart.reads_plain fun character inside => ?_
    rcases List.mem_append.mp inside with indented | mark
    · rw [blank character indented]
      decide
    · have plain : ∀ other ∈ " *".toList, other ≠ '\\' ∧ other ≠ '/' := by simp
      exact plain character mark
  unfold contentLine
  split
  · next empty =>
      rw [empty]
      exact iff_of_true front (lenient_innocent.reads_plain (List.forall_mem_nil _))
  · have spelled : indent ++ " * ".toList ++ sanitize line =
        (indent ++ " *".toList) ++ ' ' :: sanitize line := by simp
    rw [spelled, lenient_apart.reads_cut (by decide) (by decide), and_iff_right front,
      reads_sanitize]

/-- The comment for a text that is not blank, with its marks apart from what stands between. -/
theorem lines_eq (given : contentLines text ≠ []) :
    Text.unlines (DocComment.lines indent text) = indent ++ "/*".toList ++
      (('*' :: '\n' :: (Text.unlines ((contentLines text).map (contentLine indent)) ++
        (indent ++ [' ']))) ++ "*/\n".toList) := by
  unfold DocComment.lines
  split
  · next empty => exact absurd empty given
  · simp

end Block

/-- The comment for a description is a single comment exactly when the description holds no broken
escape and spells no end of a comment with an escape. -/
theorem isComment_render_iff (width : Nat) (text : String) :
    (render (String.ofList (List.replicate width ' ')) text ≠ "" →
        IsComment (render (String.ofList (List.replicate width ' ')) text).toList) ↔
      Readable text.toList := by
  have blank : ∀ character ∈ List.replicate width ' ', character = ' ' :=
    fun character inside => List.eq_of_mem_replicate inside
  have block : (render (String.ofList (List.replicate width ' ')) text).toList =
      Text.unlines (DocComment.lines (List.replicate width ' ') text.toList) := by
    rw [toList_render, String.toList_ofList]
  rw [Readable, ← lenient_innocent.reads_iff, ← lenient_innocent.reads_contentLines, Ne,
    ← String.toList_eq_nil_iff, block]
  by_cases given : contentLines text.toList = []
  · have none : DocComment.lines (List.replicate width ' ') text.toList = [] := by
      rw [DocComment.lines, given]
    simp [given, none]
  · have after : Reads Apart (List.replicate width ' ' ++ [' ']) := by
      rw [lenient_apart.reads_append_of_isBlank (List.forall_mem_singleton.mpr (by decide))]
      exact lenient_apart.reads_plain fun character inside => by
        rw [blank character inside]
        decide
    have opening : ∀ rest, Reads Apart ('*' :: '\n' :: rest) ↔ Reads Apart rest := by
      intro rest
      rw [← List.singleton_append, lenient_apart.reads_cut (by decide) (by decide),
        and_iff_right (lenient_apart.reads_plain (by simp))]
    rw [lines_eq given, imp_iff_right (by simp), isComment_iff blank, opening, reads_unlines,
      and_iff_left after, List.forall_mem_map]
    exact forall_congr' fun line => forall_congr' fun _ => reads_contentLine blank

/-- Without a backslash, a description is readable, whatever marks of comments it holds. -/
theorem readable_of_plain {text : List Char} (plain : ∀ character ∈ text, character ≠ '\\') :
    Readable text := by
  refine ⟨text.map .written, ?_, ?_⟩
  · have ended : translate [] = some [] := rfl
    rw [← List.append_nil text, translate_append plain, ended, Option.map_some]
    simp
  · rw [List.isChain_map]
    refine (List.pairwise_of_forall fun first second closes => ?_).isChain
    exact ⟨congrArg _ (Char.toNat_inj.mp closes.1), congrArg _ (Char.toNat_inj.mp closes.2)⟩

/-- A description that spells a `*` as an escape ends its own comment. -/
theorem comment_ended_early :
    ¬ ∀ (width : Nat) (text : String),
      render (String.ofList (List.replicate width ' ')) text ≠ "" →
        IsComment (render (String.ofList (List.replicate width ' ')) text).toList := by
  intro always
  obtain ⟨read, translated, ended⟩ := always 0 "\\u002a/" (by decide +kernel)
  have early : (translate (render "" "\\u002a/").toList).bind afterComment ≠
      some [.written '\n'] := by decide +kernel
  refine early ?_
  rw [show translate (render "" "\\u002a/").toList = some read from translated, Option.bind_some,
    ended]

/-- An escape without its digits cannot even be read. -/
example : translate (render "" "C:\\users").toList = none := by decide +kernel

end SchemaBeans.Lexical

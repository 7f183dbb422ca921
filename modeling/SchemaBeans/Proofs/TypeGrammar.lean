import Mathlib.Data.List.DropRight
import SchemaBeans.Proofs.Cleaning
import SchemaBeans.Proofs.TypeTexts

/-!
# The grammar of types

A text writes a type by what is left of it without the blanks around it: a spelling of
a primitive, `list<` … `>` around a text that writes a type, or the name of a model. A
text that writes none has a level at fault: the text itself, or one that its lists
enclose. The error of reading names this level, unless the whole text is blank.
-/

namespace SchemaBeans

namespace Text

/-- A text is its core between blanks; the core neither starts nor ends with one. -/
structure HasCore (text core : List Char) : Prop where
  around : ∃ front back, text = front ++ (core ++ back) ∧
    (∀ character ∈ front, isBlank character = true) ∧ ∀ character ∈ back, isBlank character = true
  start : ∀ first ∈ core.head?, isBlank first = false
  finish : Solid core

variable {text core front back : List Char}

/-- Blanks in front of a text are trimmed with its own. -/
theorem trimStart_append (blank : ∀ character ∈ front, isBlank character = true) :
    trimStart (front ++ text) = trimStart text :=
  List.dropWhile_append_of_pos blank

/-- Blanks behind a text are trimmed with its own. -/
theorem trimEnd_append (blank : ∀ character ∈ back, isBlank character = true) :
    trimEnd (text ++ back) = trimEnd text := by
  rw [trimEnd, List.reverse_append, List.dropWhile_append_of_pos, trimEnd]
  exact fun character inside => blank character (List.mem_reverse.mp inside)

/-- Trimming leaves the core of a text. -/
theorem hasCore_trim (text : List Char) : HasCore text (trim text) where
  around := by
    refine ⟨text.takeWhile isBlank, (trimStart text).rtakeWhile isBlank, ?_,
      fun _ => List.mem_takeWhile_imp, fun _ => List.mem_rtakeWhile_imp⟩
    have closing : trim text ++ (trimStart text).rtakeWhile isBlank = trimStart text :=
      List.rdropWhile_append_rtakeWhile
    rw [closing, trimStart, List.takeWhile_append_dropWhile]
  start := by
    intro first heads
    obtain ⟨back, rest⟩ := trimEnd_isPrefix (trimStart text)
    have stays := List.head?_dropWhile_not isBlank text
    rw [← trimStart, ← rest, List.head?_append, ← trim, Option.mem_def.mp heads] at stays
    exact stays
  finish := solid_trimEnd (trimStart text)

/-- The core of a text is what trimming leaves. -/
theorem hasCore_iff : HasCore text core ↔ core = trim text := by
  constructor
  · rintro ⟨⟨front, back, rfl, leading, trailing⟩, start, finish⟩
    rw [trim, trimStart_append leading]
    -- Around an empty core nothing tells the blanks in front from those behind.
    cases core with
    | nil => exact (trim_eq_nil_iff.mpr (List.all_eq_true.mpr trailing)).symm
    | cons first rest =>
        have starts : trimStart (first :: rest ++ back) = first :: rest ++ back :=
          List.dropWhile_cons_of_neg (by simp [start first rfl])
        rw [starts, trimEnd_append trailing, trimEnd_eq_self_iff.mpr finish]
  · rintro rfl
    exact hasCore_trim text

end Text

namespace Primitive

variable {text : String} {type : Primitive}

/-- The spellings of a primitive are the keywords that stand for it. -/
theorem mem_spellings_iff : (text, type) ∈ spellings ↔ ofKeyword? text = some type := by
  constructor
  · have all : ∀ spelling ∈ spellings, ofKeyword? spelling.1 = some spelling.2 := by decide +kernel
    exact all (text, type)
  · exact mem_spellings_of_ofKeyword?

/-- What spells no primitive is no keyword. -/
theorem forall_not_mem_spellings_iff :
    (∀ type, (text, type) ∉ spellings) ↔ ofKeyword? text = none := by
  simp only [mem_spellings_iff, Option.eq_none_iff_forall_ne_some, ne_eq]

end Primitive

namespace TypeRef

/-- A text opens a list, in letters of any ASCII case, and goes on behind the bracket. -/
def Opens (text rest : List Char) : Prop :=
  ∃ head : List Char, head.map Char.toLower = "list".toList ∧ text = head ++ '<' :: rest

/-- A text is a list of what stands between its first and its last bracket. -/
def Encloses (text inner : List Char) : Prop := Opens text (inner ++ ['>'])

/-- A text is the name of a model: letters, numerals and underscores, with no numeral in front, and
no spelling of a primitive. -/
structure NamesModel (text : List Char) : Prop where
  opening : ∃ first ∈ text.head?, Text.isLetter first = true ∨ first = '_'
  parts : ∀ character ∈ text, Text.isLetterOrNumeral character = true ∨ character = '_'
  free : ∀ type, (String.ofList text, type) ∉ Primitive.spellings

/-- The levels of a text, without the blanks around them: the text itself, and the levels of what it
encloses if it is a list. -/
inductive Level : List Char → List Char → Prop where
  | outer {text core} (whole : Text.HasCore text core) : Level text core
  | inner {text core inside level} (whole : Text.HasCore text core)
      (enclosed : Encloses core inside) (deeper : Level inside level) : Level text level

/-- A level opens a list that is not closed at its end or that has a blank element. -/
def Malformed (level : List Char) : Prop :=
  (∃ rest, Opens level rest ∧ rest.getLast? ≠ some '>') ∨
    ∃ inner, Encloses level inner ∧ ∀ character ∈ inner, Text.isBlank character = true

/-- A level opens no list and names nothing. -/
structure Nameless (level : List Char) : Prop where
  given : level ≠ []
  plain : ∀ rest, ¬ Opens level rest
  unspelled : ∀ type, (String.ofList level, type) ∉ Primitive.spellings
  unnamed : ¬ NamesModel level

/-- The error for a level that is at fault by itself. -/
inductive Faulty : List Char → TypeError → Prop where
  | malformed {level} (wrong : Malformed level) :
      Faulty level (.malformedList (String.ofList level))
  | nameless {level} (wrong : Nameless level) : Faulty level (.invalidName (String.ofList level))

/-- A text is at fault when one of its levels is. -/
def AtFault (text : List Char) (error : TypeError) : Prop :=
  ∃ level, Level text level ∧ Faulty level error

variable {text inner rest level : List Char} {error : TypeError} {type : TypeRef}

/-- A text opens a list when the reader finds the head of one. -/
theorem opens_iff : Opens text rest ↔ afterListHead? text = some rest :=
  afterListHead?_eq_some_iff.symm

/-- Where the reader finds no head of a list, none is opened. -/
theorem forall_not_opens_iff : (∀ rest, ¬ Opens text rest) ↔ afterListHead? text = none := by
  simp only [opens_iff, Option.eq_none_iff_forall_ne_some, ne_eq]

/-- A list encloses what the reader finds between its head and its tail. -/
theorem encloses_iff :
    Encloses text inner ↔ ∃ body, afterListHead? text = some body ∧
      beforeListTail? body = some inner := by
  simp [Encloses, opens_iff, beforeListTail?_eq_some_iff]

/-- A text names a model when it is a name that is no keyword. -/
theorem namesModel_iff : NamesModel text ↔
    isName text = true ∧ Primitive.ofKeyword? (String.ofList text) = none := by
  constructor
  · rintro ⟨⟨first, heads, opening⟩, parts, free⟩
    refine ⟨?_, Primitive.forall_not_mem_spellings_iff.mp free⟩
    cases text with
    | nil => cases heads
    | cons _ _ =>
        cases heads
        simpa [isName, opening] using parts
  · rintro ⟨named, free⟩
    obtain ⟨opening, parts⟩ := Bool.and_eq_true_iff.mp named
    refine ⟨?_, by simpa using parts, Primitive.forall_not_mem_spellings_iff.mpr free⟩
    cases text with
    | nil => cases opening
    | cons first _ => exact ⟨first, rfl, by simpa using opening⟩

/-- A level is malformed when the reader finds the head of a list and not its tail, or nothing but
blanks between the two. -/
theorem malformed_iff : Malformed level ↔ ∃ body, afterListHead? level = some body ∧
    ∀ inner, beforeListTail? body = some inner → Text.allBlank inner = true := by
  simp only [Malformed, encloses_iff, opens_iff, Text.allBlank, List.all_eq_true]
  constructor
  · rintro (⟨body, front, unclosed⟩ | ⟨inner, ⟨body, front, back⟩, blank⟩)
    · refine ⟨body, front, fun inner back => absurd ?_ unclosed⟩
      rw [beforeListTail?_eq_some_iff.mp back, List.getLast?_concat]
    · refine ⟨body, front, fun other found => ?_⟩
      obtain rfl := Option.some.inj (back.symm.trans found)
      exact blank
  · rintro ⟨body, front, blank⟩
    by_cases closed : body.getLast? = some '>'
    · obtain ⟨inner, rfl⟩ := List.getLast?_eq_some_iff.mp closed
      have back : beforeListTail? (inner ++ ['>']) = some inner :=
        beforeListTail?_eq_some_iff.mpr rfl
      exact .inr ⟨inner, ⟨_, front, back⟩, blank inner back⟩
    · exact .inl ⟨body, front, closed⟩

/-- The reader refuses a name for the levels that name nothing. -/
theorem nameless_iff : Nameless level ↔ level ≠ [] ∧ afterListHead? level = none ∧
    Primitive.ofKeyword? (String.ofList level) = none ∧ isName level = false := by
  rw [← forall_not_opens_iff, ← Primitive.forall_not_mem_spellings_iff]
  constructor
  · rintro ⟨given, plain, unspelled, unnamed⟩
    refine ⟨given, plain, unspelled, Bool.eq_false_iff.mpr fun named => unnamed ?_⟩
    exact namesModel_iff.mpr ⟨named, Primitive.forall_not_mem_spellings_iff.mp unspelled⟩
  · rintro ⟨given, plain, unspelled, unnamed⟩
    refine ⟨given, plain, unspelled, fun names => ?_⟩
    rw [(namesModel_iff.mp names).1] at unnamed
    cases unnamed

/-- There are two ways to be at fault, and each has its own error. -/
theorem faulty_iff : Faulty level error ↔
    (Malformed level ∧ error = .malformedList (String.ofList level)) ∨
      Nameless level ∧ error = .invalidName (String.ofList level) := by
  constructor
  · rintro (wrong | wrong)
    · exact .inl ⟨wrong, rfl⟩
    · exact .inr ⟨wrong, rfl⟩
  · rintro (⟨wrong, rfl⟩ | ⟨wrong, rfl⟩)
    · exact .malformed wrong
    · exact .nameless wrong

/-- The levels of a text are what trimming leaves and, in a list, the levels of what this
encloses. -/
theorem level_iff : Level text level ↔ level = Text.trim text ∨
    ∃ inside, Encloses (Text.trim text) inside ∧ Level inside level := by
  constructor
  · rintro (whole | ⟨whole, enclosed, deeper⟩)
    · exact .inl (Text.hasCore_iff.mp whole)
    · obtain rfl := Text.hasCore_iff.mp whole
      exact .inr ⟨_, enclosed, deeper⟩
  · rintro (rfl | ⟨inside, enclosed, deeper⟩)
    · exact .outer (Text.hasCore_trim text)
    · exact .inner (Text.hasCore_trim text) enclosed deeper

/-- A text is at fault by what is left of it without blanks, or inside of the list that this is. -/
theorem atFault_iff : AtFault text error ↔ Faulty (Text.trim text) error ∨
    ∃ inside, Encloses (Text.trim text) inside ∧ AtFault inside error := by
  constructor
  · rintro ⟨level, found, faulty⟩
    rcases level_iff.mp found with rfl | ⟨inside, enclosed, deeper⟩
    · exact .inl faulty
    · exact .inr ⟨inside, enclosed, level, deeper, faulty⟩
  · rintro (faulty | ⟨inside, enclosed, level, deeper, faulty⟩)
    · exact ⟨_, level_iff.mpr (.inl rfl), faulty⟩
    · exact ⟨level, level_iff.mpr (.inr ⟨inside, enclosed, deeper⟩), faulty⟩

/-- A text that opens no list is at fault when it names nothing. -/
theorem atFault_of_plain (plain : afterListHead? (Text.trim text) = none) : AtFault text error ↔
    Nameless (Text.trim text) ∧ error = .invalidName (String.ofList (Text.trim text)) := by
  rw [atFault_iff]
  simp [faulty_iff, malformed_iff, encloses_iff, plain]

/-- A list that is not closed is at fault itself, and nothing inside of it is. -/
theorem atFault_of_unclosed (front : afterListHead? (Text.trim text) = some rest)
    (unclosed : beforeListTail? rest = none) :
    AtFault text error ↔ error = .malformedList (String.ofList (Text.trim text)) := by
  rw [atFault_iff]
  simp [faulty_iff, malformed_iff, nameless_iff, encloses_iff, front, unclosed]

/-- A closed list is at fault when it is blank or when what it encloses is at fault. -/
theorem atFault_of_enclosed (front : afterListHead? (Text.trim text) = some rest)
    (back : beforeListTail? rest = some inner) : AtFault text error ↔
      (Text.allBlank inner = true ∧ error = .malformedList (String.ofList (Text.trim text))) ∨
        AtFault inner error := by
  rw [atFault_iff]
  simp [faulty_iff, malformed_iff, nameless_iff, encloses_iff, front, back]

/-- A blank text is not at fault: it is refused for being empty. -/
theorem not_atFault_of_blank (blank : Text.allBlank text = true) : ¬ AtFault text error := by
  have empty : Text.trim text = [] := Text.trim_eq_nil_iff.mpr blank
  rw [atFault_of_plain (by rw [empty]; rfl)]
  exact fun fault => fault.1.given empty

/-- Reading fails for a blank text and for a text that is at fault, and for no other. -/
theorem parseChars_eq_error_iff : parseChars text = .error error ↔
    (error = .empty ∧ Text.trim text = []) ∨ AtFault text error := by
  -- Each case is a shape of the level at hand. Only a closed list around something goes deeper.
  fun_induction parseChars text with
  | case1 text trimmed empty =>
      have sound : ¬ AtFault text error := not_atFault_of_blank (Text.trim_eq_nil_iff.mp empty)
      rw [Except.error.injEq, eq_comm, and_iff_left empty, or_iff_left sound]
  | case2 text trimmed given rest front inner back blank =>
      rw [atFault_of_enclosed front back, Except.error.injEq, eq_comm,
        or_iff_left (not_atFault_of_blank blank), and_iff_right blank]
      exact (or_iff_right fun empty => given empty.2).symm
  | case3 text trimmed given rest front inner back notBlank hypothesis =>
      have deeper : (parseChars inner).map list = .error error ↔
          parseChars inner = .error error := by
        cases parseChars inner <;> simp [Except.map]
      rw [atFault_of_enclosed front back, deeper, hypothesis,
        or_iff_right fun empty => notBlank (Text.trim_eq_nil_iff.mp empty.2),
        or_iff_right fun empty => given empty.2, or_iff_right fun blank => notBlank blank.1]
  | case4 text trimmed given rest front unclosed =>
      rw [atFault_of_unclosed front unclosed, Except.error.injEq, eq_comm]
      exact (or_iff_right fun empty => given empty.2).symm
  | case5 text trimmed given plain type spelled =>
      simp only [reduceCtorEq, false_iff, not_or]
      refine ⟨fun empty => given empty.2, fun fault => ?_⟩
      obtain ⟨-, -, unspelled, -⟩ := nameless_iff.mp ((atFault_of_plain plain).mp fault).1
      cases spelled.symm.trans unspelled
  | case6 text trimmed given plain unspelled named =>
      simp only [reduceCtorEq, false_iff, not_or]
      refine ⟨fun empty => given empty.2, fun fault => ?_⟩
      obtain ⟨-, -, -, unnamed⟩ := nameless_iff.mp ((atFault_of_plain plain).mp fault).1
      cases named.symm.trans unnamed
  | case7 text trimmed given plain unspelled unnamed =>
      have wrong : Nameless (Text.trim text) :=
        nameless_iff.mpr ⟨given, plain, unspelled, Bool.eq_false_iff.mpr unnamed⟩
      rw [atFault_of_plain plain, Except.error.injEq, eq_comm, and_iff_right wrong]
      exact (or_iff_right fun empty => given empty.2).symm

/-- A text is read as what is left of it without blanks says. -/
theorem parseChars_eq_ok_iff_core : parseChars text = .ok type ↔ ∃ core, Text.HasCore text core ∧
    ((∃ primitive, (String.ofList core, primitive) ∈ Primitive.spellings ∧
        type = .primitive primitive) ∨
      (∃ inner element, Encloses core inner ∧ parseChars inner = .ok element ∧
        type = .list element) ∨
      NamesModel core ∧ type = .model (String.ofList core)) := by
  simp only [Text.hasCore_iff, exists_eq_left, Primitive.mem_spellings_iff, namesModel_iff,
    parseChars_eq_ok_iff]
  constructor
  · rintro (spelled | ⟨named, free⟩ | ⟨opened, enclosed, written⟩)
    · exact .inl ⟨_, spelled, rfl⟩
    · exact .inr (.inr ⟨⟨named, free⟩, rfl⟩)
    · exact .inr (.inl ⟨_, _, ⟨_, opened, enclosed⟩, written, rfl⟩)
  · rintro (⟨primitive, spelled, rfl⟩ | ⟨inner, element, ⟨head, opened, enclosed⟩, written, rfl⟩ |
      ⟨⟨named, free⟩, rfl⟩)
    · exact .primitive spelled
    · exact .list opened enclosed written
    · exact .model named free

/-- The texts of types, and what each text means. What is left of a text without the blanks around
it spells a primitive, encloses the text of an element, or names a model, and nothing else is read.
A text that is not read is blank, or it has a level that is a malformed list, or a level that is
nameless; the error says which of these, and names the level. -/
theorem parse_exactly (text : String) :
    (∀ type, parse text = .ok type ↔ ∃ core, Text.HasCore text.toList core ∧
      ((∃ primitive, (String.ofList core, primitive) ∈ Primitive.spellings ∧
          type = .primitive primitive) ∨
        (∃ inner element, Encloses core inner ∧ parse (String.ofList inner) = .ok element ∧
          type = .list element) ∨
        NamesModel core ∧ type = .model (String.ofList core))) ∧
      (parse text = .error .empty ↔
        ∀ character ∈ text.toList, Text.isBlank character = true) ∧
      (∀ named, parse text = .error (.malformedList named) ↔
        ∃ level, Level text.toList level ∧ Malformed level ∧ named = String.ofList level) ∧
      ∀ named, parse text = .error (.invalidName named) ↔
        ∃ level, Level text.toList level ∧ Nameless level ∧ named = String.ofList level := by
  have failed (error : TypeError) : parse text = .error error ↔
      (error = .empty ∧ Text.trim text.toList = []) ∨ AtFault text.toList error :=
    parseChars_eq_error_iff
  refine ⟨fun type => ?_, ?_, fun named => ?_, fun named => ?_⟩
  · simp only [parse, String.toList_ofList]
    exact parseChars_eq_ok_iff_core
  · simp [failed, AtFault, faulty_iff, Text.trim_eq_nil_iff, Text.allBlank]
  · simp [failed, AtFault, faulty_iff]
  · simp [failed, AtFault, faulty_iff]

end TypeRef

end SchemaBeans

import Mathlib.Data.List.TakeWhile
import SchemaBeans.Proofs.Identifiers
import SchemaBeans.TypeRef

/-!
# How types are written

`TypeRef.Written` is the grammar of type texts, and `TypeRef.parseChars` reads
exactly the texts of this grammar, each as the one type that it writes. What is
printed for a type is one of its texts, if the type can be written at all; so the
printed text stands for all texts of its type.
-/

namespace SchemaBeans

namespace Text

variable {character : Char} {text : List Char}

/-- No letter and no numeral is blank. -/
theorem isBlank_eq_false_of_isLetterOrNumeral (letter : isLetterOrNumeral character = true) :
    isBlank character = false := by
  have ascii : ∀ code < 0x80, (Char.ofNat code).isAlphanum = true →
      isBlank (Char.ofNat code) = false := by decide +kernel
  have apart : ∀ blanks ∈ blankRanges, ∀ letters ∈ alphabeticRanges ++ numeralRanges,
      letters.2 < blanks.1 ∨ blanks.2 < letters.1 := by decide +kernel
  unfold isLetterOrNumeral at letter
  split at letter
  · next low =>
      have plain := ascii character.toNat low
      rw [Char.ofNat_toNat] at plain
      exact plain letter
  · have listed : (alphabeticRanges ++ numeralRanges : Ranges).contains character = true := by
      simpa [Ranges.contains] using letter
    obtain ⟨letters, among, above, below⟩ := Ranges.contains_iff.mp listed
    refine Bool.eq_false_iff.mpr fun blank => ?_
    obtain ⟨blanks, blankAmong, blankAbove, blankBelow⟩ := Ranges.contains_iff.mp blank
    have disjoint := apart blanks blankAmong letters among
    omega

/-- A text that has no blank at either end is trimmed already. -/
theorem trim_eq_self (front : ∀ first ∈ text.head?, isBlank first = false)
    (back : ∀ last ∈ text.getLast?, isBlank last = false) : trim text = text := by
  have kept : ∀ text : List Char, (∀ first ∈ text.head?, isBlank first = false) →
      text.dropWhile isBlank = text := by
    intro text front
    cases text with
    | nil => rfl
    | cons first rest => exact List.dropWhile_cons_of_neg (by simp [front first rfl])
  unfold trim trimStart trimEnd
  rw [kept text front, kept text.reverse (by simpa using back), List.reverse_reverse]

/-- A text without blanks has nothing to trim. -/
theorem trim_eq_self_of_forall (solid : ∀ character ∈ text, isBlank character = false) :
    trim text = text :=
  trim_eq_self (fun first inside => solid first (List.mem_of_mem_head? inside))
    fun last inside => solid last (List.mem_of_mem_getLast? inside)

/-- Trimming leaves nothing of a blank text only. -/
theorem trim_eq_nil_iff : trim text = [] ↔ allBlank text = true := by
  rw [trim, trimEnd, List.reverse_eq_nil_iff, List.dropWhile_eq_nil_iff, allBlank,
    List.all_eq_true, trimStart]
  constructor
  · intro trailing character inside
    rw [← List.takeWhile_append_dropWhile (p := isBlank) (l := text)] at inside
    rcases List.mem_append.mp inside with leading | rest
    · exact List.mem_takeWhile_imp leading
    · exact trailing character (List.mem_reverse.mpr rest)
  · intro blank character inside
    exact blank character ((List.dropWhile_sublist _).subset (List.mem_reverse.mp inside))

end Text

namespace Primitive

variable {text : String} {type : Primitive}

/-- A primitive is read from its own keyword. -/
theorem ofKeyword?_keyword (type : Primitive) : ofKeyword? type.keyword = some type := by
  cases type <;> decide

/-- Only the spellings of a primitive are read as one. -/
theorem mem_spellings_of_ofKeyword? (found : ofKeyword? text = some type) :
    (text, type) ∈ spellings := by
  obtain ⟨before, after, listed, _⟩ := List.lookup_eq_some_iff.mp found
  rw [listed]
  exact List.mem_append_right before List.mem_cons_self

/-- A spelling of a primitive is a text without blanks and without brackets. -/
theorem solid_of_ofKeyword? (found : ofKeyword? text = some type) :
    text.toList ≠ [] ∧
      ∀ character ∈ text.toList, Text.isBlank character = false ∧ character ≠ '<' := by
  have all : ∀ spelling ∈ spellings, Identifier.isIdentifier spelling.1 = true := by decide +kernel
  have shaped := all _ (mem_spellings_of_ofKeyword? found)
  constructor
  · intro empty
    rw [Identifier.isIdentifier, empty] at shaped
    cases shaped
  · intro character inside
    have part := Identifier.isPart_of_mem shaped inside
    refine ⟨Identifier.isBlank_eq_false_of_isPart part, ?_⟩
    rintro rfl
    exact absurd part (by decide)

end Primitive

namespace TypeRef

/-- How a type is written, blanks around it left out of account. -/
inductive Written : List Char → TypeRef → Prop where
  | primitive {text type}
      (spelled : Primitive.ofKeyword? (String.ofList (Text.trim text)) = some type) :
      Written text (.primitive type)
  | model {text} (named : isName (Text.trim text) = true)
      (free : Primitive.ofKeyword? (String.ofList (Text.trim text)) = none) :
      Written text (.model (String.ofList (Text.trim text)))
  | list {text head inner element} (opened : head.map Char.toLower = "list".toList)
      (enclosed : Text.trim text = head ++ '<' :: (inner ++ ['>']))
      (written : Written inner element) : Written text (.list element)

/-- The model that a type mentions, if any, has a name that no primitive has. -/
def IsNamed (type : TypeRef) : Prop :=
  ∀ name, type.reference? = some name →
    isName name.toList = true ∧ Primitive.ofKeyword? name = none

variable {text head inner rest : List Char} {type : TypeRef}

/-- A name is a text without blanks and without brackets. -/
theorem solid_of_isName (named : isName text = true) :
    text ≠ [] ∧ ∀ character ∈ text, Text.isBlank character = false ∧ character ≠ '<' := by
  obtain ⟨first, all⟩ := Bool.and_eq_true_iff.mp named
  constructor
  · rintro rfl
    cases first
  · intro character inside
    have part := List.all_eq_true.mp all character inside
    rcases Bool.or_eq_true_iff.mp part with letter | underscore
    · refine ⟨Text.isBlank_eq_false_of_isLetterOrNumeral letter, ?_⟩
      rintro rfl
      exact absurd letter (by decide)
    · rw [of_decide_eq_true underscore]
      decide

/-- A list starts with its word, in letters of any case, and a bracket. -/
theorem afterListHead?_eq_some_iff : afterListHead? text = some rest ↔
    ∃ head : List Char, head.map Char.toLower = "list".toList ∧ text = head ++ '<' :: rest := by
  constructor
  · intro found
    unfold afterListHead? at found
    split at found
    · next l i s t rest =>
        split at found
        · next letters =>
            cases found
            refine ⟨[l, i, s, t], ?_, rfl⟩
            simp only [Bool.and_eq_true, decide_eq_true_eq] at letters
            simp [letters]
        · cases found
    · cases found
  · rintro ⟨head, letters, rfl⟩
    obtain ⟨l, i, s, t, rfl⟩ : ∃ l i s t, head = [l, i, s, t] := by
      rcases head with _ | ⟨l, _ | ⟨i, _ | ⟨s, _ | ⟨t, _ | _⟩⟩⟩⟩ <;> simp at letters ⊢
    simp_all [afterListHead?]

/-- A list ends with a bracket. -/
theorem beforeListTail?_eq_some_iff : beforeListTail? text = some rest ↔ text = rest ++ ['>'] := by
  rw [← List.reverse_inj, List.reverse_append, beforeListTail?]
  split
  · next reversed ends =>
      rw [ends, Option.some.injEq]
      simp [List.reverse_eq_iff]
  · next other =>
      constructor
      · intro found
        cases found
      · intro ends
        exact absurd ends (other rest.reverse)

/-- A text that opens and closes a list is a list, and it is read if its element is. -/
theorem parseChars_list (opened : head.map Char.toLower = "list".toList)
    (enclosed : Text.trim text = head ++ '<' :: (inner ++ ['>'])) :
    parseChars text =
      if Text.allBlank inner then .error (.malformedList (String.ofList (Text.trim text)))
      else (parseChars inner).map .list := by
  have front : afterListHead? (Text.trim text) = some (inner ++ ['>']) :=
    afterListHead?_eq_some_iff.mpr ⟨head, opened, enclosed⟩
  have back : beforeListTail? (inner ++ ['>']) = some inner :=
    beforeListTail?_eq_some_iff.mpr rfl
  rw [parseChars, if_neg (by simp [enclosed])]
  split
  · next body found =>
      obtain rfl := Option.some.inj (front.symm.trans found)
      split
      · next element within =>
          obtain rfl := Option.some.inj (back.symm.trans within)
          rfl
      · next unclosed => cases back.symm.trans unclosed
  · next absent => cases front.symm.trans absent

/-- A text without a bracket is a primitive or the name of a model. -/
theorem parseChars_plain (given : Text.trim text ≠ []) (plain : '<' ∉ Text.trim text) :
    parseChars text =
      match Primitive.ofKeyword? (String.ofList (Text.trim text)) with
      | some type => .ok (.primitive type)
      | none =>
          if isName (Text.trim text) then .ok (.model (String.ofList (Text.trim text)))
          else .error (.invalidName (String.ofList (Text.trim text))) := by
  have front : afterListHead? (Text.trim text) = none := by
    refine Option.eq_none_iff_forall_ne_some.mpr fun rest found => plain ?_
    obtain ⟨head, _, shape⟩ := afterListHead?_eq_some_iff.mp found
    rw [shape]
    exact List.mem_append_right head List.mem_cons_self
  rw [parseChars, if_neg given]
  split
  · next body found => cases front.symm.trans found
  · rfl

/-- A text is read as a type exactly when it writes that type. -/
theorem parseChars_eq_ok_iff : parseChars text = .ok type ↔ Written text type := by
  constructor
  · intro read
    fun_induction parseChars text generalizing type
    case case3 body front inner back notBlank hypothesis =>
      obtain ⟨head, opened, enclosed⟩ := afterListHead?_eq_some_iff.mp front
      rw [beforeListTail?_eq_some_iff.mp back] at enclosed
      cases outcome : parseChars inner with
      | error error =>
          rw [outcome] at read
          cases read
      | ok element =>
          rw [outcome] at read
          cases read
          exact .list opened enclosed (hypothesis outcome)
    case case5 spelled =>
      cases read
      exact .primitive spelled
    case case6 free named =>
      cases read
      exact .model named free
    case case1 | case2 | case4 | case7 => cases read
  · intro written
    induction written with
    | @primitive text type spelled =>
        obtain ⟨given, solid⟩ := Primitive.solid_of_ofKeyword? spelled
        rw [String.toList_ofList] at given solid
        rw [parseChars_plain given fun inside => (solid '<' inside).2 rfl, spelled]
    | @model text named free =>
        obtain ⟨given, solid⟩ := solid_of_isName named
        rw [parseChars_plain given fun inside => (solid '<' inside).2 rfl, free]
        exact if_pos named
    | @list text head inner element opened enclosed written hypothesis =>
        have given : Text.allBlank inner = false := by
          refine Bool.eq_false_iff.mpr fun blank => ?_
          rw [parseChars, if_pos (Text.trim_eq_nil_iff.mpr blank)] at hypothesis
          cases hypothesis
        rw [parseChars_list opened enclosed, given, hypothesis]
        rfl

/-- A text writes types that can be written. -/
theorem Written.isNamed (written : Written text type) : type.IsNamed := by
  induction written with
  | primitive _ =>
      intro name mentioned
      cases mentioned
  | model named free =>
      intro name mentioned
      cases mentioned
      exact ⟨String.toList_ofList ▸ named, free⟩
  | list _ _ _ hypothesis => exact hypothesis

/-- A list is written with nothing around it that could be trimmed. -/
theorem trim_listText (text : String) : Text.trim ("list<" ++ text ++ ">").toList =
    "list".toList ++ '<' :: (text.toList ++ ['>']) := by
  have shape : ("list<" ++ text ++ ">").toList =
      "list".toList ++ '<' :: (text.toList ++ ['>']) := by simp
  rw [shape, Text.trim_eq_self]
  · simpa using (by decide : Text.isBlank 'l' = false)
  · simpa [List.getLast?_cons, List.getLast?_append] using (by decide : Text.isBlank '>' = false)

/-- What is printed for a type that can be written is one of its texts. -/
theorem written_print (named : type.IsNamed) : Written type.print.toList type := by
  induction type with
  | primitive type =>
      have found := Primitive.ofKeyword?_keyword type
      have solid := (Primitive.solid_of_ofKeyword? found).2
      refine .primitive ?_
      rw [print, Text.trim_eq_self_of_forall fun character inside => (solid character inside).1,
        String.ofList_toList, found]
  | model name =>
      obtain ⟨shaped, free⟩ := named name rfl
      have solid := (solid_of_isName shaped).2
      have trimmed : Text.trim name.toList = name.toList :=
        Text.trim_eq_self_of_forall fun character inside => (solid character inside).1
      have written : Written name.toList (.model (String.ofList (Text.trim name.toList))) :=
        .model (by rwa [trimmed]) (by rwa [trimmed, String.ofList_toList])
      rwa [trimmed, String.ofList_toList] at written
  | list element hypothesis =>
      exact .list (by decide) (trim_listText element.print) (hypothesis named)

/-- The texts of a type stand for it, and its printed text stands for all of them. A type is read
back from what is printed for it exactly when it can be written; every type that is read from a text
is such a type, and two texts have the same type exactly when the same text is printed for both. -/
theorem print_canonical :
    (∀ type : TypeRef, parse type.print = .ok type ↔ type.IsNamed) ∧
      (∀ text type, parse text = .ok type → parse type.print = .ok type) ∧
      ∀ text other type otherType, parse text = .ok type → parse other = .ok otherType →
        (type = otherType ↔ type.print = otherType.print) := by
  have readBack : ∀ type : TypeRef, parse type.print = .ok type ↔ type.IsNamed := fun type =>
    ⟨fun read => (parseChars_eq_ok_iff.mp read).isNamed,
      fun named => parseChars_eq_ok_iff.mpr (written_print named)⟩
  have canonical : ∀ text type, parse text = .ok type → parse type.print = .ok type :=
    fun _ type read => (readBack type).mpr (parseChars_eq_ok_iff.mp read).isNamed
  refine ⟨readBack, canonical, fun text other type otherType read otherRead => ?_⟩
  constructor
  · rintro rfl
    rfl
  · intro same
    have printed := canonical text type read
    rw [same, canonical other otherType otherRead] at printed
    exact (Except.ok.inj printed).symm

/-- A list written in other letters and with blanks in it, and the text that is printed for it. -/
theorem sizes_canonical :
    parse " LIST<List< Größe\t> >" = .ok (.list (.list (.model "Größe"))) ∧
      (TypeRef.list (.list (.model "Größe"))).print = "list<list<Größe>>" ∧
      parse "list<list<Größe>>" = .ok (.list (.list (.model "Größe"))) := by
  have name : Written " Größe\t".toList (.model "Größe") :=
    .model (by decide +kernel) (by decide +kernel)
  have inner : Written "List< Größe\t> ".toList (.list (.model "Größe")) :=
    .list (by decide : "List".toList.map Char.toLower = _) (by decide +kernel) name
  have read : parse " LIST<List< Größe\t> >" = .ok (.list (.list (.model "Größe"))) :=
    parseChars_eq_ok_iff.mpr
      (.list (by decide : "LIST".toList.map Char.toLower = _) (by decide +kernel) inner)
  have printed : (TypeRef.list (.list (.model "Größe"))).print = "list<list<Größe>>" := by
    decide +kernel
  exact ⟨read, printed, printed ▸ print_canonical.2.1 _ _ read⟩

end TypeRef

end SchemaBeans

import SchemaBeans.Proofs.Imports
import SchemaBeans.Proofs.Paths

/-!
# The header of a source

A source starts with two comment lines and an empty one. The first line names the
schema document by its path, just as it is, so the header stands exactly when the
path has no line break inside. A path cannot make up for a break with comment marks
of its own: no name in it holds a separator.
-/

namespace SchemaBeans

namespace Text

/-- A character that ends a line of a source, on its own or in a pair. -/
def IsBreak (character : Char) : Prop := character = '\n' ∨ character = '\r'

/-- A text holds no line break. -/
structure OnOneLine (text : List Char) : Prop where
  feed : '\n' ∉ text
  carriage : '\r' ∉ text

/-- A text with a line feed for each of its line breaks: a line feed, a carriage return, or a
carriage return and the line feed after it. -/
def unifyBreaks : List Char → List Char
  | '\r' :: '\n' :: rest => '\n' :: unifyBreaks rest
  | '\r' :: rest => '\n' :: unifyBreaks rest
  | character :: rest => character :: unifyBreaks rest
  | [] => []

/-- The lines of a text as a compiler of the generated sources counts them. -/
def sourceLines (text : List Char) : List (List Char) := split '\n' (unifyBreaks text)

/-- Unifying breaks leaves a text as it is up to its first carriage return. -/
theorem unifyBreaks_append {front : List Char} (whole : '\r' ∉ front) (rest : List Char) :
    unifyBreaks (front ++ rest) = front ++ unifyBreaks rest := by
  induction front with
  | nil => rfl
  | cons character front hypothesis =>
      obtain ⟨plain, whole⟩ := not_or.mp (mt List.mem_cons.mpr whole)
      rw [List.cons_append, unifyBreaks, hypothesis whole, List.cons_append]
      · exact fun _ same _ => plain same.symm
      · exact fun same => plain same.symm

/-- A break ends a line, and takes a line feed with it if it is a carriage return. -/
theorem exists_sourceLines_eq {front : List Char} {character : Char} (whole : OnOneLine front)
    (breaks : IsBreak character) (rest : List Char) :
    ∃ taken left, rest = taken ++ left ∧ (taken = [] ∨ taken = ['\n']) ∧
      sourceLines (front ++ character :: rest) = front :: sourceLines left := by
  have cut : ∀ left, unifyBreaks (character :: rest) = '\n' :: unifyBreaks left →
      sourceLines (front ++ character :: rest) = front :: sourceLines left := by
    intro left same
    rw [sourceLines, unifyBreaks_append whole.carriage, same, split_append,
      split_eq_singleton whole.feed]
    rfl
  rcases breaks with rfl | rfl
  · exact ⟨[], rest, rfl, .inl rfl, cut rest rfl⟩
  · cases rest with
    | nil => exact ⟨[], [], rfl, .inl rfl, cut [] rfl⟩
    | cons other left =>
        by_cases feed : other = '\n'
        · subst feed
          exact ⟨['\n'], left, rfl, .inr rfl, cut left rfl⟩
        · refine ⟨[], other :: left, rfl, .inl rfl, cut (other :: left) ?_⟩
          rw [unifyBreaks]
          exact fun _ same => feed (List.cons.inj same).1

/-- A text on one line is the first line of what it starts. -/
theorem sourceLines_line {line : List Char} (whole : OnOneLine line) (rest : List Char) :
    sourceLines (line ++ '\n' :: rest) = line :: sourceLines rest := by
  have feed : unifyBreaks ('\n' :: rest) = '\n' :: unifyBreaks rest := rfl
  rw [sourceLines, unifyBreaks_append whole.carriage, feed, split_append,
    split_eq_singleton whole.feed]
  rfl

/-- The first line of a text starts the text. -/
theorem prefix_of_sourceLines {text line : List Char} {more : List (List Char)}
    (read : sourceLines text = line :: more) : line <+: text := by
  unfold sourceLines at read
  fun_induction unifyBreaks text generalizing line more with
  | case1 rest =>
      rw [split, if_pos rfl] at read
      exact (List.cons.inj read).1 ▸ List.nil_prefix
  | case2 rest =>
      rw [split, if_pos rfl] at read
      exact (List.cons.inj read).1 ▸ List.nil_prefix
  | case3 character rest _ _ hypothesis =>
      by_cases feed : character = '\n'
      · rw [split, if_pos feed] at read
        exact (List.cons.inj read).1 ▸ List.nil_prefix
      · cases pieces : split '\n' (unifyBreaks rest) with
        | nil => exact absurd pieces (split_ne_nil _ _)
        | cons piece others =>
            rw [split, if_neg feed, pieces] at read
            rw [← (List.cons.inj read).1, List.cons_prefix_cons]
            exact ⟨rfl, hypothesis pieces⟩
  | case4 =>
      rw [split] at read
      exact (List.cons.inj read).1 ▸ List.nil_prefix

/-- A text that is not on one line has a first break. -/
theorem exists_first_break {text : List Char} (broken : ¬ OnOneLine text) :
    ∃ front character rest, text = front ++ character :: rest ∧ OnOneLine front ∧
      IsBreak character := by
  induction text with
  | nil => exact absurd ⟨List.not_mem_nil, List.not_mem_nil⟩ broken
  | cons first text hypothesis =>
      by_cases breaks : IsBreak first
      · exact ⟨[], first, text, rfl, ⟨List.not_mem_nil, List.not_mem_nil⟩, breaks⟩
      · obtain ⟨feed, carriage⟩ := not_or.mp breaks
        have later : ¬ OnOneLine text := fun whole => broken
          ⟨by simp [Ne.symm feed, whole.feed], by simp [Ne.symm carriage, whole.carriage]⟩
        obtain ⟨front, character, rest, rfl, whole, breaks⟩ := hypothesis later
        exact ⟨first :: front, character, rest, rfl,
          ⟨by simp [Ne.symm feed, whole.feed], by simp [Ne.symm carriage, whole.carriage]⟩, breaks⟩

/-- What starts a text and lacks one of its characters starts what stands before that character. -/
theorem prefix_of_not_mem {start front rest : List Char} {character : Char}
    (apart : character ∉ start) (starts : start <+: front ++ character :: rest) :
    start <+: front := by
  rcases List.prefix_or_prefix_of_prefix starts (List.prefix_append _ _) with within | ⟨more, rfl⟩
  · exact within
  · rw [List.prefix_append_right_inj] at starts
    cases more with
    | nil => simp
    | cons first more =>
        obtain rfl := (List.cons_prefix_cons.mp starts).1
        simp at apart

/-- What is put together from texts on one line is on one line. -/
theorem OnOneLine.append {left right : List Char} (first : OnOneLine left)
    (second : OnOneLine right) : OnOneLine (left ++ right) :=
  ⟨by simp [first.feed, second.feed], by simp [first.carriage, second.carriage]⟩

end Text

namespace Path

/-- A piece is empty only if all pieces before it are. -/
def EmptyFirst (pieces : List (List Char)) : Prop :=
  pieces.Pairwise fun earlier later => earlier ≠ [] → later ≠ []

/-- Where no piece is empty, none is behind another one. -/
theorem emptyFirst_of_ne_nil {pieces : List (List Char)} (given : ∀ piece ∈ pieces, piece ≠ []) :
    EmptyFirst pieces :=
  List.pairwise_of_forall_mem_list fun _ _ later inside _ => given later inside

/-- An empty piece may stand in front. -/
theorem emptyFirst_cons_nil {pieces : List (List Char)} :
    EmptyFirst ([] :: pieces) ↔ EmptyFirst pieces := by
  simp [EmptyFirst]

/-- Steps and names are shown as the pieces that they stand for. -/
theorem text_of_pieceComponent? {piece : List Char} {component : Component}
    (stands : pieceComponent? piece = some component) :
    component.text.toList = piece ∧ piece ≠ [] := by
  unfold pieceComponent? at stands
  split at stands
  · cases stands
  · next given =>
      have some : piece ≠ [] := by
        rintro rfl
        exact given rfl
      split at stands
      · next up =>
          cases stands
          exact ⟨up.symm, some⟩
      · cases stands
        exact ⟨String.toList_ofList, some⟩

/-- A component is shown as one piece that is not empty. -/
def IsPiece (component : Component) : Prop :=
  component.text.toList ≠ [] ∧ '/' ∉ component.text.toList

/-- What stands for a piece of a path is shown as one. -/
theorem isPiece_of_pieceComponent? {pieces : List (List Char)}
    (whole : ∀ piece ∈ pieces, '/' ∉ piece) {component : Component}
    (inside : component ∈ pieces.filterMap pieceComponent?) :
    IsPiece component := by
  obtain ⟨piece, present, stands⟩ := List.mem_filterMap.mp inside
  obtain ⟨same, given⟩ := text_of_pieceComponent? stands
  exact ⟨same ▸ given, same ▸ whole piece present⟩

/-- A path that is shown component by component has no empty piece behind another one. -/
theorem emptyFirst_split_join {components : List Component}
    (plain : ∀ component ∈ components, IsPiece component) :
    EmptyFirst (Text.split '/'
      (Text.join ['/'] (components.map fun component => component.text.toList))) := by
  cases components with
  | nil => exact List.pairwise_singleton _ _
  | cons first others =>
      rw [Text.split_join (by simp)]
      · refine emptyFirst_of_ne_nil (List.forall_mem_map.mpr ?_)
        exact fun other inside => (plain other inside).1
      · exact List.forall_mem_map.mpr fun other inside => (plain other inside).2

/-- In what a path is shown as, only the root has empty pieces, and it comes first. -/
theorem emptyFirst_split_componentText (path : Path) :
    EmptyFirst (Text.split '/' path.componentText.toList) := by
  have inner : ∀ component ∈ (Text.split '/' path.text.toList).filterMap pieceComponent?,
      IsPiece component :=
    fun _ inside => isPiece_of_pieceComponent? (fun _ => Text.not_mem_of_mem_split) inside
  rw [toList_componentText, components_eq]
  generalize (Text.split '/' path.text.toList).filterMap pieceComponent? = others at inner
  unfold leading
  split
  · cases others with
    | nil => exact List.pairwise_pair.mpr fun given => absurd rfl given
    | cons first others =>
        -- The root is a separator itself, and one more follows it.
        change EmptyFirst (Text.split '/' ('/' :: '/' ::
          Text.join ['/'] ((first :: others).map fun component => component.text.toList)))
        rw [Text.split, if_pos rfl, Text.split, if_pos rfl, emptyFirst_cons_nil,
          emptyFirst_cons_nil]
        exact emptyFirst_split_join inner
  · refine emptyFirst_split_join (List.forall_mem_cons.mpr ⟨?_, inner⟩)
    exact ⟨by decide, by decide⟩
  · exact emptyFirst_split_join inner

/-- No two separators follow another character in what a path is shown as. -/
theorem componentText_ne {path : Path} {character : Char} (plain : character ≠ '/')
    (front rest : List Char) :
    path.componentText.toList ≠ front ++ character :: '/' :: '/' :: rest := by
  intro same
  have pieces := emptyFirst_split_componentText path
  have regroup : front ++ character :: '/' :: '/' :: rest =
      (front ++ [character]) ++ '/' :: '/' :: rest := by simp
  have empty : Text.split '/' ('/' :: rest) = [] :: Text.split '/' rest := by simp [Text.split]
  -- The last piece in front of the separators holds the character.
  obtain ⟨piece, present, inside⟩ :
      ∃ piece ∈ Text.split '/' (front ++ [character]), character ∈ piece := by
    rw [← Text.mem_join_iff plain, Text.join_split]
    simp
  rw [same, regroup, Text.split_append, empty, EmptyFirst, List.pairwise_append] at pieces
  exact pieces.2.2 piece present [] List.mem_cons_self (List.ne_nil_of_mem inside) rfl

end Path

namespace Bean

variable {options : EmitOptions} {model : Model} {fields : List Field} {index : Index}

/-- The line that may follow the header of a unit: that of its package, or, in the default package,
an import, the opening of its comment or the opening of its class. -/
inductive Opens (unit : SourceUnit) : List Char → Prop
  | package (given : unit.package ≠ "") : Opens unit ("package " ++ unit.package ++ ";").toList
  | imports (default : unit.package = "") (name : String) : Opens unit (importLine name).toList
  | comment (default : unit.package = "") : Opens unit "/**".toList
  | class_ (default : unit.package = "") :
      Opens unit ("public class " ++ unit.typeName ++ " \x7b").toList

/-- A unit starts with two comment lines, an empty line, and the line that may follow them. -/
def HeaderStands (unit : SourceUnit) : Prop :=
  ∃ first second opener rest,
    Text.sourceLines unit.source.toList = first :: second :: [] :: opener :: rest ∧
      "//".toList <+: first ∧ "//".toList <+: second ∧ Opens unit opener

/-- A source starts with its title and its notice, each on a line of its own. -/
theorem toList_sourceText_eq (options : EmitOptions) (model : Model) (fields : List Field) :
    (sourceText options model fields).toList = (titleLine model.source).toList ++ '\n' ::
      (noticeLine.toList ++ '\n' :: '\n' :: textOf (classLines options model fields)) := by
  rw [toList_sourceText, toList_header, headerLines]
  simp only [textOf_cons, textOf_nil, String.toList_empty, List.append_assoc, List.cons_append,
    List.nil_append]

/-- The shown path is on one line exactly when the path is. -/
theorem onOneLine_componentText_iff {path : Path} :
    Text.OnOneLine path.componentText.toList ↔ Text.OnOneLine path.text.toList := by
  have feed := @Path.mem_componentText_iff path '\n' (by decide) (by decide)
  have carriage := @Path.mem_componentText_iff path '\r' (by decide) (by decide)
  exact ⟨fun whole => ⟨mt feed.mpr whole.feed, mt carriage.mpr whole.carriage⟩,
    fun whole => ⟨mt feed.mp whole.feed, mt carriage.mp whole.carriage⟩⟩

/-- A header on single lines is read line by line. -/
theorem sourceLines_sourceText (whole : Text.OnOneLine model.source.text.toList) :
    Text.sourceLines (sourceText options model fields).toList =
      (titleLine model.source).toList :: noticeLine.toList :: [] ::
        Text.sourceLines (textOf (classLines options model fields)) := by
  have title : Text.OnOneLine (titleLine model.source).toList := by
    have start : Text.OnOneLine "// Generated by modelgen from ".toList := ⟨by simp, by simp⟩
    have ending : Text.OnOneLine ". Do not edit.".toList := ⟨by simp, by simp⟩
    unfold titleLine
    rw [String.toList_append, String.toList_append]
    exact (start.append (onOneLine_componentText_iff.mpr whole)).append ending
  have notice : Text.OnOneLine noticeLine.toList := by
    unfold noticeLine
    exact ⟨by simp, by simp⟩
  have empty : Text.OnOneLine [] := ⟨List.not_mem_nil, List.not_mem_nil⟩
  rw [toList_sourceText_eq, Text.sourceLines_line title, Text.sourceLines_line notice]
  exact congrArg _ (congrArg _ (Text.sourceLines_line empty _))

/-- A break in a path takes what follows it out of the comment: the second line of the source is no
comment line. -/
theorem not_prefix_of_broken (broken : ¬ Text.OnOneLine model.source.text.toList)
    {first second : List Char} {more : List (List Char)}
    (read : Text.sourceLines (sourceText options model fields).toList = first :: second :: more) :
    ¬ "//".toList <+: second := by
  intro commented
  obtain ⟨front, character, rest, shown, whole, breaks⟩ :=
    Text.exists_first_break (mt onOneLine_componentText_iff.mp broken)
  have start : Text.OnOneLine ("// Generated by modelgen from ".toList ++ front) :=
    Text.OnOneLine.append ⟨by simp, by simp⟩ whole
  obtain ⟨after, cut⟩ : ∃ after, (sourceText options model fields).toList =
      ("// Generated by modelgen from ".toList ++ front) ++
        character :: (rest ++ '.' :: after) := by
    have ending : ". Do not edit.".toList = '.' :: " Do not edit.".toList := by decide
    rw [toList_sourceText_eq]
    unfold titleLine
    rw [String.toList_append, String.toList_append, shown, ending]
    exact ⟨_, by simp only [List.append_assoc, List.cons_append]; rfl⟩
  obtain ⟨taken, left, same, feeds, lines⟩ :=
    Text.exists_sourceLines_eq start breaks (rest ++ '.' :: after)
  rw [cut, lines] at read
  have starts := commented.trans (Text.prefix_of_sourceLines (List.cons.inj read).2)
  have unmarked : '.' ∉ taken ++ "//".toList := by
    rcases feeds with rfl | rfl <;> decide
  have marked : taken ++ "//".toList <+: rest ++ '.' :: after := by
    rw [same]
    exact (List.prefix_append_right_inj taken).mpr starts
  obtain ⟨tail, rfl⟩ := Text.prefix_of_not_mem unmarked marked
  rcases feeds with rfl | rfl
  · refine Path.componentText_ne ?_ front tail shown
    rcases breaks with rfl | rfl <;> decide
  · have feed : '\n' ≠ '/' := by decide
    refine Path.componentText_ne feed (front ++ [character]) tail (shown.trans ?_)
    simp

/-- What the first line below a header is made of holds no line break. -/
structure OpenerUnbroken (options : EmitOptions) (model : Model) (fields : List Field) : Prop where
  package : Text.OnOneLine (Package.qualify options.basePackage model.space).toList
  imports : ∀ name ∈ imports fields, Text.OnOneLine name.toList
  typeName : Text.OnOneLine model.typeName.toList

/-- A package stands on one line. -/
theorem onOneLine_of_isPackage {package : String} (valid : Identifier.isPackage package = true) :
    Text.OnOneLine package.toList :=
  ⟨Package.not_mem_of_isPackage valid (by decide) (by decide),
    Package.not_mem_of_isPackage valid (by decide) (by decide)⟩

/-- The first line below the header of a loaded model is unbroken if the base package is. -/
theorem openerUnbroken_of_loadable (outer : Text.OnOneLine options.basePackage.toList)
    (loadable : model.Loadable) (named : ∀ name ∈ index.names, name.Identified)
    (written : model.properties.mapM (field options.basePackage index model) = .ok fields) :
    OpenerUnbroken options model fields := by
  have foreign_return : Foreign '\r' := ⟨by decide, by decide⟩
  have identified := loadable.identified
  have inner : ∀ character, Foreign character → ∀ segment ∈ model.space,
      character ∉ segment.toList := fun _ foreign segment inside =>
    Identifier.not_mem_of_isIdentifier (identified.space segment inside) foreign.part
  exact {
    package := ⟨Package.not_mem_qualify (by decide) outer.feed (inner _ foreign_lineFeed),
      Package.not_mem_qualify (by decide) outer.carriage (inner _ foreign_return)⟩
    imports := fun name inside =>
      ⟨not_mem_imports foreign_lineFeed outer.feed named written name inside,
        not_mem_imports foreign_return outer.carriage named written name inside⟩
    typeName := ⟨Identifier.not_mem_of_isIdentifier identified.typeName (by decide),
      Identifier.not_mem_of_isIdentifier identified.typeName (by decide)⟩ }

/-- The comment of a class opens on a line of its own. -/
theorem commentLines_cases (description : Option String) :
    commentLines "" description = [] ∨
      ∃ rest, commentLines "" description = "/**" :: rest := by
  cases description with
  | none => exact .inl rfl
  | some text =>
      unfold commentLines DocComment.lines
      dsimp only
      split
      · exact .inl rfl
      · exact .inr ⟨_, rfl⟩

/-- The first line of a class is the one that may follow the header. -/
theorem exists_opener (unbroken : OpenerUnbroken options model fields) {unit : SourceUnit}
    (package : unit.package = Package.qualify options.basePackage model.space)
    (typeName : unit.typeName = model.typeName) :
    ∃ opener rest, classLines options model fields = opener :: rest ∧
      Text.OnOneLine opener.toList ∧ Opens unit opener.toList := by
  unfold classLines packageLines
  split
  · next default =>
      have default : unit.package = "" := package.trans (String.isEmpty_iff.mp default)
      unfold importLines
      split
      · rcases commentLines_cases model.description with none | ⟨rest, comment⟩
        · rw [none]
          have opening : Text.OnOneLine "public class ".toList := ⟨by simp, by simp⟩
          have brace : Text.OnOneLine " \x7b".toList := ⟨by simp, by simp⟩
          refine ⟨_, _, rfl, ?_, typeName ▸ .class_ default⟩
          rw [String.toList_append, String.toList_append]
          exact (opening.append unbroken.typeName).append brace
        · rw [comment]
          exact ⟨_, _, rfl, ⟨by decide, by decide⟩, .comment default⟩
      · next some =>
          cases names : imports fields with
          | nil => simp [names] at some
          | cons name others =>
              have opening : Text.OnOneLine "import ".toList := ⟨by simp, by simp⟩
              have whole := unbroken.imports name (names ▸ List.mem_cons_self)
              refine ⟨_, _, rfl, ?_, .imports default name⟩
              rw [importLine, String.toList_append, String.toList_append]
              exact (opening.append whole).append ⟨by simp, by simp⟩
  · next given =>
      have opening : Text.OnOneLine "package ".toList := ⟨by simp, by simp⟩
      refine ⟨_, _, rfl, ?_, package ▸ .package ?_⟩
      · rw [String.toList_append, String.toList_append]
        exact (opening.append unbroken.package).append ⟨by simp, by simp⟩
      · rw [package]
        exact mt String.isEmpty_iff.mpr given

/-- The header of a unit stands exactly when the path of its schema document has no line break
inside. The path is written as it is, and nothing in it can take up the comment on the line below
a break. A base package that is a package is on one line itself. -/
theorem headerStands_iff (options : EmitOptions) (models : List Model)
    (package : Text.OnOneLine options.basePackage.toList)
    (loadable : ∀ model ∈ models, model.Loadable) (entry : Numbered)
    (kept : entry ∈ (Analysis.ofModels models).kept) :
    ∃ unit, emit options (Analysis.ofModels models).index entry.2 = .ok unit ∧
      (HeaderStands unit ↔ Text.OnOneLine entry.2.source.text.toList) := by
  obtain ⟨unit, emitted⟩ := exists_emit_of_kept options kept
  refine ⟨unit, emitted, ?_⟩
  obtain ⟨fields, written, same⟩ := emit_eq_ok_iff.mp emitted
  have source : unit.source = sourceText options entry.2 fields := congrArg SourceUnit.source same
  constructor
  · rintro ⟨first, second, opener, rest, read, _, commented, _⟩
    rw [source] at read
    by_contra broken
    exact not_prefix_of_broken broken read commented
  · intro whole
    have unbroken := openerUnbroken_of_loadable package (loadable_of_kept loadable kept)
      (fun _ inside => identified_of_mem_names loadable inside) written
    obtain ⟨opener, rest, lines, onOneLine, opens⟩ := exists_opener unbroken
      (congrArg SourceUnit.package same) (congrArg SourceUnit.typeName same)
    refine ⟨(titleLine entry.2.source).toList, noticeLine.toList, opener.toList,
      Text.sourceLines (textOf rest), ?_, ?_, ?_, opens⟩
    · rw [source, sourceLines_sourceText whole, lines, textOf_cons,
        Text.sourceLines_line onOneLine]
    · unfold titleLine
      simp
    · unfold noticeLine
      simp

/-- A ticket whose schema document has the given path. -/
def ticketOf (path : String) : Model := ⟨"Ticket", some "A ticket.", [], [], ⟨path⟩⟩

/-- The ticket could have been loaded, wherever its document is. -/
theorem loadable_ticketOf (path : String) : ∀ model ∈ [ticketOf path], model.Loadable := by
  have checked : (ticketOf "").issues = [] := by decide +kernel
  exact List.forall_mem_singleton.mpr ⟨checked, [], rfl⟩

/-- A blank in the name of a schema document does no harm to the header of its class. -/
theorem header_of_ticket :
    (0, ticketOf "a b.yaml") ∈ (Analysis.ofModels [ticketOf "a b.yaml"]).kept ∧
      ∃ unit, emit ⟨"com.example", []⟩ (Analysis.ofModels [ticketOf "a b.yaml"]).index
          (ticketOf "a b.yaml") = .ok unit ∧ HeaderStands unit := by
  have kept : (0, ticketOf "a b.yaml") ∈ (Analysis.ofModels [ticketOf "a b.yaml"]).kept := by
    decide +kernel
  obtain ⟨unit, emitted, stands⟩ := headerStands_iff ⟨"com.example", []⟩ [ticketOf "a b.yaml"]
    (onOneLine_of_isPackage (by decide +kernel)) (loadable_ticketOf _) (0, ticketOf "a b.yaml") kept
  exact ⟨kept, unit, emitted, stands.mpr ⟨by decide, by decide⟩⟩

/-- A line feed in the name of a schema document breaks the header of its class. -/
theorem header_broken :
    ¬ ∀ (options : EmitOptions) (models : List Model),
      Identifier.isPackage options.basePackage = true → (∀ model ∈ models, model.Loadable) →
      ∀ entry ∈ (Analysis.ofModels models).kept, ∀ unit,
        emit options (Analysis.ofModels models).index entry.2 = .ok unit → HeaderStands unit := by
  intro always
  have kept : (0, ticketOf "a\nb.yaml") ∈ (Analysis.ofModels [ticketOf "a\nb.yaml"]).kept := by
    decide +kernel
  obtain ⟨unit, emitted⟩ := exists_emit_of_kept ⟨"com.example", []⟩ kept
  obtain ⟨first, second, opener, rest, read, _, commented, _⟩ := always ⟨"com.example", []⟩
    [ticketOf "a\nb.yaml"] (by decide +kernel) (loadable_ticketOf _) _ kept unit emitted
  obtain ⟨fields, written, rfl⟩ := emit_eq_ok_iff.mp emitted
  have broken : ¬ Text.OnOneLine (ticketOf "a\nb.yaml").source.text.toList :=
    fun whole => whole.feed (by decide)
  exact not_prefix_of_broken broken read commented

end Bean

end SchemaBeans

import SchemaBeans.Bean
import SchemaBeans.Proofs.DocComment
import SchemaBeans.Proofs.Paths

/-!
# The lines of a class

A source is its header and then, line by line, the package, the imports, the
comment, the class with its fields and accessors, and the enabled boilerplate.
`classLines` lists these lines; what is said of a source as a text is read off
this list.
-/

namespace SchemaBeans.Bean

/-- The lines of a comment for an optional description. -/
def commentLines (indent : String) (description : Option String) : List String :=
  match description with
  | some text => (DocComment.lines indent.toList text.toList).map String.ofList
  | none => []

/-- The line that names the schema document of a source. -/
def titleLine (source : Path) : String :=
  "// Generated by modelgen from " ++ source.componentText ++ ". Do not edit."

/-- The line that warns of changes made by hand. -/
def noticeLine : String := "// Regenerating overwrites this file; changes made by hand are lost."

/-- The lines above a class; the last of them is empty. -/
def headerLines (source : Path) : List String := [titleLine source, noticeLine, ""]

def packageLines (package : String) : List String :=
  if package.isEmpty then [] else ["package " ++ package ++ ";", ""]

/-- The declaration of one import. -/
def importLine (name : String) : String := "import " ++ name ++ ";"

def importLines (imports : List String) : List String :=
  if imports.isEmpty then [] else imports.map importLine ++ [""]

def fieldLines (field : Field) : List String :=
  commentLines "    " field.property.description ++
    ["    private " ++ field.type.text ++ " " ++ field.property.name ++ ";"]

def accessorLines (field : Field) : List String :=
  let name := field.property.name
  let type := field.type.text
  ["", "    public " ++ type ++ " " ++ Naming.getter name ++ "() \x7b",
   "        return " ++ name ++ ";", "    \x7d",
   "", "    public void " ++ Naming.setter name ++ "(" ++ type ++ " " ++ name ++ ") \x7b",
   "        this." ++ name ++ " = " ++ name ++ ";", "    \x7d"]

/-- The lines between the braces of a class. -/
def bodyLines (options : EmitOptions) (fields : List Field) : List String :=
  (if fields.isEmpty then [] else [""]) ++ fields.flatMap fieldLines ++
    fields.flatMap accessorLines ++ options.boilerplate.flatMap fun method => "" :: method.lines

/-- The lines of a source below its header. -/
def classLines (options : EmitOptions) (model : Model) (fields : List Field) : List String :=
  packageLines (Package.qualify options.basePackage model.space) ++ importLines (imports fields) ++
    commentLines "" model.description ++ ["public class " ++ model.typeName ++ " \x7b"] ++
    bodyLines options fields ++ ["\x7d"]

/-- The text of some lines. -/
def textOf (lines : List String) : List Char := Text.unlines (lines.map String.toList)

@[simp] theorem textOf_nil : textOf [] = [] := rfl

@[simp] theorem textOf_cons (line : String) (lines : List String) :
    textOf (line :: lines) = line.toList ++ '\n' :: textOf lines := by
  simp [textOf]

/-- The text of lines and further lines is the one of the first and then that of the others. -/
@[simp] theorem textOf_append (left right : List String) :
    textOf (left ++ right) = textOf left ++ textOf right := by
  simp [textOf]

/-- Texts that are the lines of their elements make up the lines of all elements. -/
theorem toList_join_map {α : Type} (text : α → String) (lines : α → List String)
    (same : ∀ element, (text element).toList = textOf (lines element)) (elements : List α) :
    (String.join (elements.map text)).toList = textOf (elements.flatMap lines) := by
  induction elements with
  | nil => simp
  | cons element elements hypothesis =>
      simp only [List.map_cons, String.join_cons, String.toList_append, List.flatMap_cons,
        textOf_append, same, hypothesis]

/-- The header is the text of its lines. -/
theorem toList_header (source : Path) : (header source).toList = textOf (headerLines source) := by
  unfold header headerLines titleLine noticeLine
  simp only [textOf_cons, textOf_nil, String.toList_append, String.reduceToList, List.append_assoc,
    List.cons_append, List.nil_append]

/-- A documentation comment is the text of its lines. -/
theorem toList_comment (indent : String) (description : Option String) :
    (comment indent description).toList = textOf (commentLines indent description) := by
  cases description with
  | none => simp [comment, commentLines]
  | some text =>
      simp [comment, commentLines, DocComment.render, textOf, Text.unlines]

/-- The package declaration is the text of its lines. -/
theorem toList_packageText (package : String) :
    (packageText package).toList = textOf (packageLines package) := by
  unfold packageText packageLines
  split
  · rfl
  · simp only [textOf_cons, textOf_nil, String.toList_append, String.reduceToList,
      List.cons_append, List.nil_append, List.append_assoc]

/-- The import declarations are the text of their lines. -/
theorem toList_importsText (imports : List String) :
    (importsText imports).toList = textOf (importLines imports) := by
  unfold importsText importLines
  split
  · rfl
  · have lines : (String.join (imports.map fun name => "import " ++ name ++ ";\n")).toList =
        textOf (imports.flatMap fun name => [importLine name]) := by
      refine toList_join_map _ _ (fun name => ?_) imports
      simp only [importLine, textOf_cons, textOf_nil, String.toList_append, String.reduceToList,
        List.append_assoc, List.cons_append, List.nil_append]
    rw [String.toList_append, lines, textOf_append, ← List.map_eq_flatMap]
    rfl

/-- The declaration of a field is the text of its lines. -/
theorem toList_fieldText (field : Field) :
    (fieldText field).toList = textOf (fieldLines field) := by
  unfold fieldText fieldLines
  simp only [textOf_append, textOf_cons, textOf_nil, String.toList_append, toList_comment,
    String.reduceToList, List.append_assoc, List.cons_append, List.nil_append]

/-- The accessors of a field are the text of their lines. -/
theorem toList_accessorsText (field : Field) :
    (accessorsText field).toList = textOf (accessorLines field) := by
  unfold accessorsText accessorLines
  simp only [textOf_cons, textOf_nil, String.toList_append, String.reduceToList,
    List.append_assoc, List.cons_append, List.nil_append]

/-- A boilerplate method is the text of its lines below an empty one. -/
theorem toList_render (method : Boilerplate) :
    ("\n" ++ method.render).toList = textOf ("" :: method.lines) := by
  simp [Boilerplate.render, textOf, Text.unlines, String.toList_join, List.flatMap_map]

/-- The body of a class is the text of its lines. -/
theorem toList_bodyText (options : EmitOptions) (fields : List Field) :
    (bodyText options fields).toList = textOf (bodyLines options fields) := by
  have opening : (if fields.isEmpty then "" else "\n").toList =
      textOf (if fields.isEmpty then [] else [""]) := by
    split <;> rfl
  unfold bodyText bodyLines
  simp only [textOf_append, String.toList_append, opening,
    toList_join_map _ _ toList_fieldText, toList_join_map _ _ toList_accessorsText,
    toList_join_map _ _ toList_render]

/-- A source is its header and the lines of its class. -/
theorem toList_sourceText (options : EmitOptions) (model : Model) (fields : List Field) :
    (sourceText options model fields).toList =
      (header model.source).toList ++ textOf (classLines options model fields) := by
  unfold sourceText classLines
  simp only [textOf_append, textOf_cons, textOf_nil, String.toList_append, toList_packageText,
    toList_importsText, toList_comment, toList_bodyText, String.reduceToList, List.append_assoc,
    List.cons_append, List.nil_append]

/-- No name in a class holds a line feed. -/
structure Unbroken (options : EmitOptions) (model : Model) (fields : List Field) : Prop where
  package : '\n' ∉ (Package.qualify options.basePackage model.space).toList
  imports : ∀ name ∈ imports fields, '\n' ∉ name.toList
  typeName : '\n' ∉ model.typeName.toList
  types : ∀ field ∈ fields, '\n' ∉ field.type.text.toList
  names : ∀ field ∈ fields, '\n' ∉ field.property.name.toList
  stems : ∀ field ∈ fields, '\n' ∉ (Identifier.stem field.property.name).toList

/-- A line that is no import, whatever it holds: it starts otherwise and holds no line feed. -/
structure Apart (line : String) : Prop where
  whole : '\n' ∉ line.toList
  start : line.toList.head? ≠ some 'i'

/-- A line of a comment is no import, whatever the description says. -/
theorem apart_of_mem_commentLines {indent line : String} {description : Option String}
    (plain : Apart indent) (inside : line ∈ commentLines indent description) : Apart line := by
  cases description with
  | none => cases inside
  | some text =>
      obtain ⟨written, present, rfl⟩ := List.mem_map.mp inside
      obtain ⟨first, rest, rfl, opening, whole⟩ := DocComment.exists_of_mem_lines present
      constructor
      · rw [String.toList_ofList, List.mem_append]
        exact not_or.mpr ⟨plain.whole, whole⟩
      · have start := plain.start
        rw [String.toList_ofList]
        cases indentation : indent.toList with
        | nil => rcases opening with rfl | rfl <;> simp
        | cons blank blanks => simpa [indentation] using start

/-- A line of the package declaration is no import. -/
theorem apart_of_mem_packageLines {package line : String} (whole : '\n' ∉ package.toList)
    (inside : line ∈ packageLines package) : Apart line := by
  unfold packageLines at inside
  split at inside
  · cases inside
  · simp only [List.mem_cons, List.not_mem_nil, or_false] at inside
    rcases inside with rfl | rfl
    · exact ⟨by simp [whole], by simp⟩
    · exact ⟨by simp, by simp⟩

/-- A line of the declaration of a field is no import. -/
theorem apart_of_mem_fieldLines {field : Field} {line : String}
    (type : '\n' ∉ field.type.text.toList) (name : '\n' ∉ field.property.name.toList)
    (inside : line ∈ fieldLines field) : Apart line := by
  rcases List.mem_append.mp inside with comment | declaration
  · exact apart_of_mem_commentLines ⟨by decide, by decide⟩ comment
  · obtain rfl := List.mem_singleton.mp declaration
    exact ⟨by simp [type, name], by simp⟩

/-- A line of the accessors of a field is no import. -/
theorem apart_of_mem_accessorLines {field : Field} {line : String}
    (type : '\n' ∉ field.type.text.toList) (name : '\n' ∉ field.property.name.toList)
    (stem : '\n' ∉ (Identifier.stem field.property.name).toList)
    (inside : line ∈ accessorLines field) : Apart line := by
  unfold accessorLines at inside
  simp only [List.mem_cons, List.not_mem_nil, or_false] at inside
  rcases inside with rfl | rfl | rfl | rfl | rfl | rfl | rfl | rfl <;>
    exact ⟨by simp [Naming.getter, Naming.setter, Naming.accessor, type, name, stem], by simp⟩

/-- A line of a boilerplate method is no import. -/
theorem apart_of_mem_methodLines {method : Boilerplate} {line : String}
    (inside : line ∈ method.lines) : Apart line := by
  cases method with
  | sumOfTen =>
      have whole : ∀ line ∈ Boilerplate.sumOfTen.lines, '\n' ∉ line.toList := by decide +kernel
      have start : ∀ line ∈ Boilerplate.sumOfTen.lines, line.toList.head? ≠ some 'i' := by
        decide +kernel
      exact ⟨whole line inside, start line inside⟩

/-- No line in the body of a class is an import. -/
theorem apart_of_mem_bodyLines {options : EmitOptions} {model : Model} {fields : List Field}
    (unbroken : Unbroken options model fields) {line : String}
    (inside : line ∈ bodyLines options fields) : Apart line := by
  have empty : Apart "" := ⟨by simp, by simp⟩
  simp only [bodyLines, List.mem_append, List.mem_flatMap, List.mem_cons] at inside
  rcases inside with ((opening | ⟨field, declared, inside⟩) | ⟨field, declared, inside⟩) |
    ⟨method, _, rfl | inside⟩
  · split at opening
    · cases opening
    · exact List.mem_singleton.mp opening ▸ empty
  · exact apart_of_mem_fieldLines (unbroken.types field declared) (unbroken.names field declared)
      inside
  · exact apart_of_mem_accessorLines (unbroken.types field declared)
      (unbroken.names field declared) (unbroken.stems field declared) inside
  · exact empty
  · exact apart_of_mem_methodLines inside

/-- Whether a line declares an import. -/
def isImportLine (line : List Char) : Bool := "import ".toList.isPrefixOf line

/-- The lines of a text that declare imports. -/
def importLinesOf (text : String) : List (List Char) :=
  (Text.lines text.toList).filter isImportLine

/-- The lines of a text that are read back from what was written line by line. -/
def readBack (lines : List String) : List (List Char) :=
  lines.map fun line => Text.withoutReturn line.toList

/-- What is no import as written is none as read back, even if it lost a carriage return. -/
theorem not_isImportLine_of_apart {line : String} (apart : Apart line) :
    ¬ isImportLine (Text.withoutReturn line.toList) = true := by
  intro imported
  have opening := (List.isPrefixOf_iff_prefix.mp imported).trans (Text.withoutReturn_isPrefix _)
  obtain ⟨rest, same⟩ := opening
  refine apart.start ?_
  rw [← same]
  rfl

/-- No import is read back from lines that are none. -/
theorem filter_readBack_of_apart {lines : List String} (apart : ∀ line ∈ lines, Apart line) :
    (readBack lines).filter isImportLine = [] := by
  rw [List.filter_eq_nil_iff]
  intro line inside
  obtain ⟨written, present, rfl⟩ := List.mem_map.mp inside
  exact not_isImportLine_of_apart (apart written present)

/-- An import declaration ends with a semicolon, so it is read back as it is. -/
theorem readBack_importLine (name : String) :
    Text.withoutReturn (importLine name).toList = (importLine name).toList := by
  have ending : (importLine name).toList = ("import " ++ name).toList ++ [';'] := by
    simp [importLine]
  refine Text.withoutReturn_eq_self ?_
  rw [ending, List.getLast?_concat]
  simp

/-- Import declarations are read back as such. -/
theorem filter_readBack_importLines (names : List String) :
    (readBack (importLines names)).filter isImportLine =
      names.map fun name => (importLine name).toList := by
  have declared : (readBack (names.map importLine)).filter isImportLine =
      names.map fun name => (importLine name).toList := by
    simp only [readBack, List.map_map, Function.comp_def, readBack_importLine]
    rw [List.filter_eq_self]
    intro line inside
    obtain ⟨name, _, rfl⟩ := List.mem_map.mp inside
    refine List.isPrefixOf_iff_prefix.mpr ⟨name.toList ++ [';'], ?_⟩
    simp [importLine]
  unfold importLines
  split
  · next empty => simp [List.isEmpty_iff.mp empty, readBack]
  · have blank : (readBack [""]).filter isImportLine = [] :=
      filter_readBack_of_apart (by simpa using ⟨by simp, by simp⟩)
    rw [readBack, List.map_append, List.filter_append, ← readBack, ← readBack, declared, blank,
      List.append_nil]

/-- Imports of names without line feeds hold no line feed. -/
theorem not_mem_of_mem_importLines {names : List String} {line : String}
    (whole : ∀ name ∈ names, '\n' ∉ name.toList) (inside : line ∈ importLines names) :
    '\n' ∉ line.toList := by
  unfold importLines at inside
  split at inside
  · cases inside
  · rcases List.mem_append.mp inside with declared | blank
    · obtain ⟨name, present, rfl⟩ := List.mem_map.mp declared
      simp [importLine, whole name present]
    · simp [List.mem_singleton.mp blank]

variable {options : EmitOptions} {model : Model} {fields : List Field}

/-- The lines of a class are those of its imports between lines that are no imports. -/
theorem classLines_eq (unbroken : Unbroken options model fields) :
    ∃ before after, classLines options model fields =
        before ++ importLines (imports fields) ++ after ∧
      (∀ line ∈ before, Apart line) ∧ ∀ line ∈ after, Apart line := by
  refine ⟨packageLines (Package.qualify options.basePackage model.space),
    commentLines "" model.description ++ ["public class " ++ model.typeName ++ " \x7b"] ++
      bodyLines options fields ++ ["\x7d"], ?_, ?_, ?_⟩
  · simp only [classLines, List.append_assoc]
  · exact fun line inside => apart_of_mem_packageLines unbroken.package inside
  · intro line inside
    simp only [List.mem_append, List.mem_singleton] at inside
    rcases inside with ((comment | rfl) | body) | rfl
    · exact apart_of_mem_commentLines ⟨by simp, by simp⟩ comment
    · exact ⟨by simp [unbroken.typeName], by simp⟩
    · exact apart_of_mem_bodyLines unbroken body
    · exact ⟨by decide, by decide⟩

/-- No line of a class holds a line feed. -/
theorem not_mem_of_mem_classLines (unbroken : Unbroken options model fields) {line : String}
    (inside : line ∈ classLines options model fields) : '\n' ∉ line.toList := by
  obtain ⟨before, after, same, beforeApart, afterApart⟩ := classLines_eq unbroken
  rw [same, List.mem_append, List.mem_append] at inside
  rcases inside with (inside | inside) | inside
  · exact (beforeApart line inside).whole
  · exact not_mem_of_mem_importLines unbroken.imports inside
  · exact (afterApart line inside).whole

/-- No line of a header holds a line feed, if the path of the schema document has none. -/
theorem not_mem_of_mem_headerLines {source : Path} (located : '\n' ∉ source.text.toList) :
    ∀ line ∈ headerLines source, '\n' ∉ line.toList := by
  have path : '\n' ∉ source.componentText.toList :=
    mt (Path.mem_componentText_iff (by decide) (by decide)).mp located
  have title : '\n' ∉ (titleLine source).toList := by
    unfold titleLine
    simp [path]
  have notice : '\n' ∉ noticeLine.toList := by
    unfold noticeLine
    simp
  exact List.forall_mem_cons.mpr ⟨title, List.forall_mem_cons.mpr
    ⟨notice, List.forall_mem_singleton.mpr List.not_mem_nil⟩⟩

/-- The lines of a source are those of its header and those of its class. -/
theorem lines_sourceText (unbroken : Unbroken options model fields) :
    Text.lines (sourceText options model fields).toList =
      Text.lines (header model.source).toList ++ readBack (classLines options model fields) := by
  have whole : ∀ line ∈ (classLines options model fields).map String.toList, '\n' ∉ line :=
    List.forall_mem_map.mpr fun _ => not_mem_of_mem_classLines unbroken
  rw [toList_sourceText, toList_header, textOf, textOf, Text.lines_unlines_append,
    Text.lines_unlines whole, readBack, List.map_map]
  rfl

/-- A source has the imports of its class, below those lines of its header that look like some. -/
theorem importLinesOf_sourceText (unbroken : Unbroken options model fields) :
    importLinesOf (sourceText options model fields) = importLinesOf (header model.source) ++
      (imports fields).map fun name => (importLine name).toList := by
  obtain ⟨before, after, same, beforeApart, afterApart⟩ := classLines_eq unbroken
  have split : readBack (classLines options model fields) =
      readBack before ++ readBack (importLines (imports fields)) ++ readBack after := by
    rw [same, readBack, List.map_append, List.map_append]
    rfl
  rw [importLinesOf, lines_sourceText unbroken, List.filter_append, split, List.filter_append,
    List.filter_append, filter_readBack_of_apart beforeApart, filter_readBack_of_apart afterApart,
    filter_readBack_importLines, List.nil_append, List.append_nil]
  rfl

end SchemaBeans.Bean

import SchemaBeans.Proofs.Imports
import SchemaBeans.Proofs.Paths

/-!
# What a class declares

The declarations of a class are the lines that start with an indentation and a
visibility. They are those of its fields and then those of its methods, whatever
its comments hold: below their indentation, the lines of a comment start otherwise.
-/

namespace SchemaBeans.Bean

/-- Whether a line declares a field. -/
def isFieldLine (line : List Char) : Bool := "    private ".toList.isPrefixOf line

/-- Whether a line opens a method. -/
def isMethodLine (line : List Char) : Bool := "    public ".toList.isPrefixOf line

/-- Whether a line declares a member of a class. -/
def isMemberLine (line : List Char) : Bool := isFieldLine line || isMethodLine line

/-- The declaration of a field. -/
def fieldLine (field : Field) : String :=
  "    private " ++ field.type.text ++ " " ++ field.property.name ++ ";"

/-- The line that opens the getter of a field. -/
def getterLine (field : Field) : String :=
  "    public " ++ field.type.text ++ " " ++ Naming.getter field.property.name ++ "() \x7b"

/-- The line that opens the setter of a field. -/
def setterLine (field : Field) : String :=
  "    public void " ++ Naming.setter field.property.name ++ "(" ++ field.type.text ++ " " ++
    field.property.name ++ ") \x7b"

/-- The line that opens a boilerplate method. -/
def boilerplateLine (method : Boilerplate) : String :=
  "    public int " ++ method.methodName ++ "() \x7b"

/-- The lines that open the methods of a class: two accessors for each field, then the
boilerplate. -/
def openingLines (options : EmitOptions) (fields : List Field) : List String :=
  (fields.flatMap fun field => [getterLine field, setterLine field]) ++
    options.boilerplate.map boilerplateLine

/-- The declarations that are read in a source are those of the given fields. -/
structure ReadsBack (options : EmitOptions) (fields : List Field) (source : String) : Prop where
  declared : (Text.lines source.toList).filter isFieldLine =
    fields.map fun field => (fieldLine field).toList
  opened : (Text.lines source.toList).filter isMethodLine =
    (openingLines options fields).map String.toList
  inOrder : (Text.lines source.toList).filter isMemberLine =
    (fields.map fun field => (fieldLine field).toList) ++
      (openingLines options fields).map String.toList

/-- A line declares a field in full. -/
def DeclaresField (line : String) : Prop := ∃ rest, line = "    private " ++ rest ++ ";"

/-- A line opens a method in full. -/
def OpensMethod (line : String) : Prop := ∃ rest, line = "    public " ++ rest ++ " \x7b"

/-- The line of a field declares it in full. -/
theorem declaresField_fieldLine (field : Field) : DeclaresField (fieldLine field) := by
  refine ⟨field.type.text ++ " " ++ field.property.name, ?_⟩
  simp only [fieldLine, String.append_assoc]

/-- Each line that opens a method does so in full. -/
theorem opensMethod_of_mem {options : EmitOptions} {fields : List Field} {line : String}
    (inside : line ∈ openingLines options fields) : OpensMethod line := by
  simp only [openingLines, List.mem_append, List.mem_flatMap, List.mem_map, List.mem_cons,
    List.not_mem_nil, or_false] at inside
  have brace : "() \x7b" = "()" ++ " \x7b" ∧ ") \x7b" = ")" ++ " \x7b" := by decide
  have returned : "    public void " = "    public " ++ "void " ∧
      "    public int " = "    public " ++ "int " := by decide
  -- What a method is called does not matter, so its name is taken out of the way first.
  rcases inside with ⟨field, _, rfl | rfl⟩ | ⟨method, _, rfl⟩
  · unfold getterLine
    generalize Naming.getter field.property.name = accessor
    refine ⟨field.type.text ++ " " ++ accessor ++ "()", ?_⟩
    simp only [brace.1, String.append_assoc]
  · unfold setterLine
    generalize Naming.setter field.property.name = accessor
    refine ⟨"void " ++ accessor ++ "(" ++ field.type.text ++ " " ++ field.property.name ++ ")", ?_⟩
    simp only [returned.1, brace.2, String.append_assoc]
  · unfold boilerplateLine
    generalize method.methodName = name
    refine ⟨"int " ++ name ++ "()", ?_⟩
    simp only [returned.2, brace.1, String.append_assoc]

/-- A declaration of a field is not taken for a method. -/
theorem DeclaresField.kind {line : String} (declares : DeclaresField line) :
    isFieldLine line.toList = true ∧ isMethodLine line.toList = false := by
  obtain ⟨rest, rfl⟩ := declares
  simp [isFieldLine, isMethodLine, List.isPrefixOf]

/-- The opening of a method is not taken for a field. -/
theorem OpensMethod.kind {line : String} (opens : OpensMethod line) :
    isFieldLine line.toList = false ∧ isMethodLine line.toList = true := by
  obtain ⟨rest, rfl⟩ := opens
  simp [isFieldLine, isMethodLine, List.isPrefixOf]

/-- The lines among some written ones that are read back as declarations. -/
def members (lines : List String) : List (List Char) := (readBack lines).filter isMemberLine

/-- The declarations of lines and further lines are read back one after the other. -/
@[simp] theorem members_append (left right : List String) :
    members (left ++ right) = members left ++ members right := by
  simp [members, readBack]

/-- The declarations of groups of lines are read back group by group. -/
theorem members_flatMap {α : Type} (lines : α → List String) (elements : List α) :
    members (elements.flatMap lines) = elements.flatMap fun element => members (lines element) := by
  induction elements with
  | nil => rfl
  | cons element elements hypothesis =>
      rw [List.flatMap_cons, members_append, hypothesis, List.flatMap_cons]

/-- A line that declares nothing, with or without what is read of it: no visibility follows its
indentation. -/
def IsQuiet (line : String) : Prop := ¬ "    p".toList <+: line.toList

/-- Fields and methods are indented, and their visibility follows. -/
theorem prefix_of_isMemberLine {line : List Char} (member : isMemberLine line = true) :
    "    p".toList <+: line := by
  rcases Bool.or_eq_true_iff.mp member with field | method
  · exact .trans (by decide) (List.isPrefixOf_iff_prefix.mp field)
  · exact .trans (by decide) (List.isPrefixOf_iff_prefix.mp method)

/-- No declarations are read back from lines that declare nothing. -/
theorem members_eq_nil {lines : List String} (quiet : ∀ line ∈ lines, IsQuiet line) :
    members lines = [] := by
  refine List.filter_eq_nil_iff.mpr fun line inside member => ?_
  obtain ⟨written, present, rfl⟩ := List.mem_map.mp inside
  exact quiet written present
    ((prefix_of_isMemberLine member).trans (Text.withoutReturn_isPrefix written.toList))

/-- A declaration is read back as it is written: no carriage return ends it. -/
theorem members_singleton {line : String} (member : isMemberLine line.toList = true)
    (plain : line.toList.getLast? ≠ some '\r') : members [line] = [line.toList] := by
  simp [members, readBack, Text.withoutReturn_eq_self plain, member]

/-- The declaration of a field is read back as it is. -/
theorem DeclaresField.members_eq {line : String} (declares : DeclaresField line) :
    members [line] = [line.toList] := by
  refine members_singleton (by simp [isMemberLine, declares.kind]) ?_
  obtain ⟨rest, rfl⟩ := declares
  simp [List.getLast?_cons]

/-- The opening of a method is read back as it is. -/
theorem OpensMethod.members_eq {line : String} (opens : OpensMethod line) :
    members [line] = [line.toList] := by
  refine members_singleton (by simp [isMemberLine, opens.kind]) ?_
  obtain ⟨rest, rfl⟩ := opens
  simp [List.getLast?_cons]

/-- A line of a comment declares nothing: its indentation is followed by a mark. -/
theorem isQuiet_of_mem_commentLines {indent line : String} {description : Option String}
    (blank : indent = "" ∨ indent = "    ") (inside : line ∈ commentLines indent description) :
    IsQuiet line := by
  cases description with
  | none => cases inside
  | some text =>
      obtain ⟨written, present, rfl⟩ := List.mem_map.mp inside
      -- The comment's own mark stands where a declaration has its visibility.
      obtain ⟨rest, marked⟩ := DocComment.exists_mark_of_mem_lines present
      unfold IsQuiet
      rw [String.toList_ofList]
      rcases marked with rfl | rfl <;> rcases blank with rfl | rfl <;> simp

/-- A comment holds no declarations, whatever the description says. -/
theorem members_commentLines {indent : String} {description : Option String}
    (blank : indent = "" ∨ indent = "    ") : members (commentLines indent description) = [] :=
  members_eq_nil fun _ inside => isQuiet_of_mem_commentLines blank inside

/-- A field has one declaration, below its comment. -/
theorem members_fieldLines (field : Field) :
    members (fieldLines field) = [(fieldLine field).toList] := by
  rw [fieldLines, members_append, members_commentLines (.inr rfl), List.nil_append]
  exact (declaresField_fieldLine field).members_eq

/-- The accessors of a field have one declaration each. -/
theorem members_accessorLines (field : Field) :
    members (accessorLines field) = [(getterLine field).toList, (setterLine field).toList] := by
  have opens : ∀ line ∈ [getterLine field, setterLine field], members [line] = [line.toList] := by
    intro line inside
    refine (@opensMethod_of_mem ⟨"", []⟩ [field] line ?_).members_eq
    simpa [openingLines] using inside
  have reading : members ["        return " ++ field.property.name ++ ";", "    \x7d", ""] = [] :=
    members_eq_nil (by simp [IsQuiet])
  have writing : members ["        this." ++ field.property.name ++ " = " ++ field.property.name ++
      ";", "    \x7d"] = [] :=
    members_eq_nil (by simp [IsQuiet])
  have lines : accessorLines field = [""] ++ [getterLine field] ++
      ["        return " ++ field.property.name ++ ";", "    \x7d", ""] ++ [setterLine field] ++
      ["        this." ++ field.property.name ++ " = " ++ field.property.name ++ ";",
        "    \x7d"] := rfl
  rw [lines, members_append, members_append, members_append, members_append, reading, writing,
    opens (getterLine field) (by simp), opens (setterLine field) (by simp)]
  rfl

/-- A boilerplate method has one declaration. -/
theorem members_methodLines (method : Boilerplate) :
    members method.lines = [(boilerplateLine method).toList] := by
  cases method with
  | sumOfTen => decide +kernel

/-- The body of a class declares its fields, then its methods. -/
theorem members_bodyLines (options : EmitOptions) (fields : List Field) :
    members (bodyLines options fields) =
      (fields.map fun field => (fieldLine field).toList) ++
        (openingLines options fields).map String.toList := by
  have blank : members [""] = [] := rfl
  have opening : members (if fields.isEmpty then [] else [""]) = [] := by
    split
    · rfl
    · exact blank
  have boilerplate : ∀ method : Boilerplate,
      members ("" :: method.lines) = [(boilerplateLine method).toList] := by
    intro method
    rw [← List.singleton_append, members_append, blank, members_methodLines, List.nil_append]
  unfold bodyLines openingLines
  simp only [members_append, members_flatMap, opening, members_fieldLines, members_accessorLines,
    boilerplate, List.nil_append, List.map_append, List.map_flatMap, List.map_cons, List.map_nil,
    List.map_map, ← List.map_eq_flatMap, List.append_assoc, Function.comp_def]

/-- A class declares what its body does. -/
theorem members_classLines (options : EmitOptions) (model : Model) (fields : List Field) :
    members (classLines options model fields) = members (bodyLines options fields) := by
  have package : members (packageLines (Package.qualify options.basePackage model.space)) = [] := by
    unfold packageLines
    split
    · rfl
    · exact members_eq_nil (by simp [IsQuiet])
  have imported : members (importLines (imports fields)) = [] := by
    refine members_eq_nil fun line inside => ?_
    unfold importLines at inside
    split at inside
    · cases inside
    · simp only [List.mem_append, List.mem_map, List.mem_singleton] at inside
      rcases inside with ⟨name, _, rfl⟩ | rfl
      · simp [IsQuiet, importLine]
      · simp [IsQuiet]
  have named : members ["public class " ++ model.typeName ++ " \x7b"] = [] :=
    members_eq_nil (by simp [IsQuiet])
  have closing : members ["\x7d"] = [] := rfl
  simp only [classLines, members_append, package, imported, members_commentLines (.inl rfl), named,
    closing, List.nil_append, List.append_nil]

variable {options : EmitOptions} {model : Model} {fields : List Field}

/-- The header of a source on a single line declares nothing. -/
theorem filter_lines_header {source : Path} (located : '\n' ∉ source.text.toList) :
    (Text.lines (header source).toList).filter isMemberLine = [] := by
  have whole : ∀ line ∈ (headerLines source).map String.toList, '\n' ∉ line :=
    List.forall_mem_map.mpr (not_mem_of_mem_headerLines located)
  have quiet : members (headerLines source) = [] := by
    refine members_eq_nil (List.forall_mem_cons.mpr ⟨?_, List.forall_mem_cons.mpr ⟨?_, ?_⟩⟩)
    · unfold IsQuiet titleLine
      simp
    · unfold IsQuiet noticeLine
      simp
    · simp [IsQuiet]
  rw [toList_header, textOf, Text.lines_unlines whole, List.map_map]
  exact quiet

/-- Lines of one kind are found among lines of that kind and others. -/
theorem filter_of_filter {α : Type} {kind member : α → Bool} {lines found : List α}
    (among : ∀ line, kind line = true → member line = true) (same : lines.filter member = found) :
    lines.filter kind = found.filter kind := by
  rw [← same, List.filter_filter]
  refine List.filter_congr fun line _ => ?_
  cases outcome : kind line with
  | false => rfl
  | true => exact (among line outcome).symm

/-- The declarations of a source are those of its class, if its header is on single lines. -/
theorem readsBack_sourceText (unbroken : Unbroken options model fields)
    (located : '\n' ∉ model.source.text.toList) :
    ReadsBack options fields (sourceText options model fields) := by
  have inOrder : (Text.lines (sourceText options model fields).toList).filter isMemberLine =
      (fields.map fun field => (fieldLine field).toList) ++
        (openingLines options fields).map String.toList := by
    rw [lines_sourceText unbroken, List.filter_append, filter_lines_header located,
      List.nil_append, ← members, members_classLines, members_bodyLines]
  have fieldKind : ∀ line ∈ fields.map fun field => (fieldLine field).toList,
      isFieldLine line = true ∧ isMethodLine line = false := by
    intro line inside
    obtain ⟨field, _, rfl⟩ := List.mem_map.mp inside
    exact (declaresField_fieldLine field).kind
  have methodKind : ∀ line ∈ (openingLines options fields).map String.toList,
      isFieldLine line = false ∧ isMethodLine line = true := by
    intro line inside
    obtain ⟨written, opening, rfl⟩ := List.mem_map.mp inside
    exact (opensMethod_of_mem opening).kind
  refine ⟨?_, ?_, inOrder⟩
  · rw [filter_of_filter (fun line field => by simp [isMemberLine, field]) inOrder,
      List.filter_append, List.filter_eq_self.mpr fun line inside => (fieldKind line inside).1,
      List.filter_eq_nil_iff.mpr fun line inside => by simp [(methodKind line inside).1],
      List.append_nil]
  · rw [filter_of_filter (fun line method => by simp [isMemberLine, method]) inOrder,
      List.filter_append, List.filter_eq_self.mpr fun line inside => (methodKind line inside).2,
      List.filter_eq_nil_iff.mpr fun line inside => by simp [(fieldKind line inside).2],
      List.nil_append]

/-- The source of a kept model reads back to the model. There is one field for each property, of the
type that the property is mapped to; the lines that declare fields are those of the fields, the
lines that open methods are two for each field and one for each method of the boilerplate, and all
fields come first. Of the texts that go into a source, only its path and the base package could
break a line; a base package that is a package cannot. -/
theorem declarations_read_back (options : EmitOptions) (models : List Model)
    (package : '\n' ∉ options.basePackage.toList) (loadable : ∀ model ∈ models, model.Loadable)
    (entry : Numbered) (kept : entry ∈ (Analysis.ofModels models).kept)
    (located : '\n' ∉ entry.2.source.text.toList) :
    ∃ unit fields, emit options (Analysis.ofModels models).index entry.2 = .ok unit ∧
      List.Forall₂ (fun property field => field.property = property ∧
        typeText options.basePackage (Analysis.ofModels models).index entry.2 false property.type =
          .ok field.type) entry.2.properties fields ∧
      ReadsBack options fields unit.source := by
  obtain ⟨unit, emitted⟩ := exists_emit_of_kept options kept
  obtain ⟨fields, written, rfl⟩ := emit_eq_ok_iff.mp emitted
  refine ⟨_, fields, emitted, ?_, ?_⟩
  · refine (forall₂_of_mapM_eq_ok written).imp fun property field made => ?_
    obtain ⟨type, typed, rfl⟩ := field_eq_ok_iff.mp made
    exact ⟨rfl, typed⟩
  · exact readsBack_sourceText (unbroken_of_loadable package (loadable_of_kept loadable kept)
      (fun _ inside => identified_of_mem_names loadable inside) written) located

/-- A parcel whose descriptions look like declarations. -/
def parcel : Model :=
  ⟨"Parcel", some "private int first;\n    public int getFirst() \x7b",
    [⟨"weight", .primitive .int, some "    private long weight;"⟩,
      ⟨"stops", .list (.primitive .date), none⟩], [], ⟨"parcel.yaml"⟩⟩

/-- The source of the parcel is read back as its two fields, and as their accessors and the
boilerplate method. -/
theorem parcel_reads_back :
    (0, parcel) ∈ (Analysis.ofModels [parcel]).kept ∧
      ∃ unit fields, emit ⟨"com.example", [.sumOfTen]⟩ (Analysis.ofModels [parcel]).index parcel =
          .ok unit ∧
        fields.map fieldLine = ["    private int weight;", "    private List<LocalDate> stops;"] ∧
        ReadsBack ⟨"com.example", [.sumOfTen]⟩ fields unit.source := by
  have loadable : ∀ model ∈ [parcel], model.Loadable :=
    List.forall_mem_singleton.mpr ⟨by decide +kernel, [], rfl⟩
  have kept : (0, parcel) ∈ (Analysis.ofModels [parcel]).kept := by decide +kernel
  obtain ⟨unit, fields, emitted, typed, reads⟩ := declarations_read_back
    ⟨"com.example", [.sumOfTen]⟩ [parcel] (by decide) loadable (0, parcel) kept (by decide)
  refine ⟨kept, unit, fields, emitted, ?_, reads⟩
  rcases typed with _ | ⟨⟨weight, weightType⟩, _ | ⟨⟨stops, stopsType⟩, _ | _⟩⟩
  simp only [List.map_cons, List.map_nil, fieldLine, weight, stops, ← Except.ok.inj weightType,
    ← Except.ok.inj stopsType]
  decide +kernel

end SchemaBeans.Bean

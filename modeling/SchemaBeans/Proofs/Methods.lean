import SchemaBeans.Proofs.Declarations
import SchemaBeans.Proofs.Validity

/-!
# The methods of a class

A class has two accessors for each of its properties and the enabled boilerplate
methods. For a valid model their names are pairwise distinct: the stems of the
properties are, the verbs tell getters from setters, and no boilerplate method is
called like an accessor. Against the methods that every class inherits nothing is
checked; the getter of a property `Class` is called like one of them.
-/

namespace SchemaBeans

namespace Naming

variable {left right property verb : String}

/-- Accessors of one kind have the same name exactly when their properties have the same stem. -/
theorem accessor_inj : accessor verb left = accessor verb right ↔
    Identifier.stem left = Identifier.stem right := by
  rw [accessor, accessor, ← String.toList_inj, String.toList_append, String.toList_append,
    List.append_cancel_left_eq, String.toList_inj]

/-- A getter is never called like a setter. -/
theorem getter_ne_setter : getter left ≠ setter right := by
  rw [getter, setter, accessor, accessor, Ne, ← String.toList_inj]
  simp

/-- Stems that differ give accessors that differ. -/
theorem nodup_accessors {names : List String} (stems : (names.map Identifier.stem).Nodup) :
    (names.flatMap fun name => [getter name, setter name]).Nodup := by
  refine List.nodup_flatMap.mpr ⟨fun name _ => ?_, ?_⟩
  · simpa using getter_ne_setter
  · refine (List.pairwise_map.mp stems).imp fun {left right} differ => ?_
    have getters : getter left ≠ getter right := mt accessor_inj.mp differ
    have setters : setter left ≠ setter right := mt accessor_inj.mp differ
    simp [Function.onFun, getters.symm, setters.symm, getter_ne_setter, getter_ne_setter.symm]

/-- Only `Class` has its stem among the valid names; `class` would have it too, and is reserved. -/
theorem stem_eq_Class_iff (valid : Identifier.isValid property = true) :
    Identifier.stem property = "Class" ↔ property = "Class" := by
  have capital : ∀ character, Identifier.isPart character = true →
      character.toUpper = 'C' → character = 'C' ∨ character = 'c' :=
    Identifier.forall_of_isPart (by decide +kernel)
  obtain ⟨shaped, free⟩ := Bool.and_eq_true_iff.mp valid
  constructor
  · intro stem
    rw [Identifier.stem, ← String.toList_inj, String.toList_ofList] at stem
    unfold Identifier.isIdentifier at shaped
    cases shape : property.toList with
    | nil =>
        rw [shape] at shaped
        cases shaped
    | cons first rest =>
        rw [shape] at shaped stem
        have part := Identifier.isPart_of_mem shaped List.mem_cons_self
        rw [Text.upperFirst, Identifier.upperCase_of_isPart part, List.singleton_append] at stem
        obtain ⟨upper, rfl⟩ := List.cons.inj stem
        rcases capital first part upper with rfl | rfl
        · exact String.toList_inj.mp shape
        · have reserved : property = "class" := String.toList_inj.mp shape
          subst reserved
          cases free
  · rintro rfl
    decide +kernel

/-- Only the property `Class` has the getter that every object has already. -/
theorem getter_eq_getClass_iff (valid : Identifier.isValid property = true) :
    getter property = "getClass" ↔ property = "Class" := by
  have named : getter "Class" = "getClass" := by decide +kernel
  have stem : Identifier.stem "Class" = "Class" := by decide +kernel
  rw [← named, getter, getter, accessor_inj, stem, stem_eq_Class_iff valid]

end Naming

namespace Boilerplate

/-- Different boilerplate methods have different names. -/
theorem methodName_injective {left right : Boilerplate}
    (same : left.methodName = right.methodName) : left = right := by
  cases left
  cases right
  rfl

/-- A selection holds each method once. -/
theorem nodup_of_select {texts : List String} {methods : List Boilerplate}
    (selected : select texts = .ok methods) : methods.Nodup := by
  induction texts generalizing methods with
  | nil =>
      cases selected
      exact List.nodup_nil
  | cons text texts hypothesis =>
      rw [select] at selected
      split at selected
      · cases selected
      · next method _ =>
          cases rest : select texts with
          | error unknown =>
              rw [rest] at selected
              cases selected
          | ok others =>
              rw [rest] at selected
              cases selected
              exact List.nodup_cons.mpr
                ⟨fun inside => by simp at inside, (hypothesis rest).filter _⟩

/-- No boilerplate method is called like an accessor. -/
theorem methodName_ne (method : Boilerplate) (property : String) :
    method.methodName ≠ Naming.getter property ∧ method.methodName ≠ Naming.setter property := by
  have name : method.methodName = "sumOfTen" := by
    cases method
    decide +kernel
  rw [name, Naming.getter, Naming.setter, Naming.accessor, Naming.accessor, Ne, Ne,
    ← String.toList_inj, ← String.toList_inj]
  simp

end Boilerplate

namespace Bean

/-- A method as it is declared: what it returns, its name, and the types and names of its
parameters. -/
structure Method where
  result : String
  name : String
  parameters : List (String × String)
  deriving DecidableEq, Repr

/-- The line that opens a method. -/
def Method.opening (method : Method) : String :=
  "    public " ++ method.result ++ " " ++ method.name ++ "(" ++
    Text.joinStrings ", " (method.parameters.map fun parameter =>
      parameter.1 ++ " " ++ parameter.2) ++ ") \x7b"

/-- The accessors of a field. -/
def accessors (field : Field) : List Method :=
  [⟨field.type.text, Naming.getter field.property.name, []⟩,
    ⟨"void", Naming.setter field.property.name, [(field.type.text, field.property.name)]⟩]

/-- The methods of a class: the accessors of its fields, then the boilerplate. -/
def methods (options : EmitOptions) (fields : List Field) : List Method :=
  fields.flatMap accessors ++ options.boilerplate.map fun method => ⟨"int", method.methodName, []⟩

/-- The methods without parameters that every class inherits and none may declare itself. -/
def finalNames : List String := ["getClass", "notify", "notifyAll", "wait"]

/-- A method has the name and the parameters of an inherited one that no class may declare. -/
def Method.ReplacesFinal (method : Method) : Prop :=
  method.name ∈ finalNames ∧ method.parameters = []

variable {options : EmitOptions} {model : Model} {field : Field} {fields : List Field}

/-- A class opens its methods. -/
theorem openingLines_eq (options : EmitOptions) (fields : List Field) :
    openingLines options fields = (methods options fields).map Method.opening := by
  have none : "(" ++ (Text.joinStrings ", " [] ++ ") \x7b") = "() \x7b" := by decide
  have one : ∀ text : String, Text.joinStrings ", " [text] = text := fun _ => String.ofList_toList
  have void : "    public void " = "    public " ++ ("void" ++ " ") := by decide
  have int : "    public int " = "    public " ++ ("int" ++ " ") := by decide
  have fromField : ∀ field : Field,
      (accessors field).map Method.opening = [getterLine field, setterLine field] := by
    intro field
    unfold accessors getterLine setterLine Method.opening
    -- What the accessors are called does not matter, so their names are taken out of the way.
    generalize Naming.getter field.property.name = getter
    generalize Naming.setter field.property.name = setter
    simp only [List.map_cons, List.map_nil, none, one, void, String.append_assoc]
  have fromBoilerplate : ∀ method : Boilerplate,
      Method.opening ⟨"int", method.methodName, []⟩ = boilerplateLine method := by
    intro method
    unfold boilerplateLine Method.opening
    generalize method.methodName = name
    simp only [List.map_nil, none, int, String.append_assoc]
  simp only [openingLines, methods, List.map_append, List.map_flatMap, fromField, List.map_map]
  exact congrArg _ (List.map_congr_left fun method _ => (fromBoilerplate method).symm)

/-- The methods of a class have the names of accessors and of boilerplate methods. -/
theorem map_name_methods (options : EmitOptions) (fields : List Field) :
    (methods options fields).map Method.name =
      (fields.flatMap fun field =>
        [Naming.getter field.property.name, Naming.setter field.property.name]) ++
      options.boilerplate.map Boilerplate.methodName := by
  simp only [methods, accessors, List.map_append, List.map_flatMap, List.map_map, List.map_cons,
    List.map_nil, Function.comp_def]

/-- The methods of a class with distinct stems have distinct names. -/
theorem nodup_names (stems : (fields.map fun field => Identifier.stem field.property.name).Nodup)
    (enabled : options.boilerplate.Nodup) : ((methods options fields).map Method.name).Nodup := by
  have accessors := @Naming.nodup_accessors (fields.map (·.property.name))
    (by simpa [Function.comp_def] using stems)
  rw [List.flatMap_map] at accessors
  rw [map_name_methods]
  refine accessors.append ?_ ?_
  · exact enabled.map fun _ _ same => Boilerplate.methodName_injective same
  · intro name accessor boilerplate
    obtain ⟨method, _, rfl⟩ := List.mem_map.mp boilerplate
    obtain ⟨field, _, own⟩ := List.mem_flatMap.mp accessor
    obtain ⟨notGetter, notSetter⟩ := method.methodName_ne field.property.name
    rcases List.mem_cons.mp own with getter | setter
    · exact notGetter getter
    · exact notSetter (List.mem_singleton.mp setter)

/-- No getter has the name of an inherited method other than `getClass`. -/
theorem getter_mem_finalNames_iff {property : String} :
    Naming.getter property ∈ finalNames ↔ Naming.getter property = "getClass" := by
  have others : ∀ name ∈ ["notify", "notifyAll", "wait"], Naming.getter property ≠ name := by
    intro name listed same
    rw [Naming.getter, Naming.accessor, ← String.toList_inj, String.toList_append] at same
    simp only [List.mem_cons, List.not_mem_nil, or_false] at listed
    rcases listed with rfl | rfl | rfl <;> simp at same
  rw [finalNames, List.mem_cons, or_iff_left fun listed => others _ listed rfl]

/-- The methods of a class can stand beside the inherited ones unless a getter is called
`getClass`. -/
theorem exists_replacesFinal_iff : (∃ method ∈ methods options fields, method.ReplacesFinal) ↔
    ∃ field ∈ fields, Naming.getter field.property.name = "getClass" := by
  constructor
  · rintro ⟨method, declared, final, bare⟩
    rcases List.mem_append.mp declared with accessor | boilerplate
    · obtain ⟨field, own, listed⟩ := List.mem_flatMap.mp accessor
      rcases List.mem_cons.mp listed with rfl | setter
      · exact ⟨field, own, getter_mem_finalNames_iff.mp final⟩
      · obtain rfl := List.mem_singleton.mp setter
        cases bare
    · obtain ⟨source, _, rfl⟩ := List.mem_map.mp boilerplate
      cases source
      exact absurd final (by decide +kernel)
  · rintro ⟨field, own, same⟩
    refine ⟨⟨field.type.text, Naming.getter field.property.name, []⟩, ?_, ?_, rfl⟩
    · exact List.mem_append_left _ (List.mem_flatMap.mpr ⟨field, own, List.mem_cons_self⟩)
    · exact getter_mem_finalNames_iff.mpr same

/-- The methods that the class of a valid model opens have distinct names, whatever the types of its
fields are. They can stand beside the inherited methods exactly if no property is called `Class`. -/
theorem methods_coexist_iff {model : Model} {options : EmitOptions} {fields : List Field}
    {texts : List String} (valid : model.issues = [])
    (own : fields.map Field.property = model.properties)
    (enabled : Boilerplate.select texts = .ok options.boilerplate) :
    openingLines options fields = (methods options fields).map Method.opening ∧
      ((methods options fields).map Method.name).Nodup ∧
      ((∀ method ∈ methods options fields, ¬ method.ReplacesFinal) ↔
        ∀ property ∈ model.properties, property.name ≠ "Class") := by
  have checked := issues_eq_nil_iff.mp valid
  have stems : (fields.map fun field => Identifier.stem field.property.name).Nodup := by
    have distinct := checked.stems
    rw [← own, List.map_map] at distinct
    exact distinct
  refine ⟨openingLines_eq options fields,
    nodup_names stems (Boilerplate.nodup_of_select enabled), ?_⟩
  rw [← not_iff_not]
  push Not
  rw [exists_replacesFinal_iff, ← own]
  simp only [List.mem_map, exists_exists_and_eq_and]
  refine exists_congr fun field => and_congr_right fun present => ?_
  refine Naming.getter_eq_getClass_iff (checked.property field.property ?_)
  exact own ▸ List.mem_map_of_mem present

/-- A lesson with a title and a property of the given name. -/
def lessonOf (name : String) : Model :=
  ⟨"Lesson", none, [⟨"title", .primitive .string, none⟩, ⟨name, .primitive .string, none⟩], [],
    ⟨"lesson.yaml"⟩⟩

/-- The fields of a lesson. -/
def lessonFields (name : String) : List Field :=
  (lessonOf name).properties.map fun property => ⟨property, ⟨"String", []⟩⟩

/-- The accessors of `_class` and a boilerplate method that was named twice coexist. -/
theorem lesson_methods_coexist :
    (lessonOf "_class").issues = [] ∧
      (lessonFields "_class").map Field.property = (lessonOf "_class").properties ∧
      Boilerplate.select ["sum_of_ten", "sum_of_ten"] = .ok [.sumOfTen] ∧
      ((methods ⟨"", [.sumOfTen]⟩ (lessonFields "_class")).map Method.name).Nodup ∧
      ∀ method ∈ methods ⟨"", [.sumOfTen]⟩ (lessonFields "_class"), ¬ method.ReplacesFinal := by
  have valid : (lessonOf "_class").issues = [] := by decide +kernel
  have enabled : Boilerplate.select ["sum_of_ten", "sum_of_ten"] = .ok [.sumOfTen] := by rfl
  obtain ⟨_, distinct, apart⟩ :=
    @methods_coexist_iff _ ⟨"", [.sumOfTen]⟩ (lessonFields "_class") _ valid rfl enabled
  exact ⟨valid, rfl, enabled, distinct, apart.mpr (by decide)⟩

/-- The getter of a valid property `Class` is called like a method that no class may declare. -/
theorem getClass_replaced :
    ¬ ∀ (model : Model) (options : EmitOptions) (fields : List Field) (texts : List String),
      model.issues = [] → fields.map Field.property = model.properties →
      Boilerplate.select texts = .ok options.boilerplate →
      ((methods options fields).map Method.name).Nodup ∧
        ∀ method ∈ methods options fields, ¬ method.ReplacesFinal := by
  intro always
  have apart := (always (lessonOf "Class") ⟨"", []⟩ (lessonFields "Class") [] (by decide +kernel)
    rfl rfl).2
  have replaced : ∃ method ∈ methods ⟨"", []⟩ (lessonFields "Class"), method.ReplacesFinal :=
    exists_replacesFinal_iff.mpr
      ⟨⟨⟨"Class", .primitive .string, none⟩, ⟨"String", []⟩⟩, by decide, by decide +kernel⟩
  obtain ⟨method, declared, replaces⟩ := replaced
  exact apart method declared replaces

end Bean

end SchemaBeans

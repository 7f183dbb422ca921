import SchemaBeans.Proofs.Resolution
import SchemaBeans.Proofs.TypeTexts
import SchemaBeans.Proofs.Validity

/-!
# Names that can be referred to

The name of a valid model is an identifier, and the type of a property is read as a
name of letters, numerals and underscores. The two agree on every identifier without
a dollar sign: the model of such a name can be the type of a property, also below
lists. An identifier with a dollar sign is refused where a type is expected.
-/

namespace SchemaBeans

namespace TypeRef

variable {name text : String}

/-- An identifier reads as the name of a model exactly if it has no dollar sign. -/
theorem isName_iff_of_isIdentifier (valid : Identifier.isIdentifier name = true) :
    isName name.toList = true ↔ '$' ∉ name.toList := by
  have part : ∀ character, Identifier.isPart character = true →
      ((Text.isLetterOrNumeral character || character = '_') = true ↔ character ≠ '$') :=
    Identifier.forall_of_isPart (by decide +kernel)
  have start : ∀ character, Identifier.isPart character = true →
      Identifier.isStart character = true → character ≠ '$' →
        (Text.isLetter character || character = '_') = true :=
    Identifier.forall_of_isPart (by decide +kernel)
  have parts : (name.toList.all fun character =>
      Text.isLetterOrNumeral character || character = '_') = true ↔ '$' ∉ name.toList := by
    rw [List.all_eq_true]
    constructor
    · intro all dollar
      exact (part '$' (by decide)).mp (all '$' dollar) rfl
    · intro without character inside
      refine (part character (Identifier.isPart_of_mem valid inside)).mpr ?_
      rintro rfl
      exact without inside
  unfold isName
  rw [Bool.and_eq_true_iff, parts, and_iff_right_iff_imp]
  intro without
  unfold Identifier.isIdentifier at valid
  cases shape : name.toList with
  | nil =>
      rw [shape] at valid
      cases valid
  | cons first rest =>
      rw [shape] at valid without
      have opening := (Bool.and_eq_true_iff.mp valid).1
      refine start first (Identifier.isPart_of_isStart opening) opening ?_
      rintro rfl
      exact without List.mem_cons_self

/-- How an identifier that names no primitive is read. -/
theorem parse_of_isIdentifier (valid : Identifier.isIdentifier name = true)
    (free : Primitive.ofKeyword? name = none) :
    parse name = if '$' ∈ name.toList then .error (.invalidName name) else .ok (.model name) := by
  have solid : ∀ character ∈ name.toList, Text.isBlank character = false := fun _ inside =>
    Identifier.isBlank_eq_false_of_isPart (Identifier.isPart_of_mem valid inside)
  have trimmed : Text.trim name.toList = name.toList := Text.trim_eq_self_of_forall solid
  have given : name.toList ≠ [] := by
    intro empty
    rw [Identifier.isIdentifier, empty] at valid
    cases valid
  have bracket : '<' ∉ name.toList := Identifier.not_mem_of_isIdentifier valid (by decide)
  rw [parse, parseChars_plain (trimmed.symm ▸ given) (trimmed.symm ▸ bracket), trimmed,
    String.ofList_toList, free]
  by_cases dollar : '$' ∈ name.toList
  · rw [if_pos dollar]
    exact if_neg fun named => (isName_iff_of_isIdentifier valid).mp named dollar
  · rw [if_neg dollar]
    exact if_pos ((isName_iff_of_isIdentifier valid).mpr dollar)

/-- A list of what a text writes. -/
theorem parse_listText (given : Text.allBlank text.toList = false) :
    parse ("list<" ++ text ++ ">") = (parse text).map .list := by
  rw [parse, parseChars_list (by decide) (trim_listText text), given]
  rfl

end TypeRef

/-- The only model of its name in a run is found under this name from every namespace. -/
theorem Index.resolve_of_only {models : List Model} {model : Model} {name : String}
    (only : models.filter (fun other => other.typeName = name) = [model]) (space : List String) :
    (Index.ofModels models).resolve name space = .ok (.ofModel model) := by
  have among : ∀ other, other ∈ models ∧ other.typeName = name ↔ other = model := by
    intro other
    have same : other ∈ models.filter (fun other => other.typeName = name) ↔ other ∈ [model] := by
      rw [only]
    simpa using same
  obtain ⟨present, named⟩ := (among model).mpr rfl
  have candidate : QualifiedName.ofModel model ∈ (Index.ofModels models).candidates name :=
    mem_candidates.mpr ⟨mem_names_ofModels.mpr ⟨model, present, rfl⟩, named⟩
  refine resolve_eq_ok_iff.mpr ⟨candidate, .inr ?_⟩
  refine candidates_ofModels_eq_singleton_iff.mpr ⟨candidate, fun found inside => ?_⟩
  obtain ⟨known, foundNamed⟩ := mem_candidates.mp inside
  obtain ⟨other, listed, rfl⟩ := mem_names_ofModels.mp known
  rw [(among other).mp ⟨listed, foundNamed⟩]

/-- A model of the given name can be referred to: the name is the text of its type and can be the
element of a list, and a property of either type means the model wherever it is the only one of its
name. -/
structure Referable (name : String) : Prop where
  plain : TypeRef.parse name = .ok (.model name)
  listed : TypeRef.parse ("list<" ++ name ++ ">") = .ok (.list (.model name))
  meant : ∀ (models : List Model) (model referring : Model) (property : Property),
    models.filter (fun other => other.typeName = name) = [model] →
    TypeRef.parse name = .ok property.type ∨
        TypeRef.parse ("list<" ++ name ++ ">") = .ok property.type →
    ∃ reference, property.type.reference? = some reference ∧
      (Index.ofModels models).resolve reference referring.space = .ok (.ofModel model)

/-- The name of a valid model that names no primitive can be referred to exactly if it has no dollar
sign. With a dollar sign it is refused as a type, also below a list. -/
theorem referable_iff {name : String} (accepted : typeNameIssues name = [])
    (free : Primitive.ofKeyword? name = none) :
    (Referable name ↔ '$' ∉ name.toList) ∧
      ('$' ∈ name.toList → TypeRef.parse name = .error (.invalidName name) ∧
        TypeRef.parse ("list<" ++ name ++ ">") = .error (.invalidName name)) := by
  have valid : Identifier.isIdentifier name = true :=
    (Bool.and_eq_true_iff.mp (typeNameIssues_eq_nil_iff.mp accepted)).1
  have plain := TypeRef.parse_of_isIdentifier valid free
  have listed := TypeRef.parse_listText (Identifier.allBlank_eq_false valid)
  rw [plain] at listed
  constructor
  · constructor
    · intro referable dollar
      rw [if_pos dollar, referable.plain] at plain
      cases plain
    · intro without
      rw [if_neg without] at plain listed
      refine ⟨plain, listed, fun models model referring property only read => ?_⟩
      refine ⟨name, ?_, Index.resolve_of_only only referring.space⟩
      rcases read with read | read
      · rw [← Except.ok.inj (plain.symm.trans read)]
        rfl
      · rw [← Except.ok.inj (listed.symm.trans read)]
        rfl
  · intro dollar
    rw [if_pos dollar] at plain listed
    exact ⟨plain, listed⟩

/-- A name with an underscore and a digit can be the type of a property. -/
theorem invoice_referable : typeNameIssues "_Invoice2" = [] ∧
    Primitive.ofKeyword? "_Invoice2" = none ∧ Referable "_Invoice2" := by
  have accepted : typeNameIssues "_Invoice2" = [] := by decide +kernel
  have free : Primitive.ofKeyword? "_Invoice2" = none := by decide +kernel
  exact ⟨accepted, free, (referable_iff accepted free).1.mpr (by decide)⟩

/-- A valid model with a dollar sign in its name cannot be the type of a property. -/
theorem proxy_not_referable :
    ¬ ∀ name, typeNameIssues name = [] → Primitive.ofKeyword? name = none → Referable name := by
  intro always
  have referable := always "$Proxy" (by decide +kernel) (by decide +kernel)
  have read := @TypeRef.parse_of_isIdentifier "$Proxy" (by decide +kernel)
    (by decide +kernel)
  rw [if_pos (by decide), referable.plain] at read
  cases read

end SchemaBeans

import SchemaBeans.Proofs.Identifiers
import SchemaBeans.Validation

/-!
# Valid models

A model has no issues exactly when it is valid: its names can be declared as they
stand, and no two of its properties share the stem of their accessors. A name that
is repeated shares its stem too, so it needs no clause of its own.
-/

namespace SchemaBeans

/-- What validation asks of a model. -/
structure Model.IsValid (model : Model) : Prop where
  typeName : Identifier.isValid model.typeName = true
  property : ∀ property ∈ model.properties, Identifier.isValid property.name = true
  stems : (model.properties.map fun property => Identifier.stem property.name).Nodup

variable {name : String} {earlier names : List String} {model : Model}

/-- The name of a property has no issue when it is valid. -/
theorem propertyNameIssues_eq_nil_iff :
    propertyNameIssues name = [] ↔ Identifier.isValid name = true := by
  unfold propertyNameIssues Identifier.isValid
  cases Identifier.isIdentifier name <;> cases Identifier.isReserved name <;> simp

/-- A type name is judged like the name of a property; a blank one is no identifier. -/
theorem typeNameIssues_eq_nil_iff :
    typeNameIssues name = [] ↔ Identifier.isValid name = true := by
  unfold typeNameIssues
  split
  · next blank =>
      have invalid : Identifier.isIdentifier name = false := by
        refine Bool.eq_false_iff.mpr fun shaped => ?_
        rw [Identifier.allBlank_eq_false shaped] at blank
        cases blank
      simp [Identifier.isValid, invalid]
  · unfold Identifier.isValid
    cases Identifier.isIdentifier name <;> cases Identifier.isReserved name <;> simp

/-- A name clashes with none before it when none of them has its stem. -/
theorem clashIssues_eq_nil_iff :
    clashIssues earlier name = [] ↔ Identifier.stem name ∉ earlier.map Identifier.stem := by
  unfold clashIssues
  split
  · next repeated =>
      have shared : Identifier.stem name ∈ earlier.map Identifier.stem :=
        List.mem_map_of_mem (List.contains_iff_mem.mp repeated)
      exact iff_of_false (List.cons_ne_nil _ _) (not_not_intro shared)
  · cases found : earlier.find? fun other => Identifier.stem other = Identifier.stem name with
    | none =>
        have apart := List.find?_eq_none.mp found
        simpa using apart
    | some other =>
        have same := List.find?_some found
        have shared : Identifier.stem name ∈ earlier.map Identifier.stem :=
          List.mem_map.mpr ⟨other, List.mem_of_find?_eq_some found, by simpa using same⟩
        exact iff_of_false (List.cons_ne_nil _ _) (not_not_intro shared)

/-- Properties have no issues when their names are valid and their stems differ from each other and
from those of the properties before them. -/
theorem propertyIssues_eq_nil_iff : propertyIssues earlier names = [] ↔
    (∀ name ∈ names, Identifier.isValid name = true) ∧ (names.map Identifier.stem).Nodup ∧
      ∀ name ∈ names, Identifier.stem name ∉ earlier.map Identifier.stem := by
  induction names generalizing earlier with
  | nil => simp [propertyIssues]
  | cons name names hypothesis =>
      rw [propertyIssues, List.append_eq_nil_iff, List.append_eq_nil_iff,
        propertyNameIssues_eq_nil_iff, clashIssues_eq_nil_iff, hypothesis]
      simp only [List.map_append, List.map_cons, List.map_nil, List.mem_append, List.mem_singleton,
        not_or, List.forall_mem_cons, List.nodup_cons, List.mem_map, forall_and]
      constructor
      · rintro ⟨⟨valid, fresh⟩, others, stems, freshOthers, apart⟩
        exact ⟨⟨valid, others⟩, ⟨fun ⟨other, inside, same⟩ => apart other inside same, stems⟩,
          fresh, freshOthers⟩
      · rintro ⟨⟨valid, others⟩, ⟨apart, stems⟩, fresh, freshOthers⟩
        exact ⟨⟨valid, fresh⟩, others, stems, freshOthers,
          fun other inside same => apart ⟨other, inside, same⟩⟩

/-- A model has no issues when it is valid. -/
theorem issues_eq_nil_iff : model.issues = [] ↔ model.IsValid := by
  rw [Model.issues, List.append_eq_nil_iff, typeNameIssues_eq_nil_iff, propertyIssues_eq_nil_iff,
    List.forall_mem_map, List.map_map]
  constructor
  · rintro ⟨typeName, property, stems, _⟩
    exact ⟨typeName, property, stems⟩
  · rintro ⟨typeName, property, stems⟩
    exact ⟨typeName, property, stems, by simp⟩

end SchemaBeans

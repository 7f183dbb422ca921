import Mathlib.Data.List.Sort
import SchemaBeans.Index

/-!
# What a reference designates

`Index.resolve` reads a strictly sorted list of candidates. `Index.Designates`
says the same without an order: a reference means a type of its name that either
lives in the referencing namespace or is the only one of that name. Everything
that is proved of resolution below depends on an index only through its names.
-/

namespace SchemaBeans.Index

variable {index : Index} {typeName : String} {space : List String} {target : QualifiedName}

/-- A reference from a namespace means a type: the type has the referenced name, and it is the
namespace's own or the only one of that name. -/
structure Designates (index : Index) (typeName : String) (space : List String)
    (target : QualifiedName) : Prop where
  candidate : target ∈ index.candidates typeName
  preferred : target.space = space ∨ index.candidates typeName = [target]

/-- The candidates of a reference are the known types of its name. -/
@[simp] theorem mem_candidates {name : QualifiedName} :
    name ∈ index.candidates typeName ↔ name ∈ index.names ∧ name.typeName = typeName := by
  simp [candidates]

/-- The names of an index are exactly those of its models. -/
@[simp] theorem mem_names_ofModels {models : List Model} {name : QualifiedName} :
    name ∈ (ofModels models).names ↔ ∃ model ∈ models, QualifiedName.ofModel model = name := by
  simp [ofModels]

/-- Two candidates of one name differ in their namespaces. -/
theorem eq_of_candidates {left right : QualifiedName} (leftIn : left ∈ index.candidates typeName)
    (rightIn : right ∈ index.candidates typeName) (spaces : left.space = right.space) :
    left = right := by
  have leftName := (mem_candidates.mp leftIn).2
  have rightName := (mem_candidates.mp rightIn).2
  cases left
  cases right
  simp_all

/-- Among several candidates, the search for the own one finds it. -/
theorem find?_own_eq_some_iff :
    ((index.candidates typeName).find? fun name => name.space = space) = some target ↔
      target ∈ index.candidates typeName ∧ target.space = space := by
  constructor
  · intro found
    have own := List.find?_some found
    exact ⟨List.mem_of_find?_eq_some found, by simpa using own⟩
  · rintro ⟨inside, own⟩
    cases found : (index.candidates typeName).find? fun name => name.space = space with
    | none =>
        have absent := List.find?_eq_none.mp found target inside
        simp [own] at absent
    | some first =>
        have firstOwn := List.find?_some found
        have firstIn := List.mem_of_find?_eq_some found
        rw [eq_of_candidates firstIn inside (by simp_all)]

/-- Resolution finds exactly what is designated. -/
theorem resolve_eq_ok_iff :
    index.resolve typeName space = .ok target ↔ index.Designates typeName space target := by
  have searched := @find?_own_eq_some_iff index typeName space target
  unfold resolve
  split
  · next empty =>
      constructor
      · intro resolved
        cases resolved
      · intro designated
        have inside := designated.candidate
        simp [empty] at inside
  · next only single =>
      constructor
      · intro resolved
        cases resolved
        exact ⟨by simp [single], .inr single⟩
      · intro designated
        have inside := designated.candidate
        rw [single] at inside
        rw [List.mem_singleton.mp inside]
  · next several _ notSingle =>
      constructor
      · intro resolved
        split at resolved
        · next own found =>
            cases resolved
            exact ⟨(searched.mp found).1, .inl (searched.mp found).2⟩
        · cases resolved
      · rintro ⟨inside, own | single⟩
        · rw [searched.mpr ⟨inside, own⟩]
        · exact absurd single (notSingle target)

/-- A reference is unknown when nothing has its name. -/
theorem resolve_eq_unknown_iff :
    index.resolve typeName space = .error .unknown ↔ index.candidates typeName = [] := by
  unfold resolve
  split
  · next empty => simp [empty]
  · next only single => simp [single]
  · next notNil _ =>
      constructor
      · intro unknown
        split at unknown <;> cases unknown
      · intro empty
        exact absurd empty notNil

/-- An ambiguity lists every type of the referenced name. -/
theorem candidates_of_ambiguous {candidates : List QualifiedName}
    (ambiguous : index.resolve typeName space = .error (.ambiguous candidates)) :
    candidates = index.candidates typeName := by
  unfold resolve at ambiguous
  split at ambiguous
  · cases ambiguous
  · cases ambiguous
  · split at ambiguous
    · cases ambiguous
    · cases ambiguous
      rfl

/-- A reference is ambiguous when some types have its name and it designates none of them. -/
theorem resolve_eq_ambiguous_iff :
    index.resolve typeName space = .error (.ambiguous (index.candidates typeName)) ↔
      index.candidates typeName ≠ [] ∧ ∀ target, ¬ index.Designates typeName space target := by
  constructor
  · intro ambiguous
    constructor
    · intro empty
      rw [resolve_eq_unknown_iff.mpr empty] at ambiguous
      cases ambiguous
    · intro target designated
      rw [resolve_eq_ok_iff.mpr designated] at ambiguous
      cases ambiguous
  · rintro ⟨notEmpty, undesignated⟩
    cases outcome : index.resolve typeName space with
    | ok target => exact absurd (resolve_eq_ok_iff.mp outcome) (undesignated target)
    | error failure =>
        cases failure with
        | unknown => exact absurd (resolve_eq_unknown_iff.mp outcome) notEmpty
        | ambiguous candidates => rw [candidates_of_ambiguous outcome]

/-- Candidates that are among those of another run are there in the same order. -/
theorem candidates_sublist_of_names {fewer more : List Model}
    (among : ∀ name : QualifiedName, name.typeName = typeName →
      name ∈ (ofModels fewer).names → name ∈ (ofModels more).names) :
    ((ofModels fewer).candidates typeName).Sublist ((ofModels more).candidates typeName) := by
  have sorted : ∀ models : List Model, ((ofModels models).candidates typeName).Pairwise
      fun left right => QualifiedName.compare left right = .lt :=
    fun models => (Sorted.pairwise_ofList _ _).filter _
  have antisymmetric : Std.Antisymm fun left right => QualifiedName.compare left right = .lt :=
    ⟨fun left right less greater => absurd greater (Sorted.lt_asymm left right less)⟩
  refine List.sublist_of_subperm_of_pairwise (List.subperm_of_subset ?_ ?_)
    (sorted fewer) (sorted more)
  · exact (Sorted.nodup_ofList _ _).filter _
  · intro name inside
    obtain ⟨known, named⟩ := mem_candidates.mp inside
    exact mem_candidates.mpr ⟨among name named known, named⟩

/-- The candidates of a smaller run are among those of a larger one, in the same order. -/
theorem candidates_sublist {fewer more : List Model} (subset : fewer ⊆ more) (typeName : String) :
    ((ofModels fewer).candidates typeName).Sublist ((ofModels more).candidates typeName) := by
  refine candidates_sublist_of_names fun name _ known => ?_
  obtain ⟨model, present, rfl⟩ := mem_names_ofModels.mp known
  exact mem_names_ofModels.mpr ⟨model, subset present, rfl⟩

/-- A name has one candidate when all its candidates are the same. -/
theorem candidates_ofModels_eq_singleton_iff {models : List Model} :
    (ofModels models).candidates typeName = [target] ↔
      target ∈ (ofModels models).candidates typeName ∧
        ∀ other ∈ (ofModels models).candidates typeName, other = target := by
  have nodup : ((ofModels models).candidates typeName).Nodup :=
    (Sorted.nodup_ofList _ _).filter _
  constructor
  · intro single
    simp [single]
  · rintro ⟨inside, unique⟩
    by_contra different
    rcases (nodup.ne_singleton_iff target).mp different with empty | ⟨other, present, apart⟩
    · rw [empty] at inside
      cases inside
    · exact apart (unique other present)

/-- What a reference designates in a larger run it designates in a smaller one, as long as it is
there. -/
theorem Designates.mono {fewer more : List Model} (subset : fewer ⊆ more)
    (designated : (ofModels more).Designates typeName space target)
    (present : target ∈ (ofModels fewer).names) :
    (ofModels fewer).Designates typeName space target := by
  have named := (mem_candidates.mp designated.candidate).2
  have candidate := mem_candidates.mpr ⟨present, named⟩
  refine ⟨candidate, designated.preferred.imp_right fun only => ?_⟩
  have sublist := candidates_sublist subset typeName
  rw [only, List.sublist_singleton] at sublist
  rcases sublist with empty | single
  · rw [empty] at candidate
    cases candidate
  · exact single

/-- A property has an error when it mentions a model and the reference does not resolve. -/
theorem propertyError?_eq_some_iff {model : Model} {property : Property}
    {error : ResolutionError} :
    index.propertyError? model property = some error ↔
      ∃ reference failure, property.type.reference? = some reference ∧
        index.resolve reference model.space = .error failure ∧
        error = ⟨model.source, model.typeName, property.name, reference, failure⟩ := by
  unfold propertyError?
  cases mentioned : property.type.reference? with
  | none => simp
  | some reference =>
      cases outcome : index.resolve reference model.space with
      | ok target => simp [outcome]
      | error failure => simp [outcome, eq_comm]

/-- A model has no error exactly when each of its references resolves. -/
theorem referenceError?_eq_none_iff {model : Model} :
    index.referenceError? model = none ↔
      ∀ reference ∈ model.references,
        ∃ target, index.resolve reference model.space = .ok target := by
  simp only [referenceError?, List.findSome?_eq_none_iff, Model.references, List.mem_filterMap]
  constructor
  · rintro clean reference ⟨property, declared, mentioned⟩
    cases outcome : index.resolve reference model.space with
    | ok target => exact ⟨target, rfl⟩
    | error failure =>
        have found := propertyError?_eq_some_iff.mpr ⟨reference, failure, mentioned, outcome, rfl⟩
        rw [clean property declared] at found
        cases found
  · intro resolves property declared
    cases found : index.propertyError? model property with
    | none => rfl
    | some error =>
        obtain ⟨reference, failure, mentioned, outcome, _⟩ := propertyError?_eq_some_iff.mp found
        obtain ⟨target, resolved⟩ := resolves reference ⟨property, declared, mentioned⟩
        rw [resolved] at outcome
        cases outcome

/-- The error of a model is about one of its references, which does not resolve. -/
theorem resolve_of_referenceError? {model : Model} {error : ResolutionError}
    (found : index.referenceError? model = some error) :
    error.reference ∈ model.references ∧
      index.resolve error.reference model.space = .error error.failure := by
  obtain ⟨property, declared, failed⟩ := List.exists_of_findSome?_eq_some found
  obtain ⟨reference, failure, mentioned, outcome, rfl⟩ := propertyError?_eq_some_iff.mp failed
  exact ⟨List.mem_filterMap.mpr ⟨property, declared, mentioned⟩, outcome⟩

end SchemaBeans.Index

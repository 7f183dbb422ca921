import Mathlib.Data.Finset.Card
import SchemaBeans.Proofs.Correspondence
import SchemaBeans.Proofs.Groups
import SchemaBeans.Proofs.Order

/-!
# The candidates of a reference

What a reference means can be said of the set of types that have its name: `Means`
needs neither their order nor how often a model of the run has each of them. The
candidates of an index list this set. An index can also be filled model by model,
as a table of names whose groups are sorted in the end; `tabulate_eq_table` compares
the two.
-/

namespace SchemaBeans.Index

variable {models others : List Model} {index : Index} {typeName : String} {space : List String}

/-- The types of some models. -/
def types (models : List Model) : Finset QualifiedName :=
  (models.map QualifiedName.ofModel).toFinset

/-- The types of some models that have a given name. -/
def namedTypes (models : List Model) (typeName : String) : Finset QualifiedName :=
  (types models).filter fun name => name.typeName = typeName

/-- What a reference from a namespace means among the types of its name. -/
inductive Means (named : Finset QualifiedName) (space : List String) :
    Except ResolutionFailure QualifiedName → Prop where
  | unknown (none : named = ∅) : Means named space (.error .unknown)
  | only {target : QualifiedName} (single : named = {target}) : Means named space (.ok target)
  /-- The namespace has its own type among several ones. -/
  | own {target : QualifiedName} (several : 1 < named.card) (inside : target ∈ named)
      (here : target.space = space) : Means named space (.ok target)
  /-- There are several types, all in other namespaces. -/
  | ambiguous {candidates : List QualifiedName} (several : 1 < named.card)
      (elsewhere : ∀ name ∈ named, name.space ≠ space)
      (sorted : candidates.Pairwise fun left right => QualifiedName.compare left right = .lt)
      (all : ∀ name, name ∈ candidates ↔ name ∈ named) :
      Means named space (.error (.ambiguous candidates))

/-- The candidates of a name are strictly sorted. -/
theorem pairwise_candidates (models : List Model) (typeName : String) :
    ((ofModels models).candidates typeName).Pairwise fun left right =>
      QualifiedName.compare left right = .lt :=
  (Sorted.pairwise_ofList _ _).filter _

/-- The index knows the types of all models. -/
theorem mem_types_iff {name : QualifiedName} :
    name ∈ types models ↔ name ∈ (ofModels models).names := by
  simp [types, ofModels]

/-- The candidates of a name are the types that have it. -/
theorem mem_candidates_iff {name : QualifiedName} :
    name ∈ (ofModels models).candidates typeName ↔ name ∈ namedTypes models typeName := by
  rw [mem_candidates, namedTypes, Finset.mem_filter, mem_types_iff]

/-- There is one candidate where one type has the name. -/
theorem candidates_eq_singleton_iff {target : QualifiedName} :
    (ofModels models).candidates typeName = [target] ↔ namedTypes models typeName = {target} := by
  rw [candidates_ofModels_eq_singleton_iff, Finset.eq_singleton_iff_unique_mem]
  simp only [mem_candidates_iff]

/-- A name has no candidates when no type is called so. -/
theorem candidates_eq_nil_iff :
    (ofModels models).candidates typeName = [] ↔ namedTypes models typeName = ∅ := by
  rw [List.eq_nil_iff_forall_not_mem, Finset.eq_empty_iff_forall_notMem]
  simp only [mem_candidates_iff]

/-- A type that a reference designates is the only one of its name, or the own one among
several. -/
theorem designates_iff {target : QualifiedName} :
    (ofModels models).Designates typeName space target ↔
      namedTypes models typeName = {target} ∨
        1 < (namedTypes models typeName).card ∧ target ∈ namedTypes models typeName ∧
          target.space = space := by
  constructor
  · rintro ⟨candidate, here | single⟩
    · have inside := mem_candidates_iff.mp candidate
      rcases Nat.lt_or_ge 1 (namedTypes models typeName).card with several | few
      · exact .inr ⟨several, inside, here⟩
      · exact .inl (Finset.eq_singleton_iff_unique_mem.mpr
          ⟨inside, fun other known => Finset.card_le_one.mp few other known target inside⟩)
    · exact .inl (candidates_eq_singleton_iff.mp single)
  · rintro (single | ⟨_, inside, here⟩)
    · have alone := candidates_eq_singleton_iff.mpr single
      exact ⟨by simp [alone], .inr alone⟩
    · exact ⟨mem_candidates_iff.mpr inside, .inl here⟩

/-- A reference designates nothing although its name is known: there are several types, all in
other namespaces. -/
theorem several_of_undesignated (known : (ofModels models).candidates typeName ≠ [])
    (undesignated : ∀ target, ¬ (ofModels models).Designates typeName space target) :
    1 < (namedTypes models typeName).card ∧
      ∀ name ∈ namedTypes models typeName, name.space ≠ space := by
  have several : 1 < (namedTypes models typeName).card := by
    by_contra few
    have nonempty : (namedTypes models typeName).Nonempty :=
      Finset.nonempty_iff_ne_empty.mpr (mt candidates_eq_nil_iff.mpr known)
    have single : (namedTypes models typeName).card = 1 := by
      have some := nonempty.card_pos
      omega
    obtain ⟨target, alone⟩ := Finset.card_eq_one.mp single
    apply undesignated target
    exact designates_iff.mpr (.inl alone)
  refine ⟨several, ?_⟩
  intro name inside here
  apply undesignated name
  exact designates_iff.mpr (.inr ⟨several, inside, here⟩)

/-- Resolution finds out what a reference means. -/
theorem resolve_eq_iff {outcome : Except ResolutionFailure QualifiedName} :
    (ofModels models).resolve typeName space = outcome ↔
      Means (namedTypes models typeName) space outcome := by
  constructor
  · rintro rfl
    cases resolved : (ofModels models).resolve typeName space with
    | ok target =>
        have designated := resolve_eq_ok_iff.mp resolved
        rcases designates_iff.mp designated with single | ⟨several, inside, here⟩
        · exact .only single
        · exact .own several inside here
    | error failure =>
        cases failure with
        | unknown => exact .unknown (candidates_eq_nil_iff.mp (resolve_eq_unknown_iff.mp resolved))
        | ambiguous candidates =>
            obtain rfl := candidates_of_ambiguous resolved
            obtain ⟨known, undesignated⟩ := resolve_eq_ambiguous_iff.mp resolved
            obtain ⟨several, elsewhere⟩ := several_of_undesignated known undesignated
            exact .ambiguous several elsewhere (pairwise_candidates models typeName)
              fun name => mem_candidates_iff
  · intro means
    cases means with
    | unknown none => exact resolve_eq_unknown_iff.mpr (candidates_eq_nil_iff.mpr none)
    | only single => exact resolve_eq_ok_iff.mpr (designates_iff.mpr (.inl single))
    | own several inside here =>
        exact resolve_eq_ok_iff.mpr (designates_iff.mpr (.inr ⟨several, inside, here⟩))
    | @ambiguous candidates several elsewhere sorted all =>
        have listed : candidates = (ofModels models).candidates typeName := by
          apply Sorted.eq_of_mem_iff Sorted.lt_asymm sorted (pairwise_candidates models typeName)
          intro name
          rw [all, mem_candidates_iff]
        rw [listed, resolve_eq_ambiguous_iff]
        constructor
        · intro nothing
          rw [candidates_eq_nil_iff.mp nothing] at several
          simp at several
        · intro target designated
          rcases designates_iff.mp designated with single | ⟨_, inside, here⟩
          · simp [single] at several
          · exact elsewhere target inside here

/-- An index depends on the types of its models only. -/
theorem ofModels_eq_iff : ofModels models = ofModels others ↔ types models = types others := by
  constructor
  · intro same
    ext name
    rw [mem_types_iff, mem_types_iff, same]
  · intro same
    apply congrArg Index.mk
    apply Sorted.eq_of_mem_iff Sorted.lt_asymm (Sorted.pairwise_ofList _ _)
      (Sorted.pairwise_ofList _ _)
    intro name
    exact mem_types_iff.symm.trans (same ▸ mem_types_iff)

section Tables

/-- The names of an index with their candidates, in the order of the names. -/
def table (index : Index) : List (String × List QualifiedName) :=
  (Sorted.ofList Ord.compare (index.names.map QualifiedName.typeName)).map fun typeName =>
    (typeName, index.candidates typeName)

/-- Adds the type of a model to some types, unless it is there already. -/
def enter (names : List QualifiedName) (model : Model) : List QualifiedName :=
  if QualifiedName.ofModel model ∈ names then names else names ++ [QualifiedName.ofModel model]

/-- The table of some models as it is filled, model by model. Each group is sorted in the end. -/
def tabulate (models : List Model) : List (String × List QualifiedName) :=
  (Keyed.Ordered.collect Ord.compare Model.typeName enter models).map fun group =>
    (group.1, group.2.mergeSort fun left right => QualifiedName.compare left right ≠ .gt)

/-- Entering a model adds its name to those that are listed. -/
theorem mem_enter {names : List QualifiedName} {model : Model} {name : QualifiedName} :
    name ∈ enter names model ↔ name ∈ names ∨ name = QualifiedName.ofModel model := by
  unfold enter
  split
  · next inside =>
      refine (or_iff_left_of_imp ?_).symm
      rintro rfl
      exact inside
  · rw [List.mem_append, List.mem_singleton]

/-- A name is not listed twice. -/
theorem nodup_enter {names : List QualifiedName} (distinct : names.Nodup) (model : Model) :
    (enter names model).Nodup := by
  unfold enter
  split
  · exact distinct
  · next outside =>
      rw [← List.concat_eq_append]
      exact distinct.concat outside

/-- A group is made of the types of its models. -/
theorem mem_foldl_enter {name : QualifiedName} (models : List Model) :
    name ∈ models.foldl enter [] ↔ name ∈ types models := by
  induction models using List.reverseRecOn with
  | nil => simp [types]
  | append_singleton models model hypothesis =>
      rw [List.foldl_append, List.foldl_cons, List.foldl_nil, mem_enter, hypothesis]
      simp [types, eq_comm, or_comm]

/-- No type is in a group twice. -/
theorem nodup_foldl_enter (models : List Model) : (models.foldl enter []).Nodup := by
  induction models using List.reverseRecOn with
  | nil => exact List.nodup_nil
  | append_singleton models model hypothesis =>
      rw [List.foldl_append]
      exact nodup_enter hypothesis model

/-- A group of models with one name, once it is sorted, lists the candidates of the name. -/
theorem mergeSort_group (models : List Model) (typeName : String) :
    (((models.filter fun model => model.typeName = typeName).foldl enter []).mergeSort
      fun left right => QualifiedName.compare left right ≠ .gt) =
      (ofModels models).candidates typeName := by
  let group := (models.filter fun model => model.typeName = typeName).foldl enter []
  have distinct : (group.mergeSort fun left right =>
      QualifiedName.compare left right ≠ .gt).Nodup :=
    (List.mergeSort_perm group _).nodup_iff.mpr (nodup_foldl_enter _)
  have sorted := pairwise_lt_of_ne_gt (pairwise_mergeSort_ne_gt group)
    (distinct.imp fun different equal => different (Std.LawfulEqCmp.eq_of_compare equal))
  apply Sorted.eq_of_mem_iff Sorted.lt_asymm sorted (pairwise_candidates models typeName)
  intro name
  rw [List.mem_mergeSort, mem_foldl_enter, mem_candidates_iff]
  simp only [types, namedTypes, List.mem_toFinset, List.mem_map, List.mem_filter,
    decide_eq_true_eq, Finset.mem_filter]
  constructor
  · rintro ⟨model, ⟨present, named⟩, rfl⟩
    exact ⟨⟨model, present, rfl⟩, named⟩
  · rintro ⟨⟨model, present, rfl⟩, named⟩
    exact ⟨model, ⟨present, named⟩, rfl⟩

/-- Filling a table model by model gives the table of the index. -/
theorem tabulate_eq_table (models : List Model) : tabulate models = (ofModels models).table := by
  have keys : Sorted.ofList Ord.compare (models.map Model.typeName) =
      Sorted.ofList Ord.compare ((ofModels models).names.map QualifiedName.typeName) := by
    apply Sorted.eq_of_mem_iff Sorted.lt_asymm (Sorted.pairwise_ofList _ _)
      (Sorted.pairwise_ofList _ _)
    intro typeName
    simp [QualifiedName.ofModel]
  rw [tabulate, Keyed.Ordered.collect_eq_map, List.map_map, table, ← keys]
  exact List.map_congr_left fun typeName _ => congrArg _ (mergeSort_group models typeName)

/-- What the table of an index has under a name are the candidates of the name. -/
theorem lookup_table (index : Index) (typeName : String) :
    (index.table.lookup typeName).getD [] = index.candidates typeName := by
  cases found : index.table.lookup typeName with
  | none =>
      refine (List.eq_nil_iff_forall_not_mem.mpr fun name candidate => ?_).symm
      obtain ⟨known, rfl⟩ := mem_candidates.mp candidate
      have entered : (name.typeName, index.candidates name.typeName) ∈ index.table :=
        List.mem_map_of_mem (Sorted.mem_ofList.mpr (List.mem_map_of_mem known))
      have absent := List.lookup_eq_none_iff.mp found _ entered
      simp at absent
  | some group =>
      obtain ⟨front, rest, split, _⟩ := List.lookup_eq_some_iff.mp found
      have entered : (typeName, group) ∈ index.table := by simp [split]
      obtain ⟨key, _, same⟩ := List.mem_map.mp entered
      cases same
      rfl

end Tables

/-- An index stands for the types of some models. -/
structure Represents (models : List Model) (index : Index) : Prop where
  /-- A reference means what it means among the types of its name. -/
  resolve_iff : ∀ typeName space outcome,
    index.resolve typeName space = outcome ↔ Means (namedTypes models typeName) space outcome
  /-- The table that is filled model by model is the one that resolution reads. -/
  filled : tabulate models = index.table
  read : ∀ typeName, (index.table.lookup typeName).getD [] = index.candidates typeName
  keys_sorted : (index.table.map Prod.fst).Pairwise fun left right => Ord.compare left right = .lt
  entry : ∀ typeName candidates, (typeName, candidates) ∈ index.table →
    candidates ≠ [] ∧
      (candidates.Pairwise fun left right => QualifiedName.compare left right = .lt) ∧
      ∀ name ∈ candidates, name.typeName = typeName
  /-- Neither the order of the models nor how often a type is among them matters. -/
  eq_iff : ∀ others, index = ofModels others ↔ types models = types others

/-- The index of some models stands for their types. -/
theorem represents_ofModels (models : List Model) : Represents models (ofModels models) where
  resolve_iff typeName space outcome := resolve_eq_iff
  filled := tabulate_eq_table models
  read := lookup_table _
  keys_sorted := by
    rw [table, List.map_map]
    exact (List.map_id _).symm ▸ Sorted.pairwise_ofList _ _
  entry typeName candidates entered := by
    obtain ⟨key, known, same⟩ := List.mem_map.mp entered
    cases same
    refine ⟨fun none => ?_, pairwise_candidates models typeName, fun name candidate =>
      (mem_candidates.mp candidate).2⟩
    obtain ⟨name, inside, rfl⟩ := List.mem_map.mp (Sorted.mem_ofList.mp known)
    have candidate := mem_candidates.mpr ⟨inside, rfl⟩
    rw [none] at candidate
    cases candidate
  eq_iff others := ofModels_eq_iff

end SchemaBeans.Index

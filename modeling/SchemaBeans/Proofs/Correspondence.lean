import SchemaBeans.Proofs.Accounting

/-!
# Runs that correspond

The analysis of a run does not depend on where the models stand in it, nor on models
that no other one mentions. `Corresponds` says of two lists of models that they differ
in nothing else. A round of resolution keeps this relation, and rejects at
corresponding places for the same reasons; by induction so do all rounds. Models that
are put in another order and a model that is added are two cases of it.
-/

namespace SchemaBeans

namespace Index

variable {index other : Index} {typeName : String} {space : List String} {model : Model}

/-- Models with the same qualified names of one type name are the same candidates for it. -/
theorem candidates_congr {models others : List Model}
    (same : ∀ name : QualifiedName, name.typeName = typeName →
      (name ∈ (ofModels models).names ↔ name ∈ (ofModels others).names)) :
    (ofModels models).candidates typeName = (ofModels others).candidates typeName :=
  (candidates_sublist_of_names fun name named => (same name named).mp).antisymm
    (candidates_sublist_of_names fun name named => (same name named).mpr)

/-- What a reference means depends on the candidates of its name only. -/
theorem resolve_congr (same : index.candidates typeName = other.candidates typeName) :
    index.resolve typeName space = other.resolve typeName space := by
  rw [resolve, resolve, same]

/-- Two indices give all references of a model the same meaning. -/
def Agree (index other : Index) (model : Model) : Prop :=
  ∀ reference ∈ model.references,
    index.resolve reference model.space = other.resolve reference model.space

/-- The error of a model depends on what its references mean only. -/
theorem Agree.referenceError? (agree : Agree index other model) :
    index.referenceError? model = other.referenceError? model := by
  have each : ∀ property ∈ model.properties,
      index.propertyError? model property = other.propertyError? model property := by
    intro property declared
    unfold propertyError?
    cases mentioned : property.type.reference? with
    | none => rfl
    | some reference =>
        have same := agree reference (List.mem_filterMap.mpr ⟨property, declared, mentioned⟩)
        simp only [Option.bind_some, same]
  unfold Index.referenceError?
  generalize model.properties = properties at each
  induction properties with
  | nil => rfl
  | cons property properties hypothesis =>
      obtain ⟨first, rest⟩ := List.forall_mem_cons.mp each
      rw [List.findSome?_cons, List.findSome?_cons, first, hypothesis rest]

end Index

namespace Analysis

variable {place : Nat → Nat} {wide narrow : List Numbered}

/-- The models of one list are those of another at other places, save for models in the first list
that none of the second mentions. -/
structure Corresponds (place : Nat → Nat) (wide narrow : List Numbered) : Prop where
  mem_iff : ∀ position model, (place position, model) ∈ wide ↔ (position, model) ∈ narrow
  surplus : ∀ entry ∈ wide, (∃ position, entry.1 = place position) ∨
    ∀ other ∈ narrow, entry.2.typeName ∉ other.2.references

/-- A reference of the second list has the same candidates in both. -/
theorem Corresponds.candidates_eq (corresponds : Corresponds place wide narrow) {entry : Numbered}
    (inside : entry ∈ narrow) {reference : String} (mentioned : reference ∈ entry.2.references) :
    (roundIndex wide).candidates reference = (roundIndex narrow).candidates reference := by
  refine Index.candidates_congr fun name named => ?_
  rw [Index.mem_names_ofModels, Index.mem_names_ofModels]
  constructor
  · rintro ⟨model, listed, rfl⟩
    obtain ⟨other, present, rfl⟩ := List.mem_map.mp listed
    rcases corresponds.surplus other present with ⟨position, there⟩ | unmentioned
    · have moved : (place position, other.2) ∈ wide := there ▸ present
      have kept := (corresponds.mem_iff position other.2).mp moved
      exact ⟨other.2, List.mem_map.mpr ⟨_, kept, rfl⟩, rfl⟩
    · have named : other.2.typeName = reference := named
      exact absurd (named ▸ mentioned) (unmentioned entry inside)
  · rintro ⟨model, listed, rfl⟩
    obtain ⟨⟨position, other⟩, present, rfl⟩ := List.mem_map.mp listed
    have moved := (corresponds.mem_iff position other).mpr present
    exact ⟨other, List.mem_map.mpr ⟨_, moved, rfl⟩, rfl⟩

/-- Corresponding models have references with the same meaning. -/
theorem Corresponds.agree (corresponds : Corresponds place wide narrow) {position : Nat}
    {model : Model} (inside : (position, model) ∈ narrow) :
    Index.Agree (roundIndex wide) (roundIndex narrow) model :=
  fun _ mentioned => Index.resolve_congr (corresponds.candidates_eq inside mentioned)

/-- A round keeps corresponding models. -/
theorem Corresponds.round (corresponds : Corresponds place wide narrow) :
    Corresponds place (round wide) (round narrow) := by
  constructor
  · intro position model
    simp only [Analysis.round, resolved, List.mem_filter, corresponds.mem_iff]
    exact and_congr_right fun inside => by rw [(corresponds.agree inside).referenceError?]
  · intro entry kept
    refine (corresponds.surplus entry ((round_sublist wide).subset kept)).imp_right ?_
    exact fun unmentioned other keptToo => unmentioned other ((round_sublist narrow).subset keptToo)

/-- A round rejects corresponding models for the same reasons. -/
theorem Corresponds.mem_unresolved_iff (corresponds : Corresponds place wide narrow)
    (position : Nat) (rejection : Rejection) :
    (place position, rejection) ∈ unresolved (roundIndex wide) wide ↔
      (position, rejection) ∈ unresolved (roundIndex narrow) narrow := by
  have mem_iff : ∀ (models : List Numbered) (position : Nat),
      (position, rejection) ∈ unresolved (roundIndex models) models ↔
        ∃ model, (position, model) ∈ models ∧
          ∃ error, (roundIndex models).referenceError? model = some error ∧
            .unresolved error = rejection := by
    intro models position
    simp [unresolved]
  rw [mem_iff, mem_iff]
  refine exists_congr fun model => ?_
  rw [corresponds.mem_iff]
  exact and_congr_right fun inside => by rw [(corresponds.agree inside).referenceError?]

/-- Rounds are a first round and the rounds over what it keeps, also where it keeps everything. -/
theorem rounds_eq (models : List Numbered) :
    rounds models = { rounds (round models) with
      rejected := unresolved (roundIndex models) models ++ (rounds (round models)).rejected } := by
  by_cases same : round models = models
  · have none : unresolved (roundIndex models) models = [] := by
      refine List.filterMap_eq_nil_iff.mpr fun entry inside => ?_
      have clean := List.filter_eq_self.mp same entry inside
      rw [Option.isNone_iff_eq_none.mp clean]
      rfl
    rw [same, none, List.nil_append]
  · exact rounds_of_unsettled same

/-- Two outcomes keep and reject the same at corresponding places. -/
structure Matches (place : Nat → Nat) (wide narrow : Analysis) : Prop where
  kept : Corresponds place wide.kept narrow.kept
  rejected : ∀ position rejection,
    (place position, rejection) ∈ wide.rejected ↔ (position, rejection) ∈ narrow.rejected

/-- The rounds over corresponding models have outcomes that match. -/
theorem Corresponds.rounds (corresponds : Corresponds place wide narrow) :
    Matches place (rounds wide) (rounds narrow) := by
  induction wide using rounds_induction generalizing narrow with
  | settled wide same =>
      -- What a round leaves as it is on one side, it leaves as it is on the other.
      have settled : Analysis.round narrow = narrow := by
        refine List.filter_eq_self.mpr fun entry inside => ?_
        have moved := (corresponds.mem_iff entry.1 entry.2).mpr inside
        have clean := List.filter_eq_self.mp same _ moved
        rwa [(corresponds.agree inside).referenceError?] at clean
      rw [rounds_of_settled same, rounds_of_settled settled]
      exact ⟨corresponds, by simp⟩
  | unsettled wide changed hypothesis =>
      have later := hypothesis corresponds.round
      rw [rounds_eq wide, rounds_eq narrow]
      refine ⟨later.kept, fun position rejection => ?_⟩
      rw [List.mem_append, List.mem_append, corresponds.mem_unresolved_iff, later.rejected]

section Collisions

variable {models others : List Model} {position : Nat} {model : Model} {all : List Numbered}
  {entry : Numbered} {collision : Collision} {error : ResolutionError}

/-- An unresolved reference is found in the rounds. -/
theorem unresolved_mem_rejected_iff :
    (position, .unresolved error) ∈ (ofModels models).rejected ↔
      (position, .unresolved error) ∈ (rounds (uncontested models)).rejected := by
  have late : (position, Rejection.unresolved error) ∉ clashes models := by
    simp [clashes]
  rw [ofModels_eq, List.mem_append, or_iff_right late]

/-- The rivals of a model at another place are its rivals at other places. -/
theorem rivals_map (injective : Function.Injective place) (all : List Numbered) (position : Nat)
    (model : Model) :
    rivals (all.map (Prod.map place id)) (place position) model =
      (rivals all position model).map (Prod.map place id) := by
  rw [rivals, rivals, List.filter_map]
  refine congrArg _ (List.filter_congr fun other _ => ?_)
  simp [injective.eq_iff]

/-- A model with the same rivals at other places has the same collision. -/
theorem collision?_map {others all : List Numbered} {position : Nat} {model : Model}
    (same : rivals others (place position) model =
      (rivals all position model).map (Prod.map place id)) :
    collision? others (place position, model) = collision? all (position, model) := by
  unfold collision?
  rw [same]
  cases rivals all position model <;> simp

/-- Two runs have the same rivals for a model at corresponding places, in some order. -/
def SameRivals (place : Nat → Nat) (models others : List Model) : Prop :=
  ∀ position model, others[position]? = some model →
    (rivals (numbered models) (place position) model).Perm
      ((rivals (numbered others) position model).map (Prod.map place id))

/-- Where models correspond, so do those whose names nobody contests. -/
theorem Corresponds.uncontested
    (corresponds : Corresponds place (numbered models) (numbered others))
    (same : SameRivals place models others) :
    Corresponds place (uncontested models) (uncontested others) := by
  constructor
  · intro position model
    simp only [Analysis.uncontested, List.mem_filter, Option.isNone_iff_eq_none,
      collision?_eq_none_iff, corresponds.mem_iff]
    refine and_congr_right fun present => ?_
    have moved := same position model (mem_numbered.mp present)
    rw [← List.perm_nil, ← @List.map_eq_nil_iff _ _ (Prod.map place id), ← List.perm_nil]
    exact ⟨moved.symm.trans, moved.trans⟩
  · intro entry free
    refine (corresponds.surplus entry ((uncontested_sublist models).subset free)).imp_right ?_
    exact fun unmentioned other freeToo =>
      unmentioned other ((uncontested_sublist others).subset freeToo)

/-- Corresponding models of two runs are kept together. -/
theorem Corresponds.kept_ofModels
    (corresponds : Corresponds place (numbered models) (numbered others))
    (same : SameRivals place models others) :
    Corresponds place (ofModels models).kept (ofModels others).kept := by
  rw [Analysis.kept_ofModels, Analysis.kept_ofModels]
  exact (corresponds.uncontested same).rounds.kept

/-- Corresponding models of two runs are rejected for the same unresolved references. -/
theorem Corresponds.unresolved_ofModels
    (corresponds : Corresponds place (numbered models) (numbered others))
    (same : SameRivals place models others) (position : Nat) (error : ResolutionError) :
    (place position, .unresolved error) ∈ (ofModels models).rejected ↔
      (position, .unresolved error) ∈ (ofModels others).rejected := by
  rw [unresolved_mem_rejected_iff, unresolved_mem_rejected_iff]
  exact (corresponds.uncontested same).rounds.rejected position _

/-- A model that collides in one run collides at the corresponding place of the other, with the
same documents. -/
theorem Corresponds.exists_collision
    (corresponds : Corresponds place (numbered models) (numbered others))
    (same : SameRivals place models others)
    (collides : (position, .collision collision) ∈ (ofModels others).rejected) :
    ∃ documents, documents.Perm collision.others ∧
      (place position, .collision { collision with others := documents }) ∈
        (ofModels models).rejected := by
  rw [collision_mem_rejected_iff, mem_collisions_iff] at collides
  obtain ⟨model, present, found⟩ := collides
  have there := mem_numbered.mp
    ((corresponds.mem_iff position model).mpr (mem_numbered.mpr present))
  obtain ⟨rivaled, rfl⟩ := collision?_eq_some_iff.mp found
  have moved := same position model present
  refine ⟨(rivals (numbered models) (place position) model).map fun other => other.2.source,
    ?_, collision_mem_rejected_iff.mpr (mem_collisions_iff.mpr
      ⟨model, there, collision?_eq_some_iff.mpr ⟨?_, rfl⟩⟩)⟩
  · have sources := moved.map fun other : Numbered => other.2.source
    rwa [List.map_map] at sources
  · intro alone
    rw [alone] at moved
    exact rivaled (List.map_eq_nil_iff.mp moved.nil_eq.symm)

end Collisions

end Analysis

end SchemaBeans

import Mathlib.Logic.Equiv.Fin.Basic
import SchemaBeans.Proofs.Acceptance
import SchemaBeans.Proofs.Correspondence
import SchemaBeans.Proofs.Imports

/-!
# What does not change a run

Which models of a run are kept, why the others are rejected and what is emitted does
not depend on the order in which the models were found, nor on a model that stands
apart from all others: one that none of them mentions and that shares its qualified
name with none of them.
-/

namespace SchemaBeans

namespace Bean

variable {index other : Index} {model : Model} {options : EmitOptions}

/-- The text of a type depends on what the mentioned model means only. -/
theorem typeText_congr {base : String} {boxed : Bool} {type : TypeRef}
    (same : ∀ reference, type.reference? = some reference →
      index.resolve reference model.space = other.resolve reference model.space) :
    typeText base index model boxed type = typeText base other model boxed type := by
  induction type generalizing boxed with
  | primitive type => rfl
  | model name => rw [typeText, typeText, same name rfl]
  | list element hypothesis => rw [typeText, typeText, hypothesis same]

/-- The unit of a model depends on what its references mean only. -/
theorem emit_congr (agree : Index.Agree index other model) :
    emit options index model = emit options other model := by
  have each : ∀ property ∈ model.properties, field options.basePackage index model property =
      field options.basePackage other model property := by
    intro property declared
    have same := @typeText_congr index other model options.basePackage false property.type
      fun reference mentioned =>
        agree reference (List.mem_filterMap.mpr ⟨property, declared, mentioned⟩)
    rw [field, field, same]
  have fields : model.properties.mapM (field options.basePackage index model) =
      model.properties.mapM (field options.basePackage other model) := by
    generalize model.properties = properties at each
    induction properties with
    | nil => rfl
    | cons property properties hypothesis =>
        obtain ⟨first, rest⟩ := List.forall_mem_cons.mp each
        rw [List.mapM_cons, List.mapM_cons, first, hypothesis rest]
  rw [emit, emit, fields]

end Bean

namespace Analysis

section Addition

variable {before after : List Model} {added : Model}

/-- Where a position comes to be after a model was added at a spot. -/
def makeRoom (spot position : Nat) : Nat := if position < spot then position else position + 1

/-- Different positions stay different. -/
theorem makeRoom_injective (spot : Nat) : Function.Injective (makeRoom spot) := by
  intro left right same
  unfold makeRoom at same
  split at same <;> split at same <;> omega

/-- The other models are where there was made room for them. -/
theorem getElem?_makeRoom (before after : List Model) (added : Model) (position : Nat) :
    (before ++ added :: after)[makeRoom before.length position]? =
      (before ++ after)[position]? := by
  unfold makeRoom
  split
  · next early => rw [List.getElem?_append_left early, List.getElem?_append_left early]
  · next late =>
      rw [List.getElem?_append_right (by omega), List.getElem?_append_right (by omega),
        Nat.sub_add_comm (by omega), List.getElem?_cons_succ]

/-- The model at the spot is the one that was added. -/
theorem eq_added {entry : Numbered} (listed : entry ∈ numbered (before ++ added :: after))
    (own : entry.1 = before.length) : entry.2 = added := by
  have there := mem_numbered.mp listed
  rw [own, List.getElem?_append_right (Nat.le_refl _), Nat.sub_self] at there
  exact (Option.some.inj there).symm

/-- Without the added model, a run is the one that it was added to, with room made for it. -/
theorem filter_numbered_added (before after : List Model) (added : Model) :
    ((numbered (before ++ added :: after)).filter fun entry => entry.1 ≠ before.length) =
      (numbered (before ++ after)).map (Prod.map (makeRoom before.length) id) := by
  have early : ∀ entry ∈ before.zipIdx, entry.2 < before.length := by
    intro entry inside
    simpa using List.snd_lt_of_mem_zipIdx inside
  have late : ∀ start, ∀ entry ∈ after.zipIdx start, start ≤ entry.2 :=
    fun _ _ inside => List.le_snd_of_mem_zipIdx inside
  simp only [numbered, List.zipIdx_append, List.zipIdx_cons, List.map_append, List.map_cons,
    List.filter_append, Nat.zero_add, List.map_map, List.filter_map]
  refine congr (congrArg _ ?_) ?_
  · rw [List.filter_eq_self.mpr]
    · refine List.map_congr_left fun entry inside => ?_
      simp [makeRoom, early entry inside]
    · intro entry inside
      simpa using Nat.ne_of_lt (early entry inside)
  · rw [List.filter_cons_of_neg (by simp), List.filter_eq_self.mpr]
    · rw [List.zipIdx_succ, List.map_map]
      refine List.map_congr_left fun entry inside => ?_
      simp [makeRoom, Nat.not_lt.mpr (late _ entry inside)]
    · intro entry inside
      obtain ⟨listed, there, rfl⟩ := List.mem_map.mp inside
      simpa using Nat.ne_of_gt (late _ listed there)

/-- The rivals of the other models are what they were before a model with a name of its own was
added. -/
theorem rivals_added (unnamed : ∀ other ∈ before ++ after,
      QualifiedName.ofModel other ≠ QualifiedName.ofModel added)
    {position : Nat} {model : Model} (present : (before ++ after)[position]? = some model) :
    rivals (numbered (before ++ added :: after)) (makeRoom before.length position) model =
      (rivals (numbered (before ++ after)) position model).map
        (Prod.map (makeRoom before.length) id) := by
  rw [← rivals_map (makeRoom_injective _), ← filter_numbered_added before after added, rivals,
    rivals, List.filter_filter]
  refine List.filter_congr fun other listed => ?_
  by_cases own : other.1 = before.length
  · have apart := unnamed model (List.mem_of_getElem? present)
    simp [eq_added listed own, apart.symm]
  · simp [own]

/-- A run corresponds to the one that a model was added to which nobody mentions. -/
theorem corresponds_added (unmentioned : ∀ other ∈ before ++ after,
      added.typeName ∉ other.references) :
    Corresponds (makeRoom before.length) (numbered (before ++ added :: after))
      (numbered (before ++ after)) := by
  constructor
  · intro position model
    rw [mem_numbered, mem_numbered, getElem?_makeRoom]
  · intro entry listed
    rcases Nat.lt_trichotomy entry.1 before.length with early | own | late
    · exact .inl ⟨entry.1, by simp [makeRoom, early]⟩
    · refine .inr fun other inside => ?_
      rw [eq_added listed own]
      exact unmentioned other.2 (List.mem_of_getElem? (mem_numbered.mp inside))
    · refine .inl ⟨entry.1 - 1, ?_⟩
      rw [makeRoom, if_neg (by omega)]
      omega

/-- A model that is added to a run, that no other one mentions and that has its qualified name for
itself, leaves the outcome of every other model as it was: whether it is kept, why it is rejected,
and what is emitted for it. -/
theorem others_unaffected (before after : List Model) (added : Model)
    (unmentioned : ∀ other ∈ before ++ after, added.typeName ∉ other.references)
    (unnamed : ∀ other ∈ before ++ after,
      QualifiedName.ofModel other ≠ QualifiedName.ofModel added)
    (position : Nat) (model : Model) :
    ((makeRoom before.length position, model) ∈ (ofModels (before ++ added :: after)).kept ↔
        (position, model) ∈ (ofModels (before ++ after)).kept) ∧
      (∀ rejection,
        (makeRoom before.length position, rejection) ∈
            (ofModels (before ++ added :: after)).rejected ↔
          (position, rejection) ∈ (ofModels (before ++ after)).rejected) ∧
      ((position, model) ∈ (ofModels (before ++ after)).kept → ∀ options, ∃ unit,
        Bean.emit options (ofModels (before ++ after)).index model = .ok unit ∧
          Bean.emit options (ofModels (before ++ added :: after)).index model = .ok unit) := by
  have corresponds := corresponds_added unmentioned
  have same : SameRivals (makeRoom before.length) (before ++ added :: after) (before ++ after) :=
    fun _ _ present => .of_eq (rivals_added unnamed present)
  have kept := corresponds.kept_ofModels same
  refine ⟨kept.mem_iff position model, ?_, ?_⟩
  · rintro (collision | error)
    · simp only [collision_mem_rejected_iff, mem_collisions_iff]
      refine exists_congr fun model => ?_
      rw [getElem?_makeRoom]
      refine and_congr_right fun present => ?_
      rw [collision?_map (rivals_added unnamed present)]
    · exact corresponds.unresolved_ofModels same position error
  · intro inside options
    obtain ⟨unit, emitted⟩ := Bean.exists_emit_of_kept options inside
    refine ⟨unit, emitted, ?_⟩
    rw [← emitted, index_ofModels, index_ofModels]
    exact Bean.emit_congr (kept.agree inside)

/-- A model with an unknown reference that stands apart from the models of `twoAddresses`. -/
def stray : Model :=
  ⟨"Stray", none, [⟨"next", .model "Missing", none⟩], ["billing"], ⟨"billing/stray.yaml"⟩⟩

/-- The stray model is rejected itself. The order behind it is rejected with the same error as
before, and the address behind that is kept. -/
theorem twoAddresses_unaffected_by_stray :
    (∀ other ∈ twoAddresses.take 2 ++ twoAddresses.drop 2, stray.typeName ∉ other.references) ∧
      (∀ other ∈ twoAddresses.take 2 ++ twoAddresses.drop 2,
        QualifiedName.ofModel other ≠ QualifiedName.ofModel stray) ∧
      (3, .unresolved ⟨⟨"sales/order.yaml"⟩, "Order", "to", "Address",
        .ambiguous [⟨["billing"], "Address"⟩, ⟨["shipping"], "Address"⟩]⟩) ∈
        (ofModels (twoAddresses.take 2 ++ stray :: twoAddresses.drop 2)).rejected ∧
      (4, twoAddresses[3]) ∈
        (ofModels (twoAddresses.take 2 ++ stray :: twoAddresses.drop 2)).kept := by
  have unmentioned : ∀ other ∈ twoAddresses.take 2 ++ twoAddresses.drop 2,
      stray.typeName ∉ other.references := by decide +kernel
  have unnamed : ∀ other ∈ twoAddresses.take 2 ++ twoAddresses.drop 2,
      QualifiedName.ofModel other ≠ QualifiedName.ofModel stray := by decide +kernel
  have unaffected := others_unaffected _ _ stray unmentioned unnamed
  refine ⟨unmentioned, unnamed, ?_, ?_⟩
  · exact ((unaffected 2 twoAddresses[2]).2.1 _).mpr (by decide +kernel)
  · exact (unaffected 3 twoAddresses[3]).1.mpr (by decide +kernel)

end Addition

section Reordering

variable {models others : List Model} {place : Equiv.Perm Nat}

/-- Models in another order correspond to those of the first. -/
theorem corresponds_of_equiv (moved : ∀ position, others[position]? = models[place position]?) :
    Corresponds place (numbered models) (numbered others) where
  mem_iff position model := by rw [mem_numbered, mem_numbered, moved]
  surplus entry _ := .inl ⟨place.symm entry.1, (place.apply_symm_apply _).symm⟩

/-- The models in another order have their rivals in another order. -/
theorem sameRivals_of_equiv (moved : ∀ position, others[position]? = models[place position]?) :
    SameRivals place models others := by
  have nodup : ∀ models : List Model, (numbered models).Nodup := by
    intro models
    refine List.Nodup.of_map Prod.fst ?_
    rw [map_fst_numbered]
    exact List.nodup_range
  have perm : (numbered models).Perm ((numbered others).map (Prod.map place id)) := by
    refine (List.perm_ext_iff_of_nodup (nodup models) ?_).mpr fun entry => ?_
    · exact (nodup others).map (place.injective.prodMap Function.injective_id)
    · rw [List.mem_map, mem_numbered]
      constructor
      · intro present
        refine ⟨(place.symm entry.1, entry.2), ?_, by simp⟩
        rw [mem_numbered, moved, place.apply_symm_apply]
        exact present
      · rintro ⟨other, listed, rfl⟩
        rw [mem_numbered, moved] at listed
        exact listed
  intro position model _
  rw [← rivals_map place.injective]
  exact perm.filter _

/-- The models in another order have the same names among the kept ones. -/
theorem resolve_index_of_equiv (moved : ∀ position, others[position]? = models[place position]?)
    (typeName : String) (space : List String) :
    (ofModels others).index.resolve typeName space =
      (ofModels models).index.resolve typeName space := by
  have kept := (corresponds_of_equiv moved).kept_ofModels (sameRivals_of_equiv moved)
  rw [index_ofModels, index_ofModels]
  refine Index.resolve_congr (Index.candidates_congr fun name _ => ?_)
  rw [← index_ofModels, ← index_ofModels, mem_names_index_iff, mem_names_index_iff]
  constructor
  · rintro ⟨⟨position, model⟩, inside, named⟩
    exact ⟨_, (kept.mem_iff position model).mpr inside, named⟩
  · rintro ⟨⟨position, model⟩, inside, named⟩
    rw [← place.apply_symm_apply position] at inside
    exact ⟨_, (kept.mem_iff _ model).mp inside, named⟩

/-- The models of a run in another order: at each position the one from another position. -/
def reorder (models : List Model) (order : Equiv.Perm (Fin models.length)) : List Model :=
  List.ofFn fun position => models[order position]

/-- An order of the positions of a run, as one of all numbers. -/
def onNumbers {count : Nat} (order : Equiv.Perm (Fin count)) : Equiv.Perm Nat :=
  order.extendDomain Fin.equivSubtype

/-- The order of all numbers goes on with that of the positions. -/
theorem onNumbers_val {count : Nat} (order : Equiv.Perm (Fin count)) (position : Fin count) :
    onNumbers order ↑position = ↑(order position) :=
  Equiv.Perm.extendDomain_apply_image order Fin.equivSubtype position

/-- Each position of the other order has the model from where the order says. -/
theorem getElem?_reorder (models : List Model) (order : Equiv.Perm (Fin models.length))
    (position : Nat) : (reorder models order)[position]? = models[onNumbers order position]? := by
  by_cases bound : position < models.length
  · have moved := onNumbers_val order ⟨position, bound⟩
    rw [reorder, List.getElem?_ofFn, dif_pos bound, moved]
    exact (List.getElem?_eq_getElem _).symm
  · have still : onNumbers order position = position :=
      Equiv.Perm.extendDomain_apply_not_subtype order Fin.equivSubtype bound
    rw [still, reorder, List.getElem?_ofFn, dif_neg bound, List.getElem?_eq_none (by omega)]

/-- Two analyses have the same outcome for each model, where the models of the second come in
another order: `order` tells where each comes from. -/
structure SameOutcome {count : Nat} (order : Equiv.Perm (Fin count))
    (analysis reordered : Analysis) : Prop where
  kept : ∀ (position : Fin count) model,
    (↑position, model) ∈ reordered.kept ↔ (↑(order position), model) ∈ analysis.kept
  unresolved : ∀ (position : Fin count) error,
    (↑position, Rejection.unresolved error) ∈ reordered.rejected ↔
      (↑(order position), Rejection.unresolved error) ∈ analysis.rejected
  /-- A model collides with the same documents, in some order. -/
  collision : ∀ (position : Fin count) schema name, ∀ documents : List Path,
    (∃ others, others.Perm documents ∧
        (↑position, Rejection.collision ⟨schema, name, others⟩) ∈ reordered.rejected) ↔
      ∃ others, others.Perm documents ∧
        (↑(order position), Rejection.collision ⟨schema, name, others⟩) ∈ analysis.rejected
  resolve : ∀ typeName space,
    reordered.index.resolve typeName space = analysis.index.resolve typeName space

/-- The order in which the models of a run are found does not matter. -/
theorem sameOutcome_reorder (models : List Model) (order : Equiv.Perm (Fin models.length)) :
    SameOutcome order (ofModels models) (ofModels (reorder models order)) := by
  have moved := getElem?_reorder models order
  have back : ∀ position, models[position]? =
      (reorder models order)[(onNumbers order).symm position]? := by
    intro position
    rw [moved, Equiv.apply_symm_apply]
  have there := corresponds_of_equiv moved
  have here := corresponds_of_equiv back
  have rivals := sameRivals_of_equiv moved
  have rivalsBack := sameRivals_of_equiv back
  refine ⟨fun position model => ?_, fun position error => ?_,
    fun position schema name documents => ?_, resolve_index_of_equiv moved⟩
  · rw [← onNumbers_val]
    exact ((there.kept_ofModels rivals).mem_iff _ model).symm
  · rw [← onNumbers_val]
    exact (there.unresolved_ofModels rivals _ error).symm
  · rw [← onNumbers_val]
    constructor
    · rintro ⟨others, same, collides⟩
      obtain ⟨moved, perm, found⟩ := there.exists_collision rivals collides
      exact ⟨moved, perm.trans same, found⟩
    · rintro ⟨others, same, collides⟩
      obtain ⟨moved, perm, found⟩ := here.exists_collision rivalsBack collides
      rw [Equiv.symm_apply_apply] at found
      exact ⟨moved, perm.trans same, found⟩

end Reordering

end Analysis

end SchemaBeans

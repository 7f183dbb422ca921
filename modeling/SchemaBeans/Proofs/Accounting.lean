import SchemaBeans.Generation
import SchemaBeans.Proofs.Collisions
import SchemaBeans.Proofs.Resolution
import SchemaBeans.Proofs.Rounds

/-!
# What an analysis accounts for

An analysis first sets aside the models whose qualified names are contested and
then runs its rounds over the others. `Analysis.Accounts` collects what its
outcome owes to the models of the run: each is kept or rejected once, for the
reason that applies to it, and what is kept is closed under references.
-/

namespace SchemaBeans

variable {models : List Model} {entry : Numbered}

namespace Analysis

/-- The models whose names nobody contests. -/
def uncontested (models : List Model) : List Numbered :=
  (numbered models).filter fun entry => (collision? (numbered models) entry).isNone

/-- The rejections of contested models. -/
def clashes (models : List Model) : List (Nat × Rejection) :=
  (numbered models).filterMap fun entry =>
    (collision? (numbered models) entry).map fun collision => (entry.1, .collision collision)

/-- The collisions of a run are what its analysis rejects before the rounds. -/
theorem clashes_eq (models : List Model) :
    clashes models = (collisions models).map (Prod.map id Rejection.collision) := by
  rw [collisions_eq, List.map_filterMap, clashes]
  apply List.filterMap_congr
  intro entry _
  cases collision? (numbered models) entry <;> rfl

/-- An analysis rejects the contested models and then what its rounds reject of the others. -/
theorem ofModels_eq (models : List Model) :
    ofModels models = { rounds (uncontested models) with
      rejected := clashes models ++ (rounds (uncontested models)).rejected } := by
  have free : (numbered models).filter
      (fun entry => ((collisions models).lookup entry.1).isNone) = uncontested models := by
    apply List.filter_congr
    intro entry present
    rw [lookup_collisions present]
  have contested : (numbered models).filterMap (fun entry =>
      ((collisions models).lookup entry.1).map fun collision =>
        (entry.1, Rejection.collision collision)) = clashes models := by
    apply List.filterMap_congr
    intro entry present
    rw [lookup_collisions present]
  simp only [ofModels, free, contested]

/-- The rounds over the uncontested models keep what the analysis keeps. -/
theorem kept_ofModels (models : List Model) :
    (ofModels models).kept = (rounds (uncontested models)).kept := by
  rw [ofModels_eq]

/-- The uncontested models of a run stand in their order. -/
theorem uncontested_sublist (models : List Model) :
    (uncontested models).Sublist (numbered models) := List.filter_sublist

/-- The collisions among the rejections of a run are those that the search for them finds. -/
theorem collision_mem_rejected_iff {position : Nat} {collision : Collision} :
    (position, .collision collision) ∈ (ofModels models).rejected ↔
      (position, collision) ∈ collisions models := by
  have early : (position, Rejection.collision collision) ∉
      (rounds (uncontested models)).rejected := by
    intro later
    obtain ⟨count, found⟩ := exists_round_of_rejected later
    simp [unresolved] at found
  rw [ofModels_eq, List.mem_append, or_iff_left early, clashes_eq]
  simp

/-- A model has a collision among the rejections exactly when its name is contested. -/
theorem exists_collision_mem_rejected_iff {position : Nat} {model : Model}
    (present : models[position]? = some model) :
    (∃ collision, (position, Rejection.collision collision) ∈ (ofModels models).rejected) ↔
      Contested models position model := by
  simp only [collision_mem_rejected_iff, mem_collisions_iff, present, Option.some.injEq,
    exists_eq_left']
  rw [← Option.isSome_iff_exists, isSome_collision?_iff]

/-- Every model is kept or rejected, and none is both or rejected twice. -/
theorem perm_ofModels (models : List Model) :
    ((ofModels models).kept.map Prod.fst ++ (ofModels models).rejected.map Prod.fst).Perm
      (List.range models.length) := by
  have checked := perm_filter_filterMap (collision? (numbered models)) Rejection.collision
    (numbered models)
  rw [map_fst_numbered] at checked
  rw [ofModels_eq, List.map_append]
  exact perm_of_parts (perm_rounds (uncontested models)) checked

/-- Only models of the run are rejected. -/
theorem lt_of_rejected {rejection : Nat × Rejection}
    (rejected : rejection ∈ (ofModels models).rejected) : rejection.1 < models.length := by
  rw [← List.mem_range, ← (perm_ofModels models).mem_iff]
  exact List.mem_append_right _ (List.mem_map_of_mem rejected)

/-- Nobody contests the name of a kept model. -/
theorem kept_sublist_uncontested (models : List Model) :
    (ofModels models).kept.Sublist (uncontested models) := by
  rw [kept_ofModels]
  exact kept_rounds_sublist _

/-- The kept models of a run stand in their order. -/
theorem kept_sublist_numbered (models : List Model) :
    (ofModels models).kept.Sublist (numbered models) :=
  (kept_sublist_uncontested models).trans (uncontested_sublist models)

/-- The index of an analysis is the one of the models that it keeps. -/
theorem index_ofModels (models : List Model) :
    (ofModels models).index = Index.ofModels ((ofModels models).kept.map Prod.snd) := by
  rw [ofModels_eq]
  exact index_rounds (uncontested models)

/-- A further round would keep all kept models of a run. -/
theorem round_kept_ofModels (models : List Model) :
    round (ofModels models).kept = (ofModels models).kept := by
  rw [kept_ofModels]
  exact round_kept (uncontested models)

/-- Every reference of a kept model resolves in the index of the kept models. -/
theorem resolve_of_kept (kept : entry ∈ (ofModels models).kept) {reference : String}
    (mentioned : reference ∈ entry.2.references) :
    ∃ target, (ofModels models).index.resolve reference entry.2.space = .ok target := by
  have clean := List.filter_eq_self.mp (round_kept_ofModels models) entry kept
  rw [Option.isNone_iff_eq_none, Index.referenceError?_eq_none_iff] at clean
  rw [index_ofModels]
  exact clean reference mentioned

/-- The outcome of an analysis accounts for the models of a run. -/
structure Accounts (models : List Model) (analysis : Analysis) : Prop where
  /-- The rounds reach the kept models, and stop there. -/
  settled : ∃ count ≤ models.length, analysis.kept = round^[count] (uncontested models) ∧
    round analysis.kept = analysis.kept
  kept_models : ∀ entry ∈ analysis.kept, models[entry.1]? = some entry.2
  kept_ordered : (analysis.kept.map Prod.fst).Pairwise (· < ·)
  /-- Each position is either kept or rejected, and rejected once. -/
  accounted : (analysis.kept.map Prod.fst ++ analysis.rejected.map Prod.fst).Perm
    (List.range models.length)
  collides_iff : ∀ position model, models[position]? = some model →
    ((∃ collision, (position, Rejection.collision collision) ∈ analysis.rejected) ↔
      Contested models position model)
  index_eq : analysis.index = Index.ofModels (analysis.kept.map Prod.snd)
  /-- Kept models mention kept models only. -/
  closed : ∀ entry ∈ analysis.kept, ∀ reference ∈ entry.2.references, ∃ other ∈ analysis.kept,
    analysis.index.resolve reference entry.2.space = .ok (QualifiedName.ofModel other.2)

/-- What a reference of a kept model resolves to is kept. -/
theorem exists_kept_of_resolve {reference : String} {space : List String} {target : QualifiedName}
    (resolved : (ofModels models).index.resolve reference space = .ok target) :
    ∃ other ∈ (ofModels models).kept, QualifiedName.ofModel other.2 = target := by
  rw [index_ofModels] at resolved
  have candidate := (Index.resolve_eq_ok_iff.mp resolved).candidate
  have known := (Index.mem_candidates.mp candidate).1
  obtain ⟨model, present, named⟩ := Index.mem_names_ofModels.mp known
  obtain ⟨other, kept, rfl⟩ := List.mem_map.mp present
  exact ⟨other, kept, named⟩

/-- The analysis of the models of a run accounts for them. -/
theorem accounts (models : List Model) : Accounts models (ofModels models) where
  settled := by
    obtain ⟨count, bound, reached⟩ := kept_rounds_eq_iterate (uncontested models)
    have fewer : (uncontested models).length ≤ models.length := by
      have shorter := (uncontested_sublist models).length_le
      simpa [numbered] using shorter
    exact ⟨count, bound.trans fewer, (kept_ofModels models).trans reached,
      round_kept_ofModels models⟩
  kept_models entry kept := mem_numbered.mp ((kept_sublist_numbered models).subset kept)
  kept_ordered := by
    have order := (kept_sublist_numbered models).map Prod.fst
    rw [map_fst_numbered] at order
    exact List.pairwise_lt_range.sublist order
  accounted := perm_ofModels models
  collides_iff position model present := exists_collision_mem_rejected_iff present
  index_eq := index_ofModels models
  closed entry kept reference mentioned := by
    obtain ⟨target, resolved⟩ := resolve_of_kept kept mentioned
    obtain ⟨other, otherKept, rfl⟩ := exists_kept_of_resolve resolved
    exact ⟨other, otherKept, resolved⟩

end Analysis

namespace Generation.Plan

/-- Every rejection of a plan is the problem of the document at its position. -/
theorem map_some_rejections (loading : Loading) :
    (ofLoading loading).rejections.map some =
      (ofLoading loading).analysis.rejected.map (rejection? loading) := by
  rw [rejections, List.map_filterMap_some_eq_filter_map_isSome]
  refine List.filter_eq_self.mpr fun problem reported => ?_
  obtain ⟨⟨position, rejection⟩, rejected, rfl⟩ := List.mem_map.mp reported
  have bound := Analysis.lt_of_rejected rejected
  simpa [rejection?, ofLoading] using bound

/-- A plan accounts for its models, and reports each rejection once, under the document of the
rejected model. -/
theorem accounts_ofLoading (loading : Loading) :
    Analysis.Accounts (loading.models.map Prod.snd) (ofLoading loading).analysis ∧
      (ofLoading loading).rejections.map some =
        (ofLoading loading).analysis.rejected.map (rejection? loading) :=
  ⟨Analysis.accounts _, map_some_rejections loading⟩

end Generation.Plan

end SchemaBeans

import SchemaBeans.Proofs.Accounting

/-!
# Which models are accepted

The documentation of an analysis promises that a model which references a
rejected model is rejected as well, and that references resolve only among
accepted models. Both hold up to what happens between the rounds: a rejected
candidate can leave a single other candidate of its name behind, to which a
kept reference is then bound, and a round can see an ambiguity that a later one
would not see. The statements below say exactly when this happens.
-/

namespace SchemaBeans.Analysis

variable {models : List Model} {entry : Numbered}

/-- Some kept model has a qualified name. -/
def Keeps (analysis : Analysis) (name : QualifiedName) : Prop :=
  ∃ entry ∈ analysis.kept, QualifiedName.ofModel entry.2 = name

/-- The index of an analysis knows the names that it keeps. -/
theorem mem_names_index_iff {name : QualifiedName} :
    name ∈ (ofModels models).index.names ↔ (ofModels models).Keeps name := by
  rw [index_ofModels, Index.mem_names_ofModels]
  constructor
  · rintro ⟨model, present, named⟩
    obtain ⟨entry, kept, rfl⟩ := List.mem_map.mp present
    exact ⟨entry, kept, named⟩
  · rintro ⟨entry, kept, named⟩
    exact ⟨entry.2, List.mem_map_of_mem kept, named⟩

/-- The models of a part of a run are models of the run. -/
theorem map_snd_subset {stage : List Numbered} (part : stage.Sublist (numbered models)) :
    stage.map Prod.snd ⊆ models := by
  intro model inside
  obtain ⟨entry, present, rfl⟩ := List.mem_map.mp inside
  exact List.mem_of_getElem? (mem_numbered.mp (part.subset present))

/-- The candidates that are left in the end are the kept ones. -/
theorem mem_candidates_index_iff {reference : String} {name : QualifiedName} :
    name ∈ (ofModels models).index.candidates reference ↔
      name ∈ (Index.ofModels models).candidates reference ∧ (ofModels models).Keeps name := by
  rw [Index.mem_candidates, Index.mem_candidates, mem_names_index_iff]
  constructor
  · rintro ⟨kept, named⟩
    obtain ⟨entry, present, rfl⟩ := kept
    have inside := (kept_sublist_numbered models).subset present
    have loaded := List.mem_of_getElem? (mem_numbered.mp inside)
    exact ⟨⟨Index.mem_names_ofModels.mpr ⟨_, loaded, rfl⟩, named⟩, entry, present, rfl⟩
  · rintro ⟨⟨_, named⟩, kept⟩
    exact ⟨kept, named⟩

/-- One candidate among all models is kept exactly when one is left in the end. -/
theorem existsUnique_kept_candidate_iff {reference : String} :
    (∃! candidate, candidate ∈ (Index.ofModels models).candidates reference ∧
        (ofModels models).Keeps candidate) ↔
      ∃ only, (ofModels models).index.candidates reference = [only] := by
  constructor
  · rintro ⟨only, kept, unique⟩
    have inside := mem_candidates_index_iff.mpr kept
    have alone := fun other present => unique other (mem_candidates_index_iff.mp present)
    refine ⟨only, ?_⟩
    rw [index_ofModels] at inside alone ⊢
    exact Index.candidates_ofModels_eq_singleton_iff.mpr ⟨inside, alone⟩
  · rintro ⟨only, single⟩
    refine ⟨only, mem_candidates_index_iff.mp (by simp [single]), fun other kept => ?_⟩
    have inside := mem_candidates_index_iff.mpr kept
    rw [single] at inside
    exact List.mem_singleton.mp inside

/-- A type that is designated among all models and kept is designated in every part of the run that
holds the kept models. -/
theorem designates_of_keeps {stage : List Numbered} (part : stage.Sublist (numbered models))
    (rest : (ofModels models).kept.Sublist stage) {reference : String} {space : List String}
    {target : QualifiedName} (kept : (ofModels models).Keeps target)
    (designated : (Index.ofModels models).resolve reference space = .ok target) :
    (roundIndex stage).Designates reference space target := by
  refine (Index.resolve_eq_ok_iff.mp designated).mono (map_snd_subset part) ?_
  obtain ⟨entry, present, named⟩ := kept
  exact Index.mem_names_ofModels.mpr ⟨entry.2, List.mem_map_of_mem (rest.subset present), named⟩

/-- What a reference means among all models it means among the kept ones, if that is kept. -/
theorem resolve_of_keeps {reference : String} {space : List String} {target : QualifiedName}
    (kept : (ofModels models).Keeps target)
    (designated : (Index.ofModels models).resolve reference space = .ok target) :
    (ofModels models).index.resolve reference space = .ok target := by
  rw [index_ofModels, Index.resolve_eq_ok_iff]
  exact designates_of_keeps (kept_sublist_numbered models) (List.Sublist.refl _) kept designated

/-- A reference of a kept model keeps its meaning exactly when the type that it designates among
all models is kept. Otherwise it designated the rejected type as that of its own namespace, and is
bound to the only kept type of the same name, which lives elsewhere. -/
theorem resolve_reference_iff (models : List Model) (entry : Numbered)
    (kept : entry ∈ (ofModels models).kept) (reference : String)
    (mentioned : reference ∈ entry.2.references) (target : QualifiedName)
    (designated : (Index.ofModels models).resolve reference entry.2.space = .ok target) :
    ((ofModels models).index.resolve reference entry.2.space = .ok target ↔
        (ofModels models).Keeps target) ∧
      (¬ (ofModels models).Keeps target → target.space = entry.2.space ∧
        ∃ other, other.space ≠ entry.2.space ∧
          (ofModels models).index.candidates reference = [other] ∧
          (ofModels models).index.resolve reference entry.2.space = .ok other) := by
  refine ⟨⟨exists_kept_of_resolve, fun keeps => resolve_of_keeps keeps designated⟩, ?_⟩
  intro rejected
  obtain ⟨other, resolved⟩ := resolve_of_kept kept mentioned
  have bound := Index.resolve_eq_ok_iff.mp resolved
  have meant := Index.resolve_eq_ok_iff.mp designated
  obtain ⟨candidate, otherKept⟩ := mem_candidates_index_iff.mp bound.candidate
  have apart : other ≠ target := by
    rintro rfl
    exact rejected otherKept
  have own : target.space = entry.2.space := by
    refine meant.preferred.resolve_right fun only => apart ?_
    rw [only] at candidate
    exact List.mem_singleton.mp candidate
  have elsewhere : other.space ≠ entry.2.space := fun same =>
    apart (Index.eq_of_candidates candidate meant.candidate (same.trans own.symm))
  exact ⟨own, other, elsewhere, bound.preferred.resolve_left elsewhere, resolved⟩

/-- The address of one namespace is rejected for its unknown country, and that of another is kept.
An invoice refers to the address of its own namespace, an order in a third one to any. -/
def twoAddresses : List Model :=
  let country : Property := ⟨"country", .model "Country", none⟩
  let recipient : Property := ⟨"to", .model "Address", none⟩
  [⟨"Address", none, [country], ["billing"], ⟨"billing/address.yaml"⟩⟩,
   ⟨"Invoice", none, [recipient], ["billing"], ⟨"billing/invoice.yaml"⟩⟩,
   ⟨"Order", none, [recipient], ["sales"], ⟨"sales/order.yaml"⟩⟩,
   ⟨"Address", none, [], ["shipping"], ⟨"shipping/address.yaml"⟩⟩]

/-- The invoice is kept although the address in its own namespace is not: its reference means the
other one. -/
theorem reference_of_invoice :
    (1, twoAddresses[1]) ∈ (ofModels twoAddresses).kept ∧
      ¬ (ofModels twoAddresses).Keeps ⟨["billing"], "Address"⟩ ∧
      ∃ other : QualifiedName, other.space ≠ ["billing"] ∧
        (ofModels twoAddresses).index.resolve "Address" ["billing"] = .ok other := by
  have kept : (1, twoAddresses[1]) ∈ (ofModels twoAddresses).kept := by decide +kernel
  have rejected : ¬ (ofModels twoAddresses).Keeps ⟨["billing"], "Address"⟩ := by
    unfold Keeps
    decide +kernel
  have moved := (resolve_reference_iff twoAddresses (1, twoAddresses[1]) kept "Address"
    (by decide +kernel) ⟨["billing"], "Address"⟩ (by decide +kernel)).2 rejected
  obtain ⟨_, other, elsewhere, _, resolved⟩ := moved
  exact ⟨kept, rejected, other, elsewhere, resolved⟩

/-- The invoice is kept, and bound to the address of the other namespace. -/
theorem reference_rebound :
    ¬ ∀ (models : List Model), ∀ entry ∈ (ofModels models).kept,
      ∀ reference ∈ entry.2.references, ∀ target,
        (Index.ofModels models).resolve reference entry.2.space = .ok target →
          (ofModels models).index.resolve reference entry.2.space = .ok target := by
  intro faithful
  have unmoved := faithful twoAddresses (1, twoAddresses[1]) (by decide +kernel) "Address"
    (by decide +kernel) ⟨["billing"], "Address"⟩ (by decide +kernel)
  have moved : (ofModels twoAddresses).index.resolve "Address" ["billing"] =
      .ok ⟨["shipping"], "Address"⟩ := by decide +kernel
  exact absurd (Except.ok.inj (unmoved.symm.trans moved)) (by decide)

/-- A reference justifies that its model is left out: it does not resolve among the kept models, or
it designates a rejected type among all models. -/
def Justifies (models : List Model) (model : Model) (reference : String) : Prop :=
  (∀ target, (ofModels models).index.resolve reference model.space ≠ .ok target) ∨
    ∃ target, (Index.ofModels models).resolve reference model.space = .ok target ∧
      ¬ (ofModels models).Keeps target

/-- A reference designates a kept type among all models. -/
def Upheld (models : List Model) (model : Model) (reference : String) : Prop :=
  ∃ target, (Index.ofModels models).resolve reference model.space = .ok target ∧
    (ofModels models).Keeps target

/-- A reference is ambiguous among all models, and exactly one of its candidates is kept. -/
def Outlived (models : List Model) (model : Model) (reference : String) : Prop :=
  ∃ candidates, (Index.ofModels models).resolve reference model.space =
      .error (.ambiguous candidates) ∧
    ∃! candidate, candidate ∈ candidates ∧ (ofModels models).Keeps candidate

/-- The reference of a model justifies leaving the model out unless it is upheld or outlived. -/
theorem not_justifies_iff {model : Model} {reference : String} :
    ¬ Justifies models model reference ↔
      Upheld models model reference ∨ Outlived models model reference := by
  constructor
  · intro unjustified
    simp only [Justifies, not_or, not_forall, not_exists, not_and, not_not] at unjustified
    obtain ⟨⟨only, resolved⟩, upheld⟩ := unjustified
    have bound := Index.resolve_eq_ok_iff.mp resolved
    obtain ⟨candidate, kept⟩ := mem_candidates_index_iff.mp bound.candidate
    cases outcome : (Index.ofModels models).resolve reference model.space with
    | ok target => exact .inl ⟨target, outcome, upheld target outcome⟩
    | error failure =>
        cases failure with
        | unknown =>
            rw [Index.resolve_eq_unknown_iff.mp outcome] at candidate
            cases candidate
        | ambiguous candidates =>
            obtain rfl := Index.candidates_of_ambiguous outcome
            -- The kept candidate is not the model's own, or there would be no ambiguity.
            have elsewhere : only.space ≠ model.space := fun own => by
              rw [Index.resolve_eq_ok_iff.mpr ⟨candidate, .inl own⟩] at outcome
              cases outcome
            have single := bound.preferred.resolve_left elsewhere
            exact .inr ⟨_, outcome, existsUnique_kept_candidate_iff.mpr ⟨only, single⟩⟩
  · rintro (⟨target, designated, kept⟩ | ⟨candidates, outcome, one⟩)
    · rintro (unresolved | ⟨other, otherwise, rejected⟩)
      · exact unresolved target (resolve_of_keeps kept designated)
      · rw [designated] at otherwise
        cases otherwise
        exact rejected kept
    · obtain rfl := Index.candidates_of_ambiguous outcome
      obtain ⟨only, single⟩ := existsUnique_kept_candidate_iff.mp one
      rintro (unresolved | ⟨other, otherwise, rejected⟩)
      · exact unresolved only (Index.resolve_eq_ok_iff.mpr ⟨by simp [single], .inr single⟩)
      · rw [outcome] at otherwise
        cases otherwise

/-- A resolution error was found in a round that still worked on all models kept in the end. -/
theorem exists_stage_of_unresolved {position : Nat} {error : ResolutionError}
    (rejected : (position, .unresolved error) ∈ (ofModels models).rejected) :
    ∃ stage model, stage.Sublist (numbered models) ∧ (ofModels models).kept.Sublist stage ∧
      models[position]? = some model ∧ (roundIndex stage).referenceError? model = some error := by
  rw [ofModels_eq] at rejected
  rcases List.mem_append.mp rejected with clash | later
  · simp [clashes] at clash
  · obtain ⟨count, found⟩ := exists_round_of_rejected later
    have part := (iterate_round_sublist (uncontested models) count).trans
      (uncontested_sublist models)
    obtain ⟨⟨place, model⟩, present, failed⟩ := List.mem_filterMap.mp found
    simp only [Option.map_eq_some_iff, Prod.mk.injEq, Rejection.unresolved.injEq] at failed
    obtain ⟨_, failed, rfl, rfl⟩ := failed
    refine ⟨_, model, part, ?_, mem_numbered.mp (part.subset present), failed⟩
    rw [kept_ofModels]
    exact kept_rounds_sublist_iterate _ count

/-- A round that rejects a model for an outlived reference found it ambiguous. -/
theorem exists_ambiguous_of_outlived {stage : List Numbered} {model : Model} {reference : String}
    (rest : (ofModels models).kept.Sublist stage) (outlived : Outlived models model reference)
    {failure : ResolutionFailure}
    (unresolved : (roundIndex stage).resolve reference model.space = .error failure) :
    ∃ candidates, failure = .ambiguous candidates := by
  cases failure with
  | ambiguous candidates => exact ⟨candidates, rfl⟩
  | unknown =>
      obtain ⟨_, outcome, one⟩ := outlived
      rw [Index.candidates_of_ambiguous outcome] at one
      obtain ⟨only, single⟩ := existsUnique_kept_candidate_iff.mp one
      rw [index_ofModels] at single
      have still := Index.candidates_sublist (List.map_subset Prod.snd rest.subset) reference
      rw [single] at still
      rw [roundIndex, Index.resolve_eq_unknown_iff] at unresolved
      rw [unresolved] at still
      cases still

/-- A model that is left out for a resolution error is left out justly, unless each of its
references is upheld or outlived. Then the reference of the error is outlived: a round took it for
ambiguous, and all but one of its candidates were rejected themselves. -/
theorem justified_iff (models : List Model) (position : Nat) (model : Model)
    (present : models[position]? = some model) (error : ResolutionError)
    (rejected : (position, .unresolved error) ∈ (ofModels models).rejected) :
    (∃ reference ∈ model.references, Justifies models model reference) ↔
      ¬ ((∃ candidates, error.failure = .ambiguous candidates) ∧
        Outlived models model error.reference ∧
        ∀ reference ∈ model.references,
          Upheld models model reference ∨ Outlived models model reference) := by
  obtain ⟨stage, found, part, rest, there, failed⟩ := exists_stage_of_unresolved rejected
  obtain rfl : model = found := Option.some.inj (present.symm.trans there)
  obtain ⟨mentioned, unresolved⟩ := Index.resolve_of_referenceError? failed
  constructor
  · rintro ⟨reference, declared, justifies⟩ ⟨_, _, settled⟩
    exact not_justifies_iff.mpr (settled reference declared) justifies
  · intro unsettled
    by_contra unjustified
    have settled : ∀ reference ∈ model.references,
        Upheld models model reference ∨ Outlived models model reference :=
      fun reference declared =>
        not_justifies_iff.mp fun justifies => unjustified ⟨reference, declared, justifies⟩
    -- An upheld reference would have resolved in every round.
    have outlived : Outlived models model error.reference := by
      refine (settled _ mentioned).resolve_left ?_
      rintro ⟨target, designated, kept⟩
      have designates := designates_of_keeps part rest kept designated
      rw [Index.resolve_eq_ok_iff.mpr designates] at unresolved
      cases unresolved
    exact unsettled ⟨exists_ambiguous_of_outlived rest outlived unresolved, outlived, settled⟩

/-- The address of the first namespace is left out for its unknown country. -/
theorem address_left_out :
    (0, .unresolved ⟨⟨"billing/address.yaml"⟩, "Address", "country", "Country", .unknown⟩) ∈
        (ofModels twoAddresses).rejected ∧
      ∃ reference ∈ twoAddresses[0].references,
        Justifies twoAddresses twoAddresses[0] reference := by
  have rejected : (0, .unresolved ⟨⟨"billing/address.yaml"⟩, "Address", "country", "Country",
      .unknown⟩) ∈ (ofModels twoAddresses).rejected := by decide +kernel
  refine ⟨rejected, (justified_iff twoAddresses 0 twoAddresses[0] rfl _ rejected).mpr ?_⟩
  rintro ⟨⟨candidates, ambiguous⟩, _⟩
  cases ambiguous

/-- The order is left out although its only remaining candidate is kept. -/
theorem order_left_out :
    ¬ ∀ (models : List Model) (position : Nat) (model : Model), models[position]? = some model →
      ∀ error, (position, .unresolved error) ∈ (ofModels models).rejected →
        ∃ reference ∈ model.references, Justifies models model reference := by
  intro justified
  obtain ⟨reference, mentioned, justifies⟩ := justified twoAddresses 2 twoAddresses[2] rfl
    ⟨⟨"sales/order.yaml"⟩, "Order", "to", "Address",
      .ambiguous [⟨["billing"], "Address"⟩, ⟨["shipping"], "Address"⟩]⟩ (by decide +kernel)
  have mentions : twoAddresses[2].references = ["Address"] := rfl
  rw [mentions] at mentioned
  obtain rfl := List.mem_singleton.mp mentioned
  have resolved : (ofModels twoAddresses).index.resolve "Address" ["sales"] =
      .ok ⟨["shipping"], "Address"⟩ := by decide +kernel
  have ambiguous : (Index.ofModels twoAddresses).resolve "Address" ["sales"] =
      .error (.ambiguous [⟨["billing"], "Address"⟩, ⟨["shipping"], "Address"⟩]) := by decide +kernel
  rcases justifies with unresolved | ⟨target, designated, _⟩
  · exact unresolved _ resolved
  · cases ambiguous.symm.trans designated

end SchemaBeans.Analysis

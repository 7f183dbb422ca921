import Mathlib.Logic.Function.Iterate
import SchemaBeans.Analysis

/-!
# Rounds of resolution

`Analysis.rounds` is the iteration of one `round`: the models that it keeps are
those of the first list on which a round changes nothing. A run of rounds is
proved about by `rounds_induction`, whose two cases are the last round and one
that rejects something.
-/

namespace SchemaBeans.Analysis

/-- The index that a round resolves references in. -/
def roundIndex (models : List Numbered) : Index := Index.ofModels (models.map Prod.snd)

/-- The models that one round keeps. -/
def round (models : List Numbered) : List Numbered := resolved (roundIndex models) models

/-- A round keeps models in their order. -/
theorem round_sublist (models : List Numbered) : (round models).Sublist models :=
  List.filter_sublist

/-- A round over some models keeps all of them or becomes shorter. -/
theorem length_round_lt_iff (models : List Numbered) :
    (round models).length < models.length ↔ round models ≠ models := by
  constructor
  · intro shorter same
    rw [same] at shorter
    omega
  · intro changed
    have bound := (round_sublist models).length_le
    refine Nat.lt_of_le_of_ne bound fun same => changed ?_
    exact (round_sublist models).eq_of_length same

/-- The rounds end when one of them changes nothing. -/
theorem rounds_of_settled {models : List Numbered} (settled : round models = models) :
    rounds models = ⟨models, roundIndex models, []⟩ := by
  rw [rounds]
  exact if_neg fun shorter => (length_round_lt_iff models).mp shorter settled

/-- A round that rejects something is followed by the rounds over what it keeps. -/
theorem rounds_of_unsettled {models : List Numbered} (unsettled : round models ≠ models) :
    rounds models = { rounds (round models) with
      rejected := unresolved (roundIndex models) models ++ (rounds (round models)).rejected } := by
  rw [rounds]
  exact if_pos ((length_round_lt_iff models).mpr unsettled)

/-- What holds of settled models, and of others if it holds of what a round keeps of them, holds of
all. -/
theorem rounds_induction {motive : List Numbered → Prop}
    (settled : ∀ models, round models = models → motive models)
    (unsettled : ∀ models, round models ≠ models → motive (round models) → motive models)
    (models : List Numbered) : motive models := by
  induction size : models.length using Nat.strongRecOn generalizing models with
  | _ length hypothesis =>
      by_cases same : round models = models
      · exact settled models same
      · have shorter := (length_round_lt_iff models).mpr same
        exact unsettled models same (hypothesis _ (size ▸ shorter) (round models) rfl)

/-- The index of the kept models is the one of the last round. -/
theorem index_rounds (models : List Numbered) :
    (rounds models).index = roundIndex (rounds models).kept := by
  induction models using rounds_induction with
  | settled models same => rw [rounds_of_settled same]
  | unsettled models changed hypothesis =>
      rw [rounds_of_unsettled changed]
      exact hypothesis

/-- A further round would keep all kept models. -/
theorem round_kept (models : List Numbered) :
    round (rounds models).kept = (rounds models).kept := by
  induction models using rounds_induction with
  | settled models same =>
      rw [rounds_of_settled same]
      exact same
  | unsettled models changed hypothesis =>
      rw [rounds_of_unsettled changed]
      exact hypothesis

/-- The kept models are reached by no more rounds than there are models. -/
theorem kept_rounds_eq_iterate (models : List Numbered) :
    ∃ count ≤ models.length, (rounds models).kept = round^[count] models := by
  induction models using rounds_induction with
  | settled models same => exact ⟨0, Nat.zero_le _, by rw [rounds_of_settled same]; rfl⟩
  | unsettled models changed hypothesis =>
      obtain ⟨count, bound, reached⟩ := hypothesis
      have shorter := (length_round_lt_iff models).mpr changed
      refine ⟨count + 1, by omega, ?_⟩
      rw [rounds_of_unsettled changed, Function.iterate_succ_apply]
      exact reached

/-- Rounds over what a round keeps keep the same models in the end. -/
theorem kept_rounds_round (models : List Numbered) :
    (rounds (round models)).kept = (rounds models).kept := by
  by_cases same : round models = models
  · rw [same]
  · rw [rounds_of_unsettled same]

/-- It makes no difference to the kept models how many rounds were done before. -/
theorem kept_rounds_iterate (models : List Numbered) (count : Nat) :
    (rounds (round^[count] models)).kept = (rounds models).kept := by
  induction count with
  | zero => rfl
  | succ count hypothesis => rw [Function.iterate_succ_apply', kept_rounds_round, hypothesis]

/-- Several rounds keep models in their order. -/
theorem iterate_round_sublist (models : List Numbered) (count : Nat) :
    (round^[count] models).Sublist models := by
  induction count with
  | zero => exact List.Sublist.refl _
  | succ count hypothesis =>
      rw [Function.iterate_succ_apply']
      exact (round_sublist _).trans hypothesis

/-- The kept models stand in the order in which they were given. -/
theorem kept_rounds_sublist (models : List Numbered) : (rounds models).kept.Sublist models := by
  obtain ⟨count, _, reached⟩ := kept_rounds_eq_iterate models
  rw [reached]
  exact iterate_round_sublist models count

/-- Every round still works on all models that are kept in the end. -/
theorem kept_rounds_sublist_iterate (models : List Numbered) (count : Nat) :
    (rounds models).kept.Sublist (round^[count] models) := by
  rw [← kept_rounds_iterate models count]
  exact kept_rounds_sublist _

/-- Every rejection was found in one of the rounds. -/
theorem exists_round_of_rejected {models : List Numbered} {entry : Nat × Rejection}
    (rejected : entry ∈ (rounds models).rejected) :
    ∃ count, entry ∈ unresolved (roundIndex (round^[count] models)) (round^[count] models) := by
  induction models using rounds_induction with
  | settled models same =>
      rw [rounds_of_settled same] at rejected
      cases rejected
  | unsettled models changed hypothesis =>
      rw [rounds_of_unsettled changed] at rejected
      rcases List.mem_append.mp rejected with now | later
      · exact ⟨0, now⟩
      · obtain ⟨count, found⟩ := hypothesis later
        exact ⟨count + 1, by rwa [Function.iterate_succ_apply]⟩

section Positions

variable {β γ : Type} (check : Numbered → Option β) (image : β → γ)

/-- What a check finds, with the positions where it finds it. -/
theorem map_fst_filterMap (models : List Numbered) :
    (models.filterMap fun entry =>
        (check entry).map fun found => (entry.1, image found)).map Prod.fst =
      (models.filter fun entry => (check entry).isSome).map Prod.fst := by
  induction models with
  | nil => rfl
  | cons entry models hypothesis =>
      cases found : check entry <;> simp [found, hypothesis]

/-- The positions where a check finds nothing and those where it finds something are all
positions. -/
theorem perm_filter_filterMap (models : List Numbered) :
    ((models.filter fun entry => (check entry).isNone).map Prod.fst ++
      (models.filterMap fun entry =>
        (check entry).map fun found => (entry.1, image found)).map Prod.fst).Perm
      (models.map Prod.fst) := by
  rw [map_fst_filterMap, ← List.map_append]
  refine List.Perm.map Prod.fst ?_
  have parts := List.filter_append_perm (fun entry => (check entry).isNone) models
  simpa using parts

/-- What is left of some positions is accounted for together with what was found among them. -/
theorem perm_of_parts {kept rejected rest found all : List Nat}
    (later : (kept ++ rejected).Perm rest) (now : (rest ++ found).Perm all) :
    (kept ++ (found ++ rejected)).Perm all := by
  refine List.Perm.trans ?_ now
  refine List.Perm.trans ?_ (later.append_right found)
  rw [List.append_assoc]
  exact List.Perm.append_left kept List.perm_append_comm

end Positions

/-- One round accounts for each of its models once. -/
theorem perm_round (models : List Numbered) :
    ((round models).map Prod.fst ++
      (unresolved (roundIndex models) models).map Prod.fst).Perm (models.map Prod.fst) :=
  perm_filter_filterMap (fun entry => (roundIndex models).referenceError? entry.2)
    Rejection.unresolved models

/-- The rounds account for each model once: it is kept or rejected. -/
theorem perm_rounds (models : List Numbered) :
    ((rounds models).kept.map Prod.fst ++ (rounds models).rejected.map Prod.fst).Perm
      (models.map Prod.fst) := by
  induction models using rounds_induction with
  | settled models same => simp [rounds_of_settled same]
  | unsettled models changed hypothesis =>
      rw [rounds_of_unsettled changed]
      rw [List.map_append]
      exact perm_of_parts hypothesis (perm_round models)

end SchemaBeans.Analysis

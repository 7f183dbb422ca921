import Mathlib.Data.List.Nodup
import SchemaBeans.Analysis
import SchemaBeans.Proofs.Groups

/-!
# The collisions of a run

Collisions are found by groups: the positions are collected by qualified name, and each
member of a group of several has one collision. `collision?` says the same of one model,
which it compares with all the others; `collisions_eq` and `lookup_collisions` bring the
two together. A position is in the group of its own name only, so none is lost or found
twice on the way.
-/

namespace SchemaBeans

variable {models : List Model} {entry : Numbered} {position : Nat} {collision : Collision}

/-- The numbered models are those of the run, each with its own position. -/
@[simp] theorem mem_numbered : entry ∈ numbered models ↔ models[entry.1]? = some entry.2 := by
  obtain ⟨position, model⟩ := entry
  simp [numbered, List.mem_zipIdx_iff_getElem?]

/-- The positions of the models of a run are all numbers below their count, in order. -/
@[simp] theorem map_fst_numbered (models : List Model) :
    (numbered models).map Prod.fst = List.range models.length := by
  rw [numbered, List.map_map, List.range_eq_range']
  exact List.zipIdx_map_snd 0 models

/-- The other models with the qualified name of the given one. -/
def rivals (models : List Numbered) (position : Nat) (model : Model) : List Numbered :=
  models.filter fun other =>
    other.1 ≠ position && QualifiedName.ofModel other.2 = QualifiedName.ofModel model

/-- The rivals of a model are at the other positions with its name. -/
theorem mem_rivals_iff {model : Model} {other : Nat} :
    other ∈ (rivals (numbered models) position model).map Prod.fst ↔
      other ≠ position ∧ ∃ rival, models[other]? = some rival ∧
        QualifiedName.ofModel rival = QualifiedName.ofModel model := by
  simp only [rivals, List.mem_map, List.mem_filter, mem_numbered, Bool.and_eq_true,
    decide_eq_true_eq]
  constructor
  · rintro ⟨⟨_, rival⟩, ⟨known, apart, named⟩, rfl⟩
    exact ⟨apart, rival, known, named⟩
  · rintro ⟨apart, rival, known, named⟩
    exact ⟨(other, rival), ⟨known, apart, named⟩, rfl⟩

/-- The collision of one model with the others of a run. -/
def collision? (models : List Numbered) (entry : Numbered) : Option Collision :=
  match rivals models entry.1 entry.2 with
  | [] => none
  | others =>
      some ⟨entry.2.source, QualifiedName.ofModel entry.2, others.map fun other => other.2.source⟩

section OneModel

variable {all : List Numbered}

/-- A model without rivals has no collision. -/
theorem collision?_eq_none_iff :
    collision? all entry = none ↔ rivals all entry.1 entry.2 = [] := by
  unfold collision?
  split
  · next alone => simp [alone]
  · next rivaled => simpa using rivaled

/-- The collision of a model with rivals names it and the documents of all of them. -/
theorem collision?_eq_some_iff : collision? all entry = some collision ↔
    rivals all entry.1 entry.2 ≠ [] ∧
      collision = ⟨entry.2.source, QualifiedName.ofModel entry.2,
        (rivals all entry.1 entry.2).map fun other => other.2.source⟩ := by
  unfold collision?
  split
  · next alone => simp [alone]
  · next rivaled =>
      have given : rivals all entry.1 entry.2 ≠ [] := rivaled
      rw [Option.some.injEq, eq_comm, and_iff_right given]

/-- Another model of the run has the qualified name of the model at a position. -/
def Contested (models : List Model) (position : Nat) (model : Model) : Prop :=
  ∃ other rival, other ≠ position ∧ models[other]? = some rival ∧
    QualifiedName.ofModel rival = QualifiedName.ofModel model

/-- A model has a collision exactly when its name is contested. -/
theorem isSome_collision?_iff :
    (collision? (numbered models) entry).isSome ↔ Contested models entry.1 entry.2 := by
  rw [← Option.ne_none_iff_isSome, ne_eq, collision?_eq_none_iff]
  constructor
  · intro rivaled
    obtain ⟨other, inside⟩ := List.exists_mem_of_ne_nil _ rivaled
    obtain ⟨apart, rival, known, named⟩ := mem_rivals_iff.mp (List.mem_map_of_mem inside)
    exact ⟨other.1, rival, apart, known, named⟩
  · rintro ⟨other, rival, apart, known, named⟩ alone
    have listed := mem_rivals_iff.mpr ⟨apart, rival, known, named⟩
    simp [alone] at listed

end OneModel

/-- The models of a run with a given qualified name. -/
def holders (models : List Model) (name : QualifiedName) : List Numbered :=
  (numbered models).filter fun entry => QualifiedName.ofModel entry.2 = name

/-- The holders of a name are the models of the run that are called so. -/
theorem mem_holders_iff {name : QualifiedName} :
    entry ∈ holders models name ↔
      models[entry.1]? = some entry.2 ∧ QualifiedName.ofModel entry.2 = name := by
  rw [holders, List.mem_filter, mem_numbered, decide_eq_true_eq]

/-- Positions increase in a part of the models of a run. -/
theorem pairwise_of_sublist_numbered {part : List Numbered}
    (sublist : part.Sublist (numbered models)) :
    part.Pairwise fun left right => left.1 < right.1 := by
  have positions := sublist.map Prod.fst
  rw [map_fst_numbered] at positions
  exact List.pairwise_map.mp (List.pairwise_lt_range.sublist positions)

/-- The holders of a name stand in the order of their positions. -/
theorem pairwise_holders (models : List Model) (name : QualifiedName) :
    (holders models name).Pairwise fun left right => left.1 < right.1 :=
  pairwise_of_sublist_numbered List.filter_sublist

/-- The groups of a run are the holders of its names. -/
theorem namesakes_eq (models : List Model) :
    namesakes models =
      (Sorted.ofList QualifiedName.compare
        ((numbered models).map fun entry => QualifiedName.ofModel entry.2)).map fun name =>
          (name, holders models name) := by
  have listed : ∀ entries : List Numbered,
      entries.foldl (fun members entry => members ++ [entry]) [] = entries := by
    intro entries
    induction entries using List.reverseRecOn with
    | nil => rfl
    | append_singleton entries entry hypothesis =>
        rw [List.foldl_append, hypothesis]
        rfl
  simp only [namesakes, Keyed.Ordered.collect_eq_map, listed, holders]

/-- A group is made of all holders of its name, and of one at least. -/
theorem mem_namesakes_iff {name : QualifiedName} {members : List Numbered} :
    (name, members) ∈ namesakes models ↔ members = holders models name ∧ members ≠ [] := by
  simp only [namesakes_eq, List.mem_map, Sorted.mem_ofList]
  constructor
  · rintro ⟨name, ⟨entry, inside, rfl⟩, same⟩
    cases same
    exact ⟨rfl, List.ne_nil_of_mem (mem_holders_iff.mpr ⟨mem_numbered.mp inside, rfl⟩)⟩
  · rintro ⟨rfl, several⟩
    obtain ⟨entry, inside⟩ := List.exists_mem_of_ne_nil _ several
    obtain ⟨present, rfl⟩ := mem_holders_iff.mp inside
    exact ⟨_, ⟨entry, mem_numbered.mpr present, rfl⟩, rfl⟩

/-- The rivals of a model hold its name at other positions. -/
theorem filter_holders (models : List Model) (position : Nat) (model : Model) :
    (holders models (QualifiedName.ofModel model)).filter (fun other => other.1 ≠ position) =
      rivals (numbered models) position model := by
  rw [holders, rivals, List.filter_filter]

/-- A model has rivals where its name has several holders. -/
theorem rivals_ne_nil_iff {model : Model} (present : models[position]? = some model) :
    rivals (numbered models) position model ≠ [] ↔
      1 < (holders models (QualifiedName.ofModel model)).length := by
  have inside : (position, model) ∈ holders models (QualifiedName.ofModel model) :=
    mem_holders_iff.mpr ⟨present, rfl⟩
  have nodup : (holders models (QualifiedName.ofModel model)).Nodup :=
    (pairwise_holders models _).imp fun {left right} less same => by simp [same] at less
  have rest : rivals (numbered models) position model =
      (holders models (QualifiedName.ofModel model)).erase (position, model) := by
    rw [← filter_holders, nodup.erase_eq_filter]
    apply List.filter_congr
    intro other holds
    have known := (mem_holders_iff.mp holds).1
    have same : other.1 = position ↔ other = (position, model) := by
      refine ⟨fun same => Prod.ext same (Option.some.inj ?_), fun same => congrArg Prod.fst same⟩
      rw [← known, same, present]
    simp [same, bne, Bool.beq_eq_decide_eq]
  rw [rest, ← List.length_pos_iff, List.length_erase_of_mem inside, Nat.sub_pos_iff_lt]

/-- The collisions that the groups of a run have, group by group. -/
def grouped (models : List Model) : List (Nat × Collision) :=
  ((namesakes models).filter fun group => 1 < group.2.length).flatMap fun group =>
    collisionsAmong group.1 group.2

/-- The groups have one collision for each model with rivals. -/
theorem mem_grouped_iff :
    (position, collision) ∈ grouped models ↔
      ∃ model, models[position]? = some model ∧
        collision? (numbered models) (position, model) = some collision := by
  simp only [grouped, collisionsAmong, List.mem_flatMap, List.mem_filter, List.mem_map,
    decide_eq_true_eq, collision?_eq_some_iff]
  constructor
  · rintro ⟨⟨name, members⟩, ⟨grouped, several⟩, entry, inside, same⟩
    obtain ⟨rfl, _⟩ := mem_namesakes_iff.mp grouped
    obtain ⟨present, rfl⟩ := mem_holders_iff.mp inside
    cases same
    refine ⟨entry.2, present, (rivals_ne_nil_iff present).mpr several, ?_⟩
    rw [filter_holders]
  · rintro ⟨model, present, rivaled, rfl⟩
    have inside : (position, model) ∈ holders models (QualifiedName.ofModel model) :=
      mem_holders_iff.mpr ⟨present, rfl⟩
    refine ⟨(_, holders models (QualifiedName.ofModel model)),
      ⟨mem_namesakes_iff.mpr ⟨rfl, List.ne_nil_of_mem inside⟩,
        (rivals_ne_nil_iff present).mp rivaled⟩,
      (position, model), inside, ?_⟩
    rw [← filter_holders]

/-- The collisions of a name are at the positions of its holders. -/
theorem map_fst_collisionsAmong (name : QualifiedName) (members : List Numbered) :
    (collisionsAmong name members).map Prod.fst = members.map Prod.fst := by
  rw [collisionsAmong, List.map_map]
  rfl

/-- No position is in two groups, nor twice in one. -/
theorem nodup_grouped (models : List Model) : ((grouped models).map Prod.fst).Nodup := by
  rw [grouped, List.map_flatMap, List.nodup_flatMap]
  constructor
  · rintro ⟨name, members⟩ several
    obtain ⟨rfl, _⟩ := mem_namesakes_iff.mp (List.mem_of_mem_filter several)
    rw [map_fst_collisionsAmong]
    exact List.pairwise_map.mpr ((pairwise_holders models name).imp Nat.ne_of_lt)
  · have names : (namesakes models).Pairwise fun left right => left.1 ≠ right.1 :=
      List.pairwise_map.mp (Sorted.nodup_of_pairwise (Keyed.Ordered.pairwise_collect _))
    apply (names.filter _).imp_of_mem
    rintro ⟨left, leftMembers⟩ ⟨right, rightMembers⟩ leftIn rightIn apart position inLeft inRight
    obtain ⟨rfl, _⟩ := mem_namesakes_iff.mp (List.mem_of_mem_filter leftIn)
    obtain ⟨rfl, _⟩ := mem_namesakes_iff.mp (List.mem_of_mem_filter rightIn)
    simp only [map_fst_collisionsAmong] at inLeft inRight
    obtain ⟨entry, holdsLeft, rfl⟩ := List.mem_map.mp inLeft
    obtain ⟨other, holdsRight, same⟩ := List.mem_map.mp inRight
    obtain ⟨present, rfl⟩ := mem_holders_iff.mp holdsLeft
    obtain ⟨known, rfl⟩ := mem_holders_iff.mp holdsRight
    rw [same, present] at known
    exact apart (congrArg QualifiedName.ofModel (Option.some.inj known))

/-- A model of a run collides when it has rivals. -/
theorem mem_collisions_iff :
    (position, collision) ∈ collisions models ↔
      ∃ model, models[position]? = some model ∧
        collision? (numbered models) (position, model) = some collision :=
  (Keyed.Ordered.mem_ofEntries_iff (nodup_grouped models)).trans mem_grouped_iff

/-- There is one collision for a position at most, and they are in the order of the positions. -/
theorem pairwise_collisions (models : List Model) :
    (collisions models).Pairwise fun left right => left.1 < right.1 :=
  (List.pairwise_map.mp (Keyed.Ordered.pairwise_ofEntries (grouped models))).imp
    fun less => Nat.compare_eq_lt.mp less

/-- The collision that is found for a position is the one of the model there. -/
theorem lookup_collisions (present : entry ∈ numbered models) :
    (collisions models).lookup entry.1 = collision? (numbered models) entry := by
  have distinct : ((collisions models).map Prod.fst).Nodup :=
    List.pairwise_map.mpr ((pairwise_collisions models).imp Nat.ne_of_lt)
  apply Option.ext
  intro collision
  rw [← Keyed.mem_iff_lookup distinct, mem_collisions_iff]
  have known := mem_numbered.mp present
  simp [known]

/-- The collisions of a run, model by model. -/
theorem collisions_eq (models : List Model) :
    collisions models = (numbered models).filterMap fun entry =>
      (collision? (numbered models) entry).map (Prod.mk entry.1) := by
  have increasing : ((numbered models).filterMap fun entry =>
      (collision? (numbered models) entry).map (Prod.mk entry.1)).Pairwise
        fun left right => left.1 < right.1 := by
    apply (pairwise_of_sublist_numbered (List.Sublist.refl _)).filterMap
    rintro left right less collision found other known
    obtain ⟨_, _, rfl⟩ := Option.map_eq_some_iff.mp found
    obtain ⟨_, _, rfl⟩ := Option.map_eq_some_iff.mp known
    exact less
  apply Sorted.eq_of_mem_iff (fun _ _ => Nat.lt_asymm) (pairwise_collisions models) increasing
  rintro ⟨position, collision⟩
  simp [mem_collisions_iff]

/-- What a search for collisions owes to the models of a run. -/
structure Detects (models : List Model) (found : List (Nat × Collision)) : Prop where
  ordered : (found.map Prod.fst).Pairwise (· < ·)
  /-- A model collides when another one has its namespace and its type name. -/
  found_iff : ∀ position, position ∈ found.map Prod.fst ↔
    ∃ model, models[position]? = some model ∧ ∃ other rival, other ≠ position ∧
      models[other]? = some rival ∧ rival.space = model.space ∧ rival.typeName = model.typeName
  /-- A collision names its model, and the document of each other model with this name once. -/
  entry : ∀ position collision, (position, collision) ∈ found →
    ∃ model, models[position]? = some model ∧ collision.schema = model.source ∧
      collision.name = QualifiedName.ofModel model ∧
      ∃ positions : List Nat, positions.Pairwise (· < ·) ∧
        (∀ other, other ∈ positions ↔ other ≠ position ∧
          ∃ rival, models[other]? = some rival ∧ QualifiedName.ofModel rival = collision.name) ∧
        collision.others.map some = positions.map fun other => models[other]?.map Model.source
  /-- The name of a model without a collision is no other model's. -/
  apart : ∀ position other model rival, models[position]? = some model →
    models[other]? = some rival → position ∉ found.map Prod.fst → position ≠ other →
      QualifiedName.ofModel model ≠ QualifiedName.ofModel rival

/-- Collisions are found at the contested positions. -/
theorem mem_map_fst_collisions_iff :
    position ∈ (collisions models).map Prod.fst ↔
      ∃ model, models[position]? = some model ∧ Contested models position model := by
  simp only [List.mem_map, Prod.exists, exists_and_right, exists_eq_right, mem_collisions_iff]
  rw [exists_comm]
  refine exists_congr fun model => ?_
  rw [exists_and_left, ← Option.isSome_iff_exists, isSome_collision?_iff]

/-- The search detects the collisions of a run. -/
theorem detects_collisions (models : List Model) : Detects models (collisions models) where
  ordered := List.pairwise_map.mpr (pairwise_collisions models)
  found_iff position := by
    rw [mem_map_fst_collisions_iff]
    refine exists_congr fun model => and_congr_right fun _ => ?_
    simp only [Contested, QualifiedName.ofModel, QualifiedName.mk.injEq]
  entry position collision found := by
    obtain ⟨model, present, collides⟩ := mem_collisions_iff.mp found
    obtain ⟨_, rfl⟩ := collision?_eq_some_iff.mp collides
    refine ⟨model, present, rfl, rfl, (rivals (numbered models) position model).map Prod.fst,
      List.pairwise_map.mpr (pairwise_of_sublist_numbered List.filter_sublist),
      fun other => mem_rivals_iff, ?_⟩
    rw [List.map_map, List.map_map]
    apply List.map_congr_left
    intro other rivaling
    have known := mem_numbered.mp (List.mem_of_mem_filter rivaling)
    simp [known]
  apart position other model rival present known free different same :=
    free (mem_map_fst_collisions_iff.mpr
      ⟨model, present, other, rival, different.symm, known, same.symm⟩)

-- Two documents of the same path are listed for each other, not merged.
example :
    (collisions [⟨"Item", none, [], [], ⟨"a"⟩⟩, ⟨"Item", none, [], ["b"], ⟨"b"⟩⟩,
      ⟨"Item", none, [], [], ⟨"a"⟩⟩, ⟨"Item", none, [], [], ⟨"c"⟩⟩]).map
        (Prod.map id Collision.others) =
      [(0, [⟨"a"⟩, ⟨"c"⟩]), (2, [⟨"a"⟩, ⟨"c"⟩]), (3, [⟨"a"⟩, ⟨"a"⟩])] := by
  decide +kernel

end SchemaBeans

import SchemaBeans.Proofs.Methods
import SchemaBeans.Proofs.Validity

/-!
# The issues of a model

Every issue has a place in the declaration of its model, and there is at most one
issue at each place: one at the type name, and two at each property, where its name
is judged by itself and then against the names before it. `Issue.Found` says what is
found at a place; validation lists just this, in the order of the places.
-/

namespace SchemaBeans

namespace Issue

/-- Where an issue of a model is found: at its type name, at the name of a property by itself, or at
the name of a property among those that are declared before it. -/
inductive Place where
  | typeName
  | name (index : Nat)
  | repetition (index : Nat)
  deriving DecidableEq, Repr

/-- The places of a model in the order of its declaration. -/
def Place.rank : Place → Nat
  | typeName => 0
  | name index => 2 * index + 1
  | repetition index => 2 * index + 2

/-- What is found at a place of a model. -/
inductive Found (model : Model) : Place → Issue → Prop where
  | emptyTypeName (blank : ∀ character ∈ model.typeName.toList, Text.isBlank character = true) :
      Found model .typeName .emptyTypeName
  | invalidTypeName
      (given : ∃ character ∈ model.typeName.toList, Text.isBlank character = false)
      (shapeless : Identifier.isIdentifier model.typeName = false) :
      Found model .typeName (.invalidTypeName model.typeName)
  | reservedTypeName (shaped : Identifier.isIdentifier model.typeName = true)
      (reserved : Identifier.isReserved model.typeName = true) :
      Found model .typeName (.reservedWord model.typeName)
  | invalidPropertyName {before property after}
      (declared : model.properties = before ++ property :: after)
      (shapeless : Identifier.isIdentifier property.name = false) :
      Found model (.name before.length) (.invalidPropertyName property.name)
  | reservedPropertyName {before property after}
      (declared : model.properties = before ++ property :: after)
      (shaped : Identifier.isIdentifier property.name = true)
      (reserved : Identifier.isReserved property.name = true) :
      Found model (.name before.length) (.reservedWord property.name)
  | duplicateProperty {before property after}
      (declared : model.properties = before ++ property :: after)
      (repeated : ∃ earlier ∈ before, earlier.name = property.name) :
      Found model (.repetition before.length) (.duplicateProperty property.name)
  | accessorClash {before first earlier between property after}
      (declared : model.properties = before ++ property :: after)
      (fresh : ∀ other ∈ before, other.name ≠ property.name)
      (split : before = first ++ earlier :: between)
      (shared : Identifier.stem earlier.name = Identifier.stem property.name)
      (apart : ∀ other ∈ first, Identifier.stem other.name ≠ Identifier.stem property.name) :
      Found model (.repetition before.length)
        (.accessorClash earlier.name property.name (Identifier.stem property.name))

/-- A list holds the issues that are found at places, each once and in the order of the places. -/
def Enumerates (issues : List Issue) (found : Place → Issue → Prop) : Prop :=
  ∃ listed : List (Place × Issue), listed.map Prod.snd = issues ∧
    listed.Pairwise (fun left right => left.1.rank < right.1.rank) ∧
    ∀ place issue, (place, issue) ∈ listed ↔ found place issue

variable {issues first second : List Issue} {found foundFirst foundSecond : Place → Issue → Prop}
  {place : Place} {issue : Issue} {model : Model} {before after : List Property}
  {property : Property}

/-- Issues that are enumerated by what is found are enumerated by everything that finds the same. -/
theorem Enumerates.congr (enumerates : Enumerates issues foundFirst)
    (same : ∀ place issue, foundFirst place issue ↔ foundSecond place issue) :
    Enumerates issues foundSecond := by
  obtain ⟨listed, whole, ordered, members⟩ := enumerates
  exact ⟨listed, whole, ordered, fun place issue => (members place issue).trans (same place issue)⟩

/-- At one place there is at most one issue. -/
theorem Enumerates.of_place (short : issues.length ≤ 1)
    (members : ∀ issue, found place issue ↔ issue ∈ issues) :
    Enumerates issues fun other issue => found other issue ∧ other = place := by
  refine ⟨issues.map fun issue => (place, issue), by simp [Function.comp_def], ?_, ?_⟩
  · rcases issues with _ | ⟨issue, _ | _⟩
    · exact .nil
    · exact List.pairwise_singleton _ _
    · simp at short
  · intro other issue
    simp only [List.mem_map, Prod.mk.injEq]
    constructor
    · rintro ⟨_, listed, rfl, rfl⟩
      exact ⟨(members _).mpr listed, rfl⟩
    · rintro ⟨here, rfl⟩
      exact ⟨issue, (members issue).mp here, rfl, rfl⟩

/-- The issues of two lists are enumerated by both together, if the places of the second come behind
those of the first. -/
theorem Enumerates.append (front : Enumerates first foundFirst)
    (back : Enumerates second foundSecond)
    (ordered : ∀ place issue other later, foundFirst place issue → foundSecond other later →
      place.rank < other.rank) :
    Enumerates (first ++ second) fun place issue =>
      foundFirst place issue ∨ foundSecond place issue := by
  obtain ⟨listed, rfl, orderedFirst, members⟩ := front
  obtain ⟨others, rfl, orderedSecond, otherMembers⟩ := back
  refine ⟨listed ++ others, List.map_append, ?_, fun place issue => ?_⟩
  · refine List.pairwise_append.mpr ⟨orderedFirst, orderedSecond, ?_⟩
    rintro ⟨place, issue⟩ inFirst ⟨other, later⟩ inSecond
    exact ordered place issue other later ((members _ _).mp inFirst)
      ((otherMembers _ _).mp inSecond)
  · rw [List.mem_append, members, otherMembers]

/-- What is found at a type name is what the check of the name says. -/
theorem found_typeName_iff :
    Found model .typeName issue ↔ issue ∈ typeNameIssues model.typeName := by
  constructor
  · intro found
    cases found with
    | emptyTypeName blank =>
        have empty : Text.allBlank model.typeName.toList = true := List.all_eq_true.mpr blank
        simp [typeNameIssues, empty]
    | invalidTypeName given shapeless =>
        have visible : Text.allBlank model.typeName.toList = false := List.all_eq_false.mpr <| by
          simpa using given
        simp [typeNameIssues, visible, shapeless]
    | reservedTypeName shaped reserved =>
        simp [typeNameIssues, Identifier.allBlank_eq_false shaped, shaped, reserved]
  · intro listed
    unfold typeNameIssues at listed
    split at listed
    · next blank =>
        obtain rfl := List.mem_singleton.mp listed
        exact .emptyTypeName (List.all_eq_true.mp blank)
    · next visible =>
        split at listed
        · next shapeless =>
            obtain rfl := List.mem_singleton.mp listed
            exact .invalidTypeName (by simpa [Text.allBlank] using visible)
              (by simpa using shapeless)
        · next shaped =>
            split at listed
            · next reserved =>
                obtain rfl := List.mem_singleton.mp listed
                exact .reservedTypeName (by simpa using shaped) reserved
            · cases listed

/-- As many properties stand before a property at one of its declarations only. -/
theorem declared_inj {properties others rest : List Property} {other : Property}
    (declared : properties = before ++ property :: after)
    (again : properties = others ++ other :: rest) (index : before.length = others.length) :
    before = others ∧ property = other := by
  obtain ⟨same, tails⟩ := List.append_inj (declared.symm.trans again) index
  exact ⟨same, (List.cons.inj tails).1⟩

/-- What is found at the name of a property is what the check of the name says. -/
theorem found_name_iff (declared : model.properties = before ++ property :: after) :
    Found model (.name before.length) issue ↔ issue ∈ propertyNameIssues property.name := by
  constructor
  · intro found
    generalize index : before.length = count at found
    cases found with
    | invalidPropertyName again shapeless =>
        obtain ⟨rfl, rfl⟩ := declared_inj declared again index
        simp [propertyNameIssues, shapeless]
    | reservedPropertyName again shaped reserved =>
        obtain ⟨rfl, rfl⟩ := declared_inj declared again index
        simp [propertyNameIssues, shaped, reserved]
  · intro listed
    unfold propertyNameIssues at listed
    split at listed
    · next shapeless =>
        obtain rfl := List.mem_singleton.mp listed
        exact .invalidPropertyName declared (by simpa using shapeless)
    · next shaped =>
        split at listed
        · next reserved =>
            obtain rfl := List.mem_singleton.mp listed
            exact .reservedPropertyName declared (by simpa using shaped) reserved
        · cases listed

/-- What is found at a property behind others is what the check against their names says. -/
theorem found_repetition_iff (declared : model.properties = before ++ property :: after) :
    Found model (.repetition before.length) issue ↔
      issue ∈ clashIssues (before.map Property.name) property.name := by
  constructor
  · intro found
    generalize index : before.length = count at found
    cases found with
    | duplicateProperty again repeated =>
        obtain ⟨rfl, rfl⟩ := declared_inj declared again index
        have known : property.name ∈ before.map Property.name := List.mem_map.mpr repeated
        simp [clashIssues, known]
    | @accessorClash _ first earlier _ _ _ again fresh split shared apart =>
        obtain ⟨rfl, rfl⟩ := declared_inj declared again index
        have unknown : property.name ∉ before.map Property.name := by simpa using fresh
        have earliest : (before.map Property.name).find? (fun other =>
            Identifier.stem other = Identifier.stem property.name) = some earlier.name := by
          rw [List.find?_map, Option.map_eq_some_iff]
          refine ⟨earlier, List.find?_eq_some_iff_append.mpr ⟨?_, first, _, split, ?_⟩, rfl⟩
          · simpa using shared
          · simpa using apart
        simp [clashIssues, unknown, earliest]
  · intro listed
    unfold clashIssues at listed
    split at listed
    · next known =>
        obtain rfl := List.mem_singleton.mp listed
        exact .duplicateProperty declared (List.mem_map.mp (List.contains_iff_mem.mp known))
    · next unknown =>
        split at listed
        · next other earliest =>
            obtain rfl := List.mem_singleton.mp listed
            rw [List.find?_map, Option.map_eq_some_iff] at earliest
            obtain ⟨earlier, found, rfl⟩ := earliest
            obtain ⟨shared, first, between, split, apart⟩ :=
              List.find?_eq_some_iff_append.mp found
            exact .accessorClash declared (by simpa using unknown) split (by simpa using shared)
              (by simpa using apart)
        · cases listed

/-- No issue is found behind the last place of a model. -/
theorem Found.rank_le (found : Found model place issue) :
    place.rank ≤ 2 * model.properties.length := by
  cases found with
  | emptyTypeName | invalidTypeName | reservedTypeName => exact Nat.zero_le _
  | invalidPropertyName declared | reservedPropertyName declared | duplicateProperty declared
  | accessorClash declared =>
      rw [declared, List.length_append, List.length_cons, Place.rank]
      omega

/-- A type name has one issue at most. -/
theorem length_typeNameIssues_le (name : String) : (typeNameIssues name).length ≤ 1 := by
  grind [typeNameIssues]

/-- The name of a property has one issue at most. -/
theorem length_propertyNameIssues_le (name : String) : (propertyNameIssues name).length ≤ 1 := by
  grind [propertyNameIssues]

/-- A property has one issue at most with those before it. -/
theorem length_clashIssues_le (earlier : List String) (name : String) :
    (clashIssues earlier name).length ≤ 1 := by
  grind [clashIssues]

/-- The issues of the properties behind some others are found behind the places of these. -/
theorem enumerates_propertyIssues (declared : model.properties = before ++ after) :
    Enumerates (propertyIssues (before.map Property.name) (after.map Property.name))
      fun place issue => Found model place issue ∧ 2 * before.length < place.rank := by
  -- The places of the properties before end at twice their number, so what is found by itself,
  -- among the earlier ones and behind stands in this order.
  induction after generalizing before with
  | nil =>
      refine ⟨[], rfl, .nil, fun place issue => iff_of_false List.not_mem_nil ?_⟩
      rintro ⟨found, behind⟩
      have last := found.rank_le
      rw [declared, List.append_nil] at last
      omega
  | cons property after hypothesis =>
      have byItself := Enumerates.of_place (length_propertyNameIssues_le property.name)
        fun _ => found_name_iff declared
      have amongEarlier := Enumerates.of_place
        (length_clashIssues_le (before.map Property.name) property.name)
        fun _ => found_repetition_iff declared
      have rest := @hypothesis (before ++ [property]) (by simpa using declared)
      rw [List.map_append, List.map_singleton] at rest
      refine ((byItself.append amongEarlier ?_).append rest ?_).congr fun place issue => ?_
      · rintro _ _ _ _ ⟨_, rfl⟩ ⟨_, rfl⟩
        exact Nat.lt_succ_self _
      · rintro _ _ _ _ (⟨_, rfl⟩ | ⟨_, rfl⟩) ⟨_, behind⟩ <;>
          grind [Place.rank]
      · rw [← and_or_left, ← and_or_left]
        refine and_congr_right fun _ => ?_
        cases place <;> grind [Place.rank]

/-- The issues of a model are those that are found at its places. -/
theorem enumerates_issues (model : Model) : Enumerates model.issues (Found model) := by
  have named := Enumerates.of_place (length_typeNameIssues_le model.typeName)
    fun _ => found_typeName_iff
  have properties := @enumerates_propertyIssues model [] model.properties rfl
  refine (named.append properties ?_).congr fun place issue => ?_
  · rintro _ _ _ _ ⟨_, rfl⟩ ⟨_, behind⟩
    exact behind
  · rw [← and_or_left]
    refine and_iff_left ?_
    cases place <;> simp [Place.rank]

end Issue

/-- The issues of a model are just what is found in it, one at each place at most and in the order
of its declaration. There are none exactly when the model is valid, and then the getters and the
setters of all its properties have different names. -/
theorem issues_exactly (model : Model) :
    Issue.Enumerates model.issues (Issue.Found model) ∧
      (model.issues = [] ↔ model.IsValid) ∧
      (model.issues = [] →
        (model.properties.flatMap fun property =>
          [Naming.getter property.name, Naming.setter property.name]).Nodup) := by
  refine ⟨Issue.enumerates_issues model, issues_eq_nil_iff, fun none => ?_⟩
  have stems := (issues_eq_nil_iff.mp none).stems
  have accessors := @Naming.nodup_accessors (model.properties.map Property.name)
    (by simpa [Function.comp_def] using stems)
  rwa [List.flatMap_map] at accessors

/-- A model of some texts. -/
def siteOf (names : List String) : Model :=
  ⟨"Site", none, names.map fun name => ⟨name, .primitive .string, none⟩, [], ⟨"Site.yaml"⟩⟩

/-- A name that is repeated clashes no more, also if it did at first; a name that cannot be declared
clashes with the names behind it like any other. -/
theorem site_issues :
    (siteOf ["url", "Url", "Url", "ßa", "SSa"]).issues =
        [.accessorClash "url" "Url" "Url", .duplicateProperty "Url", .invalidPropertyName "ßa",
          .accessorClash "ßa" "SSa" "SSa"] ∧
      ¬ (siteOf ["url", "Url", "Url", "ßa", "SSa"]).IsValid ∧
      (siteOf ["url", "urls"]).issues = [] ∧
      ["getUrl", "setUrl", "getUrls", "setUrls"].Nodup := by
  have issues : (siteOf ["url", "Url", "Url", "ßa", "SSa"]).issues =
      [.accessorClash "url" "Url" "Url", .duplicateProperty "Url", .invalidPropertyName "ßa",
        .accessorClash "ßa" "SSa" "SSa"] := by decide +kernel
  have none : (siteOf ["url", "urls"]).issues = [] := by decide +kernel
  have accessors : ["getUrl", "setUrl", "getUrls", "setUrls"] =
      (siteOf ["url", "urls"]).properties.flatMap fun property =>
        [Naming.getter property.name, Naming.setter property.name] := by decide +kernel
  refine ⟨issues, fun valid => ?_, none, accessors ▸ (issues_exactly _).2.2 none⟩
  cases issues.symm.trans ((issues_exactly _).2.1.mpr valid)

end SchemaBeans

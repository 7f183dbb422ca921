import Mathlib.Data.List.Forall2
import SchemaBeans.Yaml.Node

/-!
# Values of nodes

Equality of values is decidable. Apart from local tags, the value of a node tells its
kind: text is the value of a scalar with this text only, and a mapping is the value of
a mapping, entry by entry.
-/

namespace SchemaBeans.Yaml

namespace Value

mutual

/-- Whether two values are equal, the order of entries included. -/
def equal : Value → Value → Bool
  | null, null => true
  | bool left, bool right => left = right
  | int left, int right => left = right
  | float left, float right => left = right
  | string left, string right => left = right
  | sequence left, sequence right => equalItems left right
  | mapping left, mapping right => equalEntries left right
  | tagged leftTag left, tagged rightTag right => leftTag = rightTag && equal left right
  | _, _ => false

/-- Whether the items of two sequences are equal. -/
def equalItems : List Value → List Value → Bool
  | [], [] => true
  | left :: lefts, right :: rights => equal left right && equalItems lefts rights
  | _, _ => false

/-- Whether the entries of two mappings are equal, in their order. -/
def equalEntries : List (Value × Value) → List (Value × Value) → Bool
  | [], [] => true
  | (leftKey, left) :: lefts, (rightKey, right) :: rights =>
      equal leftKey rightKey && equal left right && equalEntries lefts rights
  | _, _ => false

end

mutual

/-- Values are compared as wholes. -/
theorem equal_iff : ∀ left right, equal left right = true ↔ left = right
  | null, right | bool _, right | int _, right | float _, right | string _, right => by
      cases right <;> simp [equal]
  | sequence items, right => by cases right <;> simp [equal, equalItems_iff items]
  | mapping entries, right => by cases right <;> simp [equal, equalEntries_iff entries]
  | tagged tag value, right => by cases right <;> simp [equal, equal_iff value]

/-- Items are compared one by one. -/
theorem equalItems_iff : ∀ left right, equalItems left right = true ↔ left = right
  | [], right => by cases right <;> simp [equalItems]
  | item :: items, right => by cases right <;> simp [equalItems, equal_iff item, equalItems_iff items]

/-- Entries are compared one by one. -/
theorem equalEntries_iff : ∀ left right, equalEntries left right = true ↔ left = right
  | [], right => by cases right <;> simp [equalEntries]
  | (key, value) :: entries, right => by
      rcases right with _ | ⟨⟨otherKey, other⟩, others⟩ <;>
        simp [equalEntries, equal_iff key, equal_iff value, equalEntries_iff entries, and_assoc]

end

instance : DecidableEq Value := fun left right => decidable_of_iff _ (equal_iff left right)

/-- What a scalar can mean: a basic value, or its own text. -/
inductive IsScalar (text : String) : Value → Prop where
  | null : IsScalar text .null
  | bool (value : Bool) : IsScalar text (.bool value)
  | int (value : Int) : IsScalar text (.int value)
  | float (value : Binary64) : IsScalar text (.float value)
  | string : IsScalar text (.string text)

/-- A plain text means a basic value or itself. -/
theorem isScalar_of_ofPlain? {text : String} {value : Value}
    (read : Value.ofPlain? text = some value) : value.IsScalar text := by
  unfold Value.ofPlain? at read
  split at read
  · cases read
    exact .null
  · split at read <;> try cases read
    · exact .bool _
    · exact .int _
    · split at read <;> cases read
      · exact .string
      · cases Value.floatOf? text.toList with
        | none => exact .string
        | some value => exact .float value

end Value

namespace Node

variable {node : Node} {text : String} {value : Value}

/-- A text means a basic value or itself under every tag. -/
theorem isScalar_of_scalarValue? {tag : Option Tag} {plain : Bool}
    (read : scalarValue? tag text plain = some value) : value.IsScalar text := by
  have untagged (read : untaggedValue? text plain = some value) : value.IsScalar text := by
    unfold untaggedValue? at read
    split at read
    · exact Value.isScalar_of_ofPlain? read
    · cases read
      exact .string
  unfold scalarValue? at read
  split at read
  · exact untagged read
  · exact untagged read
  · split at read <;> cases read
    exact .null
  · obtain ⟨truth, _, rfl⟩ := Option.map_eq_some_iff.mp read
    exact .bool truth
  · split at read <;> cases read
    exact .int _
  · obtain ⟨number, _, rfl⟩ := Option.map_eq_some_iff.mp read
    exact .float number
  · cases read
    exact .string

/-- The values of the key and of the content of an entry. -/
def HasValues (entry : Node × Node) (values : Value × Value) : Prop :=
  entry.1.value? = some values.1 ∧ entry.2.value? = some values.2

/-- The values of entries are those of each key and each content. -/
theorem forall₂_of_entryValues? {entries : List (Node × Node)} {values : List (Value × Value)}
    (read : entryValues? entries = some values) : List.Forall₂ HasValues entries values := by
  induction entries generalizing values with
  | nil =>
      rw [entryValues?] at read
      cases read
      exact .nil
  | cons entry entries hypothesis =>
      rw [entryValues?] at read
      obtain ⟨key, keyRead, read⟩ := Option.bind_eq_some_iff.mp read
      obtain ⟨content, contentRead, read⟩ := Option.bind_eq_some_iff.mp read
      obtain ⟨rest, others, read⟩ := Option.bind_eq_some_iff.mp read
      cases read
      exact .cons ⟨keyRead, contentRead⟩ (hypothesis others)

/-- How a node has a value that is not under a local tag. -/
inductive Bears : Node → Value → Prop where
  | scalar {tag text plain aliased value} (means : value.IsScalar text) :
      Bears (.scalar tag text plain aliased) value
  | sequence {tag items values} : Bears (.sequence tag items) (.sequence values)
  | mapping {tag entries values} (each : List.Forall₂ HasValues entries values) :
      Bears (.mapping tag entries) (.mapping values)

/-- A local tag is seen through. -/
theorem untagged_underTag (tag : Option Tag) (inner : Value) :
    (underTag tag inner).untagged = inner.untagged := by
  unfold underTag
  split
  · rfl
  · rfl

/-- A scalar has the value that its text means, under the name of its tag. -/
theorem scalarValue?_of_value? {tag : Option Tag} {plain aliased : Bool}
    (read : (scalar tag text plain aliased).value? = some value) :
    scalarValue? tag text plain = some value.untagged := by
  rw [value?] at read
  obtain ⟨inner, found, rfl⟩ := Option.map_eq_some_iff.mp read
  rw [found, untagged_underTag]
  cases isScalar_of_scalarValue? found <;> rfl

/-- A node has its value in one of these ways, apart from local tags. -/
theorem bears_untagged (read : node.value? = some value) : node.Bears value.untagged := by
  cases node with
  | scalar tag content plain aliased =>
      exact .scalar (isScalar_of_scalarValue? (scalarValue?_of_value? read))
  | sequence tag items =>
      rw [value?] at read
      obtain ⟨values, _, rfl⟩ := Option.map_eq_some_iff.mp read
      rw [untagged_underTag]
      exact .sequence
  | mapping tag entries =>
      rw [value?] at read
      obtain ⟨values, found, read⟩ := Option.bind_eq_some_iff.mp read
      split at read
      · cases read
      · cases read
        rw [untagged_underTag]
        exact .mapping (forall₂_of_entryValues? found)

/-- A node whose value is not under a local tag has it in one of these ways. -/
theorem bears_of_value? (read : node.value? = some value)
    (bare : ∀ name inner, value ≠ .tagged name inner) : node.Bears value := by
  have same : value.untagged = value := by
    cases value with
    | tagged name inner => exact absurd rfl (bare name inner)
    | _ => rfl
  exact same ▸ bears_untagged read

end Node

end SchemaBeans.Yaml

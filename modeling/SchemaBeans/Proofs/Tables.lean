import SchemaBeans.Proofs.Records
import SchemaBeans.Proofs.Values
import SchemaBeans.SchemaDocument

/-!
# Reading tables

The entries of a mapping may stand in any order, and a key may have other spellings.
`Tabulates` says what a mapping holds apart from that. A mapping is read entry by
entry into a record; each entry fills a slot that was empty before and leaves the
other slots alone, so that the record holds in the end what the mapping holds.
-/

namespace SchemaBeans

open Yaml (Node Value)

namespace SchemaDocument

section Nodes

variable {key node : Node} {text : String} {value : Value}

/-- A key that means a text is read as this text. -/
theorem keyOf_eq_ok (read : node.value? = some (.string text)) : keyOf node = .ok text := by
  cases Node.bears_of_value? read (by simp) with
  | scalar means =>
      cases means
      rfl

/-- A field that means a text is read as this text. -/
theorem fieldText_eq_ok (read : node.value? = some (.string text)) :
    fieldText key node = .ok text := by
  cases Node.bears_of_value? read (by simp) with
  | scalar means =>
      cases means
      rfl

/-- What means something is given. -/
theorem isGiven_eq_ok (read : node.value? = some value) (given : value ≠ .null) :
    isGiven node = .ok true := by
  unfold isGiven
  split
  · rfl
  · rw [Node.value?, Node.scalarValue?] at read
    split at read
    · cases read
      exact absurd rfl given
    · cases read
  · rfl
  · rw [Node.value?, Node.scalarValue?, Node.untaggedValue?, if_pos rfl, Value.ofPlain?] at read
    split at read
    · cases read
      exact absurd rfl given
    · next solid =>
        rw [Bool.or_eq_true, not_or, Bool.not_eq_true, Bool.not_eq_true] at solid
        rw [solid.1, solid.2]
        rfl
  · rfl

end Nodes

section Filling

variable {κ σ ι ε : Type}

/-- An entry gives a field: it stands under one of the keys of the field and has its content. -/
def Gives (keys : κ → List String) (content : κ → Option Value) (field : κ)
    (entry : Value × Value) : Prop :=
  (∃ key ∈ keys field, entry.1 = .string key) ∧ content field = some entry.2

/-- What a mapping holds: each of the fields that have content is given once, in any order. -/
def Tabulates (keys : κ → List String) (content : κ → Option Value)
    (values : List (Value × Value)) : Prop :=
  ∃ fields : List κ, fields.Nodup ∧ (∀ field, field ∈ fields ↔ (content field).isSome) ∧
    List.Forall₂ (Gives keys content) fields values

/-- Adding an entry to a record fills the empty slot of its field, and leaves the other slots
alone. The value has to fit the field. -/
def Fills (keys : κ → List String) (fits : κ → Value → Prop) (reads : ι → Value × Value → Prop)
    (held : σ → κ → Option Value) (add : σ → ι → Except ε σ) : Prop :=
  ∀ ⦃record field value key entry⦄, held record field = none → fits field value →
    key ∈ keys field → reads entry (.string key, value) →
    ∃ next, add record entry = .ok next ∧ held next field = some value ∧
      ∀ other, other ≠ field → held next other = held record other

variable {keys : κ → List String} {fits : κ → Value → Prop} {reads : ι → Value × Value → Prop}
  {held : σ → κ → Option Value} {add : σ → ι → Except ε σ} {content : κ → Option Value}
  {entries : List ι} {values : List (Value × Value)} {record : σ}

/-- The entries of a mapping fill an empty record with what the mapping holds. -/
theorem Fills.exists_foldlM_of_empty (fills : Fills keys fits reads held add)
    (fit : ∀ field value, content field = some value → fits field value)
    (tabulated : Tabulates keys content values) (read : List.Forall₂ reads entries values)
    (empty : ∀ field, held record field = none) :
    ∃ filled, entries.foldlM add record = .ok filled ∧
      ∀ field, held filled field = content field := by
  classical
  obtain ⟨fields, distinct, whole, given⟩ := tabulated
  have each : List.Forall₂ (fun field entry => ∃ value, content field = some value ∧
      ∃ key ∈ keys field, reads entry (.string key, value)) fields entries := by
    refine forall₂_trans (fun field pair entry gives read => ?_) given read.flip
    obtain ⟨⟨key, own, spelled⟩, has⟩ := gives
    exact ⟨pair.2, has, key, own, spelled ▸ read⟩
  obtain ⟨filled, folded, holds⟩ := exists_foldlM_of_fills (fun ⟨has, key, own, read⟩ vacant => by
      obtain ⟨next, added, now, frame⟩ := fills vacant (fit _ _ has) own read
      exact ⟨next, added, Function.eq_update_iff.mpr ⟨now, frame⟩⟩)
    distinct (fun field _ => empty field) each
  refine ⟨filled, folded, fun field => ?_⟩
  by_cases inside : field ∈ fields
  · obtain ⟨entry, _, value, own, has, _⟩ := exists_mem_of_forall₂ holds.each.flip inside
    rw [own, has]
  · rw [holds.frame field inside, empty field]
    exact (Option.not_isSome_iff_eq_none.mp (mt (whole field).mpr inside)).symm

end Filling

/-- The value of a description, if an entry gave one; it may have been null. -/
def descriptionValue? (description : Option (Option String)) : Option Value :=
  description.map fun text? => (text?.map .string).getD .null

/-- The description of a record is what its entry says, also if that is null. -/
theorem join_eq_of_descriptionValue? {description : Option (Option String)} {text? : Option String}
    (shown : descriptionValue? description = text?.map .string) : description.join = text? := by
  cases description with
  | none => exact (Option.map_eq_none_iff.mp shown.symm).symm
  | some given =>
      obtain ⟨text, rfl, same⟩ := Option.map_eq_some_iff.mp shown.symm
      cases given with
      | none => cases same
      | some other =>
          cases same
          rfl

section PropertyTables

/-- The value that a table has for a field, if an entry gave one. -/
def Table.value? (table : Table) : TableField → Option Value
  | .name => table.name.map .string
  | .type => table.type.map .string
  | .description => descriptionValue? table.description

/-- Whether a value is untagged text. -/
def IsText (value : Value) : Prop := ∃ text, value = .string text

/-- Different fields have different names. -/
theorem TableField.text_injective : TableField.text.Injective := by
  intro field other same
  cases field <;> cases other <;> first | rfl | exact absurd same (by decide)

/-- A known field is found by its name. -/
theorem fieldOf_text {known : List TableField} {field : TableField} (inside : field ∈ known) :
    fieldOf known (.string field.text) = .ok field := by
  rw [fieldOf, Value.untagged]
  · cases found : known.find? fun other => other.text = field.text with
    | none => exact absurd (List.find?_eq_none.mp found field inside) (by simp)
    | some other =>
        cases TableField.text_injective (by simpa using List.find?_some found)
        simp [found]
  · simp

/-- The key of a field. -/
def TableField.keys (field : TableField) : List String := [field.text]

/-- The entries of a table fill its fields, if these are among the known ones. -/
theorem fills_add (known : List TableField) :
    Fills TableField.keys (fun field value => field ∈ known ∧ IsText value) Eq
      Table.value? (Table.add known) := by
  rintro table field value key entry vacant ⟨inside, text, rfl⟩ own rfl
  cases List.mem_singleton.mp own
  unfold Table.add
  rw [fieldOf_text inside]
  cases field with
  | name =>
      have free : table.name = none := Option.map_eq_none_iff.mp vacant
      refine ⟨{ table with name := some text }, ?_, rfl, ?_⟩
      · simp [free, stringOf, Value.untagged, bind, Except.bind, pure, Except.pure]
      · rintro (_ | _ | _) differs <;> first | rfl | exact absurd rfl differs
  | type =>
      have free : table.type = none := Option.map_eq_none_iff.mp vacant
      refine ⟨{ table with type := some text }, ?_, rfl, ?_⟩
      · simp [free, stringOf, Value.untagged, bind, Except.bind, pure, Except.pure]
      · rintro (_ | _ | _) differs <;> first | rfl | exact absurd rfl differs
  | description =>
      have free : table.description = none := Option.map_eq_none_iff.mp vacant
      refine ⟨{ table with description := some (some text) }, ?_, rfl, ?_⟩
      · simp [free, optionalStringOf, stringOf, Value.untagged, Except.map, bind, Except.bind, pure,
          Except.pure]
      · rintro (_ | _ | _) differs <;> first | rfl | exact absurd rfl differs

/-- The table of a mapping has what the mapping holds, if this is untagged text for known fields. -/
theorem exists_tableOf {known : List TableField} {content : TableField → Option Value}
    {values : List (Value × Value)} (expected : String)
    (fit : ∀ field value, content field = some value → field ∈ known ∧ IsText value)
    (tabulated : Tabulates TableField.keys content values) :
    ∃ table, tableOf known expected (.mapping values) = .ok table ∧
      ∀ field, table.value? field = content field :=
  (fills_add known).exists_foldlM_of_empty fit tabulated (List.forall₂_eq_eq_eq ▸ rfl)
    fun field => by cases field <;> rfl

end PropertyTables

section DocumentFields

/-- The parts of a schema document. -/
inductive Part where
  | typeName
  | description
  | properties
  deriving DecidableEq

/-- The keys that name a part. -/
def Part.keys : Part → List String
  | .typeName => ["typeName", "type_name", "name"]
  | .description => ["description"]
  | .properties => ["properties"]

/-- What a part can be: untagged text, and something for the properties. -/
def Part.Fits : Part → Value → Prop
  | .typeName, value => IsText value
  | .description, value => IsText value
  | .properties, value => value ≠ .null

/-- The value of a part, as far as the fields of a document were read. -/
def Fields.value? (fields : Fields) : Part → Option Value
  | .typeName => fields.typeName.map .string
  | .description => descriptionValue? fields.description
  | .properties => fields.properties.map fun value? => value?.getD .null

/-- The entries of a document fill its parts. -/
theorem Fields.fills_add : Fills Part.keys Part.Fits Node.HasValues Fields.value? Fields.add := by
  rintro fields part value key entry vacant fit own ⟨keyRead, contentRead⟩
  unfold Fields.add
  rw [keyOf_eq_ok keyRead]
  cases part with
  | typeName =>
      obtain ⟨text, rfl⟩ := fit
      have free : fields.typeName = none := Option.map_eq_none_iff.mp vacant
      refine ⟨{ fields with typeName := some text }, ?_, rfl, ?_⟩
      · have spelled : key = "typeName" ∨ key = "type_name" ∨ key = "name" := by
          simpa [Part.keys] using own
        simp [spelled, or_assoc, free, fieldText_eq_ok contentRead, bind, Except.bind, pure, Except.pure]
      · rintro (_ | _ | _) differs <;> first | rfl | exact absurd rfl differs
  | description =>
      obtain ⟨text, rfl⟩ := fit
      cases List.mem_singleton.mp own
      have free : fields.description = none := Option.map_eq_none_iff.mp vacant
      refine ⟨{ fields with description := some (some text) }, ?_, rfl, ?_⟩
      · simp [free, isGiven_eq_ok contentRead, fieldText_eq_ok contentRead, bind, Except.bind, pure,
          Except.pure]
      · rintro (_ | _ | _) differs <;> first | rfl | exact absurd rfl differs
  | properties =>
      cases List.mem_singleton.mp own
      have free : fields.properties = none := Option.map_eq_none_iff.mp vacant
      refine ⟨{ fields with properties := some (some value) }, ?_, rfl, ?_⟩
      · simp [free, isGiven_eq_ok contentRead fit, contentRead, bind, Except.bind, pure, Except.pure]
      · rintro (_ | _ | _) differs <;> first | rfl | exact absurd rfl differs

/-- The fields of a mapping have what the mapping holds. -/
theorem exists_fieldsOf {node : Node} {content : Part → Option Value}
    {values : List (Value × Value)} (read : node.value? = some (.mapping values))
    (fit : ∀ part value, content part = some value → part.Fits value)
    (tabulated : Tabulates Part.keys content values) :
    ∃ fields, fieldsOf (some node) = .ok fields ∧ ∀ part, fields.value? part = content part := by
  cases Node.bears_of_value? read (by simp) with
  | scalar means => cases means
  | mapping each =>
      exact Fields.fills_add.exists_foldlM_of_empty fit tabulated each
        fun part => by cases part <;> rfl

end DocumentFields

end SchemaDocument

end SchemaBeans

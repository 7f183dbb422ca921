import SchemaBeans.Proofs.PropertyForms
import SchemaBeans.Proofs.Records

/-!
# Shapes of properties

The properties of a document are nothing, a sequence of tables or a mapping from names
to types and tables. A value is looked at in one of two ways: as it is, or through its
local tags. Tables and the items of a sequence are read through their tags; the names and
the contents of a mapping are not.
-/

namespace SchemaBeans.SchemaDocument

open Yaml (Value)

/-- A value gives the text of a field, or nothing: a description can also be null. -/
inductive TableField.Shows (view : Value → Value) (field : TableField) :
    Option String → Value → Prop
  | text {value text} (shown : view value = .string text) : Shows view field (some text) value
  | nothing (described : field = .description) : Shows view field none .null

/-- An entry of a table: a known field and what its value gives. -/
def TableField.Enters (view : Value → Value) (known : List TableField) (field : TableField)
    (text? : Option String) (entry : Value × Value) : Prop :=
  field ∈ known ∧ view entry.1 = .string field.text ∧ field.Shows view text? entry.2

/-- The texts of a property for the known fields. -/
def DraftProperty.texts (draft : DraftProperty) (known : List TableField) (field : TableField) :
    Option String :=
  if field ∈ known then draft.text? field else none

/-- A table of a property: each of its keys is one of the known fields, no field is there twice, and
only the description may be missing or null. -/
def IsTable (view : Value → Value) (known : List TableField) (draft : DraftProperty)
    (entries : List (Value × Value)) : Prop :=
  Gathers (TableField.Enters view known) (draft.texts known) entries

/-- A property as an item of a sequence. -/
inductive ShowsItem (view : Value → Value) (draft : DraftProperty) (item : Value) : Prop where
  | table {entries} (mapping : view item = .mapping entries)
      (table : IsTable view [.name, .type, .description] draft entries) : ShowsItem view draft item

/-- A property as an entry of a mapping. -/
inductive ShowsEntry (view : Value → Value) (draft : DraftProperty) : Value × Value → Prop where
  | type (bare : draft.description = none) :
      ShowsEntry view draft (.string draft.name, .string draft.type)
  | table {entries} (table : IsTable view [.type, .description] draft entries) :
      ShowsEntry view draft (.string draft.name, .mapping entries)

/-- Properties as the value of a document's field, if it has one. -/
inductive ShowsProperties (view : Value → Value) : List DraftProperty → Option Value → Prop where
  | missing : ShowsProperties view [] none
  | null : ShowsProperties view [] (some .null)
  | sequence {drafts items} (each : List.Forall₂ (ShowsItem view) drafts items) :
      ShowsProperties view drafts (some (.sequence items))
  | mapping {drafts entries} (each : List.Forall₂ (ShowsEntry view) drafts entries) :
      ShowsProperties view drafts (some (.mapping entries))

variable {known : List TableField} {field : TableField} {table next : Table}
  {entry : Value × Value} {entries : List (Value × Value)} {value : Value} {draft : DraftProperty}

/-- A text is taken from a string only, seen through its local tags. -/
theorem stringOf_eq_ok_iff {text : String} :
    stringOf value = .ok text ↔ value.untagged = .string text := by
  unfold stringOf
  cases value.untagged <;> simp

/-- A key is taken for a field when it is the text of that field and the field is among the known
ones. -/
theorem fieldOf_eq_ok_iff {key : Value} :
    fieldOf known key = .ok field ↔ field ∈ known ∧ key.untagged = .string field.text := by
  constructor
  · intro found
    unfold fieldOf at found
    split at found
    · next text same =>
        split at found
        · next other hit =>
            cases found
            have named := List.find?_some hit
            rw [decide_eq_true_iff] at named
            exact ⟨List.mem_of_find?_eq_some hit, named ▸ same⟩
        · cases found
    · cases found
  · rintro ⟨inside, same⟩
    rw [← fieldOf_text inside, fieldOf, fieldOf, same, Value.untagged]
    simp

/-- The text that a table takes for a field from a value; it may be nothing. -/
def TableField.read (field : TableField) (value : Value) : Except ShapeError (Option String) :=
  match field with
  | .description => optionalStringOf value
  | _ => (stringOf value).map some

/-- What is taken for a field that cannot be null is always a text. -/
theorem map_stringOf_eq_ok_iff {text? : Option String} :
    (stringOf value).map some = .ok text? ↔
      ∃ text, text? = some text ∧ value.untagged = .string text := by
  rw [map_eq_ok_iff]
  simp only [stringOf_eq_ok_iff, @eq_comm _ text?, and_comm]

/-- What is read for a field is what its value shows through its tags. -/
theorem TableField.read_eq_ok_iff {text? : Option String} :
    field.read value = .ok text? ↔ field.Shows Value.untagged text? value := by
  constructor
  · intro read
    cases field with
    | description =>
        have given : optionalStringOf value = .ok text? := read
        unfold optionalStringOf at given
        split at given
        · cases given
          exact .nothing rfl
        · obtain ⟨text, rfl, shown⟩ := map_stringOf_eq_ok_iff.mp given
          exact .text shown
    | name | type =>
        obtain ⟨text, rfl, shown⟩ := map_stringOf_eq_ok_iff.mp read
        exact .text shown
  · intro shows
    cases shows with
    | @text _ text shown =>
        have given := map_stringOf_eq_ok_iff.mpr ⟨text, rfl, shown⟩
        cases field with
        | description =>
            show optionalStringOf value = .ok (some text)
            unfold optionalStringOf
            split
            · simp [Value.untagged] at shown
            · exact given
        | name | type => exact given
    | nothing described =>
        subst described
        rfl

/-- What a table holds for a field, if an entry gave it. -/
def Table.held (table : Table) : TableField → Option (Option String)
  | .name => table.name.map some
  | .type => table.type.map some
  | .description => table.description

/-- The table with a text for a field. -/
def Table.put (table : Table) (field : TableField) (text? : Option String) : Table :=
  match field with
  | .name => { table with name := text? }
  | .type => { table with type := text? }
  | .description => { table with description := some text? }

/-- A table with a text for a field holds this text there, and elsewhere what it held before. -/
theorem Table.held_put {text? : Option String} (shows : field.Shows Value.untagged text? value) :
    (table.put field text?).held = Function.update table.held field (some text?) := by
  funext other
  cases shows with
  | text _ => cases field <;> cases other <;> rfl
  | nothing described =>
      subst described
      cases other <;> rfl

/-- All fields of a table are read alike: a field must be new, and its value must fit. -/
theorem Table.add_eq (table : Table) (entry : Value × Value) :
    table.add known entry = (fieldOf known entry.1).bind fun field =>
      if (table.held field).isSome then .error (.repeatedField field.text)
      else (field.read entry.2).map (table.put field) := by
  unfold Table.add
  cases fieldOf known entry.1 with
  | error failure => rfl
  | ok field =>
      cases field with
      | name =>
          rcases table with ⟨_ | name, type, description⟩
          · simp only [TableField.read]
            cases stringOf entry.2 <;> rfl
          · rfl
      | type =>
          rcases table with ⟨name, _ | type, description⟩
          · simp only [TableField.read]
            cases stringOf entry.2 <;> rfl
          · rfl
      | description =>
          rcases table with ⟨name, type, _ | description⟩
          · simp only [TableField.read]
            cases optionalStringOf entry.2 <;> rfl
          · rfl

/-- A table is filled by entries of known fields, read through their tags. -/
theorem adds_table (known : List TableField) :
    Adds (TableField.Enters Value.untagged known) Table.held (Table.add known) := by
  constructor
  · intro table entry next added
    rw [Table.add_eq] at added
    obtain ⟨field, named, added⟩ := bind_eq_ok_iff.mp added
    split at added
    · cases added
    · next vacant =>
        obtain ⟨text?, read, rfl⟩ := map_eq_ok_iff.mp added
        obtain ⟨inside, key⟩ := fieldOf_eq_ok_iff.mp named
        have shows := TableField.read_eq_ok_iff.mp read
        exact ⟨field, text?, ⟨inside, key, shows⟩, Option.not_isSome_iff_eq_none.mp vacant,
          Table.held_put shows⟩
  · rintro table field text? entry ⟨inside, key, shows⟩ vacant
    refine ⟨table.put field text?, ?_, Table.held_put shows⟩
    rw [Table.add_eq, fieldOf_eq_ok_iff.mpr ⟨inside, key⟩]
    show (if (table.held field).isSome then _ else _) = _
    rw [vacant, TableField.read_eq_ok_iff.mpr shows]
    rfl

/-- An empty table holds nothing. -/
theorem Table.held_empty (field : TableField) : Table.empty.held field = none := by
  cases field <;> rfl

/-- What a table holds for a field is what the property is made of. -/
theorem Table.join_held (table : Table) (field : TableField) :
    (table.held field).join =
      match field with
      | .name => table.name
      | .type => table.type
      | .description => table.description.join := by
  rcases table with ⟨_ | name, _ | type, description⟩ <;> cases field <;> rfl

/-- No entry fills the slot of a field that is not known. -/
theorem Table.held_eq_none (folded : entries.foldlM (Table.add known) .empty = .ok table)
    (unknown : field ∉ known) : table.held field = none := by
  obtain ⟨fields, filled⟩ := (adds_table known).exists_filled folded
  have outside : field ∉ fields := by
    intro inside
    obtain ⟨_, _, _, _, enters⟩ := exists_mem_of_forall₂ filled.each.flip inside
    exact unknown enters.1
  rw [filled.frame field outside, Table.held_empty]

/-- A table has the texts of a property exactly when its entries show them. -/
theorem exists_table_iff (typed : .type ∈ known) (described : .description ∈ known) :
    (∃ table, entries.foldlM (Table.add known) .empty = .ok table ∧
      (.name ∈ known → table.name = some draft.name) ∧ table.type = some draft.type ∧
      table.description.join = draft.description) ↔ IsTable Value.untagged known draft entries := by
  rw [IsTable, ← (adds_table known).gathers_iff Table.held_empty]
  refine exists_congr fun table => and_congr_right fun folded => ?_
  constructor
  · rintro ⟨name, type, description⟩ field
    by_cases inside : field ∈ known
    · rw [DraftProperty.texts, if_pos inside, Table.join_held]
      cases field with
      | name => exact name inside
      | type => exact type
      | description => exact description
    · rw [DraftProperty.texts, if_neg inside, Table.held_eq_none folded inside]
      rfl
  · intro holds
    refine ⟨fun named => ?_, ?_, ?_⟩
    · simpa [DraftProperty.texts, named, DraftProperty.text?,
        Table.join_held] using holds .name
    · simpa [DraftProperty.texts, typed, DraftProperty.text?,
        Table.join_held] using holds .type
    · simpa [DraftProperty.texts, described, DraftProperty.text?,
        Table.join_held] using holds .description

/-- A required field is taken exactly when it was given. -/
theorem required_eq_ok_iff {text? : Option String} {text : String} :
    required field text? = .ok text ↔ text? = some text := by
  cases text? <;> simp [required]

/-- An item is read as a property exactly when it shows it through its tags. -/
theorem propertyOfItem_eq_ok_iff {item : Value} :
    propertyOfItem item = .ok draft ↔ ShowsItem Value.untagged draft item := by
  constructor
  · intro read
    obtain ⟨table, found, read⟩ := bind_eq_ok_iff.mp read
    obtain ⟨name, named, read⟩ := bind_eq_ok_iff.mp read
    obtain ⟨type, typed, read⟩ := bind_eq_ok_iff.mp read
    cases read
    rw [required_eq_ok_iff] at named typed
    unfold tableOf at found
    split at found
    · cases found
      cases named
    · next entries mapping =>
        exact .table mapping ((exists_table_iff (by decide) (by decide)).mp
          ⟨table, found, fun _ => named, typed, rfl⟩)
    · cases found
  · rintro ⟨mapping, shape⟩
    obtain ⟨table, folded, named, typed, described⟩ :=
      (exists_table_iff (by decide) (by decide)).mpr shape
    unfold propertyOfItem tableOf
    rw [mapping]
    simp only [folded, named (by decide), typed, described, required, bind, Except.bind, pure,
      Except.pure]

/-- Changing the error of an outcome makes no difference to its success. -/
theorem mapError_eq_ok_iff {ε ε' α : Type} {outcome : Except ε α} {change : ε → ε'} {result : α} :
    outcome.mapError change = .ok result ↔ outcome = .ok result := by
  cases outcome <;> simp [Except.mapError]

/-- An entry is read as a property exactly when it shows it through its tags. -/
theorem propertyOfEntry_eq_ok_iff :
    propertyOfEntry entry = .ok draft ↔ ShowsEntry Value.untagged draft entry := by
  constructor
  · intro read
    unfold propertyOfEntry at read
    split at read
    · cases read
      exact .type rfl
    · next name entries =>
        obtain ⟨table, found, read⟩ := bind_eq_ok_iff.mp (mapError_eq_ok_iff.mp read)
        obtain ⟨type, typed, read⟩ := bind_eq_ok_iff.mp read
        cases read
        rw [required_eq_ok_iff] at typed
        exact .table ((exists_table_iff (by decide) (by decide)).mp
          ⟨table, found, fun named => absurd named (by decide), typed, rfl⟩)
    · cases read
    · cases read
  · intro shows
    cases shows with
    | type bare =>
        unfold propertyOfEntry
        rw [← bare]
    | table shape =>
        obtain ⟨table, folded, _, typed, described⟩ :=
          (exists_table_iff (by decide) (by decide)).mpr shape
        refine mapError_eq_ok_iff.mpr ?_
        simp only [tableOf, Value.untagged, folded, typed, described, required, bind, Except.bind,
          pure, Except.pure]

/-- A traversal has the results whose relation to the elements says what each step gives. -/
theorem mapM_eq_ok_iff {ε α β : Type} {f : α → Except ε β} {shows : β → α → Prop}
    (each : ∀ element result, f element = .ok result ↔ shows result element)
    {elements : List α} {results : List β} :
    elements.mapM f = .ok results ↔ List.Forall₂ shows results elements := by
  constructor
  · intro mapped
    exact (forall₂_of_mapM_eq_ok mapped).flip.imp fun result element => (each element result).mp
  · intro all
    exact mapM_eq_ok_of_forall₂ (all.flip.imp fun element result => (each element result).mpr)

/-- A value is read as properties exactly when it shows them. -/
theorem propertiesOf_eq_ok_iff {value? : Option Value} {drafts : List DraftProperty} :
    propertiesOf value? = .ok drafts ↔ ShowsProperties Value.untagged drafts value? := by
  have item (item : Value) (draft : DraftProperty) :
      (propertyOfItem item).mapError ShapeError.inItem = .ok draft ↔
        ShowsItem Value.untagged draft item :=
    mapError_eq_ok_iff.trans propertyOfItem_eq_ok_iff
  have entry (entry : Value × Value) (draft : DraftProperty) :
      propertyOfEntry entry = .ok draft ↔ ShowsEntry Value.untagged draft entry :=
    propertyOfEntry_eq_ok_iff
  constructor
  · intro read
    unfold propertiesOf at read
    split at read
    · cases read
      exact .missing
    · cases read
      exact .null
    · exact .sequence ((mapM_eq_ok_iff item).mp read)
    · exact .mapping ((mapM_eq_ok_iff entry).mp read)
    · cases read
  · intro shows
    cases shows with
    | missing | null => rfl
    | sequence each => exact (mapM_eq_ok_iff item).mpr each
    | mapping each => exact (mapM_eq_ok_iff entry).mpr each

end SchemaBeans.SchemaDocument

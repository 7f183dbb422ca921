import SchemaBeans.Proofs.Shapes

/-!
# Shapes of documents

A document is a mapping with a type name, and with a description and properties if it has them.
-/

namespace SchemaBeans.SchemaDocument

open Yaml (Node Value)

/-- What an entry of a document gives: the text of a scalar, or the value of the properties. -/
inductive PartContent where
  | text (text : String)
  | value (value : Value)

/-- The text of a content, if it is one. -/
def PartContent.text? : PartContent → Option String
  | .text content => some content
  | .value _ => none

/-- The value of a content, if it is one. -/
def PartContent.value? : PartContent → Option Value
  | .text _ => none
  | .value content => some content

/-- A scalar with this text can have this value. -/
def MeansAs (text : String) (value : Value) : Prop :=
  ∃ tag plain, Node.scalarValue? tag text plain = some value

/-- A value gives the content of a part of a document, or nothing. -/
inductive Part.Shows (view : Value → Value) : Part → Option PartContent → Value → Prop
  | typeName {value text} (scalar : MeansAs text (view value)) :
      Shows view .typeName (some (.text text)) value
  | description {value text} (scalar : MeansAs text (view value)) :
      Shows view .description (some (.text text)) value
  | noDescription : Shows view .description none .null
  | properties {value} : Shows view .properties (some (.value value)) value
  | noProperties : Shows view .properties none .null

/-- An entry of a document: one of the keys of a part and what its value gives. -/
def Part.Enters (view : Value → Value) (part : Part) (content : Option PartContent)
    (entry : Value × Value) : Prop :=
  (∃ key ∈ part.keys, view entry.1 = .string key) ∧ part.Shows view content entry.2

/-- What a document with some properties gives for its parts. -/
def Draft.contents (draft : Draft) (properties? : Option Value) : Part → Option PartContent
  | .typeName => some (.text draft.typeName)
  | .description => draft.description.map .text
  | .properties => properties?.map .value

/-- A document: a mapping that gives a type name, and a description and properties if it has them,
each once and nothing else. -/
def IsDocument (view : Value → Value) (draft : Draft) (value : Value) : Prop :=
  ∃ entries properties?, view value = .mapping entries ∧
    Gathers (Part.Enters view) (draft.contents properties?) entries ∧
    ShowsProperties view draft.properties properties?

section Nodes

variable {part : Part} {content : Option PartContent} {key : String} {node : Node} {value : Value}
  {fields : Fields}

/-- The part that a key names. -/
def partOf? (key : String) : Option Part :=
  if key = "typeName" || key = "type_name" || key = "name" then some .typeName
  else if key = "description" then some .description
  else if key = "properties" then some .properties
  else none

/-- A key gives the part that it is one of the keys of. -/
theorem partOf?_eq_some_iff : partOf? key = some part ↔ key ∈ part.keys := by
  constructor
  · intro found
    unfold partOf? at found
    split at found
    · next spelled =>
        cases found
        simpa [Part.keys, or_assoc] using spelled
    · split at found
      · next same =>
          cases found
          exact List.mem_singleton.mpr same
      · split at found
        · next same =>
            cases found
            exact List.mem_singleton.mpr same
        · cases found
  · intro own
    revert key
    cases part <;> decide

/-- The name under which a part is reported. -/
def Part.text : Part → String
  | .typeName => "typeName"
  | .description => "description"
  | .properties => "properties"

/-- What the fields of a document take for a part from a node. -/
def Part.read (part : Part) (key value : Node) : Except DocumentError (Option PartContent) :=
  match part with
  | .typeName => (fieldText key value).map fun text => some (.text text)
  | .description => (isGiven value).bind fun given =>
      if given then (fieldText key value).map fun text => some (.text text) else .ok none
  | .properties => (isGiven value).bind fun given =>
      if given then
        match value.value? with
        | some value => .ok (some (.value value))
        | none => .error .malformed
      else .ok none

/-- What the fields of a document hold for a part, if an entry gave it. -/
def Fields.held (fields : Fields) : Part → Option (Option PartContent)
  | .typeName => fields.typeName.map fun text => some (.text text)
  | .description => fields.description.map (Option.map .text)
  | .properties => fields.properties.map (Option.map .value)

/-- The fields with a content for a part. -/
def Fields.put (fields : Fields) (part : Part) (content : Option PartContent) : Fields :=
  match part with
  | .typeName => { fields with typeName := content.bind PartContent.text? }
  | .description => { fields with description := some (content.bind PartContent.text?) }
  | .properties => { fields with properties := some (content.bind PartContent.value?) }

/-- All parts of a document are read alike: a part must be new, and its node must fit. -/
theorem Fields.add_eq (fields : Fields) (entry : Node × Node) :
    fields.add entry = (keyOf entry.1).bind fun key =>
      match partOf? key with
      | none => .error (.shape (.unknownField key knownKeys))
      | some part =>
          if (fields.held part).isSome then .error (.shape (.repeatedField part.text))
          else (part.read entry.1 entry.2).map (fields.put part) := by
  unfold Fields.add
  cases keyOf entry.1 with
  | error failure => rfl
  | ok key =>
      show _ = match partOf? key with | none => _ | some part => _
      unfold partOf?
      simp only [bind, Except.bind]
      split
      · rcases fields with ⟨_ | typeName, description, properties⟩
        · simp only [Part.read]
          cases fieldText entry.1 entry.2 <;> rfl
        · rfl
      · split
        · rcases fields with ⟨typeName, _ | description, properties⟩
          · simp only [Part.read]
            rcases isGiven entry.2 with _ | _ | _
            · rfl
            · rfl
            · cases fieldText entry.1 entry.2 <;> rfl
          · rfl
        · split
          · rcases fields with ⟨typeName, description, _ | properties⟩
            · simp only [Part.read]
              rcases isGiven entry.2 with _ | _ | _
              · rfl
              · rfl
              · cases entry.2.value? <;> rfl
            · rfl
          · rfl

/-- An entry of nodes gives a part: by one of its keys, and by what is read from its node. -/
def Part.Reads (part : Part) (content : Option PartContent) (entry : Node × Node) : Prop :=
  (∃ key ∈ part.keys, keyOf entry.1 = .ok key) ∧ part.read entry.1 entry.2 = .ok content

/-- Fields with a content for a part hold this content there, and elsewhere what they held
before. -/
theorem Fields.held_put {named : Node} (read : part.read named node = .ok content) :
    (fields.put part content).held = Function.update fields.held part (some content) := by
  funext other
  cases part with
  | typeName =>
      obtain ⟨text, _, rfl⟩ := map_eq_ok_iff.mp read
      cases other <;> rfl
  | description =>
      obtain ⟨given, _, read⟩ := bind_eq_ok_iff.mp read
      split at read
      · obtain ⟨text, _, rfl⟩ := map_eq_ok_iff.mp read
        cases other <;> rfl
      · cases read
        cases other <;> rfl
  | properties =>
      obtain ⟨given, _, read⟩ := bind_eq_ok_iff.mp read
      split at read
      · split at read <;> cases read
        cases other <;> rfl
      · cases read
        cases other <;> rfl

/-- The fields of a document are filled by entries that give a part, each part once. -/
theorem adds_fields : Adds Part.Reads Fields.held Fields.add := by
  constructor
  · intro fields entry next added
    rw [Fields.add_eq] at added
    obtain ⟨key, named, added⟩ := bind_eq_ok_iff.mp added
    split at added
    · cases added
    · next part found =>
        split at added
        · cases added
        · next vacant =>
            obtain ⟨content, read, rfl⟩ := map_eq_ok_iff.mp added
            exact ⟨part, content, ⟨⟨key, partOf?_eq_some_iff.mp found, named⟩, read⟩,
              Option.not_isSome_iff_eq_none.mp vacant, Fields.held_put read⟩
  · rintro fields part content entry ⟨⟨key, own, named⟩, read⟩ vacant
    refine ⟨fields.put part content, ?_, Fields.held_put read⟩
    rw [Fields.add_eq, named]
    show (match partOf? key with | none => _ | some part => _) = _
    rw [partOf?_eq_some_iff.mpr own]
    show (if (fields.held part).isSome then _ else _) = _
    rw [vacant, read]
    rfl

/-- Without entries, no part is held. -/
theorem Fields.held_empty (part : Part) : Fields.empty.held part = none := by
  cases part <;> rfl

/-- A key of a document means nothing but its own text. -/
theorem eq_string_of_mem_keys (own : key ∈ part.keys) {tag : Option Yaml.Tag} {plain : Bool}
    (means : Node.scalarValue? tag key plain = some value) : value = .string key := by
  have plainly : ∀ key ∈ knownKeys, Value.ofPlain? key = some (.string key) ∧
      Value.isNullText key = false ∧ Value.boolOf? key = none ∧
      Value.integerOf key.toList = .other ∧ Value.floatOf? key.toList = none := by
    decide +kernel
  have listed : ∀ key ∈ part.keys, key ∈ knownKeys := by cases part <;> decide
  obtain ⟨text, noNull, noBool, noInteger, noFloat⟩ := plainly key (listed key own)
  have untagged (means : Node.untaggedValue? key plain = some value) : value = .string key := by
    unfold Node.untaggedValue? at means
    split at means
    · exact Option.some.inj (means.symm.trans text)
    · exact (Option.some.inj means).symm
  unfold Node.scalarValue? at means
  split at means
  · exact untagged means
  · exact untagged means
  · rw [noNull] at means
    cases means
  · rw [noBool] at means
    cases means
  · rw [noInteger] at means
    cases means
  · rw [noFloat] at means
    cases means
  · exact (Option.some.inj means).symm

/-- A node of the wrong kind is always refused. -/
theorem wrongNode_ne_ok {α : Type} {expected : String} {result : α} :
    wrongNode node expected ≠ .ok result := by
  unfold wrongNode
  split <;> simp

/-- A key is read from a scalar, whatever its tag is. -/
theorem keyOf_eq_ok_iff :
    keyOf node = .ok key ↔ ∃ tag plain aliased, node = .scalar tag key plain aliased := by
  cases node with
  | scalar tag text plain aliased => simp [keyOf]
  | sequence | mapping => simp [keyOf, wrongNode_ne_ok]

/-- The text of a field is read from a scalar, whatever its tag is. -/
theorem fieldText_eq_ok_iff {named : Node} {text : String} :
    fieldText named node = .ok text ↔
      ∃ tag plain aliased, node = .scalar tag text plain aliased := by
  constructor
  · intro read
    unfold fieldText at read
    split at read
    · cases read
      exact ⟨_, _, _, rfl⟩
    · split at read
      · cases read
      · exact absurd read wrongNode_ne_ok
  · rintro ⟨tag, plain, aliased, rfl⟩
    rfl

/-- What has a value is given, or it is null. -/
theorem isGiven_cases (loaded : node.value? = some value) :
    isGiven node = .ok true ∨ isGiven node = .ok false ∧ value = .null := by
  unfold isGiven
  split
  · exact .inl rfl
  · next text aliased =>
      split
      · next null =>
          rw [Node.value?, Node.scalarValue?, if_pos null] at loaded
          cases loaded
          exact .inr ⟨rfl, rfl⟩
      · next noNull =>
          rw [Node.value?, Node.scalarValue?, if_neg noNull] at loaded
          cases loaded
  · exact .inl rfl
  · next text aliased =>
      rw [Node.value?, Node.scalarValue?, Node.untaggedValue?, if_pos rfl, Value.ofPlain?] at loaded
      cases empty : text.isEmpty <;> cases null : Value.isNullText text <;>
        simp_all [Node.underTag]
  · exact .inl rfl

/-- What is read from a node is what its value shows through local tags. -/
theorem shows_of_read {named : Node} (loaded : node.value? = some value)
    (read : part.read named node = .ok content) : part.Shows Value.untagged content value := by
  have scalar {text : String} (read : fieldText named node = .ok text) :
      MeansAs text value.untagged := by
    obtain ⟨tag, plain, aliased, rfl⟩ := fieldText_eq_ok_iff.mp read
    exact ⟨tag, plain, Node.scalarValue?_of_value? loaded⟩
  cases part with
  | typeName =>
      obtain ⟨text, written, rfl⟩ := map_eq_ok_iff.mp read
      exact .typeName (scalar written)
  | description =>
      obtain ⟨given, found, read⟩ := bind_eq_ok_iff.mp read
      rcases isGiven_cases loaded with yes | ⟨no, rfl⟩
      · cases yes.symm.trans found
        obtain ⟨text, written, rfl⟩ := map_eq_ok_iff.mp read
        exact .description (scalar written)
      · cases no.symm.trans found
        cases read
        exact .noDescription
  | properties =>
      obtain ⟨given, found, read⟩ := bind_eq_ok_iff.mp read
      rcases isGiven_cases loaded with yes | ⟨no, rfl⟩
      · cases yes.symm.trans found
        rw [if_pos rfl, loaded] at read
        cases read
        exact .properties
      · cases no.symm.trans found
        cases read
        exact .noProperties

/-- Entries of nodes are entries of what they mean. -/
theorem Part.Reads.enters {entry : Node × Node} {values : Value × Value}
    (reads : part.Reads content entry) (loaded : Node.HasValues entry values) :
    part.Enters Value.untagged content values := by
  obtain ⟨⟨key, own, named⟩, read⟩ := reads
  refine ⟨⟨key, own, ?_⟩, shows_of_read loaded.2 read⟩
  obtain ⟨tag, plain, aliased, same⟩ := keyOf_eq_ok_iff.mp named
  have first := loaded.1
  rw [same] at first
  exact eq_string_of_mem_keys own (Node.scalarValue?_of_value? first)

/-- A node that means a text, apart from local tags, is a key. -/
theorem keyOf_of_untagged (loaded : node.value? = some value)
    (keyed : value.untagged = .string key) : keyOf node = .ok key := by
  have bears := Node.bears_untagged loaded
  rw [keyed] at bears
  cases bears with
  | scalar means =>
      cases means
      rfl

/-- A node that means a scalar, apart from local tags, has a text. -/
theorem exists_fieldText {named : Node} {text : String} (loaded : node.value? = some value)
    (scalar : value.untagged.IsScalar text) : ∃ text, fieldText named node = .ok text := by
  have bears := Node.bears_untagged loaded
  generalize value.untagged = inner at scalar bears
  cases bears with
  | @scalar tag text plain aliased _ _ => exact ⟨text, rfl⟩
  | sequence | mapping => cases scalar

/-- A description that means a scalar is read, also where it means nothing. -/
theorem exists_read_description {named : Node} {text : String} (loaded : node.value? = some value)
    (scalar : value.untagged.IsScalar text) :
    ∃ given, Part.description.read named node = .ok given := by
  rcases isGiven_cases loaded with yes | ⟨no, _⟩
  · obtain ⟨text, written⟩ := @exists_fieldText _ _ named _ loaded scalar
    exact ⟨_, bind_eq_ok_iff.mpr ⟨true, yes, map_eq_ok_iff.mpr ⟨text, written, rfl⟩⟩⟩
  · exact ⟨_, bind_eq_ok_iff.mpr ⟨false, no, rfl⟩⟩

/-- A value that shows a part is read as that part. What is read for the properties shows the same
properties. -/
theorem Part.Shows.exists_read {named : Node} {drafts : List DraftProperty}
    (shows : part.Shows Value.untagged content value) (loaded : node.value? = some value)
    (shown : part = .properties →
      ShowsProperties Value.untagged drafts (content.bind PartContent.value?)) :
    ∃ given, part.read named node = .ok given ∧ (part = .properties →
      ShowsProperties Value.untagged drafts (given.bind PartContent.value?)) := by
  cases shows with
  | typeName means =>
      obtain ⟨tag, plain, means⟩ := means
      obtain ⟨text, written⟩ := exists_fieldText loaded (Node.isScalar_of_scalarValue? means)
      exact ⟨_, map_eq_ok_iff.mpr ⟨text, written, rfl⟩, by simp⟩
  | description means =>
      obtain ⟨tag, plain, means⟩ := means
      obtain ⟨given, read⟩ :=
        exists_read_description loaded (Node.isScalar_of_scalarValue? means)
      exact ⟨given, read, by simp⟩
  | noDescription =>
      have scalar : Value.IsScalar "" Value.null.untagged := .null
      obtain ⟨given, read⟩ := exists_read_description loaded scalar
      exact ⟨given, read, by simp⟩
  | properties =>
      rcases isGiven_cases loaded with yes | ⟨no, rfl⟩
      · refine ⟨some (.value value), bind_eq_ok_iff.mpr ⟨true, yes, ?_⟩, shown⟩
        rw [if_pos rfl, loaded]
      · refine ⟨none, bind_eq_ok_iff.mpr ⟨false, no, rfl⟩, fun same => ?_⟩
        cases shown same
        exact .missing
  | noProperties =>
      rcases isGiven_cases loaded with yes | ⟨no, _⟩
      · refine ⟨some (.value .null), bind_eq_ok_iff.mpr ⟨true, yes, ?_⟩, fun same => ?_⟩
        · rw [if_pos rfl, loaded]
        · cases shown same
          exact .null
      · exact ⟨none, bind_eq_ok_iff.mpr ⟨false, no, rfl⟩, shown⟩

/-- An entry whose value shows a part is read. What it gives for the properties shows the same
properties. -/
theorem Part.Enters.exists_reads {entry : Node × Node} {values : Value × Value}
    {drafts : List DraftProperty} (enters : part.Enters Value.untagged content values)
    (loaded : Node.HasValues entry values)
    (shown : part = .properties →
      ShowsProperties Value.untagged drafts (content.bind PartContent.value?)) :
    ∃ given, part.Reads given entry ∧ (part = .properties →
      ShowsProperties Value.untagged drafts (given.bind PartContent.value?)) := by
  obtain ⟨⟨key, own, keyed⟩, shows⟩ := enters
  obtain ⟨given, read, shown⟩ := shows.exists_read loaded.2 shown
  exact ⟨given, ⟨⟨key, own, keyOf_of_untagged loaded.1 keyed⟩, read⟩, shown⟩

end Nodes

section Documents

variable {draft : Draft} {node : Node} {value : Value}

/-- What is held for the parts of a document is what its draft is made of. -/
theorem Fields.join_held (fields : Fields) (part : Part) :
    (fields.held part).join =
      match part with
      | .typeName => fields.typeName.map .text
      | .description => fields.description.join.map .text
      | .properties => fields.properties.join.map .value := by
  rcases fields with ⟨_ | typeName, _ | description, _ | properties⟩ <;> cases part <;> rfl

/-- A draft is read when the fields of its document are, with a name among them and with properties
that can be read. -/
theorem draftOf_eq_ok_iff {node : Option Node} :
    draftOf node = .ok draft ↔ ∃ fields, fieldsOf node = .ok fields ∧
      fields.typeName = some draft.typeName ∧ fields.description.join = draft.description ∧
      propertiesOf fields.properties.join = .ok draft.properties := by
  refine bind_eq_ok_iff.trans (exists_congr fun fields => and_congr_right fun _ => ?_)
  cases fields.typeName with
  | none => exact iff_of_false nofun (by simp)
  | some typeName =>
      cases read : propertiesOf fields.properties.join with
      | error failure => simp [throw, throwThe, MonadExceptOf.throw]
      | ok properties =>
          constructor
          · intro same
            cases same
            exact ⟨rfl, rfl, rfl⟩
          · rintro ⟨named, described, listed⟩
            cases named
            cases listed
            rw [described]
            rfl

/-- A node with a type name is a mapping. -/
theorem exists_mapping_of_fieldsOf {fields : Fields} {typeName : String}
    (found : fieldsOf (some node) = .ok fields) (named : fields.typeName = some typeName) :
    ∃ tag entries, node = .mapping tag entries ∧ entries.foldlM Fields.add .empty = .ok fields := by
  cases node with
  | scalar tag text plain aliased =>
      unfold fieldsOf at found
      dsimp only at found
      split at found
      · cases found
        cases named
      · exact absurd found wrongNode_ne_ok
  | sequence tag items =>
      unfold fieldsOf at found
      exact absurd found wrongNode_ne_ok
  | mapping tag entries => exact ⟨tag, entries, rfl, found⟩

/-- A node that is read as a draft means a document of that draft. -/
theorem isDocument_of_draftOf (loaded : node.value? = some value)
    (read : draftOf (some node) = .ok draft) : IsDocument Value.untagged draft value := by
  obtain ⟨fields, found, typeName, description, properties⟩ := draftOf_eq_ok_iff.mp read
  obtain ⟨tag, entries, rfl, folded⟩ := exists_mapping_of_fieldsOf found typeName
  have gathers : Gathers Part.Reads (draft.contents fields.properties.join) entries := by
    refine (adds_fields.gathers_iff Fields.held_empty).mp ⟨fields, folded, fun part => ?_⟩
    rw [Fields.join_held, typeName, description]
    cases part <;> rfl
  have bears := Node.bears_untagged loaded
  generalize same : value.untagged = inner at bears
  cases bears with
  | @mapping _ _ values each =>
      exact ⟨values, fields.properties.join, same,
        gathers.trans each fun _ _ _ _ reads loaded => reads.enters loaded,
        propertiesOf_eq_ok_iff.mp properties⟩

/-- A node that means a document is read as a draft. -/
theorem exists_draftOf (loaded : node.value? = some value)
    (document : IsDocument Value.untagged draft value) :
    ∃ draft, draftOf (some node) = .ok draft := by
  obtain ⟨values, properties?, same, ⟨parts, distinct, outside, given⟩, shows⟩ := document
  have bears := Node.bears_untagged loaded
  rw [same] at bears
  cases bears with
  | scalar means => cases means
  | @mapping tag entries _ each =>
      have reads : List.Forall₂ (fun part entry => ∃ content, part.Reads content entry ∧
          (part = .properties → ShowsProperties Value.untagged draft.properties
            (content.bind PartContent.value?))) parts entries := by
        refine forall₂_trans (fun part values entry enters loaded => ?_) given each.flip
        refine Part.Enters.exists_reads enters loaded ?_
        rintro rfl
        cases properties? <;> exact shows
      obtain ⟨fields, folded, filled⟩ := exists_foldlM_of_fills
        (fun wanted slot => adds_fields.fills wanted.1 slot) distinct
        (fun part _ => Fields.held_empty part) reads
      have held (part : Part) (inside : part ∈ parts) : ∃ content entry,
          (fields.held part).join = content ∧ part.Reads content entry ∧ (part = .properties →
            ShowsProperties Value.untagged draft.properties (content.bind PartContent.value?)) := by
        obtain ⟨entry, _, content, own, wanted⟩ := exists_mem_of_forall₂ filled.each.flip inside
        exact ⟨content, entry, by rw [own, Option.join_some], wanted⟩
      obtain ⟨typeName, named⟩ : ∃ typeName, fields.typeName = some typeName := by
        have inside : .typeName ∈ parts := by
          by_contra missing
          cases outside .typeName missing
        obtain ⟨content, entry, own, reads, _⟩ := held .typeName inside
        obtain ⟨text, _, rfl⟩ := map_eq_ok_iff.mp reads.2
        rw [Fields.join_held] at own
        obtain ⟨typeName, named, _⟩ := Option.map_eq_some_iff.mp own
        exact ⟨typeName, named⟩
      have listed : ShowsProperties Value.untagged draft.properties fields.properties.join := by
        by_cases inside : .properties ∈ parts
        · obtain ⟨content, entry, own, _, shown⟩ := held .properties inside
          rw [Fields.join_held] at own
          have shown := shown rfl
          rw [← own] at shown
          cases properties : fields.properties.join with
          | none => simpa [properties] using shown
          | some value => simpa [properties, PartContent.value?] using shown
        · have empty := Fields.join_held fields .properties
          rw [filled.frame .properties inside, Fields.held_empty] at empty
          rw [Option.map_eq_none_iff.mp empty.symm]
          have none := Option.map_eq_none_iff.mp (outside .properties inside)
          exact none ▸ shows
      exact ⟨⟨typeName, fields.description.join, draft.properties⟩, draftOf_eq_ok_iff.mpr
        ⟨fields, folded, named, rfl, propertiesOf_eq_ok_iff.mpr listed⟩⟩

end Documents

end SchemaBeans.SchemaDocument

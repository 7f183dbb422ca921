import SchemaBeans.Proofs.DocumentShapes

/-!
# Accepted documents

A text is refused for its shape unless it means a document, seen through its local tags.
Without local tags, what is accepted is a document as it stands.
-/

namespace SchemaBeans

open Yaml (Node Value)

namespace Yaml.Value

mutual

/-- Whether a value has no local tags, neither at the top nor inside. -/
def isBare : Value → Bool
  | sequence items => areBare items
  | mapping entries => areBareEntries entries
  | tagged _ _ => false
  | _ => true

/-- Whether the items of a sequence have no local tags. -/
def areBare : List Value → Bool
  | [] => true
  | item :: items => isBare item && areBare items

/-- Whether the entries of a mapping have no local tags. -/
def areBareEntries : List (Value × Value) → Bool
  | [] => true
  | (key, value) :: entries => isBare key && isBare value && areBareEntries entries

end

/-- A sequence has no local tags when none of its items has one. -/
theorem areBare_iff {items : List Value} :
    areBare items = true ↔ ∀ item ∈ items, item.isBare = true := by
  induction items with
  | nil => simp [areBare]
  | cons item items hypothesis => simp [areBare, hypothesis]

/-- A mapping has no local tags when none of its keys and values has one. -/
theorem areBareEntries_iff {entries : List (Value × Value)} :
    areBareEntries entries = true ↔
      ∀ entry ∈ entries, entry.1.isBare = true ∧ entry.2.isBare = true := by
  induction entries with
  | nil => simp [areBareEntries]
  | cons entry entries hypothesis => simp [areBareEntries, hypothesis, and_assoc]

/-- Where no local tag is, there is none to see through. -/
theorem untagged_of_isBare {value : Value} (bare : value.isBare = true) :
    value.untagged = value := by
  cases value with
  | tagged tag inner => cases bare
  | _ => rfl

end Yaml.Value

namespace SchemaDocument

section Bare

variable {draft : DraftProperty} {drafts : List DraftProperty} {known : List TableField}
  {value : Value} {entries : List (Value × Value)}

/-- A table of a property without local tags is one as it stands. -/
theorem IsTable.of_isBare (table : IsTable Value.untagged known draft entries)
    (bare : Value.areBareEntries entries = true) : IsTable id known draft entries := by
  have each : List.Forall₂ (fun entry other => entry = other ∧ entry.1.isBare = true ∧
      entry.2.isBare = true) entries entries :=
    List.forall₂_same.mpr fun entry inside => ⟨rfl, Value.areBareEntries_iff.mp bare entry inside⟩
  refine table.trans each ?_
  rintro field text? ⟨key, value⟩ _ ⟨inside, named, shows⟩ ⟨rfl, bareKey, bareValue⟩
  rw [Value.untagged_of_isBare bareKey] at named
  refine ⟨inside, named, ?_⟩
  cases shows with
  | text shown => exact .text (Value.untagged_of_isBare bareValue ▸ shown)
  | nothing described => exact .nothing described

/-- An item of a sequence without local tags shows its property as it stands. -/
theorem ShowsItem.of_isBare (shows : ShowsItem Value.untagged draft value)
    (bare : value.isBare = true) : ShowsItem id draft value := by
  obtain ⟨mapping, table⟩ := shows
  rw [Value.untagged_of_isBare bare] at mapping
  subst mapping
  exact .table rfl (table.of_isBare bare)

/-- An entry of a mapping of properties whose value has no local tags shows its property as it
stands. -/
theorem ShowsEntry.of_isBare {entry : Value × Value} (shows : ShowsEntry Value.untagged draft entry)
    (bare : entry.2.isBare = true) : ShowsEntry id draft entry := by
  cases shows with
  | type single => exact .type single
  | table table => exact .table (table.of_isBare bare)

/-- Properties without local tags are shown as they stand, in all four forms. -/
theorem ShowsProperties.of_isBare {properties? : Option Value}
    (shows : ShowsProperties Value.untagged drafts properties?)
    (bare : ∀ value ∈ properties?, value.isBare = true) :
    ShowsProperties id drafts properties? := by
  cases shows with
  | missing => exact .missing
  | null => exact .null
  | @sequence drafts items each =>
      have bare := Value.areBare_iff.mp (bare _ rfl)
      have plain : List.Forall₂ (fun item other => item = other ∧ item.isBare = true) items items :=
        List.forall₂_same.mpr fun item inside => ⟨rfl, bare item inside⟩
      refine .sequence (forall₂_trans ?_ each plain)
      rintro draft item _ shows ⟨rfl, bare⟩
      exact shows.of_isBare bare
  | @mapping drafts entries each =>
      have bare := Value.areBareEntries_iff.mp (bare _ rfl)
      have plain : List.Forall₂ (fun entry other => entry = other ∧ entry.2.isBare = true)
          entries entries := List.forall₂_same.mpr fun entry inside => ⟨rfl, (bare entry inside).2⟩
      refine .mapping (forall₂_trans ?_ each plain)
      rintro draft entry _ shows ⟨rfl, bare⟩
      exact shows.of_isBare bare

/-- Without local tags, a document is one as it stands. -/
theorem IsDocument.of_isBare {draft : Draft} (document : IsDocument Value.untagged draft value)
    (bare : value.isBare = true) : IsDocument id draft value := by
  obtain ⟨entries, properties?, mapping, gathers, shows⟩ := document
  rw [Value.untagged_of_isBare bare] at mapping
  subst mapping
  have each := Value.areBareEntries_iff.mp bare
  have inner (value : Value) (own : value ∈ properties?) : value.isBare = true := by
    cases own
    obtain ⟨parts, _, outside, given⟩ := gathers
    have inside : .properties ∈ parts := by
      by_contra missing
      cases outside .properties missing
    obtain ⟨⟨key, content⟩, listed, enters⟩ := exists_mem_of_forall₂ given.flip inside
    cases enters.2
    exact (each _ listed).2
  refine ⟨entries, properties?, rfl, ?_, shows.of_isBare inner⟩
  have stands : List.Forall₂ (fun entry other => entry = other ∧ entry.1.isBare = true ∧
      entry.2.isBare = true) entries entries :=
    List.forall₂_same.mpr fun entry inside => ⟨rfl, each entry inside⟩
  refine gathers.trans stands ?_
  rintro part content ⟨name, value⟩ _ ⟨⟨key, own, named⟩, shows⟩ ⟨rfl, bareName, bareValue⟩
  rw [Value.untagged_of_isBare bareName] at named
  refine ⟨⟨key, own, named⟩, ?_⟩
  cases shows with
  | typeName scalar => exact .typeName (Value.untagged_of_isBare bareValue ▸ scalar)
  | description scalar => exact .description (Value.untagged_of_isBare bareValue ▸ scalar)
  | noDescription => exact .noDescription
  | properties => exact .properties
  | noProperties => exact .noProperties

end Bare

/-- A document is accepted when it is read as a model or refused for one of its types. -/
inductive IsAccepted : Except DocumentError Model → Prop where
  | model (model : Model) : IsAccepted (.ok model)
  | invalidType (property : String) (error : TypeError) :
      IsAccepted (.error (.invalidType property error))

/-- What is read as a model is accepted. -/
theorem isAccepted_of_isOk {outcome : Except DocumentError Model} (read : outcome.isOk = true) :
    IsAccepted outcome := by
  cases outcome with
  | ok model => exact .model model
  | error failure => cases read

section Syntax

variable {α β : Type}

/-- A reading that is never refused for a type. -/
def ReadsShape (outcome : Except DocumentError α) : Prop :=
  ∀ property error, outcome ≠ .error (.invalidType property error)

theorem readsShape_ok (value : α) : ReadsShape (.ok value) := nofun

theorem readsShape_shape (error : ShapeError) : ReadsShape (.error (.shape error) : Except _ α) :=
  nofun

theorem readsShape_malformed : ReadsShape (.error .malformed : Except _ α) := nofun

/-- What is read in two steps is refused for its shape only if both steps are. -/
theorem ReadsShape.bind {outcome : Except DocumentError α} {next : α → Except DocumentError β}
    (first : ReadsShape outcome) (rest : ∀ value, ReadsShape (next value)) :
    ReadsShape (outcome.bind next) := by
  intro property error failed
  cases outcome with
  | error failure =>
      cases failed
      exact first property error rfl
  | ok value => exact rest value property error failed

/-- What becomes of a reading does not matter to the reasons for which it is refused. -/
theorem ReadsShape.map {outcome : Except DocumentError α} (first : ReadsShape outcome)
    (next : α → β) : ReadsShape (outcome.map next) := by
  intro property error failed
  cases outcome with
  | error failure =>
      cases failed
      exact first property error rfl
  | ok value => cases failed

/-- Entries that are read one after the other are refused for their shape only if each is. -/
theorem ReadsShape.foldlM {add : β → α → Except DocumentError β}
    (step : ∀ record entry, ReadsShape (add record entry)) (entries : List α) (record : β) :
    ReadsShape (entries.foldlM add record) := by
  induction entries generalizing record with
  | nil => exact readsShape_ok record
  | cons entry entries hypothesis =>
      rw [List.foldlM_cons]
      exact (step record entry).bind hypothesis

/-- A node of the wrong kind is a matter of shape, also where it cannot be shown. -/
theorem readsShape_wrongNode (node : Node) (expected : String) :
    ReadsShape (wrongNode node expected : Except _ α) := by
  unfold wrongNode shownNode
  split
  · exact readsShape_shape _
  · next failed =>
      split at failed
      · split at failed <;> cases failed
        exact readsShape_malformed
      · cases failed
      · cases failed

/-- A key is refused for its shape only. -/
theorem readsShape_keyOf (node : Node) : ReadsShape (keyOf node) := by
  unfold keyOf
  split
  · exact readsShape_ok _
  · exact readsShape_wrongNode _ _

/-- The text of a field is refused for its shape only. -/
theorem readsShape_fieldText (key node : Node) : ReadsShape (fieldText key node) := by
  unfold fieldText
  split
  · exact readsShape_ok _
  · split
    · exact readsShape_shape _
    · exact readsShape_wrongNode _ _

/-- Whether a node is given is a matter of shape. -/
theorem readsShape_isGiven (node : Node) : ReadsShape (isGiven node) := by
  unfold isGiven
  split
  · exact readsShape_ok _
  · split
    · exact readsShape_ok _
    · exact readsShape_malformed
  · exact readsShape_ok _
  · exact readsShape_ok _
  · exact readsShape_ok _

/-- Each part of a document is read without a look at the types in it. -/
theorem readsShape_read (part : Part) (key node : Node) : ReadsShape (part.read key node) := by
  cases part with
  | typeName => exact (readsShape_fieldText key node).map _
  | description =>
      refine (readsShape_isGiven node).bind fun given => ?_
      split
      · exact (readsShape_fieldText key node).map _
      · exact readsShape_ok _
  | properties =>
      refine (readsShape_isGiven node).bind fun given => ?_
      split
      · split
        · exact readsShape_ok _
        · exact readsShape_malformed
      · exact readsShape_ok _

/-- An entry of a document is refused for its shape only, also one that repeats a part. -/
theorem readsShape_add (fields : Fields) (entry : Node × Node) : ReadsShape (fields.add entry) := by
  rw [Fields.add_eq]
  refine (readsShape_keyOf entry.1).bind fun key => ?_
  split
  · exact readsShape_shape _
  · split
    · exact readsShape_shape _
    · exact (readsShape_read _ _ _).map _

/-- The shape of a document is read before any type. -/
theorem readsShape_draftOf (node : Option Node) : ReadsShape (draftOf node) := by
  have fields : ReadsShape (fieldsOf node) := by
    unfold fieldsOf
    split
    · exact readsShape_ok _
    · exact ReadsShape.foldlM readsShape_add _ _
    · split
      · exact readsShape_ok _
      · exact readsShape_wrongNode _ _
    · exact readsShape_wrongNode _ _
  refine fields.bind fun fields => ?_
  split
  · exact readsShape_shape _
  · split
    · exact readsShape_ok _
    · exact readsShape_shape _

end Syntax

variable {file : SchemaFile} {text : String} {value : Value}

/-- A draft is read as its model or refused for a type, and accepted either way. -/
theorem Reads.isAccepted {draft : Draft} {outcome : Except DocumentError Model}
    (reads : Reads file draft outcome) : IsAccepted outcome := by
  cases reads with
  | model => exact .model _
  | invalidType => exact .invalidType _ _

/-- A text is accepted exactly when it is read as a draft. -/
theorem isAccepted_iff {node : Option Node} (found : Node.ofText? text = some node) :
    IsAccepted (parse file text) ↔ ∃ draft, draftOf node = .ok draft := by
  cases read : draftOf node with
  | ok draft =>
      refine iff_of_true ?_ ⟨draft, rfl⟩
      rw [parse_of_draftOf found read]
      exact (reads_modelOf file draft).isAccepted
  | error failure =>
      refine iff_of_false ?_ (by simp)
      have shape := readsShape_draftOf node
      rw [read] at shape
      unfold parse
      rw [found]
      dsimp only
      rw [read]
      cases failure with
      | malformed => exact nofun
      | shape error =>
          show ¬ IsAccepted (.error (if hasValue node then .shape error else .malformed))
          split <;> exact nofun
      | invalidType property error => exact absurd rfl (shape property error)

/-- What is accepted of the texts that have a value is exactly the documents, seen through their
local tags, and a document is read as the model of its draft or refused for a type. Where no local
tag is, the document has the shape as it stands. -/
theorem accepted_iff (file : SchemaFile) (loaded : valueOf? text = some value) :
    (IsAccepted (parse file text) ↔ ∃ draft, IsDocument Value.untagged draft value) ∧
      (IsAccepted (parse file text) → ∃ draft, Reads file draft (parse file text) ∧
        IsDocument Value.untagged draft value ∧
        (value.isBare = true → IsDocument id draft value)) := by
  obtain ⟨node, joined, read⟩ := Option.bind_eq_some_iff.mp loaded
  have found := Option.join_eq_some_iff.mp joined
  have accepted : IsAccepted (parse file text) ↔ ∃ draft, draftOf node = .ok draft :=
    isAccepted_iff found
  constructor
  · rw [accepted]
    constructor
    · rintro ⟨draft, drafted⟩
      exact ⟨draft, isDocument_of_draftOf read drafted⟩
    · rintro ⟨draft, document⟩
      exact exists_draftOf read document
  · rintro taken
    obtain ⟨draft, drafted⟩ := accepted.mp taken
    have document := isDocument_of_draftOf read drafted
    refine ⟨draft, ?_, document, document.of_isBare⟩
    rw [parse_of_draftOf found drafted]
    exact reads_modelOf file draft

/-- The mapping of the labelled item is accepted, and it has no local tags that would have to be
seen through. -/
theorem labelledItem_accepted :
    IsAccepted (parse labelledItemFile labelledItemMapping) ∧
      ∃ value draft, valueOf? labelledItemMapping = some value ∧ value.isBare = true ∧
        Reads labelledItemFile draft (parse labelledItemFile labelledItemMapping) ∧
        IsDocument id draft value := by
  have taken : IsAccepted (parse labelledItemFile labelledItemMapping) := by
    rw [parse_eq_modelOf loads_labelledItemMapping]
    exact (reads_modelOf labelledItemFile labelledItem).isAccepted
  obtain ⟨draft, reads, _, document⟩ :=
    (accepted_iff labelledItemFile valueOf?_labelledItemMapping).2 taken
  have bare : (Value.mapping
    [(.string "properties", .mapping
        [(.string "sku", .string "string"),
          (.string "tags", .mapping [(.string "type", .string "list<string>"),
            (.string "description", .string "Labels")])]),
      (.string "name", .string "Item")]).isBare = true := by decide
  exact ⟨taken, _, draft, valueOf?_labelledItemMapping, bare, reads, document bare⟩

/-- An item whose property is under a local tag. -/
def taggedItem : String :=
  "typeName: Item\n" ++
  "properties:\n" ++
  "- !x \x7bname: sku, type: string\x7d\n"

/-- The local tag stays in the value of the item that is under one. -/
theorem valueOf?_taggedItem : valueOf? taggedItem = some (.mapping
    [(.string "typeName", .string "Item"),
      (.string "properties", .sequence [.tagged "x"
        (.mapping [(.string "name", .string "sku"), (.string "type", .string "string")])])]) := by
  decide +kernel

/-- A table under a local tag is taken for a property in a sequence. -/
theorem tagged_item_accepted :
    ¬ ∀ (file : SchemaFile) (text : String) (value : Value), valueOf? text = some value →
      IsAccepted (parse file text) →
      ∃ draft, Reads file draft (parse file text) ∧ IsDocument id draft value := by
  intro always
  have taken : IsAccepted (parse labelledItemFile taggedItem) :=
    isAccepted_of_isOk (by decide +kernel)
  obtain ⟨draft, _, entries, properties?, mapping, ⟨parts, _, _, each⟩, shows⟩ :=
    always labelledItemFile taggedItem _ valueOf?_taggedItem taken
  cases mapping
  obtain _ | @⟨_, _, parts, _, _, each⟩ := each
  obtain _ | @⟨part, _, _, _, ⟨⟨key, own, named⟩, content⟩, _⟩ := each
  cases named
  cases part with
  | typeName | description => exact absurd own (by decide)
  | properties =>
      generalize same : draft.contents properties? .properties = given at content
      cases content
      obtain ⟨value, rfl, inner⟩ := Option.map_eq_some_iff.mp same
      cases inner
      generalize draft.properties = drafts at shows
      obtain _ | _ | ⟨_ | ⟨⟨mapping, _⟩, _⟩⟩ := shows
      cases mapping

end SchemaDocument

end SchemaBeans

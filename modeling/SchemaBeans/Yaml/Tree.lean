import SchemaBeans.Yaml.Token.Lexer

/-!
# Documents as trees

The tokens of a text describe at most one document that is used: a tree of
scalars, sequences and mappings, with aliases still standing for what they name.
An anchor is known by a number, the count of distinct anchor names before it.
-/

namespace SchemaBeans.Yaml

/-- A node as it is written. -/
inductive Tree where
  | reference (number : Nat)
  | scalar (anchor : Option Nat) (tag : Option Tag) (text : String) (plain : Bool)
  | sequence (anchor : Option Nat) (tag : Option Tag) (items : List Tree)
  | mapping (anchor : Option Nat) (tag : Option Tag) (entries : List (Tree × Tree))
  deriving Repr

namespace Tree

/-- The scalar that stands where nothing is written. -/
def absent : Tree := .scalar none none "" true

/-- The number of the anchor of a node. -/
def anchor? : Tree → Option Nat
  | reference _ => none
  | scalar anchor _ _ _ => anchor
  | sequence anchor _ _ => anchor
  | mapping anchor _ _ => anchor

/-- A node under the number of its anchor. -/
def named (tree : Tree) : List (Nat × Tree) :=
  match tree.anchor? with
  | some number => [(number, tree)]
  | none => []

mutual

/-- The nodes with anchors, in the order in which they start. -/
def anchored : Tree → List (Nat × Tree)
  | reference _ => []
  | scalar anchor tag text plain => (scalar anchor tag text plain).named
  | sequence anchor tag items => (sequence anchor tag items).named ++ anchoredItems items
  | mapping anchor tag entries => (mapping anchor tag entries).named ++ anchoredEntries entries

/-- The nodes with anchors among the items of a sequence. -/
def anchoredItems : List Tree → List (Nat × Tree)
  | [] => []
  | item :: items => anchored item ++ anchoredItems items

/-- The nodes with anchors among the entries of a mapping. -/
def anchoredEntries : List (Tree × Tree) → List (Nat × Tree)
  | [] => []
  | (key, value) :: entries => anchored key ++ anchored value ++ anchoredEntries entries

end

mutual

/-- The number of events of a node: one for a scalar or alias, and a start and an end for a
collection. -/
def events : Tree → Nat
  | reference _ => 1
  | scalar _ _ _ _ => 1
  | sequence _ _ items => 2 + eventsOfItems items
  | mapping _ _ entries => 2 + eventsOfEntries entries

/-- The number of events of the items of a sequence. -/
def eventsOfItems : List Tree → Nat
  | [] => 0
  | item :: items => events item + eventsOfItems items

/-- The number of events of the entries of a mapping. -/
def eventsOfEntries : List (Tree × Tree) → Nat
  | [] => 0
  | (key, value) :: entries => events key + events value + eventsOfEntries entries

end

end Tree

/-- What is left of a document and the anchors defined so far. -/
structure Outline where
  tokens : List Token
  /-- The defined names with their numbers, each name once. -/
  anchors : List (String × Nat)

/-- A step that reads from an outline, unless it is malformed. -/
abbrev Reading (α : Type) := StateT Outline Option α

namespace Reading

/-- The next token. -/
def peek : Reading (Option Token) := do return (← get).tokens.head?

/-- Drops the next token. -/
def drop : Reading Unit := modify fun outline => { outline with tokens := outline.tokens.drop 1 }

/-- Drops the next token if it is the given one, and tells whether it was. -/
def accept (token : Token) : Reading Bool := do
  if (← peek) = some token then
    drop
    return true
  else return false

/-- Drops the given token, which must be the next. -/
def expect (token : Token) : Reading Unit := do
  if !(← accept token) then failure

/-- Whether the next token is one of the given ones. -/
def nextIn (tokens : List Token) : Reading Bool := do
  match ← peek with
  | some token => return tokens.contains token
  | none => return false

/-- Defines an anchor; its number is the count of distinct names so far. -/
def define (name : String) : Reading Nat := do
  let number := (← get).anchors.length
  modify fun outline =>
    { outline with
      anchors := (name, number) :: outline.anchors.filter fun known => known.1 ≠ name }
  return number

/-- The number of a defined anchor. -/
def number (name : String) : Reading Nat := do
  match (← get).anchors.lookup name with
  | some number => return number
  | none => failure

/-- The anchor and the tag before a node, in either order. -/
def properties : Reading (Option String × Option (String × TagText)) := do
  match ← peek with
  | some (.anchor name) =>
      drop
      match ← peek with
      | some (.tag handle suffix) =>
          drop
          return (some name, some (handle, suffix))
      | _ => return (some name, none)
  | some (.tag handle suffix) =>
      drop
      match ← peek with
      | some (.anchor name) =>
          drop
          return (some name, some (handle, suffix))
      | _ => return (none, some (handle, suffix))
  | _ => return (none, none)

end Reading

/-- What the tag handles of a document stand for. -/
abbrev Handles := List (String × TagText)

/-- The handles that every document has unless it defines them itself. -/
def defaultHandles : Handles := [("!", [some '!']), ("!!", TagText.ofString Tag.basicSpace)]

/-- The tag of a handle and a suffix. -/
def Handles.tag? (handles : Handles) : String × TagText → Option Tag
  | ("", suffix) => some (.ofText suffix)
  | (handle, suffix) => (handles.lookup handle).map fun expansion => .ofText (expansion ++ suffix)

/-- Defines an anchor if there is one. -/
def Reading.defineAll (anchor : Option String) : Reading (Option Nat) := do
  match anchor with
  | some name => return some (← Reading.define name)
  | none => return none

mutual

/-- A node. In a block it may be a block collection, and after a key also a sequence that is not
indented deeper. -/
def readNode (handles : Handles) : Nat → Bool → Bool → Reading Tree
  | 0, _, _ => failure
  | fuel + 1, block, afterKey => do
      if let some (.reference name) ← Reading.peek then
        Reading.drop
        return .reference (← Reading.number name)
      let (anchorName, tagParts) ← Reading.properties
      let tag ← match tagParts with
        | some parts =>
            match handles.tag? parts with
            | some tag => pure (some tag)
            | none => failure
        | none => pure none
      match ← Reading.peek with
      | some .blockEntry =>
          if afterKey then
            let anchor ← Reading.defineAll anchorName
            return .sequence anchor tag (← readHangingItems handles fuel)
          else emptyNode anchorName tag
      | some (.scalar text plain) =>
          Reading.drop
          let anchor ← Reading.defineAll anchorName
          return .scalar anchor tag text plain
      | some .flowSequence =>
          Reading.drop
          let anchor ← Reading.defineAll anchorName
          return .sequence anchor tag (← readFlowItems handles fuel true)
      | some .flowMapping =>
          Reading.drop
          let anchor ← Reading.defineAll anchorName
          return .mapping anchor tag (← readFlowEntries handles fuel true)
      | some .blockSequence =>
          if block then
            Reading.drop
            let anchor ← Reading.defineAll anchorName
            return .sequence anchor tag (← readBlockItems handles fuel)
          else emptyNode anchorName tag
      | some .blockMapping =>
          if block then
            Reading.drop
            let anchor ← Reading.defineAll anchorName
            return .mapping anchor tag (← readBlockEntries handles fuel)
          else emptyNode anchorName tag
      | _ => emptyNode anchorName tag
where
  /-- The node of an anchor or a tag with nothing after it. -/
  emptyNode (anchorName : Option String) (tag : Option Tag) : Reading Tree := do
    if anchorName.isNone && tag.isNone then failure
    return .scalar (← Reading.defineAll anchorName) tag "" true

/-- A node in a block, or nothing before one of the given tokens. -/
def readBlockNode (handles : Handles) : Nat → Bool → List Token → Reading Tree
  | 0, _, _ => failure
  | fuel + 1, afterKey, stops => do
      if ← Reading.nextIn stops then return .absent
      readNode handles fuel true afterKey

/-- A node in a flow collection, or nothing before one of the given tokens. -/
def readFlowNode (handles : Handles) : Nat → List Token → Reading Tree
  | 0, _ => failure
  | fuel + 1, stops => do
      if ← Reading.nextIn stops then return .absent
      readNode handles fuel false false

/-- The items of a block sequence, with its end. -/
def readBlockItems (handles : Handles) : Nat → Reading (List Tree)
  | 0 => failure
  | fuel + 1 => do
      if ← Reading.accept .blockEnd then return []
      Reading.expect .blockEntry
      let item ← readBlockNode handles fuel false [.blockEntry, .blockEnd]
      return item :: (← readBlockItems handles fuel)

/-- The items of a sequence that is indented like the mapping around it. -/
def readHangingItems (handles : Handles) : Nat → Reading (List Tree)
  | 0 => failure
  | fuel + 1 => do
      if ← Reading.accept .blockEntry then
        let item ← readBlockNode handles fuel false [.blockEntry, .key, .value, .blockEnd]
        return item :: (← readHangingItems handles fuel)
      else return []

/-- The entries of a block mapping, with its end. -/
def readBlockEntries (handles : Handles) : Nat → Reading (List (Tree × Tree))
  | 0 => failure
  | fuel + 1 => do
      if ← Reading.accept .blockEnd then return []
      Reading.expect .key
      let key ← readBlockNode handles fuel true [.key, .value, .blockEnd]
      let value ←
        if ← Reading.accept .value then
          readBlockNode handles fuel true [.key, .value, .blockEnd]
        else pure .absent
      return (key, value) :: (← readBlockEntries handles fuel)

/-- The items of a flow sequence, with its end. An item may be a single entry of a mapping; where
such an entry has no key, the token after its mark is passed over. -/
def readFlowItems (handles : Handles) : Nat → Bool → Reading (List Tree)
  | 0, _ => failure
  | fuel + 1, first => do
      if ← Reading.accept .flowSequenceEnd then return []
      if !first then
        Reading.expect .flowEntry
      if ← Reading.accept .flowSequenceEnd then return []
      let item ←
        if ← Reading.accept .key then
          let key ←
            if ← Reading.nextIn [.value, .flowEntry, .flowSequenceEnd] then
              Reading.drop
              pure .absent
            else readNode handles fuel false false
          let value ←
            if ← Reading.accept .value then
              readFlowNode handles fuel [.flowEntry, .flowSequenceEnd]
            else pure .absent
          pure (.mapping none none [(key, value)])
        else readNode handles fuel false false
      return item :: (← readFlowItems handles fuel false)

/-- The entries of a flow mapping, with its end. -/
def readFlowEntries (handles : Handles) : Nat → Bool → Reading (List (Tree × Tree))
  | 0, _ => failure
  | fuel + 1, first => do
      if ← Reading.accept .flowMappingEnd then return []
      if !first then
        Reading.expect .flowEntry
      if ← Reading.accept .flowMappingEnd then return []
      let entry ←
        if ← Reading.accept .key then
          let key ← readFlowNode handles fuel [.value, .flowEntry, .flowMappingEnd]
          let value ←
            if ← Reading.accept .value then
              readFlowNode handles fuel [.flowEntry, .flowMappingEnd]
            else pure .absent
          pure (key, value)
        else
          let key ← readNode handles fuel false false
          pure (key, .absent)
      return entry :: (← readFlowEntries handles fuel false)

end

/-- The directives of a document, with its start. Returns the handles that it defines. -/
def readDirectives : Nat → Bool → Handles → Reading Handles
  | 0, _, _ => failure
  | fuel + 1, versionSeen, handles => do
      match ← Reading.peek with
      | some (.version major minor) =>
          if versionSeen || major ≠ 1 || (minor ≠ 1 && minor ≠ 2) then failure
          Reading.drop
          readDirectives fuel true handles
      | some (.tagHandle handle expansion) =>
          if (handles.lookup handle).isSome then failure
          Reading.drop
          readDirectives fuel versionSeen (handles ++ [(handle, expansion)])
      | some .documentStart =>
          Reading.drop
          return handles
      | _ => failure

/-- Whether a token belongs to the frame of documents and not to their content. -/
def Token.isFrame : Token → Bool
  | version _ _ => true
  | tagHandle _ _ => true
  | documentStart => true
  | documentEnd => true
  | _ => false

/-- The root of the document that comes next. -/
def readDocument : Reading Tree := do
  let bound := 4 * (← get).tokens.length + 4
  let explicit := match ← Reading.peek with
    | some (.version _ _) => true
    | some (.tagHandle _ _) => true
    | some .documentStart => true
    | _ => false
  if explicit then
    let handles ← readDirectives bound false []
    match ← Reading.peek with
    | none => return .absent
    | some token =>
        if token.isFrame then return .absent
        else readNode (handles ++ defaultHandles) bound true false
  else readNode defaultHandles bound true false

/-- The document of a text, if the text holds just one. The outer option tells whether the text is
well formed, the inner one whether it holds a document. -/
def Tree.ofText? (text : String) : Option (Option Tree) :=
  match Token.ofText? text with
  | none => none
  | some [] => some none
  | some tokens =>
      match readDocument.run ⟨tokens, []⟩ with
      | some (tree, outline) =>
          if outline.tokens.all (· = .documentEnd) then some (some tree) else none
      | none => none

end SchemaBeans.Yaml

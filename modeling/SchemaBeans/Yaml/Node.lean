import SchemaBeans.Yaml.Tree
import SchemaBeans.Yaml.Value

/-!
# Nodes without aliases

Every alias of a document is replaced by what it names, up to a depth of nesting
and a number of replacements. A node then has a value, unless a mapping repeats
a key, a number does not fit or a scalar contradicts its tag.
-/

namespace SchemaBeans.Yaml

/-- A node with every alias replaced. -/
inductive Node where
  /-- A scalar; `aliased` tells whether it was reached through an alias. -/
  | scalar (tag : Option Tag) (text : String) (plain aliased : Bool)
  | sequence (tag : Option Tag) (items : List Node)
  | mapping (tag : Option Tag) (entries : List (Node × Node))
  deriving Repr

namespace Node

/-- Collections may be nested this deep. -/
def nestingLimit : Nat := 128

/-- An alias may be followed this many times for each event of a document. -/
def aliasesPerEvent : Nat := 100

/-- A step that follows aliases and counts down how many more may be followed. -/
abbrev Following (α : Type) := StateT Nat Option α

/-- The node that an alias names; the last one of its number, if there are several. -/
def target? (anchors : List (Nat × Tree)) (number : Nat) : Option Tree :=
  anchors.reverse.lookup number

/-- A node or what it is an alias of, and whether it is one. -/
def follow (anchors : List (Nat × Tree)) (tree : Tree) : Following (Tree × Bool) := do
  match tree with
  | .reference number =>
      match ← get, target? anchors number with
      | left + 1, some target =>
          set left
          return (target, true)
      | _, _ => failure
  | tree => return (tree, false)

/-- Replaces the aliases in a node whose collections may be nested up to a depth. -/
def expand (anchors : List (Nat × Tree)) : Nat → Tree → Following Node
  | 0, tree => do
      match ← follow anchors tree with
      | (.scalar _ tag text plain, aliased) => return scalar tag text plain aliased
      | _ => failure
  | depth + 1, tree => do
      match ← follow anchors tree with
      | (.scalar _ tag text plain, aliased) => return scalar tag text plain aliased
      | (.sequence _ tag items, _) => return sequence tag (← items.mapM (expand anchors depth))
      | (.mapping _ tag entries, _) =>
          return mapping tag (← entries.mapM fun entry => do
            return (← expand anchors depth entry.1, ← expand anchors depth entry.2))
      | (.reference _, _) => failure

/-- The node of a tree. -/
def ofTree? (tree : Tree) : Option Node :=
  ((expand tree.anchored nestingLimit tree).run (aliasesPerEvent * tree.events)).map Prod.fst

/-- The node of a text that holds at most one document; a text without one has none. -/
def ofText? (text : String) : Option (Option Node) :=
  match Tree.ofText? text with
  | none => none
  | some none => some none
  | some (some tree) => (ofTree? tree).map some

/-- The value of a scalar under no tag. -/
def untaggedValue? (text : String) (plain : Bool) : Option Value :=
  if plain then Value.ofPlain? text else some (.string text)

/-- The value of a scalar apart from the name of a local tag. A tag of a basic kind must fit the
text, a local tag says nothing about it, and any other tag makes it text. -/
def scalarValue? (tag : Option Tag) (text : String) (plain : Bool) : Option Value :=
  match tag with
  | none => untaggedValue? text plain
  | some (.own _) => untaggedValue? text plain
  | some .null => if Value.isNullText text then some .null else none
  | some .bool => (Value.boolOf? text).map .bool
  | some .int =>
      match Value.integerOf text.toList with
      | .number value => some (.int value)
      | _ => none
  | some .float => (Value.floatOf? text.toList).map .float
  | some .other => some (.string text)

/-- A value under the name of its node's local tag. -/
def underTag (tag : Option Tag) (value : Value) : Value :=
  match tag with
  | some (.own (some name)) => .tagged name value
  | _ => value

mutual

/-- The value of a node. -/
def value? : Node → Option Value
  | scalar tag text plain _ => (scalarValue? tag text plain).map (underTag tag)
  | sequence tag items => (itemValues? items).map fun values => underTag tag (.sequence values)
  | mapping tag entries =>
      (entryValues? entries).bind fun values =>
        if Value.hasRepeatedKey values then none else some (underTag tag (.mapping values))

/-- The values of the items of a sequence. -/
def itemValues? : List Node → Option (List Value)
  | [] => some []
  | item :: items => do
      let value ← value? item
      some (value :: (← itemValues? items))

/-- The values of the entries of a mapping. -/
def entryValues? : List (Node × Node) → Option (List (Value × Value))
  | [] => some []
  | (key, content) :: entries => do
      let entry := (← value? key, ← value? content)
      some (entry :: (← entryValues? entries))

end

end Node

end SchemaBeans.Yaml

import SchemaBeans.Toml.Quoted
import SchemaBeans.Toml.Table

/-!
# Reading TOML

A document is read line by line: headers move to a table, and other lines add an
entry to the table of the last header.
-/

namespace SchemaBeans.Toml

/-- The text after blanks. -/
def skipWhite (text : List Char) : List Char := text.dropWhile isWhite

/-- The text after a comment, up to the break that ends it. -/
def skipComment? (text : List Char) : Option (List Char) :=
  match text with
  | '#' :: rest =>
      let after := rest.dropWhile isPrintable
      if after.isEmpty || 0 < breakWidth after then some after else none
  | _ => some text

/-- The text after blanks, comments and line breaks; each step takes a line. -/
def skipLines? : Nat → List Char → Option (List Char)
  | 0, _ => none
  | fuel + 1, text =>
      match skipComment? (skipWhite text) with
      | none => none
      | some after =>
          if 0 < breakWidth after then skipLines? fuel (after.drop (breakWidth after))
          else some after

/-- Characters of keys without quotes. -/
def isKeyCharacter (character : Char) : Bool :=
  character.isAlphanum || character = '_' || character = '-'

/-- Reads one part of a key. -/
def readKeyPart (text : List Char) : Option (String × List Char) :=
  match text.takeWhile isKeyCharacter with
  | [] => readKeyString text
  | key => some (String.ofList key, text.dropWhile isKeyCharacter)

/-- Arrays and inline tables may be nested this deep, and a key may have so many parts. -/
def nestingLimit : Nat := 80

/-- Reads the parts of a key between its dots, up to a number of them; blanks may stand around
them. -/
def readKeyParts : Nat → List Char → Option (List String × List Char)
  | 0, _ => none
  | parts + 1, text =>
      match readKeyPart (skipWhite text) with
      | none => none
      | some (key, rest) =>
          match skipWhite rest with
          | '.' :: rest => (readKeyParts parts rest).map fun (keys, rest) => (key :: keys, rest)
          | rest => some ([key], rest)

/-- Reads the parts of a key. -/
def readKey (text : List Char) : Option (List String × List Char) := readKeyParts nestingLimit text

/-- Reads the key of an entry of an inline table and the sign after it, with the blanks, comments
and line breaks around them. -/
def readInlineKey (text : List Char) : Option (List String × List Char) :=
  match readKey text with
  | some (keys, rest) =>
      match skipLines? (rest.length + 1) rest with
      | some ('=' :: rest) => (skipLines? (rest.length + 1) rest).map fun rest => (keys, rest)
      | _ => none
  | none => none

mutual

/-- Reads a value. The first number bounds the steps, the second the depth of nesting. -/
def readValue : Nat → Nat → List Char → Option (Value × List Char)
  | 0, _, _ => none
  | fuel + 1, depth, text =>
      match text with
      | '[' :: rest =>
          match depth with
          | 0 => none
          | depth + 1 => (readItems fuel depth rest).map fun (items, rest) =>
              (.array items false, rest)
      | '\x7b' :: rest =>
          match depth with
          | 0 => none
          | depth + 1 => (readEntries fuel depth [] rest).map fun (entries, rest) =>
              (.table entries .inline, rest)
      | '\x22' :: _ => (readString text).map fun (content, rest) => (.string content, rest)
      | '\x27' :: _ => (readString text).map fun (content, rest) => (.string content, rest)
      | _ => readScalar text

/-- Reads the items of an array up to its closing bracket. -/
def readItems : Nat → Nat → List Char → Option (List Value × List Char)
  | 0, _, _ => none
  | fuel + 1, depth, text =>
      match skipLines? (text.length + 1) text with
      | none => none
      | some (']' :: rest) => some ([], rest)
      | some text =>
          match readValue fuel depth text with
          | none => none
          | some (item, rest) =>
              match skipLines? (rest.length + 1) rest with
              | some (']' :: rest) => some ([item], rest)
              | some (',' :: rest) =>
                  (readItems fuel depth rest).map fun (items, rest) => (item :: items, rest)
              | _ => none

/-- Reads the entries of an inline table up to its closing brace, after those read already. -/
def readEntries : Nat → Nat → Entries → List Char → Option (Entries × List Char)
  | 0, _, _, _ => none
  | fuel + 1, depth, entries, text =>
      match skipLines? (text.length + 1) text with
      | none => none
      | some ('\x7d' :: rest) => some (entries, rest)
      | some text =>
          match readInlineKey text with
          | some (keys, rest) =>
              match readValue fuel depth rest with
              | none => none
              | some (value, rest) =>
                  match entries.addPath keys value .inline,
                      skipLines? (rest.length + 1) rest with
                  | some entries, some ('\x7d' :: rest) => some (entries, rest)
                  | some entries, some (',' :: rest) => readEntries fuel depth entries rest
                  | _, _ => none
          | _ => none

end

/-- The document as far as it was read. -/
structure Document where
  entries : Entries
  /-- The path of the last header. -/
  header : List String
  deriving Repr

namespace Document

/-- A document without lines. -/
def empty : Document := ⟨[], []⟩

/-- The document after the header of a table, or of an item of an array of tables. -/
def withHeader (document : Document) (path : List String) (item : Bool) : Option Document :=
  match path.reverse with
  | [] => none
  | key :: before =>
      let change (_ : Origin) (entries : Entries) : Option Entries :=
        if item then entries.announceItem key else entries.announce key
      (document.entries.atHeader change before.reverse .header).map fun entries =>
        ⟨entries, path⟩

/-- The document after an entry in the table of its last header. -/
def withEntry (document : Document) (path : List String) (value : Value) : Option Document :=
  (document.entries.atHeader (Entries.addPath path value) document.header .header).map
    fun entries => { document with entries }

/-- The document after a header, from its text after the opening brackets. -/
def readHeader (document : Document) (item : Bool) (text : List Char) :
    Option (Document × List Char) :=
  match readKey text with
  | none => none
  | some (path, rest) =>
      match item, rest with
      | false, ']' :: rest => (document.withHeader path false).map fun document => (document, rest)
      | true, ']' :: ']' :: rest =>
          (document.withHeader path true).map fun document => (document, rest)
      | _, _ => none

/-- The document after the entry at the start of a text. -/
def readEntry (document : Document) (text : List Char) : Option (Document × List Char) :=
  match readKey text with
  | some (path, '=' :: rest) =>
      match readValue (rest.length + 1) nestingLimit (skipWhite rest) with
      | some (value, rest) =>
          (document.withEntry path value).map fun document => (document, rest)
      | none => none
  | _ => none

/-- The document after one header or entry. -/
def readLine (document : Document) (text : List Char) : Option (Document × List Char) :=
  match text with
  | '[' :: '[' :: rest => document.readHeader true rest
  | '[' :: rest => document.readHeader false rest
  | _ => document.readEntry text

/-- The document after all lines of a text; each step takes at least one. -/
def readLines : Nat → Document → List Char → Option Document
  | 0, _, _ => none
  | fuel + 1, document, text =>
      match skipLines? (text.length + 1) text with
      | none => none
      | some [] => some document
      | some text =>
          match document.readLine text with
          | none => none
          | some (document, rest) =>
              match skipComment? (skipWhite rest) with
              | none => none
              | some [] => some document
              | some rest =>
                  if 0 < breakWidth rest then
                    readLines fuel document (rest.drop (breakWidth rest))
                  else none

end Document

/-- The entries of a document. A byte order mark may stand before it. -/
def parse? (text : String) : Option Entries :=
  let characters :=
    match text.toList with
    | '\uFEFF' :: rest => rest
    | characters => characters
  (Document.readLines (characters.length + 1) .empty characters).map Document.entries

end SchemaBeans.Toml

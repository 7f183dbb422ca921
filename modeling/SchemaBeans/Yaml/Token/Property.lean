import SchemaBeans.Yaml.Token

/-!
# Anchors, tags and directives

The tokens that name a node, tell its kind, or stand before a document.
-/

namespace SchemaBeans.Yaml

/-- Characters that may follow the name of an anchor or alias. -/
def endsAnchor (text : List Char) : Bool :=
  atGap text ||
    match text with
    | [] => true
    | character :: _ =>
        character = '?' || character = ':' || character = ',' || character = ']' ||
          character = '\x7d' || character = '%' || character = '@' || character.toNat = 0x60

/-- Reads the name of an anchor or alias after its indicator. -/
def readAnchor (cursor : Cursor) : Option (String × Cursor) :=
  let name := cursor.takeWhile isWord
  let after := cursor.skipWhile isWord
  if name.isEmpty || !endsAnchor after.rest then none else some (String.ofList name, after)

/-- Characters of a tag that stand for themselves; `verbatim` tells whether those that are
indicators of flow collections are among them. -/
def isTagCharacter (verbatim : Bool) (character : Char) : Bool :=
  isWord character || ";/?:@&=+$.!~*'()".toList.contains character ||
    (verbatim && (character = ',' || character = '[' || character = ']'))

/-- The octet of an escape `%xx`. -/
def escapedOctet? : List Char → Option (Nat × List Char)
  | '%' :: high :: low :: rest =>
      match Text.hexValue? high, Text.hexValue? low with
      | some high, some low => some (high * 16 + low, rest)
      | _, _ => none
  | _ => none

/-- What the first octet of an escaped code point announces. -/
structure LeadingOctet where
  /-- The number of further octets. -/
  further : Nat
  /-- The octet's share of the code point. -/
  share : Nat
  /-- The least code point that needs so many octets. -/
  least : Nat
  deriving DecidableEq, Repr

/-- What an octet announces, if a code point may start with it. -/
def leadingOctet? (octet : Nat) : Option LeadingOctet :=
  if octet < 0x80 then some ⟨0, octet, 0⟩
  else if 0xC0 ≤ octet && octet < 0xE0 then some ⟨1, octet - 0xC0, 0x80⟩
  else if 0xE0 ≤ octet && octet < 0xF0 then some ⟨2, octet - 0xE0, 0x800⟩
  else if 0xF0 ≤ octet && octet < 0xF8 then some ⟨3, octet - 0xF0, 0x10000⟩
  else none

/-- The rest of an escaped code point: `count` more octets. -/
def trailingOctets? : Nat → Nat → List Char → Option (Nat × List Char)
  | 0, code, text => some (code, text)
  | count + 1, code, text =>
      match escapedOctet? text with
      | some (octet, rest) =>
          if 0x80 ≤ octet && octet < 0xC0 then
            trailingOctets? count (code * 64 + (octet - 0x80)) rest
          else none
      | none => none

/-- An escaped code point of a tag. The octets must form one, but it need not be a character, nor
written with the fewest octets; otherwise no character stands for it. -/
def escapedCharacter? (text : List Char) : Option (Option Char × List Char) :=
  match escapedOctet? text with
  | none => none
  | some (octet, rest) =>
      match leadingOctet? octet with
      | none => none
      | some leading =>
          (trailingOctets? leading.further leading.share rest).map fun (code, rest) =>
            (if code < leading.least then none else Text.codePoint? code, rest)

/-- The characters of a tag at the start of a text; each step takes at least one. -/
def tagCharacters (verbatim : Bool) : Nat → List Char → Option (TagText × List Char)
  | 0, text => some ([], text)
  | _, [] => some ([], [])
  | fuel + 1, character :: rest =>
      if character = '%' then
        match escapedCharacter? (character :: rest) with
        | none => none
        | some (decoded, rest) =>
            (tagCharacters verbatim fuel rest).map fun (more, rest) => (decoded :: more, rest)
      else if isTagCharacter verbatim character then
        (tagCharacters verbatim fuel rest).map fun (more, rest) => (some character :: more, rest)
      else some ([], character :: rest)

/-- Reads the characters of a tag. -/
def readTagText (verbatim : Bool) (cursor : Cursor) : Option (TagText × Cursor) :=
  (tagCharacters verbatim cursor.rest.length cursor.rest).map fun (text, rest) =>
    (text, cursor.advance (cursor.rest.length - rest.length))

/-- The handle at a place that starts with `!`: word characters, and perhaps a second `!`. -/
def readHandle (cursor : Cursor) : Option (List Char × Cursor) :=
  match cursor.rest with
  | '!' :: _ =>
      let start := cursor.advance 1
      let name := start.takeWhile isWord
      let after := start.skipWhile isWord
      match after.rest with
      | '!' :: _ => some ('!' :: name ++ ['!'], after.advance 1)
      | _ => some ('!' :: name, after)
  | _ => none

/-- Reads a tag up to its end. A tag without a handle of its own has the handle `!`, and the tag
`!` alone has none. -/
def readTagBody (cursor : Cursor) : Option (Token × Cursor) :=
  match cursor.rest with
  | '!' :: '<' :: _ =>
      match readTagText true (cursor.advance 2) with
      | some (text, after) =>
          match text, after.rest with
          | [], _ => none
          | text, '>' :: _ => some (.tag "" text.upToNull, after.advance 1)
          | _, _ => none
      | none => none
  | _ =>
      match readHandle cursor with
      | none => none
      | some (handle, after) =>
          match readTagText false after with
          | none => none
          | some (text, rest) =>
              if 2 ≤ handle.length && handle.getLast? = some '!' then
                if text.isEmpty then none
                else some (.tag (String.ofList handle) text.upToNull, rest)
              else
                match TagText.upToNull ((handle.drop 1).map some ++ text) with
                | [] => some (.tag "" [some '!'], rest)
                | suffix => some (.tag "!" suffix, rest)

/-- Reads a tag. A gap follows it, or a comma inside a flow collection. -/
def readTag (flow : Bool) (cursor : Cursor) : Option (Token × Cursor) :=
  match readTagBody cursor with
  | none => none
  | some (token, after) =>
      if atGap after.rest || (flow && after.rest.head? = some ',') then some (token, after)
      else none

/-- Reads a number of a version: one to nine digits. -/
def readVersionNumber (cursor : Cursor) : Option (Nat × Cursor) :=
  let digits := cursor.takeWhile Char.isDigit
  if digits.isEmpty || 9 < digits.length then none
  else
    some (digits.foldl (fun value digit => value * 10 + (digit.toNat - 48)) 0,
      cursor.skipWhile Char.isDigit)

/-- Reads the two numbers of a version. -/
def readVersion (cursor : Cursor) : Option (Token × Cursor) :=
  match readVersionNumber cursor.skipWhite with
  | some (major, after) =>
      match after.rest with
      | '.' :: _ =>
          (readVersionNumber (after.advance 1)).map fun (minor, rest) =>
            (.version major minor, rest)
      | _ => none
  | none => none

/-- Reads a tag handle and what it stands for. -/
def readTagHandle (cursor : Cursor) : Option (Token × Cursor) :=
  match readHandle cursor.skipWhite with
  | none => none
  | some (handle, after) =>
      if (handle.length = 1 || handle.getLast? = some '!') && after.skipWhite.mark ≠ after.mark then
        match readTagText true after.skipWhite with
        | some (text, rest) =>
            if text.isEmpty || !atGap rest.rest then none
            else some (.tagHandle (String.ofList handle) text.upToNull, rest)
        | none => none
      else none

/-- Reads a directive with its line, after its indicator. -/
def readDirective (cursor : Cursor) : Option (Token × Cursor) :=
  let name := cursor.takeWhile isWord
  let after := cursor.skipWhile isWord
  if !atGap after.rest then none
  else
    let read :=
      if name = "YAML".toList then readVersion after
      else if name = "TAG".toList then readTagHandle after
      else none
    match read with
    | some (token, rest) => rest.skipLineEnd?.map fun rest => (token, rest)
    | none => none

end SchemaBeans.Yaml

import SchemaBeans.Proofs.ValueTexts

/-!
# Documents with a line for each entry

The header of a table stands on a line of its own, and so does every entry that it
has. Such lines are read one after the other: each does to a document what it says.
-/

namespace SchemaBeans

namespace Toml

section Keys

/-- A key that stands without quotes. -/
structure IsBareKey (key : String) : Prop where
  proper : key ≠ ""
  whole : ∀ character ∈ key.toList, isKeyCharacter character = true

instance (key : String) : Decidable (IsBareKey key) :=
  decidable_of_iff (key ≠ "" ∧ key.toList.all isKeyCharacter = true)
    ⟨fun ⟨proper, whole⟩ => ⟨proper, List.all_eq_true.mp whole⟩,
      fun bare => ⟨bare.proper, List.all_eq_true.mpr bare.whole⟩⟩

/-- A character that ends a key of one part. -/
structure EndsKey (mark : Char) : Prop where
  noKey : isKeyCharacter mark = false
  noWhite : isWhite mark = false
  noDot : mark ≠ '.'

instance (mark : Char) : Decidable (EndsKey mark) :=
  decidable_of_iff (isKeyCharacter mark = false ∧ isWhite mark = false ∧ mark ≠ '.')
    ⟨fun ⟨key, white, dot⟩ => ⟨key, white, dot⟩, fun ends => ⟨ends.noKey, ends.noWhite, ends.noDot⟩⟩

variable {key : String} {rest : List Char}

/-- The characters of bare keys can stand in scalars without quotes. -/
theorem isScalarCharacter_of_isKeyCharacter {character : Char}
    (letter : isKeyCharacter character = true) : isScalarCharacter character = true := by
  simp only [isKeyCharacter, Bool.or_eq_true, decide_eq_true_iff] at letter
  rcases letter with (letter | rfl) | rfl
  · simp [isScalarCharacter, letter]
  · decide
  · decide

/-- The characters of bare keys are visible. -/
theorem visible_of_isKeyCharacter {character : Char} (letter : isKeyCharacter character = true) :
    Visible character :=
  visible_of_isScalarCharacter (isScalarCharacter_of_isKeyCharacter letter)

/-- White space ends a bare key. -/
theorem not_isKeyCharacter_of_isWhite {character : Char} (white : isWhite character = true) :
    isKeyCharacter character = false := by
  rw [isWhite, Bool.or_eq_true, decide_eq_true_iff, decide_eq_true_iff] at white
  rcases white with rfl | rfl
  · decide
  · decide

/-- A bare key starts with one of its characters. -/
theorem IsBareKey.exists_cons (bare : IsBareKey key) :
    ∃ first others, key.toList = first :: others ∧ isKeyCharacter first = true := by
  obtain ⟨first, others, same⟩ := List.exists_cons_of_ne_nil
    (fun none => bare.proper (String.toList_eq_nil_iff.mp none))
  exact ⟨first, others, same, bare.whole first (same ▸ List.mem_cons_self)⟩

/-- Neither blanks nor the sign after a key go on with it. -/
theorem stops_of_ends {blanks : List Char} {mark : Char}
    (white : ∀ blank ∈ blanks, isWhite blank = true) (ends : EndsKey mark) :
    ∀ other ∈ (blanks ++ mark :: rest).head?, isKeyCharacter other = false := by
  intro other front
  cases blanks with
  | nil =>
      cases front
      exact ends.noKey
  | cons blank blanks =>
      cases front
      exact not_isKeyCharacter_of_isWhite (white _ List.mem_cons_self)

/-- A bare key is read up to where its characters stop. -/
theorem readKeyPart_bare (bare : IsBareKey key)
    (stops : ∀ other ∈ rest.head?, isKeyCharacter other = false) :
    readKeyPart (key.toList ++ rest) = some (key, rest) := by
  have ended : rest.takeWhile isKeyCharacter = [] ∧ rest.dropWhile isKeyCharacter = rest := by
    cases rest with
    | nil => exact ⟨rfl, rfl⟩
    | cons other others => simp [stops other rfl]
  have taken : (key.toList ++ rest).takeWhile isKeyCharacter = key.toList := by
    rw [List.takeWhile_append_of_pos bare.whole, ended.1, List.append_nil]
  have dropped : (key.toList ++ rest).dropWhile isKeyCharacter = rest := by
    rw [List.dropWhile_append_of_pos bare.whole, ended.2]
  obtain ⟨first, others, same, _⟩ := bare.exists_cons
  rw [readKeyPart, taken, dropped]
  split
  · next none =>
      rw [same] at none
      cases none
  · rw [String.ofList_toList]

/-- A key without quotes is read up to the sign after it; blanks may stand between the two. -/
theorem readKey_bare (bare : IsBareKey key) {blanks : List Char} {mark : Char}
    (white : ∀ blank ∈ blanks, isWhite blank = true) (ends : EndsKey mark) :
    readKey (key.toList ++ (blanks ++ mark :: rest)) = some ([key], mark :: rest) := by
  obtain ⟨first, others, same, letter⟩ := bare.exists_cons
  have start : skipWhite (key.toList ++ (blanks ++ mark :: rest)) =
      key.toList ++ (blanks ++ mark :: rest) := by
    rw [same, List.cons_append]
    exact skipWhite_of_visible (visible_of_isKeyCharacter letter).noWhite
  have behind : skipWhite (blanks ++ mark :: rest) = mark :: rest := by
    rw [skipWhite, List.dropWhile_append_of_pos white]
    exact skipWhite_of_visible ends.noWhite
  have part : readKeyPart (key.toList ++ (blanks ++ mark :: rest)) =
      some (key, blanks ++ mark :: rest) := readKeyPart_bare bare (stops_of_ends white ends)
  rw [readKey, nestingLimit, readKeyParts, start, part]
  dsimp only
  rw [behind]
  split
  · next dotted => exact absurd (List.cons.inj dotted).1 ends.noDot
  · rfl

end Keys

section Lines

/-- An entry of a table, with the text of its value. -/
structure TextEntry where
  key : String
  text : String
  value : Value
  bare : IsBareKey key
  means : IsValueText text.toList value

/-- A line of a document. -/
inductive Line where
  | blank
  | header (name : String) (bare : IsBareKey name)
  | entry (written : TextEntry)

namespace Line

/-- The text of a line, with the break at its end. -/
def text : Line → String
  | blank => "\n"
  | header name _ => "[" ++ name ++ "]\n"
  | entry written => line written.key written.text

/-- What a line does to a document. -/
def apply (document : Document) : Line → Option Document
  | blank => some document
  | header name _ => document.withHeader [name] false
  | entry written => document.withEntry [written.key] written.value

end Line

variable {document later : Document} {rest : List Char}

/-- An empty line takes no step of its own. -/
theorem readLines_feed (fuel : Nat) :
    document.readLines (fuel + 1) ('\n' :: rest) = document.readLines (fuel + 1) rest := by
  rw [Document.readLines, Document.readLines, List.length_cons, skipLines?_feed]

/-- What a line that is read leaves behind is read after it. -/
theorem readLines_step {first : Char} {others : List Char} {applied : Option Document}
    (visible : Visible first)
    (reads : document.readLine (first :: others) =
      applied.map fun document => (document, '\n' :: rest)) (fuel : Nat) :
    document.readLines (fuel + 1) (first :: others) =
      applied.bind fun document => document.readLines fuel rest := by
  rw [Document.readLines, skipLines?_of_visible visible]
  dsimp only
  rw [reads]
  cases applied with
  | none => rfl
  | some later =>
      dsimp only [Option.map_some, Option.bind_some]
      rw [skipWhite_of_visible (by decide), skipComment?_of_visible (by decide)]
      simp [breakWidth]

/-- A single bracket opens the header of a table. -/
theorem readLine_bracket {first : Char} (noBracket : first ≠ '[') :
    document.readLine ('[' :: first :: rest) = document.readHeader false (first :: rest) := by
  unfold Document.readLine
  split
  · next double => exact absurd (List.cons.inj (List.cons.inj double).2).1 noBracket
  · next single =>
      cases single
      rfl
  · next none => exact absurd rfl (none (first :: rest))

/-- Without a bracket, a line is an entry. -/
theorem readLine_plain {first : Char} (noBracket : first ≠ '[') :
    document.readLine (first :: rest) = document.readEntry (first :: rest) := by
  unfold Document.readLine
  split
  · next double => exact absurd (List.cons.inj double).1 noBracket
  · next single => exact absurd (List.cons.inj single).1 noBracket
  · rfl

/-- The header of a table is read. -/
theorem readLine_header {name : String} (bare : IsBareKey name) :
    document.readLine ('[' :: (name.toList ++ ']' :: rest)) =
      (document.withHeader [name] false).map fun document => (document, rest) := by
  obtain ⟨first, others, same, letter⟩ := bare.exists_cons
  have noBracket : first ≠ '[' := by
    rintro rfl
    exact absurd letter (by decide)
  have key : readKey (name.toList ++ ([] ++ ']' :: rest)) = some ([name], ']' :: rest) :=
    readKey_bare bare (by simp) (by decide)
  rw [same] at key ⊢
  rw [List.cons_append, readLine_bracket noBracket, Document.readHeader, ← List.cons_append,
    ← List.nil_append (']' :: rest), key]
  rfl

/-- The text of an entry, up to the break at its end. -/
theorem readLine_entry (written : TextEntry) :
    document.readLine
        (written.key.toList ++ ([' '] ++ '=' :: ' ' :: (written.text.toList ++ '\n' :: rest))) =
      (document.withEntry [written.key] written.value).map fun document =>
        (document, '\n' :: rest) := by
  obtain ⟨first, others, same, letter⟩ := written.bare.exists_cons
  obtain ⟨start, body, shape, visible⟩ := written.means.start
  have noBracket : first ≠ '[' := by
    rintro rfl
    exact absurd letter (by decide)
  have key : readKey
      (written.key.toList ++ ([' '] ++ '=' :: ' ' :: (written.text.toList ++ '\n' :: rest))) =
        some ([written.key], '=' :: ' ' :: (written.text.toList ++ '\n' :: rest)) :=
    readKey_bare written.bare (List.forall_mem_singleton.mpr rfl) (by decide)
  have blank : skipWhite (' ' :: (written.text.toList ++ '\n' :: rest)) =
      written.text.toList ++ '\n' :: rest := by
    rw [skipWhite, List.dropWhile_cons_of_pos (by decide), shape, List.cons_append]
    exact skipWhite_of_visible visible.noWhite
  have value := written.means.reads
    ((' ' :: (written.text.toList ++ '\n' :: rest)).length + 1) rest (by simp; omega)
  rw [same] at key ⊢
  rw [List.cons_append, readLine_plain noBracket, ← List.cons_append, Document.readEntry, key]
  simp only [blank, value]

/-- A line that is not empty starts with a character that is not skipped, and is read as what it
says. -/
theorem exists_readLine {line : Line} (proper : line ≠ .blank) (rest : List Char) :
    ∃ first others, line.text.toList ++ rest = first :: others ∧ Visible first ∧
      ∀ document : Document, document.readLine (first :: others) =
        (line.apply document).map fun document => (document, '\n' :: rest) := by
  cases line with
  | blank => exact absurd rfl proper
  | header name bare =>
      refine ⟨'[', name.toList ++ ']' :: '\n' :: rest, ?_, by decide, fun document =>
        readLine_header bare⟩
      simp [Line.text]
  | entry written =>
      obtain ⟨first, others, same, letter⟩ := written.bare.exists_cons
      refine ⟨first, others ++ ([' '] ++ '=' :: ' ' :: (written.text.toList ++ '\n' :: rest)), ?_,
        visible_of_isKeyCharacter letter, fun document => ?_⟩
      · simp [Line.text, Toml.line, same]
      · have reads : document.readLine (written.key.toList ++
            ([' '] ++ '=' :: ' ' :: (written.text.toList ++ '\n' :: rest))) = _ :=
          readLine_entry written
        rw [same, List.cons_append] at reads
        exact reads

/-- Lines of a document do to it what they say, one after the other. -/
theorem readLines_lines (lines : List Line) (document : Document) (fuel : Nat) :
    document.readLines (lines.length + fuel + 1) (lines.flatMap fun line => line.text.toList) =
      lines.foldlM Line.apply document := by
  induction lines generalizing document fuel with
  | nil =>
      rw [Document.readLines]
      rfl
  | cons line lines hypothesis =>
      by_cases empty : line = .blank
      · have steps : (line :: lines).length + fuel + 1 = lines.length + (fuel + 1) + 1 := by
          rw [List.length_cons]
          omega
        rw [steps, empty, List.flatMap_cons]
        exact (readLines_feed _).trans (hypothesis document (fuel + 1))
      · have steps : (line :: lines).length + fuel + 1 = lines.length + fuel + 1 + 1 := by
          rw [List.length_cons]
          omega
        obtain ⟨first, others, same, visible, reads⟩ := exists_readLine empty
          (lines.flatMap fun line => line.text.toList)
        rw [steps, List.flatMap_cons, same, readLines_step visible (reads document),
          List.foldlM_cons]
        exact Option.bind_congr fun later _ => hypothesis later fuel

end Lines

section Tables

/-- What an entry adds to its table. -/
def TextEntry.pair (written : TextEntry) : String × Value := (written.key, written.value)

/-- A table, with the entries that are written below its header. -/
structure TextTable where
  name : String
  bare : IsBareKey name
  entries : List TextEntry
  distinct : (entries.map TextEntry.key).Nodup

namespace TextTable

/-- The lines of a table. -/
def lines (table : TextTable) : List Line :=
  .header table.name table.bare :: table.entries.map .entry

/-- What a table adds to a document. -/
def pair (table : TextTable) : String × Value :=
  (table.name, .table (table.entries.map TextEntry.pair) .header)

/-- The lines of some tables, with an empty one between any two. -/
def allLines : List TextTable → List Line
  | [] => []
  | first :: others => first.lines ++ others.flatMap fun table => .blank :: table.lines

end TextTable

variable {front inner : Entries} {name : String}

/-- The header of a table that is new comes to the end of the document. -/
theorem withHeader_eq_some (fresh : front.lookup name = none) (header : List String) :
    Document.withHeader ⟨front, header⟩ [name] false =
      some ⟨front ++ [(name, .table [] .header)], [name]⟩ := by
  have last := Keyed.set_append fresh (.table [] .header) []
  rw [List.append_nil] at last
  simp [Document.withHeader, Entries.atHeader, Entries.announce, fresh, last, Keyed.set]

/-- An entry with a new key comes to the end of the last table. -/
theorem withEntry_eq_some (fresh : front.lookup name = none) {key : String}
    (new : inner.lookup key = none) (value : Value) :
    Document.withEntry ⟨front ++ [(name, .table inner .header)], [name]⟩ [key] value =
      some ⟨front ++ [(name, .table (inner ++ [(key, value)]) .header)], [name]⟩ := by
  have last : (front ++ [(name, Value.table inner .header)]).lookup name =
      some (.table inner .header) := by
    simp [List.lookup_append, fresh]
  simp [Document.withEntry, Entries.atHeader, last, Entries.inContainer, Entries.inTable,
    Entries.addPath, Entries.atDotted, Entries.add, new, Keyed.set_append fresh, Keyed.set]

/-- The entries of a table come to its end one after the other. -/
theorem foldlM_entries (fresh : front.lookup name = none) (entries : List TextEntry)
    (new : ∀ written ∈ entries, inner.lookup written.key = none)
    (distinct : (entries.map TextEntry.key).Nodup) :
    (entries.map Line.entry).foldlM Line.apply
        ⟨front ++ [(name, .table inner .header)], [name]⟩ =
      some ⟨front ++ [(name, .table (inner ++ entries.map TextEntry.pair) .header)], [name]⟩ := by
  induction entries generalizing inner with
  | nil => simp
  | cons written entries hypothesis =>
      obtain ⟨apart, distinct⟩ := List.nodup_cons.mp distinct
      have first := withEntry_eq_some fresh (new written List.mem_cons_self) written.value
      have later : ∀ other ∈ entries,
          (inner ++ [written.pair]).lookup other.key = none := by
        intro other inside
        refine Keyed.lookup_concat_eq_none (new other (List.mem_cons_of_mem _ inside)) ?_ _
        intro same
        exact apart (List.mem_map.mpr ⟨other, inside, same⟩)
      rw [List.map_cons, List.foldlM_cons, Line.apply, first]
      have rest := hypothesis later distinct
      rw [List.append_assoc] at rest
      exact rest

/-- A table with a new name comes to the end of the document. -/
theorem foldlM_lines (table : TextTable) (fresh : front.lookup table.name = none)
    (header : List String) :
    table.lines.foldlM Line.apply ⟨front, header⟩ = some ⟨front ++ [table.pair], [table.name]⟩ := by
  rw [TextTable.lines, List.foldlM_cons, Line.apply, withHeader_eq_some fresh]
  exact foldlM_entries fresh table.entries (fun _ _ => rfl) table.distinct

/-- Tables come to the end of the document one after the other. -/
theorem foldlM_tables (tables : List TextTable) (distinct : (tables.map TextTable.name).Nodup)
    (fresh : ∀ table ∈ tables, front.lookup table.name = none) (header : List String) :
    ∃ last, (tables.flatMap fun table => .blank :: table.lines).foldlM Line.apply ⟨front, header⟩ =
      some ⟨front ++ tables.map TextTable.pair, last⟩ := by
  induction tables generalizing front header with
  | nil => exact ⟨header, by simp⟩
  | cons table tables hypothesis =>
      obtain ⟨apart, distinct⟩ := List.nodup_cons.mp distinct
      have later : ∀ other ∈ tables, (front ++ [table.pair]).lookup other.name = none := by
        intro other inside
        refine Keyed.lookup_concat_eq_none (fresh other (List.mem_cons_of_mem _ inside)) ?_ _
        intro same
        exact apart (List.mem_map.mpr ⟨other, inside, same⟩)
      obtain ⟨last, rest⟩ := hypothesis distinct later [table.name]
      refine ⟨last, ?_⟩
      have first := foldlM_lines table (fresh table List.mem_cons_self) header
      rw [List.flatMap_cons, List.cons_append, List.foldlM_cons, Line.apply]
      simp only [Option.bind_eq_bind, Option.bind_some, List.foldlM_append, first, rest]
      simp

/-- A line of a table is not empty. -/
theorem Line.toList_text_ne_nil (line : Line) : line.text.toList ≠ [] := by
  cases line with
  | blank => exact List.cons_ne_nil _ _
  | header name bare => simp [Line.text]
  | entry written => simp [Line.text, Toml.line]

/-- An empty line in front changes nothing. -/
theorem foldlM_allLines (tables : List TextTable) (document : Document) :
    (TextTable.allLines tables).foldlM Line.apply document =
      (tables.flatMap fun table => .blank :: table.lines).foldlM Line.apply document := by
  cases tables with
  | nil => rfl
  | cons first others => rfl

/-- No document with tables starts with a byte order mark. -/
theorem head?_allLines (tables : List TextTable) :
    ((TextTable.allLines tables).flatMap fun line => line.text.toList).head? ≠ some '\uFEFF' := by
  cases tables with
  | nil => decide
  | cons first others => simp [TextTable.allLines, TextTable.lines, Line.text]

/-- The lines of some tables are read as the tables, one step for each line. -/
theorem readLines_allLines (tables : List TextTable) (distinct : (tables.map TextTable.name).Nodup)
    {steps : Nat} (enough : (TextTable.allLines tables).length < steps) :
    (Document.readLines steps .empty
        ((TextTable.allLines tables).flatMap fun line => line.text.toList)).map Document.entries =
      some (tables.map TextTable.pair) := by
  obtain ⟨last, tabled⟩ := @foldlM_tables [] tables distinct (fun _ _ => rfl) []
  obtain ⟨fuel, rfl⟩ := Nat.exists_eq_add_of_lt enough
  rw [readLines_lines, foldlM_allLines, Document.empty, tabled]
  rfl

end Tables

section Comments

/-- Lines of comments. -/
def commentLines (comments : List String) : List Char :=
  comments.flatMap fun comment => '#' :: (comment.toList ++ ['\n'])

variable {comment : String} {comments : List String} {rest : List Char}

/-- A line of a comment is skipped. -/
theorem skipLines?_comment (printable : ∀ character ∈ comment.toList, isPrintable character = true)
    (fuel : Nat) :
    skipLines? (fuel + 1) ('#' :: (comment.toList ++ '\n' :: rest)) = skipLines? fuel rest := by
  have white : skipWhite ('#' :: (comment.toList ++ '\n' :: rest)) =
      '#' :: (comment.toList ++ '\n' :: rest) := skipWhite_of_visible (by decide)
  have ended : ('\n' :: rest).dropWhile isPrintable = '\n' :: rest := by simp [isPrintable]
  have skipped : skipComment? ('#' :: (comment.toList ++ '\n' :: rest)) = some ('\n' :: rest) := by
    simp only [skipComment?, List.dropWhile_append_of_pos printable, ended]
    rfl
  rw [skipLines?, white, skipped]
  rfl

/-- Lines of comments are skipped. -/
theorem skipLines?_comments
    (printable : ∀ comment ∈ comments, ∀ character ∈ comment.toList, isPrintable character = true)
    (fuel : Nat) :
    skipLines? (comments.length + fuel) (commentLines comments ++ rest) = skipLines? fuel rest := by
  induction comments with
  | nil => rw [List.length_nil, Nat.zero_add, commentLines, List.flatMap_nil, List.nil_append]
  | cons comment comments hypothesis =>
      obtain ⟨first, printable⟩ := List.forall_mem_cons.mp printable
      have steps : (comment :: comments).length + fuel = comments.length + fuel + 1 := by
        rw [List.length_cons]
        omega
      have lines : commentLines (comment :: comments) ++ rest =
          '#' :: (comment.toList ++ '\n' :: (commentLines comments ++ rest)) := by
        simp [commentLines]
      rw [steps, lines, skipLines?_comment first, hypothesis printable]

/-- A document of tables starts with a header. -/
theorem skipLines?_allLines (tables : List TextTable) (fuel : Nat) :
    skipLines? (fuel + 1) ((TextTable.allLines tables).flatMap fun line => line.text.toList) =
      some ((TextTable.allLines tables).flatMap fun line => line.text.toList) := by
  cases tables with
  | nil => rfl
  | cons first others =>
      have start : ∃ rest, ((TextTable.allLines (first :: others)).flatMap fun line =>
          line.text.toList) = '[' :: rest := by
        simp [TextTable.allLines, TextTable.lines, Line.text]
      obtain ⟨rest, same⟩ := start
      rw [same, skipLines?_of_visible (by decide)]

/-- The lines of some tables are read as the tables, and comments in front of them change
nothing. -/
theorem parse?_commentLines (tables : List TextTable)
    (distinct : (tables.map TextTable.name).Nodup)
    (printable : ∀ comment ∈ comments, ∀ character ∈ comment.toList, isPrintable character = true)
    {text : String}
    (written : text.toList = commentLines comments ++
      (TextTable.allLines tables).flatMap fun line => line.text.toList) :
    parse? text = some (tables.map TextTable.pair) := by
  have noMark : text.toList.head? ≠ some '\uFEFF' := by
    rw [written]
    cases comments with
    | nil => exact head?_allLines tables
    | cons comment comments => simp [commentLines]
  have commentsFit : comments.length ≤ (commentLines comments).length :=
    Text.length_le_length_flatMap (by simp) comments
  have linesFit :=
    Text.length_le_length_flatMap Line.toList_text_ne_nil (TextTable.allLines tables)
  have lengths := congrArg List.length written
  rw [List.length_append] at lengths
  have fits : comments.length ≤ text.toList.length := by omega
  obtain ⟨fuel, steps⟩ := Nat.exists_eq_add_of_le fits
  unfold parse?
  split
  · next marked =>
      rw [marked] at noMark
      exact absurd rfl noMark
  · have read := @readLines_allLines tables distinct (text.toList.length + 1) (by omega)
    rw [← read]
    dsimp only
    rw [Document.readLines, Document.readLines, skipLines?_allLines, steps, written,
      Nat.add_assoc, skipLines?_comments printable, skipLines?_allLines]

/-- The lines of some tables are read as the tables. -/
theorem parse?_allLines (tables : List TextTable) (distinct : (tables.map TextTable.name).Nodup)
    {text : String}
    (written : text.toList = (TextTable.allLines tables).flatMap fun line => line.text.toList) :
    parse? text = some (tables.map TextTable.pair) := by
  have none : ∀ comment ∈ ([] : List String), ∀ character ∈ comment.toList,
      isPrintable character = true := fun _ inside => absurd inside List.not_mem_nil
  exact parse?_commentLines tables distinct none written

end Comments

end Toml

end SchemaBeans

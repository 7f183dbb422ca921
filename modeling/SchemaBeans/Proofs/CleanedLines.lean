import Mathlib.Data.List.DropRight
import Mathlib.Data.List.Forall2
import SchemaBeans.Proofs.Cleaning

/-!
# The lines of a cleaned text

`HasLines` says what the lines of a text are by how the text is put together: each
line is closed by a line feed, perhaps with a carriage return before it, and the
last one may be open. Cleaning keeps the lines of a text up to the last one that is
not blank, each without the blanks at its end. `Cleans` leaves one result for each
text.
-/

namespace SchemaBeans

namespace Text

/-- The lines of a text. A carriage return before the line feed that closes a line is not part of
the line; any other carriage return is. -/
inductive HasLines : List Char → List (List Char) → Prop where
  | none : HasLines [] []
  | unclosed {line : List Char} (given : line ≠ []) (whole : '\n' ∉ line) : HasLines line [line]
  | feed {line rest : List Char} {lines : List (List Char)} (whole : '\n' ∉ line)
      (plain : line.getLast? ≠ some '\r') (more : HasLines rest lines) :
      HasLines (line ++ '\n' :: rest) (line :: lines)
  | returnAndFeed {line rest : List Char} {lines : List (List Char)} (whole : '\n' ∉ line)
      (more : HasLines rest lines) : HasLines (line ++ '\r' :: '\n' :: rest) (line :: lines)

/-- A line without the blanks at its end. -/
structure Strips (line bare : List Char) : Prop where
  blanks : ∃ trail, line = bare ++ trail ∧ ∀ character ∈ trail, isBlank character = true
  solid : Solid bare

variable {text line rest bare : List Char} {read : List (List Char)}

/-- Without a line feed, a text goes on with the line that was begun. -/
theorem linesFrom_of_not_mem (whole : '\n' ∉ line) {reversed : List Char}
    (given : line ++ reversed ≠ []) : linesFrom line reversed = [reversed.reverse ++ line] := by
  induction line generalizing reversed with
  | nil =>
      obtain ⟨last, before, rfl⟩ := List.exists_cons_of_ne_nil given
      simp [linesFrom]
  | cons character line hypothesis =>
      obtain ⟨inside, whole⟩ := not_or.mp (mt List.mem_cons.mpr whole)
      rw [linesFrom_cons (Ne.symm inside), hypothesis whole (by simp)]
      simp

/-- A text without line feeds is one line, unless it is empty. -/
theorem lines_of_not_mem (given : line ≠ []) (whole : '\n' ∉ line) : lines line = [line] :=
  linesFrom_of_not_mem whole (by simpa using given)

/-- A line that is closed loses its carriage return and comes before the others. -/
theorem lines_append_feed (whole : '\n' ∉ line) (rest : List Char) :
    lines (line ++ '\n' :: rest) = withoutReturn line :: lines rest := by
  simpa [lines] using linesFrom_line whole rest []

@[simp] theorem withoutReturn_concat (line : List Char) :
    withoutReturn (line ++ ['\r']) = line := by
  simp [withoutReturn, dropCarriageReturn]

/-- The lines of a text are read from it. -/
theorem HasLines.lines_eq (written : HasLines text read) : lines text = read := by
  induction written with
  | none => rfl
  | unclosed given whole => exact lines_of_not_mem given whole
  | feed whole plain _ hypothesis =>
      rw [lines_append_feed whole, withoutReturn_eq_self plain, hypothesis]
  | @returnAndFeed line rest lines whole _ hypothesis =>
      have returned : '\n' ∉ line ++ ['\r'] := by simpa using whole
      rw [List.append_cons, lines_append_feed returned, withoutReturn_concat, hypothesis]

/-- Every text has the lines that are read from it. -/
theorem hasLines_lines (text : List Char) : HasLines text (lines text) := by
  induction measured : text.length using Nat.strongRecOn generalizing text with
  | ind size hypothesis =>
      by_cases broken : '\n' ∈ text
      · obtain ⟨line, rest, rfl, whole⟩ := List.eq_append_cons_of_mem broken
        have shorter : rest.length < size := by
          rw [← measured, List.length_append, List.length_cons]
          omega
        have more := hypothesis rest.length shorter rest rfl
        rw [lines_append_feed whole]
        by_cases returned : line.getLast? = some '\r'
        · obtain ⟨front, rfl⟩ := List.getLast?_eq_some_iff.mp returned
          rw [withoutReturn_concat, List.append_assoc, List.singleton_append]
          exact .returnAndFeed (fun inside => whole (List.mem_append_left _ inside)) more
        · rw [withoutReturn_eq_self returned]
          exact .feed whole returned more
      · by_cases empty : text = []
        · subst empty
          exact .none
        · rw [lines_of_not_mem empty broken]
          exact .unclosed empty broken

/-- The lines of a text are those that reading gives. -/
theorem hasLines_iff : HasLines text read ↔ lines text = read := by
  constructor
  · exact HasLines.lines_eq
  · rintro rfl
    exact hasLines_lines text

/-- Trimming the end of a line strips it of its blanks. -/
theorem strips_trimEnd (line : List Char) : Strips line (trimEnd line) where
  blanks := ⟨line.rtakeWhile isBlank, List.rdropWhile_append_rtakeWhile.symm,
    fun _ => List.mem_rtakeWhile_imp⟩
  solid := solid_trimEnd line

/-- There is one way to strip a line. -/
theorem strips_iff : Strips line bare ↔ trimEnd line = bare := by
  constructor
  · rintro ⟨⟨trail, rfl, blank⟩, solid⟩
    have blanks : ∀ character ∈ trail.reverse, isBlank character = true := fun character inside =>
      blank character (List.mem_reverse.mp inside)
    have trimmed : trimEnd (bare ++ trail) = trimEnd bare := by
      rw [trimEnd, List.reverse_append, List.dropWhile_append_of_pos blanks, trimEnd]
    rw [trimmed, trimEnd_eq_self_iff.mpr solid]
  · rintro rfl
    exact strips_trimEnd line

/-- Nothing is left of a line exactly when it is blank. -/
theorem trimEnd_eq_nil_iff : trimEnd line = [] ↔ allBlank line = true := by
  rw [allBlank, List.all_eq_true]
  exact List.rdropWhile_eq_nil_iff

end Text

namespace SourceUnit

open Text

variable {text result : List Char} {kept rest : List (List Char)}

/-- A text without the blanks at the ends of its lines and without its last lines as far as they are
blank. -/
structure Cleans (text result : List Char) : Prop where
  /-- The lines of the text are kept one by one, up to the last one that is not blank. -/
  lines : ∃ kept rest bare, HasLines text (kept ++ rest) ∧ HasLines result bare ∧
    List.Forall₂ Strips kept bare ∧ (∀ line ∈ rest, allBlank line = true) ∧
      ∀ last ∈ kept.getLast?, allBlank last = false
  empty_iff : result = [] ↔ ∀ read, HasLines text read → ∀ line ∈ read, allBlank line = true
  /-- No line ends with a blank, however its end is written. -/
  solid : ∀ line ∈ split '\n' result, Solid line
  /-- There is one line feed at the end, right behind a character that is not blank. -/
  ending : result ≠ [] → ∃ front last, result = front ++ [last, '\n'] ∧ isBlank last = false

/-- The lines that are kept do not depend on where a text is cut into them and blank ones. -/
theorem cleanLines_of_hasLines (read : HasLines text (kept ++ rest))
    (blank : ∀ line ∈ rest, allBlank line = true)
    (final : ∀ last ∈ kept.getLast?, allBlank last = false) :
    cleanLines text = kept.map trimEnd := by
  have dropped : ∀ line ∈ (rest.map trimEnd).reverse, line.isEmpty = true := by
    intro line inside
    obtain ⟨written, listed, rfl⟩ := List.mem_map.mp (List.mem_reverse.mp inside)
    rw [List.isEmpty_iff, trimEnd_eq_nil_iff]
    exact blank written listed
  rw [cleanLines, read.lines_eq, List.map_append, List.reverse_append,
    List.dropWhile_append_of_pos dropped]
  rcases kept.eq_nil_or_concat' with rfl | ⟨front, last, rfl⟩
  · rfl
  · have given : trimEnd last ≠ [] := by
      rw [Ne, trimEnd_eq_nil_iff, final last (by simp)]
      exact Bool.false_ne_true
    simp [given]

/-- A text is cut behind its last line that is not blank. -/
theorem exists_cut (lines : List (List Char)) : ∃ kept rest, lines = kept ++ rest ∧
    (∀ line ∈ rest, allBlank line = true) ∧ ∀ last ∈ kept.getLast?, allBlank last = false := by
  refine ⟨lines.rdropWhile allBlank, lines.rtakeWhile allBlank,
    List.rdropWhile_append_rtakeWhile.symm, fun _ => List.mem_rtakeWhile_imp, ?_⟩
  intro last final
  obtain ⟨given, rfl⟩ := List.mem_getLast?_eq_getLast final
  exact Bool.eq_false_iff.mpr (List.rdropWhile_last_not _ _ given)

/-- No lines are left of a text exactly when all of them are blank. -/
theorem cleanLines_eq_nil_iff :
    cleanLines text = [] ↔ ∀ line ∈ Text.lines text, allBlank line = true := by
  have dropped : cleanLines text = [] ↔
      ∀ line ∈ (Text.lines text).map trimEnd, line.isEmpty = true := List.rdropWhile_eq_nil_iff
  simp only [dropped, List.forall_mem_map, List.isEmpty_iff, trimEnd_eq_nil_iff]

/-- Only no lines at all have an empty text. -/
theorem unlines_eq_nil_iff {lines : List (List Char)} : unlines lines = [] ↔ lines = [] := by
  cases lines <;> simp

/-- Cleaning a text cleans it. -/
theorem cleans_unlines (text : List Char) : Cleans text (unlines (cleanLines text)) := by
  have tidy := tidyLines_cleanLines text
  obtain ⟨kept, rest, cut, blank, final⟩ := exists_cut (Text.lines text)
  have read : HasLines text (kept ++ rest) := hasLines_iff.mpr cut
  have same := cleanLines_of_hasLines read blank final
  constructor
  · refine ⟨kept, rest, kept.map trimEnd, read, hasLines_iff.mpr ?_, ?_, blank, final⟩
    · rw [tidy.lines_unlines, same]
    · rw [List.forall₂_map_right_iff, List.forall₂_same]
      exact fun line _ => strips_trimEnd line
  · rw [unlines_eq_nil_iff, cleanLines_eq_nil_iff]
    constructor
    · intro allOf read written
      rwa [← written.lines_eq]
    · intro allOf
      exact allOf _ (hasLines_lines text)
  · by_cases empty : cleanLines text = []
    · rw [empty]
      exact List.forall_mem_singleton.mpr solid_nil
    · exact (tidy.tidy empty).lines
  · intro given
    exact (tidy.tidy (mt unlines_eq_nil_iff.mpr given)).ending

/-- Nothing else is a cleaned form of the text. -/
theorem Cleans.eq_unlines (cleans : Cleans text result) : result = unlines (cleanLines text) := by
  obtain ⟨kept, rest, bare, read, written, stripped, blank, final⟩ := cleans.lines
  have lines : cleanLines text = bare := by
    have same : List.Forall₂ Eq (kept.map trimEnd) bare :=
      List.forall₂_map_left_iff.mpr (stripped.imp fun line bare => strips_iff.mp)
    rw [List.forall₂_eq_eq_eq] at same
    rw [cleanLines_of_hasLines read blank final, same]
  rw [lines, ← written.lines_eq]
  by_cases empty : result = []
  · subst empty
    rfl
  · obtain ⟨own, whole, tidy⟩ := Tidy.exists_lines ⟨cleans.solid, cleans.ending empty⟩
    rw [whole, tidy.lines_unlines]

/-- Cleaning gives the one text that keeps the lines of a text in this way, and leaves it as it is
when it is cleaned again. -/
theorem clean_exactly (text : String) :
    Cleans text.toList (clean text).toList ∧
      (∀ result : String, Cleans text.toList result.toList → result = clean text) ∧
      clean (clean text) = clean text := by
  refine ⟨?_, fun result cleans => ?_, clean_clean text⟩
  · rw [clean_eq_ofList, String.toList_ofList]
    exact cleans_unlines text.toList
  · rw [clean_eq_ofList, ← cleans.eq_unlines, String.ofList_toList]

example : clean "a \r\n\u2003\n\tb\rc\r\r\n \r\n\n  " = "a\n\n\tb\rc\n" := by decide +kernel

end SourceUnit

end SchemaBeans

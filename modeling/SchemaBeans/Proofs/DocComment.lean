import SchemaBeans.DocComment
import SchemaBeans.Proofs.Lines

/-!
# Lines of doc comments

A comment is written line by line, whatever its text holds: no line of it has a
line feed inside, and after its indentation each starts with a slash or a blank.
-/

namespace SchemaBeans.DocComment

variable {indent text line : List Char}

/-- A comment is written line by line. -/
theorem toList_render (indent text : String) :
    (render indent text).toList = Text.unlines (lines indent.toList text.toList) := by
  simp [render, Text.unlines]

/-- Making a line fit for a comment brings in no line feed. -/
theorem not_mem_sanitizeFrom (blankSoFar : Bool) (whole : '\n' ∉ line) :
    '\n' ∉ sanitizeFrom blankSoFar line := by
  fun_induction sanitizeFrom blankSoFar line with
  | case1 blankSoFar rest hypothesis => simp_all
  | case2 rest hypothesis => simp_all
  | case3 blankSoFar rest notBlank hypothesis => simp_all
  | case4 blankSoFar character rest _ _ hypothesis => simp_all
  | case5 => exact whole

theorem trim_subset (line : List Char) : Text.trim line ⊆ line := by
  intro character inside
  have trailing := List.mem_reverse.mp inside
  have kept := (List.dropWhile_sublist _).subset trailing
  exact (List.dropWhile_sublist _).subset (List.mem_reverse.mp kept)

theorem withoutOuterEmpty_subset (lines : List (List Char)) : withoutOuterEmpty lines ⊆ lines := by
  intro line inside
  have trailing := List.mem_reverse.mp inside
  have kept := (List.dropWhile_sublist _).subset trailing
  exact (List.dropWhile_sublist _).subset (List.mem_reverse.mp kept)

/-- The lines of a description hold no line feed. -/
theorem not_mem_of_mem_contentLines (content : line ∈ contentLines text) : '\n' ∉ line := by
  obtain ⟨read, inside, rfl⟩ := List.mem_map.mp (withoutOuterEmpty_subset _ content)
  exact fun feed => Text.not_mem_of_mem_lines inside (trim_subset read feed)

/-- The lines of a comment: the opening, the content and the closing. -/
theorem mem_lines (written : line ∈ lines indent text) :
    line = indent ++ "/**".toList ∨
      (∃ content ∈ contentLines text, line = contentLine indent content) ∨
      line = indent ++ " */".toList := by
  unfold lines at written
  split at written
  · cases written
  · next notEmpty =>
      simp only [List.cons_append, List.mem_cons, List.mem_append, List.mem_map, List.not_mem_nil,
        or_false] at written
      rcases written with opening | ⟨content, inside, rfl⟩ | closing
      · exact .inl opening
      · exact .inr (.inl ⟨content, inside, rfl⟩)
      · exact .inr (.inr closing)

/-- Behind its indentation, each line of a comment has a mark. -/
theorem exists_mark_of_mem_lines (written : line ∈ lines indent text) :
    ∃ rest, line = indent ++ "/**".toList ++ rest ∨ line = indent ++ " *".toList ++ rest := by
  rcases mem_lines written with rfl | ⟨content, _, rfl⟩ | rfl
  · exact ⟨[], .inl (by simp)⟩
  · unfold contentLine
    split
    · exact ⟨[], .inr (by simp)⟩
    · exact ⟨' ' :: sanitize content, .inr (by simp)⟩
  · exact ⟨['/'], .inr (by simp)⟩

/-- What follows the indentation of a line starts with a slash or a blank and holds no line
feed. -/
theorem exists_of_mem_lines (written : line ∈ lines indent text) :
    ∃ first rest, line = indent ++ first :: rest ∧ (first = '/' ∨ first = ' ') ∧
      '\n' ∉ first :: rest := by
  rcases mem_lines written with rfl | ⟨content, inside, rfl⟩ | rfl
  · exact ⟨'/', ['*', '*'], by simp, .inl rfl, by decide⟩
  · have whole := not_mem_of_mem_contentLines inside
    unfold contentLine
    split
    · exact ⟨' ', ['*'], by simp, .inr rfl, by decide⟩
    · refine ⟨' ', ['*', ' '] ++ sanitize content, by simp, .inr rfl, ?_⟩
      have clean : '\n' ∉ sanitize content := not_mem_sanitizeFrom true whole
      simp [clean]
  · exact ⟨' ', ['*', '/'], by simp, .inr rfl, by decide⟩

end SchemaBeans.DocComment

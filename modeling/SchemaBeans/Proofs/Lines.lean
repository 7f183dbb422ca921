import SchemaBeans.Text.Blank

/-!
# Texts that are written line by line

`unlines` puts a line feed after each line, and `lines` reads such a text back
as long as no line holds a line feed itself. A text that ends with a line feed
never shares a line with what follows it.
-/

namespace SchemaBeans.Text

/-- The text of some lines, with a line feed after each of them. -/
def unlines (lines : List (List Char)) : List Char := lines.flatMap fun line => line ++ ['\n']

@[simp] theorem unlines_nil : unlines [] = [] := rfl

@[simp] theorem unlines_cons (line : List Char) (lines : List (List Char)) :
    unlines (line :: lines) = line ++ '\n' :: unlines lines := by
  simp [unlines]

/-- The text of lines and further lines is the one of the first and then that of the others. -/
@[simp] theorem unlines_append (left right : List (List Char)) :
    unlines (left ++ right) = unlines left ++ unlines right := by
  simp [unlines]

/-- A line as it is read back: one carriage return at its end goes with the line feed. -/
def withoutReturn (line : List Char) : List Char := (dropCarriageReturn line.reverse).reverse

/-- A line without its carriage return is the start of the line. -/
theorem withoutReturn_isPrefix (line : List Char) : withoutReturn line <+: line := by
  unfold withoutReturn dropCarriageReturn
  split
  · next reversed same =>
      have whole : line = reversed.reverse ++ ['\r'] := by
        rw [← line.reverse_reverse, same, List.reverse_cons]
      rw [whole]
      exact List.prefix_append _ _
  · simp

/-- A line that does not end with a carriage return loses nothing. -/
theorem withoutReturn_eq_self {line : List Char} (plain : line.getLast? ≠ some '\r') :
    withoutReturn line = line := by
  unfold withoutReturn dropCarriageReturn
  split
  · next reversed same =>
      refine absurd ?_ plain
      rw [← List.head?_reverse, same, List.head?_cons]
  · exact List.reverse_reverse line

/-- A line feed ends the line that was collected. -/
theorem linesFrom_break (rest reversed : List Char) :
    linesFrom ('\n' :: rest) reversed =
      (dropCarriageReturn reversed).reverse :: linesFrom rest [] := by
  rw [linesFrom]

/-- Any other character is collected. -/
theorem linesFrom_cons {character : Char} (inside : character ≠ '\n') (rest reversed : List Char) :
    linesFrom (character :: rest) reversed = linesFrom rest (character :: reversed) := by
  rw [linesFrom]
  exact inside

/-- Lines after a line feed do not depend on what stands before it. -/
theorem linesFrom_append (front rest reversed : List Char) :
    linesFrom (front ++ '\n' :: rest) reversed =
      linesFrom (front ++ ['\n']) reversed ++ linesFrom rest [] := by
  induction front generalizing reversed with
  | nil => simp [linesFrom_break, linesFrom]
  | cons character front hypothesis =>
      by_cases feed : character = '\n'
      · subst feed
        simp only [List.cons_append, linesFrom_break, hypothesis]
      · simp only [List.cons_append, linesFrom_cons feed, hypothesis]

/-- A line without a line feed inside is read up to the one that ends it. -/
theorem linesFrom_line {line : List Char} (whole : '\n' ∉ line) (rest reversed : List Char) :
    linesFrom (line ++ '\n' :: rest) reversed =
      withoutReturn (reversed.reverse ++ line) :: linesFrom rest [] := by
  induction line generalizing reversed with
  | nil => simp [linesFrom_break, withoutReturn]
  | cons character line hypothesis =>
      obtain ⟨inside, whole⟩ := not_or.mp (mt List.mem_cons.mpr whole)
      rw [List.cons_append, linesFrom_cons (Ne.symm inside), hypothesis whole]
      simp

/-- The lines behind a line feed do not depend on what is in front of it. -/
theorem lines_append_break (front rest : List Char) :
    lines (front ++ '\n' :: rest) = lines (front ++ ['\n']) ++ lines rest :=
  linesFrom_append front rest []

/-- Lines that are written are read back. -/
theorem lines_unlines {written : List (List Char)} (whole : ∀ line ∈ written, '\n' ∉ line) :
    lines (unlines written) = written.map withoutReturn := by
  induction written with
  | nil => rfl
  | cons line written hypothesis =>
      obtain ⟨first, whole⟩ := List.forall_mem_cons.mp whole
      rw [unlines_cons, List.map_cons, ← hypothesis whole]
      exact linesFrom_line first (unlines written) []

/-- What follows written lines is read on its own. -/
theorem lines_unlines_append (written : List (List Char)) (rest : List Char) :
    lines (unlines written ++ rest) = lines (unlines written) ++ lines rest := by
  rcases written.eq_nil_or_concat with rfl | ⟨front, line, rfl⟩
  · rfl
  · have ending : unlines (front ++ [line]) = (unlines front ++ line) ++ ['\n'] := by simp
    rw [List.concat_eq_append, ending, List.append_assoc, List.singleton_append, lines_append_break]

/-- No line that is read holds a line feed. -/
theorem not_mem_of_mem_linesFrom {text reversed line : List Char} (clean : '\n' ∉ reversed)
    (read : line ∈ linesFrom text reversed) : '\n' ∉ line := by
  induction text generalizing reversed with
  | nil =>
      cases reversed with
      | nil => cases read
      | cons character reversed =>
          obtain rfl := List.mem_singleton.mp read
          exact fun inside => clean (List.mem_reverse.mp inside)
  | cons character text hypothesis =>
      by_cases feed : character = '\n'
      · subst feed
        rw [linesFrom_break] at read
        rcases List.mem_cons.mp read with rfl | later
        · have kept := (withoutReturn_isPrefix reversed.reverse).subset
          rw [withoutReturn, List.reverse_reverse] at kept
          exact fun inside => clean (List.mem_reverse.mp (kept inside))
        · exact hypothesis List.not_mem_nil later
      · rw [linesFrom_cons feed] at read
        refine hypothesis ?_ read
        exact mt List.mem_cons.mp (not_or.mpr ⟨Ne.symm feed, clean⟩)

/-- No line holds a line feed. -/
theorem not_mem_of_mem_lines {text line : List Char} (read : line ∈ lines text) : '\n' ∉ line :=
  not_mem_of_mem_linesFrom List.not_mem_nil read

end SchemaBeans.Text

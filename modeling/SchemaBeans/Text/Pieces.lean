/-!
# Splitting and joining

Text is cut at every occurrence of one separator character, so there is always
one piece more than there are separators; joining the pieces with the separator
gives the text back.
-/

namespace SchemaBeans.Text

/-- The pieces between the separators; always at least one. -/
def split (separator : Char) : List Char → List (List Char)
  | [] => [[]]
  | character :: rest =>
      if character = separator then [] :: split separator rest
      else
        match split separator rest with
        | [] => [[character]]
        | piece :: pieces => (character :: piece) :: pieces

/-- The pieces with the separator between every two neighbours. -/
def join (separator : List Char) : List (List Char) → List Char
  | [] => []
  | [piece] => piece
  | piece :: pieces => piece ++ separator ++ join separator pieces

/-- `split` on strings. -/
def splitString (separator : Char) (text : String) : List String :=
  (split separator text.toList).map String.ofList

/-- `join` on strings. -/
def joinStrings (separator : String) (pieces : List String) : String :=
  String.ofList (join separator.toList (pieces.map String.toList))

/-- A text has one piece at least. -/
theorem split_ne_nil (separator : Char) (text : List Char) : split separator text ≠ [] := by
  cases text with
  | nil => simp [split]
  | cons character rest =>
      simp only [split]
      split
      · simp
      · split <;> simp

/-- Joining the pieces of a text with its separator gives the text back. -/
theorem join_split (separator : Char) (text : List Char) :
    join [separator] (split separator text) = text := by
  induction text with
  | nil => rfl
  | cons character rest ih =>
      simp only [split]
      split
      · next same =>
          have nonempty := split_ne_nil separator rest
          cases pieces : split separator rest with
          | nil => exact absurd pieces nonempty
          | cons piece more => simp [join, ← pieces, ih, same]
      · cases pieces : split separator rest with
        | nil => exact absurd pieces (split_ne_nil separator rest)
        | cons piece more =>
            rw [pieces] at ih
            cases more with
            | nil => simpa [join] using ih
            | cons next others => simpa [join] using ih

/-- What stands before a separator and what stands after it are split apart from each other. -/
theorem split_append (separator : Char) (left right : List Char) :
    split separator (left ++ separator :: right) =
      split separator left ++ split separator right := by
  induction left with
  | nil => simp [split]
  | cons character left ih =>
      rw [List.cons_append]
      by_cases same : character = separator
      · simp [split, same, ih]
      · cases pieces : split separator left with
        | nil => exact absurd pieces (split_ne_nil separator left)
        | cons piece more => simp [split, same, ih, pieces]

/-- A text without the separator is one piece. -/
theorem split_eq_singleton {separator : Char} {text : List Char} (whole : separator ∉ text) :
    split separator text = [text] := by
  induction text with
  | nil => rfl
  | cons character rest ih =>
      obtain ⟨different, whole⟩ := not_or.mp (mt List.mem_cons.mpr whole)
      simp [split, Ne.symm different, ih whole]

/-- No piece holds the separator. -/
theorem not_mem_of_mem_split {separator : Char} {text piece : List Char}
    (inside : piece ∈ split separator text) : separator ∉ piece := by
  induction text generalizing piece with
  | nil => simp_all [split]
  | cons character rest ih =>
      by_cases same : character = separator
      · rw [split, if_pos same] at inside
        rcases List.mem_cons.mp inside with rfl | later
        · exact List.not_mem_nil
        · exact ih later
      · cases pieces : split separator rest with
        | nil => exact absurd pieces (split_ne_nil separator rest)
        | cons first more =>
            rw [split, if_neg same, pieces] at inside
            rw [pieces] at ih
            rcases List.mem_cons.mp inside with rfl | later
            · intro found
              rcases List.mem_cons.mp found with equal | found
              · exact same equal.symm
              · exact ih List.mem_cons_self found
            · exact ih (List.mem_cons_of_mem _ later)

/-- A separator stands between the first piece and the others. -/
theorem join_cons {separator piece : List Char} {pieces : List (List Char)} (more : pieces ≠ []) :
    join separator (piece :: pieces) = piece ++ separator ++ join separator pieces := by
  cases pieces with
  | nil => exact absurd rfl more
  | cons next pieces => rfl

/-- Two lists of pieces are joined apart from each other. -/
theorem join_append {separator : List Char} {left right : List (List Char)} (some : left ≠ [])
    (more : right ≠ []) :
    join separator (left ++ right) = join separator left ++ separator ++ join separator right := by
  induction left with
  | nil => exact absurd rfl some
  | cons piece left ih =>
      cases left with
      | nil => exact join_cons more
      | cons next left =>
          have tail := ih (List.cons_ne_nil _ _)
          rw [List.cons_append, join_cons (by simp), tail, join_cons (List.cons_ne_nil _ _)]
          simp only [List.append_assoc]

/-- Pieces without the separator are got back from what they are joined to. -/
theorem split_join {separator : Char} {pieces : List (List Char)} (some : pieces ≠ [])
    (whole : ∀ piece ∈ pieces, separator ∉ piece) :
    split separator (join [separator] pieces) = pieces := by
  induction pieces with
  | nil => exact absurd rfl some
  | cons piece pieces ih =>
      obtain ⟨first, whole⟩ := List.forall_mem_cons.mp whole
      cases pieces with
      | nil => exact split_eq_singleton first
      | cons next pieces =>
          have tail := ih (List.cons_ne_nil _ _) whole
          rw [join_cons (List.cons_ne_nil _ _), List.append_assoc, List.singleton_append,
            split_append, split_eq_singleton first, tail]
          rfl

/-- A character of a joined text is that of a separator or of a piece. -/
theorem mem_of_mem_join {separator : List Char} {pieces : List (List Char)} {character : Char}
    (inside : character ∈ join separator pieces) :
    character ∈ separator ∨ ∃ piece ∈ pieces, character ∈ piece := by
  fun_induction join separator pieces with
  | case1 => cases inside
  | case2 piece => exact .inr ⟨piece, List.mem_singleton_self piece, inside⟩
  | case3 piece pieces _ hypothesis =>
      rcases List.mem_append.mp inside with front | later
      · rcases List.mem_append.mp front with first | separating
        · exact .inr ⟨piece, List.mem_cons_self, first⟩
        · exact .inl separating
      · rcases hypothesis later with separating | ⟨other, present, within⟩
        · exact .inl separating
        · exact .inr ⟨other, List.mem_cons_of_mem _ present, within⟩

/-- The characters of every piece are in the joined text. -/
theorem mem_join_of_mem {separator piece : List Char} {pieces : List (List Char)}
    {character : Char} (present : piece ∈ pieces) (inside : character ∈ piece) :
    character ∈ join separator pieces := by
  fun_induction join separator pieces with
  | case1 => cases present
  | case2 only => exact List.mem_singleton.mp present ▸ inside
  | case3 first others _ hypothesis =>
      rcases List.mem_cons.mp present with rfl | later
      · exact List.mem_append_left _ (List.mem_append_left _ inside)
      · exact List.mem_append_right _ (hypothesis later)

/-- Any other character than the separator stands in a text when it stands in one of its pieces. -/
theorem mem_join_iff {separator character : Char} {pieces : List (List Char)}
    (different : character ≠ separator) :
    character ∈ join [separator] pieces ↔ ∃ piece ∈ pieces, character ∈ piece := by
  constructor
  · intro inside
    exact (mem_of_mem_join inside).resolve_left (mt List.mem_singleton.mp different)
  · rintro ⟨piece, present, inside⟩
    exact mem_join_of_mem present inside

/-- A text has no fewer characters than it has pieces, where no piece is empty. -/
theorem length_le_length_flatMap {ι : Type} {piece : ι → List Char}
    (proper : ∀ element, piece element ≠ []) (elements : List ι) :
    elements.length ≤ (elements.flatMap piece).length := by
  induction elements with
  | nil => exact Nat.le_refl _
  | cons element elements ih =>
      have first := List.length_pos_iff.mpr (proper element)
      rw [List.flatMap_cons, List.length_append, List.length_cons]
      omega

end SchemaBeans.Text

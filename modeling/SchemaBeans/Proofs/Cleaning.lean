import Mathlib.Data.List.Basic
import SchemaBeans.Proofs.Lines
import SchemaBeans.Source
import SchemaBeans.Text.Pieces

/-!
# Clean sources

A source is tidy when no line of it ends with a blank and its last line feed
stands right behind its last character that is not blank. Cleaning leaves exactly
the tidy texts and the empty text as they are, and whatever it cleans is one of
these afterwards.
-/

namespace SchemaBeans

namespace Text

/-- A line is solid when it does not end with a blank. -/
def Solid (line : List Char) : Prop := ∀ last ∈ line.getLast?, isBlank last = false

variable {line front rest : List Char}

theorem solid_nil : Solid [] := by simp [Solid]

@[simp] theorem solid_concat_iff {last : Char} :
    Solid (front ++ [last]) ↔ isBlank last = false := by
  simp [Solid]

/-- A line is solid when it ends with something solid. -/
theorem Solid.append_left (solid : Solid rest) (some : rest ≠ []) (front : List Char) :
    Solid (front ++ rest) := by
  obtain ⟨before, last, rfl⟩ := rest.eq_nil_or_concat'.resolve_left some
  rw [← List.append_assoc, solid_concat_iff]
  exact solid_concat_iff.mp solid

/-- Solid parts make a solid line. -/
theorem Solid.append (first : Solid front) (second : Solid rest) : Solid (front ++ rest) := by
  by_cases empty : rest = []
  · rwa [empty, List.append_nil]
  · exact second.append_left empty front

/-- The end of a solid line is solid. -/
theorem Solid.of_append (front : List Char) (solid : Solid (front ++ rest)) : Solid rest := by
  rcases rest.eq_nil_or_concat' with rfl | ⟨before, last, rfl⟩
  · exact solid_nil
  · rw [← List.append_assoc, solid_concat_iff] at solid
    exact solid_concat_iff.mpr solid

/-- A line is solid when there is nothing to trim at its end. -/
theorem trimEnd_eq_self_iff : trimEnd line = line ↔ Solid line := by
  rcases line.eq_nil_or_concat' with rfl | ⟨front, last, rfl⟩
  · exact iff_of_true rfl solid_nil
  · rw [solid_concat_iff]
    cases blank : isBlank last with
    | false => simp [trimEnd, blank]
    | true =>
        have trimmed : trimEnd (front ++ [last]) = trimEnd front := by simp [trimEnd, blank]
        refine iff_of_false (fun same => ?_) (by simp)
        have shorter := length_trimEnd_le front
        rw [← trimmed, same, List.length_append, List.length_singleton] at shorter
        omega

instance : Decidable (Solid line) := decidable_of_iff _ trimEnd_eq_self_iff

/-- Trimming the end of a line makes it solid. -/
theorem solid_trimEnd (line : List Char) : Solid (trimEnd line) := by
  rw [Solid, trimEnd, List.getLast?_reverse]
  intro last first
  have stays := List.head?_dropWhile_not isBlank line.reverse
  rw [first] at stays
  simpa using stays

/-- Trimming the end of a line leaves its start. -/
theorem trimEnd_isPrefix (line : List Char) : trimEnd line <+: line := by
  have dropped := List.dropWhile_suffix isBlank (l := line.reverse)
  simpa [trimEnd] using List.reverse_prefix.mpr dropped

/-- A solid line is read back whole: no carriage return stands at its end. -/
theorem Solid.withoutReturn_eq (solid : Solid line) : withoutReturn line = line := by
  refine withoutReturn_eq_self fun ending => ?_
  exact absurd (solid _ ending) (by decide)

/-- The text of some lines ends with a line feed and has one between every two neighbours. -/
theorem unlines_eq_join {lines : List (List Char)} (some : lines ≠ []) :
    unlines lines = join ['\n'] lines ++ ['\n'] := by
  induction lines with
  | nil => exact absurd rfl some
  | cons line lines hypothesis =>
      cases lines with
      | nil => simp [join]
      | cons next lines =>
          rw [unlines_cons, hypothesis (List.cons_ne_nil _ _), join_cons (List.cons_ne_nil _ _)]
          simp only [List.append_assoc, List.cons_append, List.nil_append]

end Text

namespace SourceUnit

open Text

/-- No line of a text ends with a blank, and the text ends with exactly one line feed: right before
it stands a character that is not blank. -/
structure Tidy (text : List Char) : Prop where
  lines : ∀ line ∈ split '\n' text, Solid line
  ending : ∃ front last, text = front ++ [last, '\n'] ∧ isBlank last = false

/-- The lines of a tidy text: solid ones without line feeds inside, the last of them not empty. -/
structure TidyLines (lines : List (List Char)) : Prop where
  whole : ∀ line ∈ lines, '\n' ∉ line
  solid : ∀ line ∈ lines, Solid line
  last : ∀ line ∈ lines.getLast?, line ≠ []

variable {lines : List (List Char)} {text : List Char}

/-- Tidy lines are the lines of their text. -/
theorem TidyLines.lines_unlines (tidy : TidyLines lines) : Text.lines (unlines lines) = lines := by
  have read : lines.map withoutReturn = lines.map id :=
    List.map_congr_left fun line inside => (tidy.solid line inside).withoutReturn_eq
  rw [Text.lines_unlines tidy.whole, read, List.map_id]

/-- Tidy lines are those of their text. -/
theorem TidyLines.cleanLines_unlines (tidy : TidyLines lines) :
    cleanLines (unlines lines) = lines := by
  have trimmed : lines.map trimEnd = lines.map id :=
    List.map_congr_left fun line inside => trimEnd_eq_self_iff.mpr (tidy.solid line inside)
  rw [cleanLines, tidy.lines_unlines, trimmed, List.map_id]
  rcases lines.eq_nil_or_concat with rfl | ⟨front, line, rfl⟩
  · rfl
  · have given : line ≠ [] := tidy.last line (by simp)
    simp [given]

/-- What cleaning leaves of a text are tidy lines. -/
theorem tidyLines_cleanLines (text : List Char) : TidyLines (cleanLines text) := by
  have read : ∀ line ∈ cleanLines text, ∃ written ∈ Text.lines text, trimEnd written = line := by
    intro line inside
    have kept := (List.dropWhile_sublist _).subset (List.mem_reverse.mp inside)
    exact List.mem_map.mp (List.mem_reverse.mp kept)
  constructor
  · intro line inside feed
    obtain ⟨written, present, rfl⟩ := read line inside
    exact not_mem_of_mem_lines present ((trimEnd_isPrefix written).subset feed)
  · intro line inside
    obtain ⟨written, present, rfl⟩ := read line inside
    exact solid_trimEnd written
  · intro line last
    rw [cleanLines, List.getLast?_reverse] at last
    have stays := List.head?_dropWhile_not List.isEmpty ((Text.lines text).map trimEnd).reverse
    rw [last] at stays
    simpa using stays

/-- The text of tidy lines is tidy. -/
theorem TidyLines.tidy (tidy : TidyLines lines) (some : lines ≠ []) : Tidy (unlines lines) := by
  constructor
  · intro line inside
    have pieces : split '\n' (unlines lines) = lines ++ [[]] := by
      rw [unlines_eq_join some, split_append, split_join some tidy.whole]
      rfl
    rw [pieces, List.mem_append, List.mem_singleton] at inside
    rcases inside with written | rfl
    · exact tidy.solid line written
    · exact solid_nil
  · obtain ⟨front, line, rfl⟩ := lines.eq_nil_or_concat'.resolve_left some
    have given : line ≠ [] := tidy.last line (by simp)
    obtain ⟨start, last, rfl⟩ := line.eq_nil_or_concat'.resolve_left given
    have solid := tidy.solid (start ++ [last]) (by simp)
    exact ⟨unlines front ++ start, last, by simp, solid_concat_iff.mp solid⟩

/-- A tidy text is the text of its lines. -/
theorem Tidy.exists_lines (tidy : Tidy text) : ∃ lines, text = unlines lines ∧ TidyLines lines := by
  obtain ⟨front, last, rfl, solid⟩ := tidy.ending
  have visible : last ≠ '\n' := by
    rintro rfl
    exact absurd solid (by decide)
  have pieces : split '\n' (front ++ [last, '\n']) = split '\n' (front ++ [last]) ++ [[]] := by
    have cut := split_append '\n' (front ++ [last]) []
    rwa [List.append_assoc] at cut
  have whole := split_ne_nil '\n' (front ++ [last])
  refine ⟨split '\n' (front ++ [last]), ?_, fun _ => not_mem_of_mem_split, ?_, ?_⟩
  · rw [unlines_eq_join whole, join_split, List.append_assoc]
    rfl
  · intro line inside
    exact tidy.lines line (pieces ▸ List.mem_append_left _ inside)
  · rintro line final rfl
    obtain ⟨before, same⟩ := List.getLast?_eq_some_iff.mp final
    have rejoined := join_split '\n' (front ++ [last])
    rw [same] at rejoined
    rcases before with _ | ⟨first, before⟩
    · exact absurd rejoined (by simp [join])
    · rw [join_append (List.cons_ne_nil _ _) (List.cons_ne_nil _ _)] at rejoined
      have ends := congrArg List.getLast? rejoined
      simp only [join, List.append_nil, List.getLast?_concat, Option.some.injEq] at ends
      exact visible ends.symm

theorem clean_eq_ofList (text : String) :
    clean text = String.ofList (unlines (cleanLines text.toList)) := rfl

/-- Whatever is cleaned is tidy, unless nothing is left of it. -/
theorem tidy_clean {text : String} (some : clean text ≠ "") : Tidy (clean text).toList := by
  rw [clean_eq_ofList, String.toList_ofList]
  refine (tidyLines_cleanLines text.toList).tidy fun none => some ?_
  rw [clean_eq_ofList, none]
  rfl

/-- Cleaning keeps the tidy texts and the empty text, and no other. -/
theorem clean_eq_self_iff {text : String} : clean text = text ↔ text = "" ∨ Tidy text.toList := by
  constructor
  · intro same
    by_cases empty : text = ""
    · exact .inl empty
    · right
      rw [← same]
      exact tidy_clean (same.symm ▸ empty)
  · rintro (rfl | tidy)
    · rfl
    · obtain ⟨lines, written, tidyLines⟩ := tidy.exists_lines
      rw [clean_eq_ofList, written, tidyLines.cleanLines_unlines, ← written, String.ofList_toList]

/-- A text that is cleaned again does not change. -/
theorem clean_clean (text : String) : clean (clean text) = clean text := by
  rw [clean_eq_self_iff]
  by_cases empty : clean text = ""
  · exact .inl empty
  · exact .inr (tidy_clean empty)

end SourceUnit

end SchemaBeans

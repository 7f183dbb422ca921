import Mathlib.Data.List.Chain
import Mathlib.Data.List.DropRight
import SchemaBeans.Proofs.DocComment
import SchemaBeans.Proofs.TypeTexts

/-!
# What a comment shows

A comment shows the lines of its text from the first one that is not blank to the
last. A line is made fit for the comment where it would close it or start a tag, and
is left as it is otherwise. So the two characters that close a comment stand in it
only once, at its end: `Unclosed` is kept by sanitizing a line and by putting lines
together.
-/

namespace SchemaBeans.DocComment

open Text (allBlank trim trimStart unlines isBlank)

variable {indent text line front rest : List Char}

/-- Two neighbours do not close a comment. -/
def Unclosed (first second : Char) : Prop := ¬ (first = '*' ∧ second = '/')

instance : DecidableRel Unclosed := fun _ _ => inferInstanceAs (Decidable (¬ _))

section Closing

/-- A text closes no comment when the closing mark stands nowhere in it. -/
theorem isChain_unclosed_iff : text.IsChain Unclosed ↔ ¬ "*/".toList <:+: text := by
  rw [List.isChain_iff_forall_rel_of_append_cons_cons]
  constructor
  · rintro free ⟨front, rest, rfl⟩
    exact @free '*' '/' front rest (by simp) ⟨rfl, rfl⟩
  · rintro absent first second front rest rfl ⟨rfl, rfl⟩
    exact absent ⟨front, rest, by simp⟩

/-- What starts with no slash closes nothing that stands before it. -/
theorem isChain_append_of_head? (first : front.IsChain Unclosed) (second : rest.IsChain Unclosed)
    (start : rest.head? ≠ some '/') : (front ++ rest).IsChain Unclosed :=
  first.append second fun _ _ _ next closes => start (closes.2 ▸ next)

/-- What ends with no star is closed by nothing that stands behind it. -/
theorem isChain_append_of_getLast? (first : front.IsChain Unclosed)
    (second : rest.IsChain Unclosed) (finish : front.getLast? ≠ some '*') :
    (front ++ rest).IsChain Unclosed :=
  first.append second fun _ previous _ _ closes => finish (closes.1 ▸ previous)

/-- Without a star before it, a text closes a comment only on its own. -/
theorem isChain_append_of_not_mem (starless : '*' ∉ front) (second : rest.IsChain Unclosed) :
    (front ++ rest).IsChain Unclosed := by
  refine isChain_append_of_getLast? (isChain_unclosed_iff.mpr fun inside => ?_) second ?_
  · exact starless (inside.subset (by decide))
  · exact fun finish => starless (List.mem_of_getLast? finish)

/-- Lines that close no comment close none together. -/
theorem isChain_unlines {lines : List (List Char)}
    (each : ∀ line ∈ lines, line.IsChain Unclosed) : (unlines lines).IsChain Unclosed := by
  induction lines with
  | nil => exact List.isChain_nil
  | cons line lines hypothesis =>
      obtain ⟨first, each⟩ := List.forall_mem_cons.mp each
      have later : (['\n'] ++ unlines lines).IsChain Unclosed :=
        isChain_append_of_getLast? (by decide) (hypothesis each) (by decide)
      rw [Text.unlines_cons]
      exact isChain_append_of_head? first later (by simp)

/-- A slash starts a sanitized line only where it starts the line itself. -/
theorem head?_of_head?_sanitizeFrom {blankSoFar : Bool}
    (start : (sanitizeFrom blankSoFar line).head? = some '/') : line.head? = some '/' := by
  revert start
  fun_cases sanitizeFrom blankSoFar line with
  | case1 => simp
  | case2 => simp
  | case3 => simp
  | case4 => simp
  | case5 => exact id

/-- A sanitized line closes no comment. -/
theorem isChain_sanitizeFrom (blankSoFar : Bool) (line : List Char) :
    (sanitizeFrom blankSoFar line).IsChain Unclosed := by
  fun_induction sanitizeFrom blankSoFar line with
  | case1 blankSoFar rest hypothesis =>
      exact isChain_append_of_getLast? (by decide) hypothesis (by decide)
  | case2 rest hypothesis => exact isChain_append_of_getLast? (by decide) hypothesis (by decide)
  | case3 blankSoFar rest notBlank hypothesis =>
      exact isChain_append_of_getLast? (List.isChain_singleton _) hypothesis (by decide)
  | case4 blankSoFar character rest notClosing notTag hypothesis =>
      refine List.isChain_cons.mpr ⟨?_, hypothesis⟩
      rintro next start ⟨rfl, rfl⟩
      -- The star would close the comment with a slash that starts the rest of the line itself.
      obtain ⟨slash, rfl⟩ := List.head?_eq_some_iff.mp (head?_of_head?_sanitizeFrom start)
      exact notClosing slash rfl rfl
  | case5 => exact List.isChain_nil

/-- Where a text is closed at its end but not before, the two characters are found at its end
only. -/
theorem eq_of_closing {other : List Char} (open_ : (front ++ ['*']).IsChain Unclosed)
    (same : front ++ "*/\n".toList = other ++ "*/".toList ++ rest) :
    other = front ∧ rest = ['\n'] := by
  rcases rest.eq_nil_or_concat' with rfl | ⟨rest, last, rfl⟩
  · have ends := congrArg List.getLast? same
    simp at ends
  · have unbroken : front ++ "*/".toList = other ++ "*/".toList ++ rest ∧ ['\n'] = [last] := by
      refine List.append_inj' ?_ rfl
      simpa using same
    rcases rest.eq_nil_or_concat' with rfl | ⟨rest, before, rfl⟩
    · have fronts := unbroken.1
      rw [List.append_nil] at fronts
      exact ⟨(List.append_cancel_right fronts).symm, unbroken.2.symm⟩
    · have inside : front ++ ['*'] = other ++ "*/".toList ++ rest ∧ ['/'] = [before] := by
        refine List.append_inj' ?_ rfl
        simpa using unbroken.1
      exact absurd ⟨other, rest, inside.1.symm⟩ (isChain_unclosed_iff.mp open_)

end Closing

section Lines

/-- The first character of a sanitized line that is not blank is no `@`, so the line starts no
tag. -/
theorem head?_trimStart_sanitizeFrom {blankSoFar : Bool} (blank : blankSoFar = true) :
    (trimStart (sanitizeFrom blankSoFar line)).head? ≠ some '@' := by
  fun_induction sanitizeFrom blankSoFar line with
  | case1 blankSoFar rest _ =>
      have solid : isBlank '*' = false := by decide
      simp [trimStart, solid]
  | case2 rest _ =>
      have solid : isBlank '\x7b' = false := by decide
      simp [trimStart, solid]
  | case3 blankSoFar rest notBlank _ => exact absurd blank notBlank
  | case4 blankSoFar character rest _ notTag hypothesis =>
      rw [trimStart, List.dropWhile_cons]
      split
      · next white => exact hypothesis (by rw [blank, white]; rfl)
      · exact fun tag => notTag (Option.some.inj tag)
  | case5 => decide

/-- A line that neither closes a comment nor starts a tag stays as it is. -/
theorem sanitizeFrom_eq_self {blankSoFar : Bool} (open_ : line.IsChain Unclosed)
    (plain : blankSoFar = true → (trimStart line).head? ≠ some '@') :
    sanitizeFrom blankSoFar line = line := by
  fun_induction sanitizeFrom blankSoFar line with
  | case1 blankSoFar rest _ => exact absurd ⟨rfl, rfl⟩ (List.isChain_cons_cons.mp open_).1
  | case2 rest _ =>
      have solid : isBlank '@' = false := by decide
      simp [trimStart, solid] at plain
  | case3 blankSoFar rest notBlank hypothesis =>
      exact congrArg _ (hypothesis open_.tail (by simp))
  | case4 blankSoFar character rest _ _ hypothesis =>
      refine congrArg _ (hypothesis open_.tail fun white => ?_)
      obtain ⟨blank, white⟩ := Bool.and_eq_true_iff.mp white
      have later := plain blank
      rwa [trimStart, List.dropWhile_cons_of_pos white] at later
  | case5 => rfl

/-- A line stays as it is exactly when it neither closes a comment nor starts a tag. -/
theorem sanitize_eq_self_iff :
    sanitize line = line ↔ ¬ "*/".toList <:+: line ∧ (trimStart line).head? ≠ some '@' := by
  rw [← isChain_unclosed_iff]
  constructor
  · intro same
    rw [← same]
    exact ⟨isChain_sanitizeFrom true line, head?_trimStart_sanitizeFrom rfl⟩
  · rintro ⟨open_, plain⟩
    exact sanitizeFrom_eq_self open_ fun _ => plain

end Lines

section Block

variable {lines : List (List Char)}

/-- A part of some lines reaches from the first one that is not blank to the last. -/
structure Spans (lines middle : List (List Char)) : Prop where
  within : ∃ before after, lines = before ++ middle ++ after ∧
    ∀ line ∈ before ++ after, allBlank line = true
  first : ∀ line ∈ middle.head?, allBlank line = false
  last : ∀ line ∈ middle.getLast?, allBlank line = false

/-- A part that reaches from the first line that is not blank to the last is empty where all
lines are blank. -/
theorem Spans.eq_nil_iff {middle : List (List Char)} (spans : Spans lines middle) :
    middle = [] ↔ ∀ line ∈ lines, allBlank line = true := by
  obtain ⟨before, after, rfl, outer⟩ := spans.within
  constructor
  · rintro rfl
    simpa using outer
  · intro blank
    cases middle with
    | nil => rfl
    | cons line middle =>
        have first := spans.first line rfl
        rw [blank line (by simp)] at first
        cases first

/-- The lines without the blank ones at either end. -/
theorem exists_spans (lines : List (List Char)) : ∃ middle, Spans lines middle ∧
    withoutOuterEmpty (lines.map trim) = middle.map trim := by
  have empty : List.isEmpty ∘ trim = allBlank := by
    funext line
    exact Bool.eq_iff_iff.mpr (List.isEmpty_iff.trans Text.trim_eq_nil_iff)
  refine ⟨(lines.dropWhile allBlank).rdropWhile allBlank, ⟨?_, ?_, ?_⟩, ?_⟩
  · refine ⟨lines.takeWhile allBlank, (lines.dropWhile allBlank).rtakeWhile allBlank, ?_, ?_⟩
    · rw [List.append_assoc, List.rdropWhile_append_rtakeWhile, List.takeWhile_append_dropWhile]
    · intro line outer
      rcases List.mem_append.mp outer with before | after
      · exact List.mem_takeWhile_imp before
      · exact List.mem_takeWhile_imp (List.mem_reverse.mp after)
  · intro line start
    obtain ⟨more, whole⟩ : (lines.dropWhile allBlank).rdropWhile allBlank <+:
        lines.dropWhile allBlank := List.rdropWhile_prefix allBlank _
    have first : (lines.dropWhile allBlank).head? = some line := by
      rw [← whole, List.head?_append, Option.mem_def.mp start, Option.some_or]
    have solid := List.head?_dropWhile_not allBlank lines
    rw [first] at solid
    simpa using solid
  · intro line finish
    obtain ⟨given, rfl⟩ := List.mem_getLast?_eq_getLast finish
    exact Bool.eq_false_iff.mpr (List.rdropWhile_last_not _ _ given)
  · rw [withoutOuterEmpty, List.dropWhile_map, ← List.map_reverse, List.dropWhile_map,
      ← List.map_reverse, empty]
    rfl

/-- The line of a comment for a line of its text. -/
def shown (indent line : List Char) : List Char :=
  if allBlank line then indent ++ " *".toList else indent ++ " * ".toList ++ sanitize (trim line)

/-- A line of a comment shows the line of its text. -/
theorem contentLine_trim (indent line : List Char) :
    contentLine indent (trim line) = shown indent line := by
  simp only [contentLine, shown, Text.trim_eq_nil_iff]

/-- No line of a comment closes it, as long as its indentation holds no star. -/
theorem isChain_shown (starless : '*' ∉ indent) (line : List Char) :
    (shown indent line).IsChain Unclosed := by
  unfold shown
  split
  · exact isChain_append_of_not_mem starless (by decide)
  · rw [List.append_assoc]
    exact isChain_append_of_not_mem starless
      (isChain_append_of_getLast? (by decide) (isChain_sanitizeFrom true _) (by decide))

/-- The lines of a comment, line by line of its text. -/
theorem exists_block (indent text : List Char) : ∃ middle, Spans (Text.lines text) middle ∧
    DocComment.lines indent text =
      if middle = [] then [] else
        (indent ++ "/**".toList) :: middle.map (shown indent) ++ [indent ++ " */".toList] := by
  obtain ⟨middle, spans, same⟩ := exists_spans (Text.lines text)
  have content : contentLines text = middle.map trim := same
  refine ⟨middle, spans, ?_⟩
  unfold DocComment.lines
  rw [content]
  cases middle with
  | nil => rfl
  | cons line middle =>
      rw [if_neg (List.cons_ne_nil _ _)]
      simp only [List.map_cons, List.map_map, Function.comp_def, contentLine_trim]

/-- A comment shows a text. -/
structure Shows (indent text output : List Char) : Prop where
  empty_iff : output = [] ↔ ∀ line ∈ Text.lines text, allBlank line = true
  block : output ≠ [] → ∃ middle, Spans (Text.lines text) middle ∧
    output = unlines ((indent ++ "/**".toList) :: middle.map (shown indent) ++
      [indent ++ " */".toList])
  /-- The comment is closed at its end and nowhere else. -/
  closing : output ≠ [] → ∃ front, output = front ++ "*/\n".toList ∧
    ∀ other rest, output = other ++ "*/".toList ++ rest → other = front ∧ rest = ['\n']
  /-- Behind the mark of a line, no tag starts. -/
  untagged : ∀ line, ∃ content, shown indent line = indent ++ " *".toList ++ content ∧
    (trimStart content).head? ≠ some '@'
  unchanged_iff : ∀ line, sanitize line = line ↔
    ¬ "*/".toList <:+: line ∧ (trimStart line).head? ≠ some '@'

/-- Behind the mark of a line, no tag starts. -/
theorem exists_content (indent line : List Char) : ∃ content,
    shown indent line = indent ++ " *".toList ++ content ∧
      (trimStart content).head? ≠ some '@' := by
  unfold shown
  split
  · exact ⟨[], by simp, by decide⟩
  · have blank : isBlank ' ' = true := by decide
    refine ⟨' ' :: sanitize (trim line), by simp, ?_⟩
    rw [trimStart, List.dropWhile_cons_of_pos blank]
    exact head?_trimStart_sanitizeFrom rfl

/-- A block of lines is closed by its last line only. -/
theorem exists_closing (starless : '*' ∉ indent) (middle : List (List Char)) :
    ∃ front, unlines ((indent ++ "/**".toList) :: middle.map (shown indent) ++
        [indent ++ " */".toList]) = front ++ "*/\n".toList ∧
      (front ++ ['*']).IsChain Unclosed := by
  -- Up to the last star the block reads as if its last line were a blank one.
  have open_ : (unlines ((indent ++ "/**".toList) :: middle.map (shown indent) ++
      [indent ++ " *".toList])).IsChain Unclosed := by
    apply isChain_unlines
    intro line inside
    rcases List.mem_append.mp inside with inside | last
    · rcases List.mem_cons.mp inside with rfl | content
      · exact isChain_append_of_not_mem starless (by decide)
      · obtain ⟨read, _, rfl⟩ := List.mem_map.mp content
        exact isChain_shown starless read
    · rw [List.mem_singleton.mp last]
      exact isChain_append_of_not_mem starless (by decide)
  refine ⟨unlines ((indent ++ "/**".toList) :: middle.map (shown indent)) ++ (indent ++ [' ']),
    by simp, ?_⟩
  have cut : unlines ((indent ++ "/**".toList) :: middle.map (shown indent) ++
      [indent ++ " *".toList]) = (unlines ((indent ++ "/**".toList) :: middle.map (shown indent)) ++
        (indent ++ [' ']) ++ ['*']) ++ ['\n'] := by simp
  rw [cut] at open_
  exact open_.left_of_append

/-- The lines of a comment show its text, as long as its indentation holds no star. -/
theorem shows_lines (starless : '*' ∉ indent) (text : List Char) :
    Shows indent text (unlines (DocComment.lines indent text)) := by
  obtain ⟨middle, spans, written⟩ := exists_block indent text
  obtain ⟨front, closed, open_⟩ := exists_closing starless middle
  have empty_iff : unlines (DocComment.lines indent text) = [] ↔ middle = [] := by
    rw [written]
    split
    · next none => exact iff_of_true rfl none
    · next some => exact iff_of_false (by simp) some
  have block (given : unlines (DocComment.lines indent text) ≠ []) :
      unlines (DocComment.lines indent text) =
        unlines ((indent ++ "/**".toList) :: middle.map (shown indent) ++
          [indent ++ " */".toList]) := by
    rw [written, if_neg (mt empty_iff.mpr given)]
  exact {
    empty_iff := empty_iff.trans spans.eq_nil_iff
    block := fun given => ⟨middle, spans, block given⟩
    closing := fun given => ⟨front, (block given).trans closed, fun other rest same =>
      eq_of_closing open_ (((block given).trans closed).symm.trans same)⟩
    untagged := exists_content indent
    unchanged_iff := fun line => sanitize_eq_self_iff }

end Block

/-- A comment that stands behind spaces shows its text. -/
theorem shows_render (width : Nat) (text : String) :
    Shows (List.replicate width ' ') text.toList
      (render (String.ofList (List.replicate width ' ')) text).toList := by
  rw [toList_render, String.toList_ofList]
  apply shows_lines
  intro star
  exact absurd (List.eq_of_mem_replicate star) (by decide)

example : render "  " "\n First\n\n@see */\n " =
    "  /**\n   * First\n   *\n   * \x7b@literal @\x7dsee *&#47;\n   */\n" := by
  decide +kernel

end SchemaBeans.DocComment

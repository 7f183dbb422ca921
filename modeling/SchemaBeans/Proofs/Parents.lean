import SchemaBeans.Proofs.Writing
import SchemaBeans.Total

/-!
# Parents of paths

The parent of a path that ends in a name is the path that the name was appended to,
without the separators and dots at its end. It leads where that path leads.
-/

namespace SchemaBeans

namespace Path

variable {base path : Path} {name : String} {names : List String}

/-- How far pieces reach with a separator behind each. -/
def width (pieces : List (List Char)) : Nat := total (fun piece => piece.length + 1) pieces

@[simp] theorem width_nil : width [] = 0 := rfl

@[simp] theorem width_cons (piece : List Char) (pieces : List (List Char)) :
    width (piece :: pieces) = piece.length + 1 + width pieces :=
  rfl

/-- The last piece of a joined text starts where the others and their separators end. -/
theorem length_join_concat (front : List (List Char)) (last : List Char) :
    (Text.join ['/'] (front ++ [last])).length = width front + last.length := by
  induction front with
  | nil => simp [Text.join]
  | cons piece front hypothesis =>
      rw [List.cons_append, Text.join_cons (by simp)]
      simp only [List.length_append, hypothesis, width_cons, List.length_singleton]
      omega

/-- The spans of further pieces start behind those of the first. -/
theorem bodySpans_append (start : Nat) (front rest : List (List Char)) :
    bodySpans start (front ++ rest) =
      bodySpans start front ++ bodySpans (start + width front) rest := by
  induction front generalizing start with
  | nil => simp [bodySpans]
  | cons piece front hypothesis =>
      rw [List.cons_append, bodySpans, bodySpans]
      have later : start + piece.length + 1 + width front = start + width (piece :: front) := by
        simp only [width_cons]
        omega
      cases pieceComponent? piece <;> simp [hypothesis, later]

/-- The spans of a path: that of its start, and those of its pieces. -/
theorem spans_eq (path : Path) :
    path.spans = (leading (Text.split '/' path.text.toList)).map (⟨·, 0, 1⟩) ++
      bodySpans 0 (Text.split '/' path.text.toList) := by
  unfold spans
  split
  · next empty => simp [empty, leading, bodySpans]
  · next empty => simp [empty, leading, bodySpans, pieceComponent?]
  · next pieces notAlone whole =>
      obtain ⟨next, more, rfl⟩ := List.exists_cons_of_ne_nil notAlone
      simp [whole, leading, bodySpans, pieceComponent?]
  · next pieces whole => simp [whole, leading, bodySpans, pieceComponent?]
  · next piece pieces notEmpty notRoot notHere whole =>
      have plain : leading (piece :: pieces) = [] := by
        unfold leading
        split
        · next same => exact absurd (List.cons.inj same).1 notRoot
        · next same => exact absurd (List.cons.inj same).1 notHere
        · rfl
      rw [whole, plain]
      rfl

/-- A name that is appended has the last span, which stops where the text does. -/
theorem exists_spans_join (proper : IsName name) :
    ∃ start, (base.join ⟨name⟩).spans =
      base.spans ++ [⟨.name name, start, (base.join ⟨name⟩).text.toList.length⟩] := by
  obtain ⟨front, joined, start⟩ := exists_split_join base proper.not_isAbsolute
  rw [proper.split_eq] at joined
  have text : (base.join ⟨name⟩).text.toList.length = width front + name.toList.length := by
    rw [← length_join_concat, ← joined, Text.join_split]
  refine ⟨width front, ?_⟩
  rw [spans_eq, spans_eq, joined, bodySpans_append, ← List.append_assoc, text]
  have own : bodySpans (0 + width front) [name.toList] =
      [⟨.name name, width front, width front + name.toList.length⟩] := by
    simp [bodySpans, proper.pieceComponent?_eq]
  rw [own]
  congr 1
  rcases start with closed | ⟨whole, given⟩
  · have here : name.toList ≠ ['.'] := fun same => proper.ne_here (String.toList_inj.mp same)
    rw [closed, leading_concat here (by simp : ([] : List Char) ≠ ['.']), bodySpans_append]
    simp [bodySpans, pieceComponent?]
  · have some : front ≠ [] := whole ▸ Text.split_ne_nil _ _
    rw [whole, leading_append some given]

/-- A path without the separators and dots at its end. -/
def trimmed (path : Path) : Path :=
  match path.spans.getLast? with
  | some last => path.slice 0 last.stop
  | none => ⟨""⟩

/-- The pieces of a text reach one separator further than the text. -/
theorem width_split (text : List Char) : width (Text.split '/' text) = text.length + 1 := by
  have joined := congrArg List.length (Text.join_split '/' text)
  obtain ⟨front, last, whole⟩ :=
    (List.eq_nil_or_concat' (Text.split '/' text)).resolve_left (Text.split_ne_nil _ _)
  rw [whole, length_join_concat] at joined
  rw [whole, width, total_append, ← joined]
  simp only [width, total]
  omega

/-- The spans of some pieces end within their reach. -/
theorem stop_of_mem_bodySpans {start : Nat} {pieces : List (List Char)} {span : Span}
    (inside : span ∈ bodySpans start pieces) :
    start < span.stop ∧ span.stop < start + width pieces := by
  induction pieces generalizing start with
  | nil => cases inside
  | cons piece pieces hypothesis =>
      have later : span ∈ bodySpans (start + piece.length + 1) pieces →
          start < span.stop ∧ span.stop < start + width (piece :: pieces) := by
        intro inside
        have bounds := hypothesis inside
        simp only [width_cons]
        omega
      rw [bodySpans] at inside
      cases own : pieceComponent? piece with
      | none =>
          rw [own] at inside
          exact later inside
      | some component =>
          rw [own] at inside
          rcases List.mem_cons.mp inside with rfl | inside
          · have nonempty : piece ≠ [] := by
              rintro rfl
              simp [pieceComponent?] at own
            have positive := List.length_pos_iff.mpr nonempty
            simp only [width_cons]
            omega
          · exact later inside

/-- The spans of a path stop inside its text, and not where it starts. -/
theorem stop_of_mem_spans {span : Span} (inside : span ∈ path.spans) :
    0 < span.stop ∧ span.stop ≤ path.text.toList.length := by
  have whole := width_split path.text.toList
  rw [spans_eq] at inside
  rcases List.mem_append.mp inside with first | later
  · obtain ⟨component, listed, rfl⟩ := List.mem_map.mp first
    unfold leading at listed
    split at listed
    · next same =>
        rw [same] at whole
        simp only [width_cons, List.length_nil] at whole
        show 0 < 1 ∧ 1 ≤ path.text.toList.length
        omega
    · next same =>
        rw [same] at whole
        simp only [width_cons, List.length_singleton] at whole
        show 0 < 1 ∧ 1 ≤ path.text.toList.length
        omega
    · cases listed
  · have bounds := stop_of_mem_bodySpans later
    omega

/-- A path that ends with a name has nothing to trim. -/
theorem trimmed_join (proper : IsName name) : (base.join ⟨name⟩).trimmed = base.join ⟨name⟩ := by
  obtain ⟨start, spans⟩ := @exists_spans_join base name proper
  simp [trimmed, spans, slice]

/-- The parents of a path that ends in a name are those of the path before the name, with that path
itself. -/
theorem parents_join (proper : IsName name) :
    (base.join ⟨name⟩).parents = base.trimmed :: base.parents := by
  obtain ⟨start, spans⟩ := @exists_spans_join base name proper
  have slices : ∀ span ∈ base.spans,
      (base.join ⟨name⟩).slice 0 span.stop = base.slice 0 span.stop := by
    intro span inside
    have short := (stop_of_mem_spans inside).2
    rw [slice, slice, toList_join proper.not_isAbsolute, List.take_append_of_le_length short]
  have cut : (base.join ⟨name⟩).spans.reverse.tail.map
      (fun span => (base.join ⟨name⟩).slice 0 span.stop) =
        base.spans.reverse.map fun span => base.slice 0 span.stop := by
    rw [spans, List.reverse_concat, List.tail_cons]
    exact List.map_congr_left fun span inside => slices span (List.mem_reverse.mp inside)
  unfold parents
  simp only [cut, trimmed]
  rw [spans]
  cases own : base.spans with
  | nil => simp
  | cons first more =>
      obtain ⟨front, last, ends⟩ :=
        (List.eq_nil_or_concat' (first :: more)).resolve_left (List.cons_ne_nil _ _)
      have reversed : (first :: more).reverse = last :: front.reverse := by
        rw [ends, List.reverse_concat]
      have final : (first :: more).getLast? = some last := by rw [ends, List.getLast?_concat]
      rw [reversed, final]
      by_cases root : first.component = .root <;> simp [root]

/-- Pieces have no spans when none of them stands for a component. -/
theorem bodySpans_eq_nil_iff {start : Nat} {pieces : List (List Char)} :
    bodySpans start pieces = [] ↔ ∀ piece ∈ pieces, pieceComponent? piece = none := by
  induction pieces generalizing start with
  | nil => simp [bodySpans]
  | cons piece pieces hypothesis =>
      rw [bodySpans, List.forall_mem_cons]
      cases pieceComponent? piece <;> simp [hypothesis]

/-- A span stops where the first pieces do, and those behind them have the spans that follow. -/
theorem exists_front_of_bodySpans {start : Nat} {pieces : List (List Char)} {span : Span}
    {before after : List Span} (whole : bodySpans start pieces = before ++ span :: after) :
    ∃ front closing, pieces = front ++ closing ∧ front ≠ [] ∧
      span.stop = start + (Text.join ['/'] front).length ∧
      bodySpans (start + width front) closing = after := by
  induction pieces generalizing start before with
  | nil => simp [bodySpans] at whole
  | cons piece pieces hypothesis =>
      have further : ∀ {before}, bodySpans (start + piece.length + 1) pieces =
          before ++ span :: after → ∃ front closing, piece :: pieces = front ++ closing ∧
            front ≠ [] ∧ span.stop = start + (Text.join ['/'] front).length ∧
              bodySpans (start + width front) closing = after := by
        intro before later
        obtain ⟨front, closing, rfl, some, stop, rest⟩ := hypothesis later
        refine ⟨piece :: front, closing, rfl, by simp, ?_, ?_⟩
        · rw [stop, Text.join_cons some]
          simp only [List.length_append, List.length_singleton]
          omega
        · rw [← rest]
          simp only [width_cons, Nat.add_assoc]
      rw [bodySpans] at whole
      cases own : pieceComponent? piece with
      | none =>
          rw [own] at whole
          exact further whole
      | some component =>
          rw [own] at whole
          cases before with
          | nil =>
              obtain ⟨rfl, rfl⟩ := List.cons.inj whole
              exact ⟨[piece], pieces, rfl, by simp, rfl, by simp [Nat.add_assoc]⟩
          | cons first before => exact further (List.cons.inj whole).2

/-- A path up to a span in its pieces has the first of them. -/
theorem split_slice {span : Span} {front closing : List (List Char)}
    (whole : Text.split '/' path.text.toList = front ++ closing) (some : front ≠ [])
    (stop : span.stop = 0 + (Text.join ['/'] front).length) :
    Text.split '/' (path.slice 0 span.stop).text.toList = front := by
  have joined := Text.join_split '/' path.text.toList
  have within : ∀ piece ∈ front, '/' ∉ piece := fun piece inside =>
    Text.not_mem_of_mem_split (whole ▸ List.mem_append_left _ inside)
  have taken : path.text.toList.take span.stop = Text.join ['/'] front := by
    rw [stop, Nat.zero_add, ← joined, whole]
    by_cases ends : closing = []
    · rw [ends, List.append_nil, List.take_length]
    · rw [Text.join_append some ends, List.append_assoc, List.take_left]
  simp only [slice, List.drop_zero, String.toList_ofList, taken]
  exact Text.split_join some within

/-- A path up to the span of its start is the start alone: the root, or the directory where the path
starts. -/
theorem slice_start {span : Span}
    (inside : span ∈ (leading (Text.split '/' path.text.toList)).map (⟨·, 0, 1⟩)) :
    span = ⟨.root, 0, 1⟩ ∧ path.slice 0 span.stop = ⟨"/"⟩ ∨
      span = ⟨.here, 0, 1⟩ ∧ path.slice 0 span.stop = ⟨"."⟩ := by
  have joined := Text.join_split '/' path.text.toList
  unfold leading at inside
  split at inside
  · next next more whole =>
      obtain rfl := List.mem_singleton.mp inside
      rw [whole, Text.join_cons (by simp)] at joined
      refine .inl ⟨rfl, ?_⟩
      rw [slice, ← joined]
      rfl
  · next more whole =>
      obtain rfl := List.mem_singleton.mp inside
      refine .inr ⟨rfl, ?_⟩
      rw [slice, ← joined, whole]
      cases more with
      | nil => rfl
      | cons piece more =>
          rw [Text.join_cons (by simp)]
          rfl
  · cases inside

/-- The start of a path, up to a span that is not one of a name or a step up, has no components in
its pieces. -/
theorem split_start {span : Span}
    (inside : span ∈ (leading (Text.split '/' path.text.toList)).map (⟨·, 0, 1⟩)) :
    ∀ piece ∈ Text.split '/' (path.slice 0 span.stop).text.toList,
      pieceComponent? piece = none := by
  rcases slice_start inside with ⟨_, alone⟩ | ⟨_, alone⟩
  · simp [alone, Text.split, pieceComponent?]
  · simp [alone, Text.split, pieceComponent?]

/-- A path up to one of its spans has the first of its pieces, or none with a component. -/
theorem split_of_mem_spans {span : Span} (inside : span ∈ path.spans) :
    (∃ closing, Text.split '/' path.text.toList =
        Text.split '/' (path.slice 0 span.stop).text.toList ++ closing) ∨
      ∀ piece ∈ Text.split '/' (path.slice 0 span.stop).text.toList,
        pieceComponent? piece = none := by
  rw [spans_eq] at inside
  rcases List.mem_append.mp inside with first | later
  · exact .inr (split_start first)
  · obtain ⟨before, after, whole⟩ := List.append_of_mem later
    obtain ⟨front, closing, parts, some, stop, _⟩ := exists_front_of_bodySpans whole
    exact .inl ⟨closing, by rw [split_slice parts some stop, parts]⟩

/-- The pieces that are taken off the end of a path have no component. If none is left, those of
what remains have none either. -/
theorem split_trimmed (path : Path) :
    (∃ closing, Text.split '/' path.text.toList =
        Text.split '/' path.trimmed.text.toList ++ closing ∧
        ∀ piece ∈ closing, pieceComponent? piece = none) ∨
      (∀ piece ∈ Text.split '/' path.text.toList, pieceComponent? piece = none) ∧
        ∀ piece ∈ Text.split '/' path.trimmed.text.toList, pieceComponent? piece = none := by
  have spans := spans_eq path
  rcases List.eq_nil_or_concat' (bodySpans 0 (Text.split '/' path.text.toList)) with
    none | ⟨before, last, whole⟩
  · refine .inr ⟨bodySpans_eq_nil_iff.mp none, ?_⟩
    rw [none, List.append_nil] at spans
    unfold trimmed
    split
    · next last ends => exact split_start (spans ▸ List.mem_of_getLast? ends)
    · simp [Text.split, pieceComponent?]
  · obtain ⟨front, closing, parts, some, stop, rest⟩ := exists_front_of_bodySpans whole
    have final : path.spans.getLast? = Option.some last := by
      rw [spans, whole, ← List.append_assoc, List.getLast?_concat]
    refine .inl ⟨closing, ?_, bodySpans_eq_nil_iff.mp rest⟩
    simp only [trimmed, final]
    rw [split_slice parts some stop, parts]

/-- Only the empty path has no components. -/
theorem text_eq_empty_of_spans (none : path.spans = []) : path.text = "" := by
  rw [spans_eq] at none
  obtain ⟨noStart, blank⟩ := List.append_eq_nil_iff.mp none
  have joined := Text.join_split '/' path.text.toList
  cases whole : Text.split '/' path.text.toList with
  | nil => exact absurd whole (Text.split_ne_nil _ _)
  | cons piece more =>
      rw [whole] at noStart blank joined
      have first := bodySpans_eq_nil_iff.mp blank piece List.mem_cons_self
      have empty : piece = [] := by
        by_contra given
        by_cases here : piece = ['.']
        · simp [here, leading] at noStart
        · by_cases up : piece = ['.', '.'] <;> simp [pieceComponent?, given, here, up] at first
      cases more with
      | nil =>
          rw [empty] at joined
          exact String.toList_inj.mp joined.symm
      | cons next more => simp [empty, leading] at noStart

/-- A path goes on from what is left of it, and that is empty only if the path is. -/
theorem exists_text_trimmed (path : Path) :
    ∃ more, path.text = path.trimmed.text ++ more ∧ (path.trimmed.text = "" → path.text = "") := by
  cases ends : path.spans.getLast? with
  | none =>
      have empty := text_eq_empty_of_spans (List.getLast?_eq_none_iff.mp ends)
      exact ⟨"", by simp [trimmed, ends, empty], fun _ => empty⟩
  | some last =>
      refine ⟨String.ofList (path.text.toList.drop last.stop), ?_, fun none => ?_⟩
      · rw [← String.toList_inj]
        simp [trimmed, ends, slice, List.take_append_drop]
      · obtain ⟨positive, _⟩ := stop_of_mem_spans (List.mem_of_getLast? ends)
        have cut := congrArg String.toList none
        simp only [trimmed, ends, slice, List.drop_zero, String.toList_ofList,
          String.toList_empty, List.take_eq_nil_iff] at cut
        exact String.toList_inj.mp (cut.resolve_left (Nat.ne_of_gt positive))

/-- A path is absolute if a separator comes first. -/
theorem isAbsolute_iff_split :
    path.isAbsolute = true ↔ ∃ next more, Text.split '/' path.text.toList = [] :: next :: more := by
  rw [isAbsolute_iff_head?]
  cases path.text.toList with
  | nil => simp [Text.split]
  | cons first rest =>
      by_cases separator : first = '/'
      · obtain ⟨next, more, whole⟩ :=
          List.exists_cons_of_ne_nil (Text.split_ne_nil '/' rest)
        simp [Text.split, separator, whole]
      · cases whole : Text.split '/' rest with
        | nil => exact absurd whole (Text.split_ne_nil _ _)
        | cons next more => simp [Text.split, separator, whole]

/-- A path that starts with the pieces of another is absolute if that is, unless that is empty. -/
theorem isAbsolute_of_split {front : Path} {closing : List (List Char)}
    (whole : Text.split '/' path.text.toList = Text.split '/' front.text.toList ++ closing)
    (proper : Text.split '/' front.text.toList ≠ [[]]) :
    front.isAbsolute = path.isAbsolute := by
  refine Bool.eq_iff_iff.mpr ?_
  rw [isAbsolute_iff_split, isAbsolute_iff_split, whole]
  cases parts : Text.split '/' front.text.toList with
  | nil => exact absurd parts (Text.split_ne_nil _ _)
  | cons first more =>
      cases more with
      | nil =>
          rw [parts] at proper
          have given : first ≠ [] := fun empty => proper (by rw [empty])
          simp [given]
      | cons next more => simp

/-- Trimming a path leaves its root. -/
theorem isAbsolute_trimmed (path : Path) : path.trimmed.isAbsolute = path.isAbsolute := by
  obtain ⟨more, whole, empty⟩ := exists_text_trimmed path
  unfold isAbsolute
  rw [whole, String.toList_append]
  cases front : path.trimmed.text.toList with
  | nil =>
      have none := empty (String.toList_inj.mp front)
      rw [none] at whole
      have nothing := congrArg String.toList whole
      rw [String.toList_append, front] at nothing
      rw [List.nil_append, ← List.nil_append more.toList, ← nothing]
      rfl
  | cons first rest => rfl

/-- A path without its last components has the first pieces of the path, or none with a component. It
is absolute if the path is. -/
theorem split_of_mem_parents {parent : Path} (inside : parent ∈ path.parents) :
    (∃ closing, Text.split '/' path.text.toList =
        Text.split '/' parent.text.toList ++ closing) ∨
      ∀ piece ∈ Text.split '/' parent.text.toList, pieceComponent? piece = none := by
  have cut : parent ∈ path.spans.reverse.tail.map (fun span => path.slice 0 span.stop) ∨
      parent = ⟨""⟩ := by
    unfold parents at inside
    simp only at inside
    split at inside
    · cases inside
    · split at inside
      · exact .inl inside
      · exact (List.mem_append.mp inside).imp_right List.mem_singleton.mp
  rcases cut with listed | rfl
  · obtain ⟨span, among, rfl⟩ := List.mem_map.mp listed
    exact split_of_mem_spans (List.mem_reverse.mp (List.mem_of_mem_tail among))
  · exact .inr (by simp [Text.split, pieceComponent?])

end Path

namespace FileSystem

variable {files : FileSystem} {links left : Nat} {here there location : Location} {path : Path}
  {piece : String}

/-- A piece without a component leads nowhere else. -/
theorem isStep_of_pieceComponent? (blank : Path.pieceComponent? piece.toList = none) :
    piece = "" ∨ piece = "." := by
  by_cases empty : piece.toList = []
  · exact .inl (String.toList_inj.mp empty)
  · by_cases here : piece.toList = ['.']
    · exact .inr (String.toList_inj.mp here)
    · by_cases up : piece.toList = ['.', '.'] <;> simp [Path.pieceComponent?, empty, here, up] at blank

/-- Pieces without components lead nowhere else. -/
theorem steps_of_blank {parts : List (List Char)}
    (blank : ∀ piece ∈ parts, Path.pieceComponent? piece = none) :
    ∀ piece ∈ parts.map String.ofList, piece = "" ∨ piece = "." := by
  intro piece inside
  obtain ⟨text, listed, rfl⟩ := List.mem_map.mp inside
  exact isStep_of_pieceComponent? (by simpa using blank text listed)

/-- What is left of a path leads where the path leads. -/
theorem Reaches.trimmed (reaches : files.Reaches path location) :
    files.Reaches path.trimmed location := by
  obtain ⟨left, leads⟩ := reaches
  have start : origin path.trimmed files.workDir = origin path files.workDir := by
    rw [origin, origin, Path.isAbsolute_trimmed]
  unfold Reaches
  rw [start]
  rcases Path.split_trimmed path with ⟨closing, whole, blank⟩ | ⟨blank, blankToo⟩
  · rw [pieces, Text.splitString, whole, List.map_append] at leads
    obtain ⟨between, there, first⟩ := leads.exists_front
    have same := (first.of_append leads).unique (leads_steps (steps_of_blank blank))
    exact ⟨between, same ▸ first⟩
  · have same := leads.unique (leads_steps (steps_of_blank blank))
    rw [← same]
    exact ⟨linkLimit, leads_steps (steps_of_blank blankToo)⟩

/-- A path that has the first pieces of one that leads somewhere is not the path of a directory to be
made. -/
theorem makeDirectory_ne_ok {front : Path} (reaches : files.Reaches path location)
    (within : (∃ closing, Text.split '/' path.text.toList =
        Text.split '/' front.text.toList ++ closing) ∨
      ∀ piece ∈ Text.split '/' front.text.toList, Path.pieceComponent? piece = none)
    (later : FileSystem) : files.makeDirectory front ≠ .ok later := by
  intro made
  obtain ⟨slot, found, named, vacant, _⟩ := makeDirectory_eq_ok made
  obtain ⟨_, before, closing, left, _, whole, _, leads, _⟩ :=
    exists_leads_of_slot found named.ne_empty
  have listed : slot.name ∈ pieces front := whole ▸ List.mem_append_right _ List.mem_cons_self
  rcases within with ⟨more, parts⟩ | blank
  · have proper : Text.split '/' front.text.toList ≠ [[]] := by
      intro single
      rw [pieces, Text.splitString, single] at listed
      exact named.ne_empty (by simpa using listed)
    have start : origin front files.workDir = origin path files.workDir := by
      rw [origin, origin, Path.isAbsolute_of_split parts proper]
    have trail : pieces path = before ++ slot.name :: (closing ++ more.map String.ofList) := by
      rw [pieces, Text.splitString, parts, List.map_append]
      exact (congrArg (· ++ _) whole).trans (by simp)
    obtain ⟨last, onward⟩ := reaches
    rw [trail, ← start] at onward
    exact (leads.of_append onward).ne_none named vacant
  · rcases (steps_of_blank blank) slot.name listed with empty | here
    · exact named.ne_empty empty
    · exact named.ne_here here

end FileSystem

end SchemaBeans

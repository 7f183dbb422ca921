import SchemaBeans.Proofs.Parents

/-!
# Paths above a path

What is left of a path when components are taken off its end lies above it. The
parents of a path are the paths above it, and the first of them is what remains
when the last component is taken off: going up component by component passes all
of them, the nearest first.
-/

namespace SchemaBeans.Path

variable {above between path : Path}

/-- What remains of a path after some of its components are taken off the end. It ends where its
last component does, and the root is never taken off. -/
structure LiesAbove (above path : Path) : Prop where
  text : above.text.toList <+: path.text.toList
  ends : above.trimmed = above
  spans : ∃ first rest, path.spans = above.spans ++ first :: rest ∧ first.component ≠ .root

/-- The path itself, or one above it. -/
def AtOrAbove (above path : Path) : Prop := above = path ∨ LiesAbove above path

namespace LiesAbove

/-- There are fewer components above. -/
theorem length_lt (given : LiesAbove above path) : above.spans.length < path.spans.length := by
  obtain ⟨first, rest, whole, _⟩ := given.spans
  have lengths := congrArg List.length whole
  rw [List.length_append, List.length_cons] at lengths
  omega

/-- What lies above a path lies above everything below it. -/
theorem trans (given : LiesAbove above between) (further : LiesAbove between path) :
    LiesAbove above path := by
  obtain ⟨first, rest, whole, proper⟩ := given.spans
  obtain ⟨next, more, longer, _⟩ := further.spans
  refine ⟨given.text.trans further.text, given.ends, first, rest ++ next :: more, ?_, proper⟩
  rw [longer, whole, List.append_assoc, List.cons_append]

/-- The components above are the first components of the path. -/
theorem components (given : LiesAbove above path) :
    ∃ first rest, path.components = above.components ++ first :: rest ∧ first ≠ .root := by
  obtain ⟨first, rest, whole, proper⟩ := given.spans
  refine ⟨first.component, rest.map Span.component, ?_, proper⟩
  rw [Path.components, whole, List.map_append, List.map_cons]
  rfl

/-- Nothing lies above itself. -/
theorem irrefl : ¬ LiesAbove path path := fun given => Nat.lt_irrefl _ given.length_lt

/-- Of two paths, each cannot lie above the other. -/
theorem asymm (given : LiesAbove above path) : ¬ LiesAbove path above :=
  fun back => irrefl (given.trans back)

end LiesAbove

theorem AtOrAbove.refl (path : Path) : AtOrAbove path path := .inl rfl

/-- Two paths that are at or above each other are the same. -/
theorem AtOrAbove.antisymm (given : AtOrAbove above path) (back : AtOrAbove path above) :
    above = path := by
  rcases given with same | given
  · exact same
  · rcases back with same | back
    · exact same.symm
    · exact absurd back given.asymm

/-- A path that ends with its last component is what any path that starts with its text has up to
there. -/
theorem eq_of_spans (text : above.text.toList <+: path.text.toList) (ends : above.trimmed = above) :
    above = match above.spans.getLast? with
      | some last => path.slice 0 last.stop
      | none => ⟨""⟩ := by
  obtain ⟨more, whole⟩ := text
  conv_lhs => rw [← ends]
  unfold trimmed
  cases final : above.spans.getLast? with
  | none => rfl
  | some last =>
      have short := (stop_of_mem_spans (List.mem_of_getLast? final)).2
      show above.slice 0 last.stop = path.slice 0 last.stop
      rw [slice, slice, ← whole, List.take_append_of_le_length short]

/-- Of the paths that a path starts with, the components and their places single one out. -/
theorem eq_of_spans_eq {left right : Path} (leftText : left.text.toList <+: path.text.toList)
    (leftEnds : left.trimmed = left) (rightText : right.text.toList <+: path.text.toList)
    (rightEnds : right.trimmed = right) (same : left.spans = right.spans) : left = right := by
  rw [eq_of_spans leftText leftEnds, eq_of_spans rightText rightEnds, same]

section Cuts

variable {before after : List Span} {span : Span}

/-- A piece of a path never stands for the root. -/
theorem component_ne_root_of_mem_bodySpans {start : Nat} {pieces : List (List Char)}
    (inside : span ∈ bodySpans start pieces) : span.component ≠ .root := by
  have listed : span.component ∈ pieces.filterMap pieceComponent? := by
    rw [← map_component_bodySpans start]
    exact List.mem_map_of_mem inside
  obtain ⟨piece, _, stands⟩ := List.mem_filterMap.mp listed
  intro root
  unfold pieceComponent? at stands
  rw [root] at stands
  split at stands
  · cases stands
  · split at stands <;> cases stands

/-- The start of a path stands for one component at most. -/
theorem leading_length_le (pieces : List (List Char)) : (leading pieces).length ≤ 1 := by
  unfold leading
  split <;> simp

/-- Only the first component can be the root. -/
theorem component_ne_root (whole : path.spans = before ++ span :: after) (some : before ≠ []) :
    span.component ≠ .root := by
  have short := leading_length_le (Text.split '/' path.text.toList)
  rw [spans_eq] at whole
  rcases List.append_eq_append_iff.mp whole with ⟨more, front, rest⟩ | ⟨more, front, rest⟩
  · exact component_ne_root_of_mem_bodySpans (rest ▸ List.mem_append_right _ List.mem_cons_self)
  · -- The start of the path holds one component at most, and `before` takes that place.
    have lengths := congrArg List.length front
    rw [List.length_map, List.length_append] at lengths
    have taken := List.length_pos_iff.mpr some
    have none : more = [] := List.length_eq_zero_iff.mp (by omega)
    rw [none, List.nil_append] at rest
    exact component_ne_root_of_mem_bodySpans (rest ▸ List.mem_cons_self)

/-- The start of a path is the only component of the path up to it. -/
theorem spans_slice_start
    (inside : span ∈ (leading (Text.split '/' path.text.toList)).map (⟨·, 0, 1⟩)) :
    (path.slice 0 span.stop).spans = [span] := by
  rcases slice_start inside with ⟨rfl, alone⟩ | ⟨rfl, alone⟩
  · rw [alone]
    rfl
  · rw [alone]
    rfl

/-- A path up to a component in its pieces has the components up to that one, at their places. -/
theorem spans_slice_body
    (whole : bodySpans 0 (Text.split '/' path.text.toList) = before ++ span :: after) :
    (path.slice 0 span.stop).spans =
      (leading (Text.split '/' path.text.toList)).map (⟨·, 0, 1⟩) ++ (before ++ [span]) := by
  obtain ⟨front, closing, parts, some, stop, later⟩ := exists_front_of_bodySpans whole
  rw [parts, bodySpans_append, later, ← List.singleton_append, ← List.append_assoc] at whole
  have own := List.append_cancel_right whole
  have notBlank : front ≠ [[]] := by
    rintro rfl
    simp [bodySpans, pieceComponent?] at own
  rw [spans_eq, split_slice parts some stop, own, parts, leading_append some notBlank]

/-- A path up to one of its components has the components up to that one, at their places. -/
theorem spans_slice (whole : path.spans = before ++ span :: after) :
    (path.slice 0 span.stop).spans = before ++ [span] := by
  have short := leading_length_le (Text.split '/' path.text.toList)
  rw [spans_eq] at whole
  rcases List.append_eq_append_iff.mp whole with ⟨body, rfl, rest⟩ | ⟨more, front, rest⟩
  · rw [spans_slice_body rest, List.append_assoc]
  · cases more with
    | nil =>
        have body : bodySpans 0 (Text.split '/' path.text.toList) = [] ++ span :: after := rest.symm
        rw [spans_slice_body body, front, List.append_nil, List.nil_append]
    | cons first more =>
        obtain ⟨rfl, _⟩ := List.cons.inj rest
        have lengths := congrArg List.length front
        rw [List.length_map, List.length_append, List.length_cons] at lengths
        have alone : before = [] := List.length_eq_zero_iff.mp (by omega)
        rw [alone, List.nil_append]
        exact spans_slice_start (front ▸ List.mem_append_right _ List.mem_cons_self)

/-- A path up to one of its components ends where that component does. -/
theorem trimmed_slice (whole : path.spans = before ++ span :: after) :
    (path.slice 0 span.stop).trimmed = path.slice 0 span.stop := by
  have short := (stop_of_mem_spans (whole ▸ List.mem_append_right _ List.mem_cons_self)).2
  rw [trimmed, spans_slice whole, List.getLast?_concat]
  simp [slice, List.take_take]

/-- A path up to one of its components lies above it, if that is not the last one. -/
theorem liesAbove_slice {next : Span} (whole : path.spans = before ++ span :: next :: after) :
    LiesAbove (path.slice 0 span.stop) path := by
  constructor
  · simp only [slice, List.drop_zero, String.toList_ofList]
    exact List.take_prefix _ _
  · exact trimmed_slice whole
  · have longer : path.spans = (before ++ [span]) ++ next :: after := by
      rw [whole, List.append_assoc, List.singleton_append]
    refine ⟨next, after, ?_, component_ne_root longer (by simp)⟩
    rw [spans_slice whole, longer]

/-- The empty path lies above every relative path but itself. -/
theorem liesAbove_empty (whole : path.spans = span :: after) (relative : span.component ≠ .root) :
    LiesAbove ⟨""⟩ path :=
  ⟨List.nil_prefix, rfl, span, after, whole, relative⟩

/-- What remains of a path without components: nothing above the root, else the empty path. -/
def bottom : List Span → List Path
  | [] => []
  | first :: _ => if first.component = .root then [] else [⟨""⟩]

/-- The parents of a path are what it is up to each of its components but the last, the longest
first, and what remains without components. -/
theorem parents_eq (path : Path) :
    path.parents = (path.spans.reverse.tail.map fun span => path.slice 0 span.stop) ++
      bottom path.spans := by
  unfold parents bottom
  cases path.spans with
  | nil => rfl
  | cons first rest =>
      by_cases root : first.component = .root <;> simp [root]

/-- What remains without components depends on the first component alone. -/
theorem bottom_append (some : before ≠ []) : bottom (before ++ after) = bottom before := by
  obtain ⟨first, rest, rfl⟩ := List.exists_cons_of_ne_nil some
  rfl

/-- The parent of a path with two components at least. Its own parents are the others of the
path. -/
theorem parents_of_spans {last : Span} (whole : path.spans = before ++ [span, last]) :
    path.parents = path.slice 0 span.stop :: (path.slice 0 span.stop).parents := by
  have longer : path.spans = (before ++ [span]) ++ [last] := by
    rw [whole, List.append_assoc, List.singleton_append]
  have upper := spans_slice whole
  have slices : ∀ other ∈ before,
      (path.slice 0 span.stop).slice 0 other.stop = path.slice 0 other.stop := by
    intro other inside
    have within := (stop_of_mem_spans (upper ▸ List.mem_append_left _ inside)).2
    simp only [slice, List.drop_zero, String.toList_ofList, List.length_take] at within ⊢
    rw [List.take_take, Nat.min_eq_left (by omega)]
  have same : (before.reverse.map fun other => (path.slice 0 span.stop).slice 0 other.stop) =
      before.reverse.map fun other => path.slice 0 other.stop :=
    List.map_congr_left fun other inside => slices other (List.mem_reverse.mp inside)
  rw [parents_eq, parents_eq (path.slice 0 span.stop), upper, longer, bottom_append (by simp),
    List.reverse_concat, List.reverse_concat, List.tail_cons, List.tail_cons, List.map_cons, same,
    List.cons_append]

end Cuts

/-- Going up from a path leads nowhere, and nothing lies above it; or it leads to what remains
without the last component, and goes on from there. -/
theorem parents_cases (path : Path) :
    path.parents = [] ∧ (∀ above, ¬ LiesAbove above path) ∨
      ∃ parent last, path.parents = parent :: parent.parents ∧ LiesAbove parent path ∧
        path.spans = parent.spans ++ [last] := by
  rcases List.eq_nil_or_concat' path.spans with none | ⟨before, last, whole⟩
  · refine .inl ⟨by rw [parents_eq, none]; rfl, fun above given => ?_⟩
    obtain ⟨first, rest, longer, _⟩ := given.spans
    rw [none] at longer
    exact absurd longer (by simp)
  · rcases List.eq_nil_or_concat' before with rfl | ⟨front, span, rfl⟩
    · rw [List.nil_append] at whole
      by_cases root : last.component = .root
      · refine .inl ⟨by simp [parents_eq, whole, bottom, root], fun above given => ?_⟩
        obtain ⟨first, rest, longer, proper⟩ := given.spans
        rw [whole, List.singleton_eq_append_iff] at longer
        rcases longer with ⟨_, same⟩ | ⟨_, none⟩
        · obtain ⟨rfl, _⟩ := List.cons.inj same
          exact proper root
        · cases none
      · refine .inr ⟨⟨""⟩, last, ?_, liesAbove_empty whole root, whole⟩
        have alone : parents ⟨""⟩ = [] := rfl
        rw [alone, parents_eq, whole]
        simp [bottom, root]
    · have two : path.spans = front ++ [span, last] := by
        rw [whole, List.append_assoc, List.singleton_append]
      refine .inr ⟨path.slice 0 span.stop, last, parents_of_spans two, liesAbove_slice two, ?_⟩
      rw [spans_slice two, whole]

/-- What lies above a path is what remains without its last component, or lies above that. -/
theorem LiesAbove.atOrAbove {parent : Path} {last : Span} (given : LiesAbove above path)
    (first : LiesAbove parent path) (whole : path.spans = parent.spans ++ [last]) :
    AtOrAbove above parent := by
  obtain ⟨next, rest, longer, proper⟩ := given.spans
  rcases List.eq_nil_or_concat' rest with rfl | ⟨more, final, rfl⟩
  · have same := (List.append_inj' (longer.symm.trans whole) rfl).1
    exact .inl (eq_of_spans_eq given.text given.ends first.text first.ends same)
  · rw [← List.cons_append, ← List.append_assoc] at longer
    have upper := (List.append_inj' (whole.symm.trans longer) rfl).1
    refine .inr ⟨?_, given.ends, next, more, upper, proper⟩
    -- Both texts start that of the path, and the one above is not the longer.
    refine List.prefix_of_prefix_length_le given.text first.text ?_
    rw [← given.ends]
    unfold trimmed
    cases final : above.spans.getLast? with
    | none => simp
    | some last =>
        have inside : last ∈ parent.spans :=
          upper ▸ List.mem_append_left _ (List.mem_of_getLast? final)
        have within := (stop_of_mem_spans inside).2
        simp only [slice, List.drop_zero, String.toList_ofList, List.length_take]
        omega

/-- No path goes up for ever. -/
theorem wellFounded_liesAbove : WellFounded LiesAbove :=
  Subrelation.wf LiesAbove.length_lt (measure fun path : Path => path.spans.length).wf

/-- The parents of a path are the paths above it. -/
theorem mem_parents_iff : above ∈ path.parents ↔ LiesAbove above path := by
  induction path using wellFounded_liesAbove.induction with
  | _ path hypothesis =>
      rcases parents_cases path with ⟨none, nothing⟩ | ⟨parent, last, whole, first, spans⟩
      · rw [none]
        exact ⟨fun inside => absurd inside List.not_mem_nil, fun given => absurd given (nothing _)⟩
      · rw [whole, List.mem_cons, hypothesis parent first]
        constructor
        · rintro (rfl | further)
          · exact first
          · exact further.trans first
        · intro given
          exact given.atOrAbove first spans

section Nearest

variable {property other : Path → Prop} {start : Path} {result : Option Path}

/-- The answer to the question for the nearest path with a property, at a path or above it: such a
path with all others above it, or nothing where there is no such path. -/
def Nearest (property : Path → Prop) (start : Path) : Option Path → Prop
  | some nearest => AtOrAbove nearest start ∧ property nearest ∧
      ∀ above, AtOrAbove above start → property above → AtOrAbove above nearest
  | none => ∀ above, AtOrAbove above start → ¬ property above

/-- There is one answer only. -/
theorem Nearest.unique {answer : Option Path} (given : Nearest property start result)
    (same : Nearest property start answer) : result = answer := by
  cases result with
  | none =>
      cases answer with
      | none => rfl
      | some path => exact absurd same.2.1 (given path same.1)
  | some nearest =>
      cases answer with
      | none => exact absurd given.2.1 (same nearest given.1)
      | some path =>
          have before := same.2.2 nearest given.1 given.2.1
          have after := given.2.2 path same.1 same.2.1
          rw [before.antisymm after]

/-- One step up: where a path has not the property, the answer is that of its parent. -/
theorem Nearest.of_parent {parent : Path} {last : Span} (first : LiesAbove parent start)
    (whole : start.spans = parent.spans ++ [last]) (lacks : ¬ property start)
    (given : Nearest property parent result) : Nearest property start result := by
  have further : ∀ above, AtOrAbove above start → property above → AtOrAbove above parent := by
    rintro above (rfl | higher) has
    · exact absurd has lacks
    · exact higher.atOrAbove first whole
  cases result with
  | none => exact fun above higher has => given above (further above higher has) has
  | some nearest =>
      obtain ⟨found, has, nothing⟩ := given
      refine ⟨.inr ?_, has, fun above higher has => nothing above (further above higher has) has⟩
      rcases found with rfl | higher
      · exact first
      · exact higher.trans first

/-- A search on the way up gives the nearest path that passes its test. -/
theorem nearest_find? {test : Path → Bool} (tests : ∀ path, test path = true ↔ property path)
    (start : Path) : Nearest property start (start.ancestors.find? test) := by
  induction start using wellFounded_liesAbove.induction with
  | _ start hypothesis =>
      rw [ancestors, List.find?_cons]
      cases passes : test start with
      | true => exact ⟨.refl start, (tests start).mp passes, fun above higher _ => higher⟩
      | false =>
          have lacks : ¬ property start := by
            rw [← tests, passes]
            exact Bool.false_ne_true
          rcases parents_cases start with ⟨none, nothing⟩ | ⟨parent, last, whole, first, spans⟩
          · rw [none]
            rintro above (rfl | higher)
            · exact lacks
            · exact absurd higher (nothing above)
          · rw [whole]
            exact (hypothesis parent first).of_parent first spans lacks

/-- There is always an answer. -/
theorem exists_nearest (property : Path → Prop) (start : Path) :
    ∃ result, Nearest property start result := by
  classical
  exact ⟨_, nearest_find? (fun _ => decide_eq_true_iff) start⟩

/-- Where a path with the property is at or above the start, the answer is a path. -/
theorem exists_nearest_of (property : Path → Prop) (found : AtOrAbove above start)
    (has : property above) : ∃ nearest, Nearest property start (some nearest) := by
  obtain ⟨result, given⟩ := exists_nearest property start
  cases result with
  | none => exact absurd has (given above found)
  | some nearest => exact ⟨nearest, given⟩

/-- The answer for one property is that for another exactly if the nearest path with either of the
two has both. -/
theorem Nearest.same_iff (given : Nearest property start result) :
    Nearest other start result ↔
      ∀ nearest, Nearest (fun path => property path ∨ other path) start (some nearest) →
        property nearest ∧ other nearest := by
  have exists_either : ∀ {path}, AtOrAbove path start → property path ∨ other path →
      ∃ nearest, Nearest (fun path => property path ∨ other path) start (some nearest) :=
    fun found => exists_nearest_of (fun path => property path ∨ other path) found
  constructor
  · intro same nearest ⟨found, either, closest⟩
    cases result with
    | none =>
        rcases either with has | has
        · exact absurd has (given nearest found)
        · exact absurd has (same nearest found)
    | some path =>
        have before := closest path given.1 (.inl given.2.1)
        have after : AtOrAbove nearest path := either.elim (given.2.2 nearest found)
          (same.2.2 nearest found)
        rw [← before.antisymm after]
        exact ⟨given.2.1, same.2.1⟩
  · intro both
    cases result with
    | none =>
        intro above found has
        obtain ⟨nearest, closest⟩ := exists_either found (.inr has)
        exact given nearest closest.1 (both nearest closest).1
    | some path =>
        obtain ⟨nearest, closest⟩ := exists_either given.1 (.inl given.2.1)
        have before := closest.2.2 path given.1 (.inl given.2.1)
        have after := given.2.2 nearest closest.1 (both nearest closest).1
        obtain rfl := before.antisymm after
        exact ⟨given.1, (both path closest).2,
          fun above found has => closest.2.2 above found (.inr has)⟩

end Nearest

end SchemaBeans.Path

import Mathlib.Data.List.Basic
import SchemaBeans.Path

/-!
# Paths made of names

Appending a name to a path adds one component at its end and leaves the others as
they are. `Path.IsName` says which texts are one component wherever they are
appended; what is proved of paths that are built name by name goes through
`components_descend`.
-/

namespace SchemaBeans.Path

/-- A text is one component wherever it is appended: it is not empty, is no relative step, and
holds no separator. -/
structure IsName (name : String) : Prop where
  ne_empty : name ≠ ""
  ne_here : name ≠ "."
  ne_up : name ≠ ".."
  whole : '/' ∉ name.toList

instance (name : String) : Decidable (IsName name) :=
  decidable_of_iff (name ≠ "" ∧ name ≠ "." ∧ name ≠ ".." ∧ '/' ∉ name.toList)
    ⟨fun ⟨given, here, up, whole⟩ => ⟨given, here, up, whole⟩,
      fun proper => ⟨proper.ne_empty, proper.ne_here, proper.ne_up, proper.whole⟩⟩

variable {base tail : Path} {name : String} {names : List String}

/-- A name is a single piece. -/
theorem IsName.split_eq (proper : IsName name) :
    Text.split '/' name.toList = [name.toList] :=
  Text.split_eq_singleton proper.whole

/-- The piece of a name stands for this name. -/
theorem IsName.pieceComponent?_eq (proper : IsName name) :
    pieceComponent? name.toList = some (.name name) := by
  have here : name.toList ≠ ['.'] := fun same => proper.ne_here (String.toList_inj.mp same)
  have up : name.toList ≠ ['.', '.'] := fun same => proper.ne_up (String.toList_inj.mp same)
  simp [pieceComponent?, proper.ne_empty, here, up]

/-- A path is absolute when its text starts with a slash. -/
theorem isAbsolute_iff_head? : base.isAbsolute = true ↔ base.text.toList.head? = some '/' := by
  simp [isAbsolute]

/-- A name alone is a relative path. -/
theorem IsName.not_isAbsolute (proper : IsName name) : isAbsolute ⟨name⟩ = false := by
  rw [Bool.eq_false_iff]
  intro absolute
  have first := isAbsolute_iff_head?.mp absolute
  exact proper.whole (List.mem_of_mem_head? first)

/-- What is put between a path and another that is appended to it. -/
def gap (text : List Char) : List Char :=
  match text.getLast? with
  | none => []
  | some last => if last = '/' then [] else ['/']

@[simp] theorem gap_nil : gap [] = [] := rfl

@[simp] theorem gap_concat (text : List Char) (last : Char) :
    gap (text ++ [last]) = if last = '/' then [] else ['/'] := by
  simp [gap]

/-- Appending a relative path puts the texts side by side. -/
theorem toList_join (relative : tail.isAbsolute = false) :
    (base.join tail).text.toList =
      base.text.toList ++ (gap base.text.toList ++ tail.text.toList) := by
  unfold join gap
  rw [relative]
  cases ending : base.text.toList.getLast? with
  | none => simp [List.getLast?_eq_none_iff.mp ending]
  | some last =>
      by_cases separator : last = '/'
      · simp [separator]
      · simp [separator]

/-- Behind a gap there is no further gap. -/
theorem gap_append_gap (text : List Char) : gap (text ++ gap text) = [] := by
  rcases List.eq_nil_or_concat' text with rfl | ⟨before, last, rfl⟩
  · rfl
  · by_cases separator : last = '/'
    · simp [separator]
    · rw [gap_concat, if_neg separator, gap_concat, if_pos rfl]

/-- The gap behind a text depends on its last part only. -/
theorem gap_append {text : List Char} (more : text ≠ []) (front : List Char) :
    gap (front ++ text) = gap text := by
  rcases List.eq_nil_or_concat' text with rfl | ⟨before, last, rfl⟩
  · exact absurd rfl more
  · rw [← List.append_assoc, gap_concat, gap_concat]

/-- The pieces of a path that is appended to another come last. The pieces of the other come
first, save for the empty piece after a separator at its end. -/
theorem exists_split_join (base : Path) (relative : tail.isAbsolute = false) :
    ∃ front, Text.split '/' (base.join tail).text.toList =
        front ++ Text.split '/' tail.text.toList ∧
      (Text.split '/' base.text.toList = front ++ [[]] ∨
        Text.split '/' base.text.toList = front ∧ front ≠ [[]]) := by
  rw [toList_join relative]
  cases ending : base.text.toList.getLast? with
  | none =>
      have empty := List.getLast?_eq_none_iff.mp ending
      exact ⟨[], by simp [empty, gap], .inl (by simp [empty, Text.split])⟩
  | some last =>
      by_cases separator : last = '/'
      · subst separator
        obtain ⟨before, whole⟩ := List.getLast?_eq_some_iff.mp ending
        refine ⟨Text.split '/' before, ?_, .inl ?_⟩
        · simp [gap, whole, Text.split_append]
        · rw [whole, Text.split_append]
          rfl
      · refine ⟨Text.split '/' base.text.toList, ?_, .inr ⟨rfl, ?_⟩⟩
        · simp [gap, ending, separator, Text.split_append]
        · intro single
          have joined := Text.join_split '/' base.text.toList
          rw [single] at joined
          simp [← joined, Text.join] at ending

/-- What a path starts with decides whether it is absolute, and appending keeps the start. -/
theorem isAbsolute_join (relative : tail.isAbsolute = false) :
    (base.join tail).isAbsolute = base.isAbsolute := by
  unfold isAbsolute at relative ⊢
  rw [toList_join relative]
  cases whole : base.text.toList with
  | nil => exact relative
  | cons first rest => rfl

/-- The component that the first piece of a path stands for by its place: the root or the directory
where the path starts. -/
def leading : List (List Char) → List Component
  | [] :: _ :: _ => [.root]
  | ['.'] :: _ => [.here]
  | _ => []

/-- The components of the spans are those of the pieces. -/
theorem map_component_bodySpans (start : Nat) (pieces : List (List Char)) :
    (bodySpans start pieces).map Span.component = pieces.filterMap pieceComponent? := by
  induction pieces generalizing start with
  | nil => rfl
  | cons piece pieces hypothesis =>
      rw [bodySpans, List.filterMap_cons]
      cases pieceComponent? piece <;> simp [hypothesis]

/-- The components of a path, read off its pieces. -/
theorem components_eq (path : Path) :
    path.components = leading (Text.split '/' path.text.toList) ++
      (Text.split '/' path.text.toList).filterMap pieceComponent? := by
  unfold components spans
  split
  · next empty => simp [empty, leading]
  · next empty => simp [empty, leading, pieceComponent?]
  · next pieces notAlone whole =>
      obtain ⟨next, more, rfl⟩ := List.exists_cons_of_ne_nil notAlone
      simp [whole, leading, map_component_bodySpans, pieceComponent?]
  · next pieces whole =>
      simp [whole, leading, map_component_bodySpans, pieceComponent?]
  · next piece pieces notEmpty notRoot notHere whole =>
      rw [whole, map_component_bodySpans]
      have plain : leading (piece :: pieces) = [] := by
        unfold leading
        split
        · next same => exact absurd (List.cons.inj same).1 notRoot
        · next same => exact absurd (List.cons.inj same).1 notHere
        · rfl
      simp [plain]

/-- A path is shown as the texts of its components between separators. -/
theorem toList_componentText (path : Path) :
    path.componentText.toList =
      Text.join ['/'] (path.components.map fun component => component.text.toList) := by
  simp [componentText, Text.joinStrings, Function.comp_def]

/-- The components of a path have the characters of its text, up to separators and dots. -/
theorem mem_componentText_iff {path : Path} {character : Char} (name : character ≠ '/')
    (step : character ≠ '.') :
    character ∈ path.componentText.toList ↔ character ∈ path.text.toList := by
  have pieces : ∀ piece, (∃ component, pieceComponent? piece = some component ∧
      character ∈ component.text.toList) ↔ character ∈ piece := by
    intro piece
    unfold pieceComponent?
    split
    · next none =>
        rcases (by simpa using none : piece = [] ∨ piece = ['.']) with rfl | rfl <;> simp [step]
    · split
      · next up => simp [up, Component.text, step]
      · simp [Component.text]
  have first : ¬ ∃ component ∈ leading (Text.split '/' path.text.toList),
      character ∈ component.text.toList := by
    unfold leading
    split <;> simp [Component.text, name, step]
  conv_rhs => rw [← Text.join_split '/' path.text.toList]
  rw [toList_componentText, Text.mem_join_iff name, Text.mem_join_iff name, components_eq]
  simp only [List.map_append, List.mem_append, List.mem_map, List.mem_filterMap]
  constructor
  · rintro ⟨_, ⟨component, inside, rfl⟩ | ⟨component, ⟨piece, present, stands⟩, rfl⟩, within⟩
    · exact absurd ⟨component, inside, within⟩ first
    · exact ⟨piece, present, (pieces piece).mp ⟨component, stands, within⟩⟩
  · rintro ⟨piece, present, within⟩
    obtain ⟨component, stands, inside⟩ := (pieces piece).mpr within
    exact ⟨_, .inr ⟨component, ⟨piece, present, stands⟩, rfl⟩, inside⟩

/-- Further pieces do not change what the first one stands for, unless it is empty and alone. -/
theorem leading_append {front rest : List (List Char)} (some : front ≠ []) (given : front ≠ [[]]) :
    leading (front ++ rest) = leading front := by
  match front with
  | [] => exact absurd rfl some
  | [[]] => exact absurd rfl given
  | [] :: _ :: _ => rfl
  | (first :: rest) :: others =>
      by_cases here : first :: rest = ['.']
      · rw [here]
        rfl
      · simp [leading, here]

/-- It does not matter to the first component which step the last piece is. -/
theorem leading_concat {front : List (List Char)} {left right : List Char}
    (leftStep : left ≠ ['.']) (rightStep : right ≠ ['.']) :
    leading (front ++ [left]) = leading (front ++ [right]) := by
  by_cases empty : front = []
  · simp [empty, leading, leftStep, rightStep]
  · by_cases alone : front = [[]]
    · rw [alone]
      rfl
    · rw [leading_append empty alone, leading_append empty alone]

/-- A name that is appended is the last component. -/
@[simp] theorem components_join (proper : IsName name) :
    (base.join ⟨name⟩).components = base.components ++ [.name name] := by
  obtain ⟨front, joined, start⟩ := exists_split_join base proper.not_isAbsolute
  have named : [name.toList].filterMap pieceComponent? = [.name name] := by
    rw [List.filterMap_cons, proper.pieceComponent?_eq]
    rfl
  rw [components_eq, components_eq, joined, proper.split_eq, List.filterMap_append, named]
  rcases start with closed | ⟨whole, given⟩
  · have here : name.toList ≠ ['.'] := fun same => proper.ne_here (String.toList_inj.mp same)
    have same : leading (front ++ [name.toList]) = leading (front ++ [[]]) :=
      leading_concat here (by simp)
    rw [closed, List.filterMap_append, same]
    simp [pieceComponent?]
  · have some : front ≠ [] := whole ▸ Text.split_ne_nil _ _
    rw [whole, leading_append some given, List.append_assoc]

/-- Going down along two lists of names is going down along one after the other. -/
theorem descend_append (more : List String) :
    base.descend (names ++ more) = (base.descend names).descend more := by
  simp [descend]

@[simp] theorem descend_nil : base.descend [] = base := rfl

@[simp] theorem descend_cons :
    base.descend (name :: names) = (base.join ⟨name⟩).descend names := rfl

/-- The last name on the way down is appended last. -/
theorem descend_concat : base.descend (names ++ [name]) = (base.descend names).join ⟨name⟩ := by
  simp [descend_append]

/-- A path goes on with the text that it starts with. -/
theorem exists_text_descend (proper : ∀ name ∈ names, IsName name) :
    ∃ more, (base.descend names).text = base.text ++ more := by
  induction names generalizing base with
  | nil => exact ⟨"", by simp⟩
  | cons name names hypothesis =>
      obtain ⟨first, proper⟩ := List.forall_mem_cons.mp proper
      obtain ⟨more, longer⟩ := @hypothesis (base.join ⟨name⟩) proper
      have joined : (base.join ⟨name⟩).text =
          base.text ++ String.ofList (gap base.text.toList ++ name.toList) := by
        rw [← String.toList_inj, toList_join first.not_isAbsolute]
        simp
      exact ⟨_, by rw [descend_cons, longer, joined, String.append_assoc]⟩

/-- The names on the way down are the last components. -/
theorem components_descend (proper : ∀ name ∈ names, IsName name) :
    (base.descend names).components = base.components ++ names.map .name := by
  induction names generalizing base with
  | nil => simp
  | cons name names hypothesis =>
      obtain ⟨first, proper⟩ := List.forall_mem_cons.mp proper
      rw [descend_cons, hypothesis proper, components_join first, List.append_assoc]
      rfl

/-- Different names are different components. -/
theorem name_injective : Function.Injective Component.name := by
  intro left right same
  cases same
  rfl

/-- What is below a relative path is relative, and what is below an absolute path is absolute. -/
theorem isAbsolute_descend (proper : ∀ name ∈ names, IsName name) :
    (base.descend names).isAbsolute = base.isAbsolute := by
  induction names generalizing base with
  | nil => rfl
  | cons name names hypothesis =>
      obtain ⟨first, proper⟩ := List.forall_mem_cons.mp proper
      rw [descend_cons, hypothesis proper, isAbsolute_join first.not_isAbsolute]

/-- Appending is associative below relative paths. -/
theorem join_join (relative : tail.isAbsolute = false) (proper : IsName name) :
    (base.join tail).join ⟨name⟩ = base.join (tail.join ⟨name⟩) := by
  have named := proper.not_isAbsolute
  have both : (tail.join ⟨name⟩).isAbsolute = false := by
    rw [isAbsolute_join named, relative]
  have texts : ((base.join tail).join ⟨name⟩).text.toList =
      (base.join (tail.join ⟨name⟩)).text.toList := by
    rw [toList_join named, toList_join relative, toList_join both, toList_join named]
    by_cases empty : tail.text.toList = []
    · simp only [empty, List.append_nil, gap_nil, gap_append_gap, List.nil_append,
        List.append_assoc]
    · rw [← List.append_assoc base.text.toList, gap_append empty]
      simp
  exact congrArg Path.mk (String.toList_inj.mp texts)

/-- A relative path can be appended before going down from it or after. -/
theorem join_descend_of_relative (relative : tail.isAbsolute = false)
    (proper : ∀ name ∈ names, IsName name) :
    base.join (tail.descend names) = (base.join tail).descend names := by
  induction names generalizing tail with
  | nil => rfl
  | cons name names hypothesis =>
      obtain ⟨first, proper⟩ := List.forall_mem_cons.mp proper
      have later : (tail.join ⟨name⟩).isAbsolute = false := by
        rw [isAbsolute_join first.not_isAbsolute, relative]
      rw [descend_cons, descend_cons, hypothesis later proper, join_join relative first]

/-- A path that is made of names alone leads on from the path that it is appended to. -/
theorem join_descend (proper : ∀ name ∈ names, IsName name) (some : names ≠ []) :
    base.join (descend ⟨""⟩ names) = base.descend names := by
  cases names with
  | nil => exact absurd rfl some
  | cons name names =>
      obtain ⟨first, proper⟩ := List.forall_mem_cons.mp proper
      have alone : join ⟨""⟩ ⟨name⟩ = (⟨name⟩ : Path) := by
        simp [join, first.not_isAbsolute]
      rw [descend_cons, alone, join_descend_of_relative first.not_isAbsolute proper]
      rfl

/-- Neither of two paths is at or below the other. -/
def Apart (left right : Path) : Prop :=
  ¬ left.components <+: right.components ∧ ¬ right.components <+: left.components

/-- What goes on from one of two paths that are apart is apart from the other. -/
theorem Apart.of_components_concat {longer other : Path} {component : Component}
    (apart : base.Apart other) (whole : longer.components = base.components ++ [component]) :
    longer.Apart other := by
  rw [Apart, whole]
  constructor
  · intro before
    exact apart.1 ((List.prefix_append _ _).trans before)
  · intro after
    rcases List.prefix_concat_iff.mp after with equal | above
    · exact apart.1 (equal ▸ List.prefix_append _ _)
    · exact apart.2 above

/-- A path is made of names alone, and of one at least. -/
structure IsPlain (path : Path) : Prop where
  given : path.names ≠ []
  proper : ∀ name ∈ path.names, IsName name
  text : path = descend ⟨""⟩ path.names

/-- The components of a path that starts nowhere are the names on its way. -/
theorem components_descend_empty (proper : ∀ name ∈ names, IsName name) :
    (descend ⟨""⟩ names).components = names.map .name := by
  have start : components ⟨""⟩ = [] := rfl
  rw [components_descend proper, start, List.nil_append]

/-- The names of a path that starts nowhere are those on its way. -/
theorem names_descend_empty (proper : ∀ name ∈ names, IsName name) :
    (descend ⟨""⟩ names).names = names := by
  have each : Component.name? ∘ Component.name = some := rfl
  rw [Path.names, components_descend_empty proper, List.filterMap_map, each, List.filterMap_some]

/-- Going down along some names from nowhere gives a plain path. -/
theorem isPlain_descend (proper : ∀ name ∈ names, IsName name) (given : names ≠ []) :
    IsPlain (descend ⟨""⟩ names) := by
  have same := names_descend_empty proper
  constructor
  · rwa [same]
  · rwa [same]
  · rw [same]

/-- A plain path has no components but its names. -/
theorem IsPlain.components_eq {path : Path} (plain : path.IsPlain) :
    path.components = path.names.map .name :=
  (congrArg components plain.text).trans (components_descend_empty plain.proper)

/-- A plain path is relative. -/
theorem IsPlain.not_isAbsolute {path : Path} (plain : path.IsPlain) :
    path.isAbsolute = false := by
  rw [plain.text, isAbsolute_descend plain.proper]
  rfl

/-- The components of a plain path that is appended to another come behind those of the other. -/
theorem IsPlain.components_join {path : Path} (plain : path.IsPlain) :
    (base.join path).components = base.components ++ path.names.map .name := by
  have whole : base.join path = base.descend path.names :=
    (congrArg base.join plain.text).trans (join_descend plain.proper plain.given)
  rw [whole, components_descend plain.proper]

end SchemaBeans.Path

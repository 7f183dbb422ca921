import Mathlib.Data.List.Forall2

/-!
# Traversals

A traversal of a list has a result for each of its elements, in their order, or it
fails as the first element that fails.
-/

namespace SchemaBeans

variable {α β : Type}

/-- What is got back of each element is got back of all. -/
theorem mapM_map_eq_pure {m : Type → Type} [Monad m] [LawfulMonad m] {write : α → β}
    {read : β → m α} (back : ∀ element, read (write element) = pure element) (elements : List α) :
    (elements.map write).mapM read = pure elements := by
  have each : read ∘ write = fun element => pure element := funext back
  rw [List.mapM_map, each, List.mapM_pure, List.map_id']

section Except

variable {ε : Type} {f : α → Except ε β} {elements : List α}

/-- Two steps succeed when both of them do. -/
theorem bind_eq_ok_iff {first : Except ε α} {next : α → Except ε β} {result : β} :
    first.bind next = .ok result ↔ ∃ value, first = .ok value ∧ next value = .ok result := by
  cases first <;> simp [Except.bind]

theorem map_eq_ok_iff {first : Except ε α} {next : α → β} {result : β} :
    first.map next = .ok result ↔ ∃ value, first = .ok value ∧ next value = result := by
  cases first <;> simp [Except.map]

/-- A traversal succeeds if it does so on each element. -/
theorem exists_mapM_eq_ok (each : ∀ element ∈ elements, ∃ result, f element = .ok result) :
    ∃ results, elements.mapM f = .ok results := by
  induction elements with
  | nil => exact ⟨[], rfl⟩
  | cons element elements hypothesis =>
      obtain ⟨⟨result, first⟩, each⟩ := List.forall_mem_cons.mp each
      obtain ⟨results, rest⟩ := hypothesis each
      refine ⟨result :: results, ?_⟩
      rw [List.mapM_cons, first, rest]
      rfl

/-- A traversal fails as the first of its elements that fails. -/
theorem mapM_eq_error_iff {failure? : α → Option ε}
    (each : ∀ element failure, f element = .error failure ↔ failure? element = some failure)
    {failure : ε} :
    elements.mapM f = .error failure ↔ elements.findSome? failure? = some failure := by
  induction elements with
  | nil => simp [pure, Except.pure]
  | cons element elements hypothesis =>
      rw [List.mapM_cons, List.findSome?_cons]
      cases outcome : f element with
      | error other =>
          rw [(each element other).mp outcome, Option.some.injEq]
          exact Except.error.injEq other failure ▸ Iff.rfl
      | ok result =>
          have fine : failure? element = none := by
            refine Option.eq_none_iff_forall_ne_some.mpr fun other found => ?_
            rw [(each element other).mpr found] at outcome
            cases outcome
          rw [fine, ← hypothesis]
          cases rest : elements.mapM f with
          | error other => exact Iff.rfl
          | ok results =>
              constructor <;> intro failed <;> cases failed

/-- The results of a traversal are those of its elements. -/
theorem mem_iff_of_mapM_eq_ok {results : List β} (mapped : elements.mapM f = .ok results)
    {result : β} : result ∈ results ↔ ∃ element ∈ elements, f element = .ok result := by
  induction elements generalizing results with
  | nil =>
      cases mapped
      simp
  | cons element elements hypothesis =>
      rw [List.mapM_cons] at mapped
      cases first : f element with
      | error failure =>
          rw [first] at mapped
          cases mapped
      | ok head =>
          cases rest : elements.mapM f with
          | error failure =>
              rw [first, rest] at mapped
              cases mapped
          | ok tail =>
              rw [first, rest] at mapped
              cases mapped
              simp [hypothesis rest, first, @eq_comm β head]

/-- The results of a traversal are those of its elements, in their order. -/
theorem forall₂_of_mapM_eq_ok {results : List β} (mapped : elements.mapM f = .ok results) :
    List.Forall₂ (fun element result => f element = .ok result) elements results := by
  induction elements generalizing results with
  | nil =>
      cases mapped
      exact .nil
  | cons element elements hypothesis =>
      rw [List.mapM_cons] at mapped
      cases first : f element with
      | error failure =>
          rw [first] at mapped
          cases mapped
      | ok head =>
          cases rest : elements.mapM f with
          | error failure =>
              rw [first, rest] at mapped
              cases mapped
          | ok tail =>
              rw [first, rest] at mapped
              cases mapped
              exact .cons first (hypothesis rest)

/-- A traversal has results that its elements have, in their order. -/
theorem mapM_eq_ok_of_forall₂ {results : List β}
    (each : List.Forall₂ (fun element result => f element = .ok result) elements results) :
    elements.mapM f = .ok results := by
  induction each with
  | nil => rfl
  | cons first _ hypothesis =>
      rw [List.mapM_cons, first, hypothesis]
      rfl

/-- A traversal that fails has results for the elements before the one that it fails as. -/
theorem exists_append_of_mapM_eq_error {failure : ε} (failed : elements.mapM f = .error failure) :
    ∃ before element after, elements = before ++ element :: after ∧
      (∀ earlier ∈ before, ∃ result, f earlier = .ok result) ∧ f element = .error failure := by
  induction elements with
  | nil => cases failed
  | cons element elements hypothesis =>
      rw [List.mapM_cons] at failed
      cases first : f element with
      | error other =>
          rw [first] at failed
          cases failed
          exact ⟨[], element, elements, rfl, by simp, first⟩
      | ok result =>
          cases rest : elements.mapM f with
          | ok results =>
              rw [first, rest] at failed
              cases failed
          | error other =>
              rw [first, rest] at failed
              cases failed
              obtain ⟨before, wrong, after, rfl, fine, reason⟩ := hypothesis rest
              exact ⟨element :: before, wrong, after, rfl,
                List.forall_mem_cons.mpr ⟨⟨result, first⟩, fine⟩, reason⟩

end Except

section Option

/-- The results of a traversal are those of the elements, in their order. -/
theorem forall₂_of_mapM_eq_some {f : α → Option β} {elements : List α} {images : List β}
    (mapped : elements.mapM f = some images) :
    List.Forall₂ (fun element image => f element = some image) elements images := by
  induction elements generalizing images with
  | nil =>
      cases mapped
      exact .nil
  | cons element elements hypothesis =>
      rw [List.mapM_cons] at mapped
      obtain ⟨image, first, mapped⟩ := Option.bind_eq_some_iff.mp mapped
      obtain ⟨rest, others, mapped⟩ := Option.bind_eq_some_iff.mp mapped
      cases mapped
      exact .cons first (hypothesis others)

/-- A traversal without a result has none for one of the elements. -/
theorem exists_of_mapM_eq_none {f : α → Option β} {elements : List α}
    (missing : elements.mapM f = none) : ∃ element ∈ elements, f element = none := by
  induction elements with
  | nil => cases missing
  | cons element elements hypothesis =>
      cases first : f element with
      | none => exact ⟨element, List.mem_cons_self, first⟩
      | some image =>
          cases others : elements.mapM f with
          | none =>
              obtain ⟨other, listed, nothing⟩ := hypothesis others
              exact ⟨other, List.mem_cons_of_mem _ listed, nothing⟩
          | some images => simp [List.mapM_cons, first, others] at missing

/-- A list of options without a gap is a list of values. -/
theorem eq_map_some_of_mapM_id {options : List (Option α)} {values : List α}
    (mapped : options.mapM id = some values) : options = values.map some := by
  have each := forall₂_of_mapM_eq_some mapped
  clear mapped
  induction each with
  | nil => rfl
  | cons same _ hypothesis => rw [List.map_cons, ← same, ← hypothesis, id]

end Option

/-- Lists that are related to the same list are related to each other. -/
theorem forall₂_trans {γ : Type} {first : α → β → Prop} {second : β → γ → Prop}
    {both : α → γ → Prop} (join : ∀ left middle right, first left middle → second middle right →
      both left right) {left : List α} {middle : List β} {right : List γ}
    (front : List.Forall₂ first left middle) (back : List.Forall₂ second middle right) :
    List.Forall₂ both left right := by
  induction front generalizing right with
  | nil =>
      cases back
      exact .nil
  | cons related _ hypothesis =>
      cases back with
      | cons next back => exact .cons (join _ _ _ related next) (hypothesis back)

/-- Each element of a related list is related to one of the other list. -/
theorem exists_mem_of_forall₂ {relation : α → β → Prop} {left : List α}
    {right : List β} (related : List.Forall₂ relation left right) {element : β}
    (inside : element ∈ right) : ∃ other ∈ left, relation other element := by
  induction related with
  | nil => cases inside
  | cons first _ hypothesis =>
      rcases List.mem_cons.mp inside with rfl | later
      · exact ⟨_, List.mem_cons_self, first⟩
      · obtain ⟨other, listed, same⟩ := hypothesis later
        exact ⟨other, List.mem_cons_of_mem _ listed, same⟩

end SchemaBeans

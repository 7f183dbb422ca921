/-!
# Strictly sorted lists

A set is kept as a list in strictly increasing order. Inserting what is there
already changes nothing, so the list depends only on the elements.
-/

namespace SchemaBeans.Sorted

variable {α : Type}

/-- Inserts an element before the first greater one, unless it is there already. -/
def insert (order : α → α → Ordering) (element : α) : List α → List α
  | [] => [element]
  | first :: rest =>
      match order element first with
      | .lt => element :: first :: rest
      | .eq => first :: rest
      | .gt => first :: insert order element rest

/-- The strictly sorted list of the elements of a list. -/
def ofList (order : α → α → Ordering) (elements : List α) : List α :=
  elements.foldr (insert order) []

theorem length_insert_le (order : α → α → Ordering) (element : α) (elements : List α) :
    (insert order element elements).length ≤ elements.length + 1 := by
  induction elements with
  | nil => exact Nat.le_refl _
  | cons first rest hypothesis =>
      unfold insert
      split <;> simp only [List.length_cons] <;> omega

/-- The list of a set is not longer than the list that it was made of. -/
theorem length_ofList_le (order : α → α → Ordering) (elements : List α) :
    (ofList order elements).length ≤ elements.length := by
  induction elements with
  | nil => exact Nat.le_refl _
  | cons first rest hypothesis =>
      have step := length_insert_le order first (ofList order rest)
      simp only [ofList, List.foldr_cons, List.length_cons] at *
      omega

/-- Inserting brings in nothing but the element. -/
theorem mem_of_mem_insert {order : α → α → Ordering} {element other : α} {elements : List α}
    (inside : other ∈ insert order element elements) : other = element ∨ other ∈ elements := by
  induction elements with
  | nil => simpa [insert] using inside
  | cons first rest hypothesis =>
      unfold insert at inside
      split at inside
      · simpa using inside
      · exact .inr inside
      · rcases List.mem_cons.mp inside with same | inside
        · simp [same]
        · rcases hypothesis inside with same | inside
          · exact .inl same
          · simp [inside]

/-- Inserting brings in the element and loses nothing. -/
theorem mem_insert {order : α → α → Ordering} [Std.LawfulEqCmp order] {element other : α}
    {elements : List α} :
    other ∈ insert order element elements ↔ other = element ∨ other ∈ elements := by
  refine ⟨mem_of_mem_insert, ?_⟩
  induction elements with
  | nil => simp [insert]
  | cons first rest hypothesis =>
      intro inside
      unfold insert
      split
      · simpa using inside
      · rename_i equal
        have same := Std.LawfulEqCmp.eq_of_compare equal
        rcases inside with rfl | inside
        · simp [same]
        · exact inside
      · rcases inside with rfl | inside
        · exact List.mem_cons_of_mem _ (hypothesis (.inl rfl))
        · rcases List.mem_cons.mp inside with rfl | inside
          · exact List.mem_cons_self
          · exact List.mem_cons_of_mem _ (hypothesis (.inr inside))

/-- Sorting brings in no elements. -/
theorem mem_of_mem_ofList {order : α → α → Ordering} {element : α} {elements : List α}
    (inside : element ∈ ofList order elements) : element ∈ elements := by
  induction elements with
  | nil => cases inside
  | cons first rest hypothesis =>
      rcases mem_of_mem_insert inside with rfl | later
      · exact List.mem_cons_self
      · exact List.mem_cons_of_mem _ (hypothesis later)

/-- The list of a set has exactly the elements of the set. -/
@[simp] theorem mem_ofList {order : α → α → Ordering} [Std.LawfulEqCmp order] {other : α}
    {elements : List α} : other ∈ ofList order elements ↔ other ∈ elements := by
  induction elements with
  | nil => simp [ofList]
  | cons first rest hypothesis =>
      rw [List.mem_cons, ← hypothesis]
      exact mem_insert

/-- Elements that are compared by their keys are sorted as the keys are. -/
theorem map_insert {κ : Type} {order : κ → κ → Ordering} (key : α → κ) (element : α)
    (elements : List α) :
    (insert (fun left right => order (key left) (key right)) element elements).map key =
      insert order (key element) (elements.map key) := by
  induction elements with
  | nil => rfl
  | cons first rest hypothesis =>
      simp only [insert, List.map_cons]
      split <;> simp_all

/-- Sorting by a key can be done before taking the keys or after. -/
theorem map_ofList {κ : Type} {order : κ → κ → Ordering} (key : α → κ) (elements : List α) :
    (ofList (fun left right => order (key left) (key right)) elements).map key =
      ofList order (elements.map key) := by
  induction elements with
  | nil => rfl
  | cons first rest hypothesis =>
      rw [List.map_cons, ofList, List.foldr_cons, map_insert]
      exact congrArg _ hypothesis

/-- Inserting keeps a list strictly sorted. -/
theorem pairwise_insert {order : α → α → Ordering} [Std.TransCmp order] (element : α)
    {elements : List α} (sorted : elements.Pairwise fun left right => order left right = .lt) :
    (insert order element elements).Pairwise fun left right => order left right = .lt := by
  induction elements with
  | nil => simp [insert]
  | cons first rest hypothesis =>
      obtain ⟨least, sorted⟩ := List.pairwise_cons.mp sorted
      unfold insert
      split
      · rename_i less
        refine List.pairwise_cons.mpr
          ⟨fun other inside => ?_, List.pairwise_cons.mpr ⟨least, sorted⟩⟩
        rcases List.mem_cons.mp inside with same | inside
        · exact same ▸ less
        · exact Std.TransCmp.lt_trans less (least other inside)
      · exact List.pairwise_cons.mpr ⟨least, sorted⟩
      · rename_i greater
        refine List.pairwise_cons.mpr ⟨fun other inside => ?_, hypothesis sorted⟩
        rcases mem_of_mem_insert inside with same | inside
        · exact same ▸ Std.OrientedCmp.gt_iff_lt.mp greater
        · exact least other inside

/-- The list of a set is strictly sorted. -/
theorem pairwise_ofList (order : α → α → Ordering) [Std.TransCmp order] (elements : List α) :
    (ofList order elements).Pairwise fun left right => order left right = .lt := by
  induction elements with
  | nil => simp [ofList]
  | cons first rest hypothesis => exact pairwise_insert first hypothesis

/-- What is less in an order is not greater in it. -/
theorem lt_asymm {order : α → α → Ordering} [Std.OrientedCmp order] (left right : α)
    (less : order left right = .lt) : ¬ order right left = .lt := by
  intro greater
  rw [Std.OrientedCmp.gt_iff_lt.mpr less] at greater
  cases greater

/-- Elements that are not equal in an order differ. -/
theorem ne_of_compare {order : α → α → Ordering} [Std.ReflCmp order] {left right : α}
    {result : Ordering} (compared : order left right = result) (apart : result ≠ .eq) :
    left ≠ right := by
  rintro rfl
  exact apart (compared.symm.trans Std.ReflCmp.compare_self)

/-- No element stands twice in a strictly sorted list. -/
theorem nodup_of_pairwise {order : α → α → Ordering} [Std.ReflCmp order] {elements : List α}
    (sorted : elements.Pairwise fun left right => order left right = .lt) : elements.Nodup :=
  sorted.imp fun less => ne_of_compare less Ordering.noConfusion

theorem nodup_ofList (order : α → α → Ordering) [Std.TransCmp order] (elements : List α) :
    (ofList order elements).Nodup :=
  nodup_of_pairwise (pairwise_ofList order elements)

end SchemaBeans.Sorted

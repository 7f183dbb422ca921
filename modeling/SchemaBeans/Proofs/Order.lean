import Mathlib.Data.List.Pairwise
import SchemaBeans.Proofs.Paths
import SchemaBeans.Report

/-!
# The order of paths

Paths are compared component by component, so two of them are equal in this order
exactly when their components are. A sorted list whose elements all differ in what
is compared is strictly increasing.
-/

namespace SchemaBeans

namespace Component

/-- Components are compared by their kinds, then by their texts. -/
theorem compare_eq_compareLex : compare = compareLex (compareOn rank) (compareOn text) := by
  funext left right
  cases left <;> cases right <;>
    simp [compare, compareLex, compareOn, rank, text, Ordering.then, Std.ReflOrd.compare_self]

instance : Std.TransCmp compare :=
  compare_eq_compareLex ▸ inferInstance

instance : Std.LawfulEqCmp compare where
  eq_of_compare {left right} equal := by
    cases left <;> cases right <;> simp_all [compare, rank]

end Component

namespace Path

/-- Components are compared one by one, and the first difference counts. -/
theorem compareComponents_eq_compareLex (left right : List Component) :
    compareComponents left right = List.compareLex Component.compare left right := by
  induction left generalizing right with
  | nil => cases right <;> rfl
  | cons component left hypothesis =>
      cases right with
      | nil => rfl
      | cons other right =>
          rw [compareComponents, List.compareLex_cons_cons, hypothesis]

/-- Paths are compared by their components. -/
theorem compare_eq_byKey :
    compare = Ordering.byKey components (List.compareLex Component.compare) := by
  funext left right
  exact compareComponents_eq_compareLex left.components right.components

instance : Std.TransCmp compare := compare_eq_byKey ▸ inferInstance

/-- Paths are equal in their order when they have the same components. -/
theorem compare_eq_eq_iff {left right : Path} :
    left.compare right = .eq ↔ left.components = right.components := by
  rw [compare_eq_byKey]
  exact @Std.LawfulEqCmp.compare_eq_iff_eq _ (List.compareLex Component.compare) _ _ _

end Path

namespace SchemaFile

instance : Std.TransCmp compare :=
  inferInstanceAs (Std.TransCmp (compareLex (Ordering.byKey path Path.compare)
    (Ordering.byKey relative Path.compare)))

/-- Of two documents in order, the first does not have the greater path. -/
theorem path_compare_ne_gt {left right : SchemaFile} (ordered : left.compare right ≠ .gt) :
    left.path.compare right.path ≠ .gt := by
  intro greater
  rw [compare, greater] at ordered
  exact ordered rfl

end SchemaFile

section Sorting

variable {α : Type} {order : α → α → Ordering}

/-- Merging sorts the elements of a list. -/
theorem pairwise_mergeSort_ne_gt [Std.TransCmp order] (elements : List α) :
    (elements.mergeSort fun left right => order left right ≠ .gt).Pairwise fun left right =>
      order left right ≠ .gt := by
  have transitive : ∀ first second third : α, decide (order first second ≠ .gt) = true →
      decide (order second third ≠ .gt) = true → decide (order first third ≠ .gt) = true := by
    intro first second third
    simpa [← Ordering.isLE_iff_ne_gt] using @Std.TransCmp.isLE_trans _ order _ first second third
  have total : ∀ first second : α,
      (decide (order first second ≠ .gt) || decide (order second first ≠ .gt)) = true := by
    intro first second
    have swapped := @Std.OrientedCmp.eq_swap _ order _ first second
    cases compared : order second first <;> simp_all
  simpa using List.pairwise_mergeSort transitive total elements

/-- Sorted elements that all differ in the order are strictly increasing. -/
theorem pairwise_lt_of_ne_gt {elements : List α}
    (sorted : elements.Pairwise fun left right => order left right ≠ .gt)
    (apart : elements.Pairwise fun left right => order left right ≠ .eq) :
    elements.Pairwise fun left right => order left right = .lt := by
  refine (sorted.and apart).imp fun {left right} differs => ?_
  cases compared : order left right with
  | lt => rfl
  | eq => exact absurd compared differs.2
  | gt => exact absurd compared differs.1

end Sorting

end SchemaBeans

/-!
# Totals

The total of the weights of the elements of a list.
-/

namespace SchemaBeans

variable {α : Type}

/-- The sum of the weights of some elements. -/
def total (weight : α → Nat) : List α → Nat
  | [] => 0
  | element :: elements => weight element + total weight elements

/-- The total of a list is that of its parts. -/
theorem total_append (weight : α → Nat) (left right : List α) :
    total weight (left ++ right) = total weight left + total weight right := by
  induction left with
  | nil => simp [total]
  | cons element elements hypothesis =>
      simp only [List.cons_append, total, hypothesis]
      omega

/-- Weights of what elements are mapped to are weights of the elements. -/
theorem total_map {β : Type} (weight : β → Nat) (image : α → β) (elements : List α) :
    total weight (elements.map image) = total (fun element => weight (image element)) elements := by
  induction elements with
  | nil => rfl
  | cons element elements hypothesis => simp only [List.map_cons, total, hypothesis]

/-- Putting another element in a place takes its weight for that of the old one. -/
theorem total_set (weight : α → Nat) (elements : List α) (position : Nat) (old new : α)
    (there : elements[position]? = some old) :
    total weight (elements.set position new) + weight old = total weight elements + weight new := by
  induction elements generalizing position with
  | nil => simp at there
  | cons first rest hypothesis =>
      cases position with
      | zero =>
          simp only [List.getElem?_cons_zero, Option.some.injEq] at there
          subst there
          simp only [List.set_cons_zero, total]
          omega
      | succ position =>
          have inner := hypothesis position (by simpa using there)
          simp only [List.set_cons_succ, total]
          omega

end SchemaBeans

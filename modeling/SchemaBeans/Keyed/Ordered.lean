import SchemaBeans.Sorted

/-!
# Tables in the order of their keys

A table is kept as a list of keys with their values, strictly sorted by the keys.
Elements are collected in such a table, each in the group of its key.
-/

namespace SchemaBeans.Keyed.Ordered

variable {κ ν α : Type}

/-- The table with a new value for a key, made from the one that the key has, if any. -/
def alter (order : κ → κ → Ordering) (key : κ) (renew : Option ν → ν) :
    List (κ × ν) → List (κ × ν)
  | [] => [(key, renew none)]
  | (other, value) :: entries =>
      match order key other with
      | .lt => (key, renew none) :: (other, value) :: entries
      | .eq => (other, renew (some value)) :: entries
      | .gt => (other, value) :: alter order key renew entries

/-- The table of some entries. Of entries with the same key the last one stays. -/
def ofEntries (order : κ → κ → Ordering) (entries : List (κ × ν)) : List (κ × ν) :=
  entries.foldl (fun table entry => alter order entry.1 (fun _ => entry.2) table) []

/-- The groups of some elements: each element is added to what was collected under its key before,
which is nothing at first. -/
def collect (order : κ → κ → Ordering) (keyOf : α → κ) (add : List ν → α → List ν)
    (elements : List α) : List (κ × List ν) :=
  elements.foldl (fun groups element =>
    alter order (keyOf element) (fun group? => add (group?.getD []) element) groups) []

/-- A new value brings in its key and loses none. -/
theorem map_fst_alter (order : κ → κ → Ordering) (key : κ) (renew : Option ν → ν)
    (entries : List (κ × ν)) :
    (alter order key renew entries).map Prod.fst =
      Sorted.insert order key (entries.map Prod.fst) := by
  induction entries with
  | nil => rfl
  | cons entry entries hypothesis =>
      obtain ⟨other, value⟩ := entry
      simp only [alter, List.map_cons, Sorted.insert]
      cases order key other with
      | lt => rfl
      | eq => rfl
      | gt => simp only [List.map_cons, hypothesis]

/-- Nothing is found under a key that is less than all others. -/
theorem lookup_eq_none_of_lt {order : κ → κ → Ordering} [Std.ReflCmp order] [BEq κ] [LawfulBEq κ]
    {key : κ} {entries : List (κ × ν)}
    (least : ∀ other ∈ entries.map Prod.fst, order key other = .lt) :
    entries.lookup key = none := by
  refine List.lookup_eq_none_iff.mpr fun entry inside => ?_
  have less := least entry.1 (List.mem_map_of_mem inside)
  exact bne_iff_ne.mpr (Sorted.ne_of_compare less Ordering.noConfusion)

/-- Under the key the new value is found, and nothing changes under other keys. -/
theorem lookup_alter {order : κ → κ → Ordering} [Std.TransCmp order] [Std.LawfulEqCmp order]
    [DecidableEq κ] {entries : List (κ × ν)}
    (sorted : (entries.map Prod.fst).Pairwise fun left right => order left right = .lt)
    (key other : κ) (renew : Option ν → ν) :
    (alter order key renew entries).lookup other =
      if other = key then some (renew (entries.lookup key)) else entries.lookup other := by
  induction entries with
  | nil =>
      by_cases wanted : other = key
      · simp [alter, wanted]
      · rw [alter, List.lookup_cons, beq_eq_false_iff_ne.mpr wanted, if_neg wanted]
  | cons entry entries hypothesis =>
      obtain ⟨first, value⟩ := entry
      obtain ⟨least, sorted⟩ := List.pairwise_cons.mp sorted
      unfold alter
      split
      · next less =>
          have fresh : ((first, value) :: entries).lookup key = none := by
            refine lookup_eq_none_of_lt (List.forall_mem_cons.mpr ⟨less, fun later inside => ?_⟩)
            exact Std.TransCmp.lt_trans less (least later inside)
          by_cases wanted : other = key
          · simp [wanted, fresh]
          · rw [List.lookup_cons, beq_eq_false_iff_ne.mpr wanted, if_neg wanted]
      · next equal =>
          obtain rfl := Std.LawfulEqCmp.eq_of_compare equal
          by_cases wanted : other = key
          · simp [wanted]
          · simp only [List.lookup_cons, beq_eq_false_iff_ne.mpr wanted, if_neg wanted]
      · next greater =>
          have different : key ≠ first := Sorted.ne_of_compare greater Ordering.noConfusion
          simp only [List.lookup_cons, hypothesis sorted, beq_eq_false_iff_ne.mpr different]
          by_cases found : other = first
          · simp [found, Ne.symm different]
          · simp [beq_eq_false_iff_ne.mpr found]

end SchemaBeans.Keyed.Ordered

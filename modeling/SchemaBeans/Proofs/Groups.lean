import Mathlib.Data.List.Induction
import SchemaBeans.Keyed
import SchemaBeans.Keyed.Ordered

/-!
# What a table collects

A table in the order of its keys does not remember how it was filled: it is determined
by its entries. `collect_eq_map` says what stands in the groups of some elements
without the steps that collect them: one group for each key, in the order of the keys,
made of the elements with this key alone.
-/

namespace SchemaBeans

namespace Sorted

variable {α : Type}

/-- Lists with the same elements are equal if both are strictly sorted. -/
theorem eq_of_mem_iff {before : α → α → Prop} {left right : List α}
    (asymmetric : ∀ first second, before first second → ¬ before second first)
    (leftSorted : left.Pairwise before) (rightSorted : right.Pairwise before)
    (same : ∀ element, element ∈ left ↔ element ∈ right) : left = right := by
  have nodup {elements : List α} (sorted : elements.Pairwise before) : elements.Nodup := by
    apply sorted.imp
    rintro first _ less rfl
    exact asymmetric first first less less
  have permuted : left.Perm right :=
    (List.perm_ext_iff_of_nodup (nodup leftSorted) (nodup rightSorted)).mpr same
  refine permuted.eq_of_pairwise ?_ leftSorted rightSorted
  intro first second _ _ less greater
  exact absurd greater (asymmetric first second less)

end Sorted

namespace Keyed

variable {κ ν : Type}

/-- Where no key stands twice, the entries are what is found under their keys. -/
theorem mem_iff_lookup [BEq κ] [LawfulBEq κ] {key : κ} {value : ν} {entries : List (κ × ν)}
    (distinct : (entries.map Prod.fst).Nodup) :
    (key, value) ∈ entries ↔ entries.lookup key = some value := by
  constructor
  · exact lookup_of_mem distinct
  · intro found
    obtain ⟨front, rest, rfl, _⟩ := List.lookup_eq_some_iff.mp found
    simp

namespace Ordered

variable {α : Type} {order : κ → κ → Ordering} [Std.TransCmp order]

section Entries

variable {entries : List (κ × ν)}

/-- A table takes its entries one after the other, the last one last. -/
theorem ofEntries_concat (order : κ → κ → Ordering) (entries : List (κ × ν)) (entry : κ × ν) :
    ofEntries order (entries ++ [entry]) =
      alter order entry.1 (fun _ => entry.2) (ofEntries order entries) := by
  rw [ofEntries, List.foldl_append]
  rfl

/-- A table of entries is sorted by its keys. -/
theorem pairwise_ofEntries (entries : List (κ × ν)) :
    ((ofEntries order entries).map Prod.fst).Pairwise
      fun left right => order left right = .lt := by
  induction entries using List.reverseRecOn with
  | nil => exact List.Pairwise.nil
  | append_singleton entries entry hypothesis =>
      rw [ofEntries_concat, map_fst_alter]
      exact Sorted.pairwise_insert entry.1 hypothesis

/-- Under a key the last entry with this key is found. -/
theorem lookup_ofEntries [Std.LawfulEqCmp order] [DecidableEq κ] (entries : List (κ × ν))
    (key : κ) : (ofEntries order entries).lookup key = entries.reverse.lookup key := by
  induction entries using List.reverseRecOn with
  | nil => rfl
  | append_singleton entries entry hypothesis =>
      rw [ofEntries_concat, lookup_alter (pairwise_ofEntries entries), hypothesis,
        List.reverse_append, List.reverse_singleton, List.singleton_append, List.lookup_cons]
      by_cases wanted : key = entry.1
      · rw [if_pos wanted, beq_iff_eq.mpr wanted]
      · rw [if_neg wanted, beq_eq_false_iff_ne.mpr wanted]

/-- A table of entries that all have different keys holds these entries. -/
theorem mem_ofEntries_iff [Std.LawfulEqCmp order] [DecidableEq κ] {entry : κ × ν}
    (distinct : (entries.map Prod.fst).Nodup) :
    entry ∈ ofEntries order entries ↔ entry ∈ entries := by
  have reversed : (entries.reverse.map Prod.fst).Nodup := by
    rw [List.map_reverse]
    exact (List.reverse_perm _).nodup_iff.mpr distinct
  have tabled : ((ofEntries order entries).map Prod.fst).Nodup :=
    Sorted.nodup_of_pairwise (pairwise_ofEntries entries)
  rw [mem_iff_lookup tabled, lookup_ofEntries, ← mem_iff_lookup reversed, List.mem_reverse]

end Entries

section Groups

variable {keyOf : α → κ} {add : List ν → α → List ν} {elements : List α}

/-- A group takes its elements one after the other, the last one last. -/
theorem collect_concat (order : κ → κ → Ordering) (keyOf : α → κ) (add : List ν → α → List ν)
    (elements : List α) (element : α) :
    collect order keyOf add (elements ++ [element]) =
      alter order (keyOf element) (fun group? => add (group?.getD []) element)
        (collect order keyOf add elements) := by
  rw [collect, List.foldl_append]
  rfl

/-- The groups are sorted by their keys. -/
theorem pairwise_collect (elements : List α) :
    ((collect order keyOf add elements).map Prod.fst).Pairwise
      fun left right => order left right = .lt := by
  induction elements using List.reverseRecOn with
  | nil => exact List.Pairwise.nil
  | append_singleton elements element hypothesis =>
      rw [collect_concat, map_fst_alter]
      exact Sorted.pairwise_insert _ hypothesis

variable [Std.LawfulEqCmp order]

/-- There is a group for the key of each element. -/
theorem map_fst_collect (elements : List α) :
    (collect order keyOf add elements).map Prod.fst = Sorted.ofList order (elements.map keyOf) := by
  apply Sorted.eq_of_mem_iff Sorted.lt_asymm (pairwise_collect elements)
    (Sorted.pairwise_ofList order _)
  intro key
  rw [Sorted.mem_ofList]
  induction elements using List.reverseRecOn with
  | nil => exact Iff.rfl
  | append_singleton elements element hypothesis =>
      rw [collect_concat, map_fst_alter, Sorted.mem_insert, hypothesis, List.map_append,
        List.mem_append, List.map_singleton, List.mem_singleton, or_comm]

/-- The group of a key is made of the elements with this key, in their order. -/
theorem lookup_collect [DecidableEq κ] (elements : List α) (key : κ) :
    ((collect order keyOf add elements).lookup key).getD [] =
      (elements.filter fun element => keyOf element = key).foldl add [] := by
  induction elements using List.reverseRecOn generalizing key with
  | nil => rfl
  | append_singleton elements element hypothesis =>
      rw [collect_concat, lookup_alter (pairwise_collect elements), List.filter_append]
      by_cases own : key = keyOf element
      · subst own
        rw [if_pos rfl, Option.getD_some, hypothesis, List.foldl_append]
        simp
      · have other : [element].filter (fun element => keyOf element = key) = [] := by
          simp [Ne.symm own]
        rw [if_neg own, hypothesis, other, List.append_nil]

/-- The groups of some elements: one for each of their keys, in the order of the keys, with the
elements that have it. -/
theorem collect_eq_map [DecidableEq κ] (elements : List α) :
    collect order keyOf add elements =
      (Sorted.ofList order (elements.map keyOf)).map fun key =>
        (key, (elements.filter fun element => keyOf element = key).foldl add []) := by
  have distinct : ((collect order keyOf add elements).map Prod.fst).Nodup :=
    Sorted.nodup_of_pairwise (pairwise_collect elements)
  rw [← map_fst_collect elements, List.map_map]
  refine (List.map_id _).symm.trans (List.map_congr_left ?_)
  rintro ⟨key, group⟩ inside
  have made : ((collect order keyOf add elements).lookup key).getD [] =
      (elements.filter fun element => keyOf element = key).foldl add [] :=
    lookup_collect elements key
  rw [(mem_iff_lookup distinct).mp inside, Option.getD_some] at made
  exact congrArg (Prod.mk key) made

end Groups

end Ordered

end Keyed

end SchemaBeans

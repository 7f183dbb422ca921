/-!
# Lists of pairs with keys

A table is kept as a list of keys with their values. Setting the value of a key
keeps the places of all keys; a new key comes last.
-/

namespace SchemaBeans.Keyed

variable {κ ν : Type}

/-- The table with the value of a key replaced, or added at the end. -/
def set [DecidableEq κ] (key : κ) (value : ν) : List (κ × ν) → List (κ × ν)
  | [] => [(key, value)]
  | (other, old) :: entries =>
      if other = key then (key, value) :: entries else (other, old) :: set key value entries

/-- The value that is set is found under its key, and nothing changes under other keys. -/
theorem lookup_set [DecidableEq κ] [BEq κ] [LawfulBEq κ] (key other : κ) (value : ν)
    (entries : List (κ × ν)) :
    (set key value entries).lookup other =
      if other = key then some value else entries.lookup other := by
  induction entries with
  | nil =>
      by_cases wanted : other = key
      · simp [set, wanted]
      · simp [set, List.lookup_cons, beq_eq_false_iff_ne.mpr wanted, wanted]
  | cons entry entries hypothesis =>
      obtain ⟨name, old⟩ := entry
      by_cases same : name = key
      · subst same
        by_cases wanted : other = name
        · simp [set, wanted]
        · simp [set, List.lookup_cons, beq_eq_false_iff_ne.mpr wanted, wanted]
      · simp only [set, same, if_false, List.lookup_cons, hypothesis]
        by_cases named : other = name
        · simp [named, same]
        · simp [beq_eq_false_iff_ne.mpr named]

/-- Setting the value that a key has changes nothing. -/
theorem set_eq_self [DecidableEq κ] [BEq κ] [LawfulBEq κ] {key : κ} {value : ν}
    {entries : List (κ × ν)} (found : entries.lookup key = some value) :
    set key value entries = entries := by
  induction entries with
  | nil => cases found
  | cons entry entries hypothesis =>
      obtain ⟨name, old⟩ := entry
      rw [List.lookup_cons] at found
      by_cases same : name = key
      · subst same
        simp only [beq_self_eq_true] at found
        rw [set, if_pos rfl, Option.some.inj found]
      · rw [beq_eq_false_iff_ne.mpr (Ne.symm same)] at found
        rw [set, if_neg same, hypothesis found]

/-- A value is set behind the entries with other keys. -/
theorem set_append [DecidableEq κ] [BEq κ] [LawfulBEq κ] {key : κ} {entries : List (κ × ν)}
    (fresh : entries.lookup key = none) (value : ν) (others : List (κ × ν)) :
    set key value (entries ++ others) = entries ++ set key value others := by
  induction entries with
  | nil => rfl
  | cons entry entries hypothesis =>
      obtain ⟨name, old⟩ := entry
      rw [List.lookup_cons] at fresh
      by_cases same : key = name
      · rw [beq_iff_eq.mpr same] at fresh
        cases fresh
      · rw [beq_eq_false_iff_ne.mpr same] at fresh
        rw [List.cons_append, set, if_neg (Ne.symm same), hypothesis fresh, List.cons_append]

/-- An entry at the end is not found under another key. -/
theorem lookup_concat_eq_none [BEq κ] [LawfulBEq κ] {key other : κ} {entries : List (κ × ν)}
    (fresh : entries.lookup key = none) (different : key ≠ other) (value : ν) :
    (entries ++ [(other, value)]).lookup key = none := by
  rw [List.lookup_append, fresh, List.lookup_cons, beq_eq_false_iff_ne.mpr different]
  rfl

/-- Setting a value brings in the key with the value only. -/
theorem mem_of_mem_set [DecidableEq κ] {key : κ} {value : ν} {listed : κ × ν}
    {entries : List (κ × ν)} (inside : listed ∈ set key value entries) :
    listed = (key, value) ∨ listed ∈ entries := by
  induction entries with
  | nil => exact .inl (List.mem_singleton.mp inside)
  | cons entry entries hypothesis =>
      obtain ⟨other, old⟩ := entry
      unfold set at inside
      split at inside
      · rcases List.mem_cons.mp inside with same | later
        · exact .inl same
        · exact .inr (List.mem_cons_of_mem _ later)
      · rcases List.mem_cons.mp inside with same | later
        · exact .inr (same ▸ List.mem_cons_self)
        · exact (hypothesis later).imp_right (List.mem_cons_of_mem _)

/-- Setting a value lets no key stand twice. -/
theorem nodup_set [DecidableEq κ] (key : κ) (value : ν) {entries : List (κ × ν)}
    (distinct : (entries.map Prod.fst).Nodup) :
    ((set key value entries).map Prod.fst).Nodup := by
  induction entries with
  | nil => simp [set]
  | cons entry entries hypothesis =>
      obtain ⟨other, old⟩ := entry
      obtain ⟨fresh, distinct⟩ := List.nodup_cons.mp distinct
      unfold set
      split
      · next same => exact List.nodup_cons.mpr ⟨same ▸ fresh, distinct⟩
      · next different =>
          refine List.nodup_cons.mpr ⟨fun known => ?_, hypothesis distinct⟩
          obtain ⟨listed, inside, same⟩ := List.mem_map.mp known
          rcases mem_of_mem_set inside with rfl | later
          · exact different same.symm
          · exact fresh (List.mem_map.mpr ⟨listed, later, same⟩)

/-- Where no key stands twice, every value is found under its key. -/
theorem lookup_of_mem [BEq κ] [LawfulBEq κ] {key : κ} {value : ν} {entries : List (κ × ν)}
    (distinct : (entries.map Prod.fst).Nodup) (inside : (key, value) ∈ entries) :
    entries.lookup key = some value := by
  induction entries with
  | nil => cases inside
  | cons entry entries hypothesis =>
      obtain ⟨fresh, distinct⟩ := List.nodup_cons.mp distinct
      rcases List.mem_cons.mp inside with rfl | later
      · simp
      · have other : key ≠ entry.1 := by
          intro same
          have listed : key ∈ entries.map Prod.fst := List.mem_map.mpr ⟨_, later, rfl⟩
          exact fresh (same ▸ listed)
        rw [List.lookup_cons, beq_eq_false_iff_ne.mpr other]
        exact hypothesis distinct later

end SchemaBeans.Keyed

import Mathlib.Logic.Function.Basic
import SchemaBeans.Proofs.Traversal

/-!
# Records that are filled entry by entry

A record has a slot for each field. Adding an entry puts what the entry gives into
the empty slot of one field; an entry that names no field, or a field whose slot is
not empty, cannot be added. So a list of entries fills an empty record exactly when
its entries give different fields, and the record holds what they give.
-/

namespace SchemaBeans

variable {κ γ σ ι ε τ : Type}

/-- Entries give the contents of all fields: each field at most once, in any order. An entry may
give nothing for its field, and a field without an entry has no content either. -/
def Gathers (gives : κ → Option τ → ι → Prop) (contents : κ → Option τ) (entries : List ι) : Prop :=
  ∃ fields : List κ, fields.Nodup ∧ (∀ field, field ∉ fields → contents field = none) ∧
    List.Forall₂ (fun field entry => gives field (contents field) entry) fields entries

/-- Entries that stand for others give what those give. -/
theorem Gathers.trans {ω : Type} {stands : ι → ω → Prop} {gives : κ → Option τ → ι → Prop}
    {shows : κ → Option τ → ω → Prop} {contents : κ → Option τ} {entries : List ι}
    {others : List ω} (gathers : Gathers gives contents entries)
    (standing : List.Forall₂ stands entries others)
    (kept : ∀ field content entry other, gives field content entry → stands entry other →
      shows field content other) : Gathers shows contents others := by
  obtain ⟨fields, distinct, outside, each⟩ := gathers
  exact ⟨fields, distinct, outside, forall₂_trans (fun field => kept field _) each standing⟩

variable [DecidableEq κ]

/-- Adding an entry to a record fills the empty slot of a field with what the entry gives for it,
leaves the other slots alone, and fails on all other entries. -/
structure Adds (gives : κ → γ → ι → Prop) (held : σ → κ → Option γ) (add : σ → ι → Except ε σ) :
    Prop where
  reads : ∀ {record entry next}, add record entry = .ok next →
    ∃ field content, gives field content entry ∧ held record field = none ∧
      held next = Function.update (held record) field (some content)
  fills : ∀ {record field content entry}, gives field content entry → held record field = none →
    ∃ next, add record entry = .ok next ∧
      held next = Function.update (held record) field (some content)

/-- Entries fill the slots of different fields, one each. -/
structure Filled (gives : κ → γ → ι → Prop) (before after : κ → Option γ) (fields : List κ)
    (entries : List ι) : Prop where
  distinct : fields.Nodup
  vacant : ∀ field ∈ fields, before field = none
  each : List.Forall₂ (fun field entry =>
    ∃ content, after field = some content ∧ gives field content entry) fields entries
  frame : ∀ field, field ∉ fields → after field = before field

variable {gives : κ → γ → ι → Prop} {held : σ → κ → Option γ} {add : σ → ι → Except ε σ}
  {before between after : κ → Option γ} {field : κ} {fields : List κ} {content : γ} {entry : ι}
  {entries : List ι} {record filled : σ}

/-- One more entry in front fills one more slot. -/
theorem Filled.cons (vacant : before field = none) (given : gives field content entry)
    (rest : Filled gives (Function.update before field (some content)) after fields entries) :
    Filled gives before after (field :: fields) (entry :: entries) := by
  have fresh : field ∉ fields := by
    intro inside
    have empty := rest.vacant field inside
    rw [Function.update_self] at empty
    cases empty
  have apart {other : κ} (inside : other ∈ fields) : other ≠ field := fun same =>
    fresh (same ▸ inside)
  refine ⟨List.nodup_cons.mpr ⟨fresh, rest.distinct⟩, ?_, ?_, ?_⟩
  · refine List.forall_mem_cons.mpr ⟨vacant, fun other inside => ?_⟩
    rw [← rest.vacant other inside, Function.update_of_ne (apart inside)]
  · refine .cons ⟨content, ?_, given⟩ rest.each
    rw [rest.frame field fresh, Function.update_self]
  · intro other outside
    obtain ⟨differs, outside⟩ := not_or.mp (mt List.mem_cons.mpr outside)
    rw [rest.frame other outside, Function.update_of_ne differs]

/-- Entries that could be added have filled slots. -/
theorem Adds.exists_filled (adds : Adds gives held add)
    (folded : entries.foldlM add record = .ok filled) :
    ∃ fields, Filled gives (held record) (held filled) fields entries := by
  induction entries generalizing record with
  | nil =>
      cases folded
      exact ⟨[], .nil, by simp, .nil, fun _ _ => rfl⟩
  | cons entry entries hypothesis =>
      rw [List.foldlM_cons] at folded
      cases added : add record entry with
      | error failure =>
          rw [added] at folded
          cases folded
      | ok next =>
          rw [added] at folded
          obtain ⟨field, content, given, vacant, now⟩ := adds.reads added
          obtain ⟨fields, rest⟩ := hypothesis folded
          exact ⟨field :: fields, .cons vacant given (now ▸ rest)⟩

/-- Entries that each fill the slot of a different field can be added one after the other. -/
theorem exists_foldlM_of_fills
    (fills : ∀ {record field content entry}, gives field content entry →
      held record field = none → ∃ next, add record entry = .ok next ∧
        held next = Function.update (held record) field (some content))
    (distinct : fields.Nodup) (vacant : ∀ field ∈ fields, held record field = none)
    (each : List.Forall₂ (fun field entry => ∃ content, gives field content entry) fields
      entries) :
    ∃ filled, entries.foldlM add record = .ok filled ∧
      Filled gives (held record) (held filled) fields entries := by
  induction each generalizing record with
  | nil => exact ⟨record, rfl, .nil, by simp, .nil, fun _ _ => rfl⟩
  | @cons field entry fields entries first _ hypothesis =>
      obtain ⟨content, given⟩ := first
      obtain ⟨fresh, distinct⟩ := List.nodup_cons.mp distinct
      obtain ⟨slot, vacant⟩ := List.forall_mem_cons.mp vacant
      obtain ⟨next, added, now⟩ := fills given slot
      have empty : ∀ other ∈ fields, held next other = none := by
        intro other inside
        have apart : other ≠ field := fun same => fresh (same ▸ inside)
        rw [now, Function.update_of_ne apart]
        exact vacant other inside
      obtain ⟨filled, folded, rest⟩ := hypothesis distinct empty
      refine ⟨filled, ?_, .cons slot given (now ▸ rest)⟩
      rw [List.foldlM_cons, added]
      exact folded

section Contents

variable {gives : κ → Option τ → ι → Prop} {held : σ → κ → Option (Option τ)}
  {contents : κ → Option τ}

/-- An empty record comes to hold some contents exactly when the entries give these. -/
theorem Adds.gathers_iff (adds : Adds gives held add) (empty : ∀ field, held record field = none) :
    (∃ filled, entries.foldlM add record = .ok filled ∧
      ∀ field, (held filled field).join = contents field) ↔ Gathers gives contents entries := by
  constructor
  · rintro ⟨filled, folded, holds⟩
    obtain ⟨fields, given⟩ := adds.exists_filled folded
    refine ⟨fields, given.distinct, fun field outside => ?_, given.each.imp ?_⟩
    · rw [← holds field, given.frame field outside, empty field]
      rfl
    · rintro field entry ⟨content, own, gives⟩
      have same := holds field
      rw [own, Option.join_some] at same
      exact same ▸ gives
  · rintro ⟨fields, distinct, outside, each⟩
    have wanted : List.Forall₂ (fun field entry =>
        ∃ content, content = contents field ∧ gives field content entry) fields entries :=
      each.imp fun field entry gives => ⟨contents field, rfl, gives⟩
    obtain ⟨filled, folded, given⟩ := exists_foldlM_of_fills
      (fun wanted slot => adds.fills wanted.2 slot) distinct (fun field _ => empty field) wanted
    refine ⟨filled, folded, fun field => ?_⟩
    by_cases inside : field ∈ fields
    · obtain ⟨entry, _, content, own, rfl, _⟩ := exists_mem_of_forall₂ given.each.flip inside
      rw [own, Option.join_some]
    · rw [given.frame field inside, empty field, outside field inside]
      rfl

end Contents

end SchemaBeans

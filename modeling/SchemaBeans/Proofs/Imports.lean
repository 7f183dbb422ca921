import SchemaBeans.Proofs.Accounting
import SchemaBeans.Proofs.Emission

/-!
# What imports name

The imports of a class name types of the platform and classes that are generated
in the same run, with one exception: without a base package, a class of the root
namespace belongs to the default package, and a class of another namespace
imports it with a dot in front of its name. The exception is stated exactly.
-/

namespace SchemaBeans

/-- The name under which the class of a unit is known elsewhere; a class of the default package has
its simple name only. -/
def SourceUnit.qualifiedName (unit : SourceUnit) : String :=
  if unit.package = "" then unit.typeName else unit.package ++ "." ++ unit.typeName

namespace Bean

variable {options : EmitOptions} {models : List Model} {entry : Numbered} {name : String}

/-- A name is that of the unit of a kept model. -/
def IsGenerated (options : EmitOptions) (analysis : Analysis) (name : String) : Prop :=
  ∃ entry ∈ analysis.kept, ∃ unit, emit options analysis.index entry.2 = .ok unit ∧
    name = unit.qualifiedName

/-- A line imports a type of the platform or a class that is generated in the same run. -/
def Available (options : EmitOptions) (analysis : Analysis) (line : List Char) : Prop :=
  ∃ name, line = (importLine name).toList ∧ (IsPlatform name ∨ IsGenerated options analysis name)

/-- Without a base package, a model of some namespace refers to one of the root namespace. -/
structure RefersToRoot (options : EmitOptions) (analysis : Analysis) (model : Model) : Prop where
  base : options.basePackage = ""
  space : model.space ≠ []
  target : ∃ reference ∈ model.references, ∃ target,
    analysis.index.resolve reference model.space = .ok target ∧ target.space = []

/-- An import is available when its name is that of the platform or of a generated type. -/
theorem available_importLine_iff {analysis : Analysis} :
    Available options analysis (importLine name).toList ↔
      IsPlatform name ∨ IsGenerated options analysis name := by
  constructor
  · rintro ⟨other, same, known⟩
    have equal : name = other := by
      simpa [importLine, ← String.toList_inj] using same
    exact equal ▸ known
  · exact fun known => ⟨name, rfl, known⟩

/-- Every kept model has a unit. -/
theorem exists_emit_of_kept (options : EmitOptions)
    (kept : entry ∈ (Analysis.ofModels models).kept) :
    ∃ unit, emit options (Analysis.ofModels models).index entry.2 = .ok unit := by
  obtain ⟨fields, written⟩ := @exists_fields options.basePackage _ entry.2
    fun reference mentioned => Analysis.resolve_of_kept kept mentioned
  exact ⟨_, emit_eq_ok_iff.mpr ⟨fields, written, rfl⟩⟩

/-- What is kept of loaded models was loaded. -/
theorem loadable_of_kept (loadable : ∀ model ∈ models, model.Loadable)
    (kept : entry ∈ (Analysis.ofModels models).kept) : entry.2.Loadable :=
  loadable entry.2
    (List.mem_of_getElem? (mem_numbered.mp ((Analysis.kept_sublist_numbered models).subset kept)))

/-- The names that are known after an analysis are made of identifiers. -/
theorem identified_of_mem_names (loadable : ∀ model ∈ models, model.Loadable)
    {known : QualifiedName} (inside : known ∈ (Analysis.ofModels models).index.names) :
    known.Identified := by
  rw [Analysis.index_ofModels] at inside
  obtain ⟨model, present, rfl⟩ := Index.mem_names_ofModels.mp inside
  obtain ⟨entry, kept, rfl⟩ := List.mem_map.mp present
  exact (loadable_of_kept loadable kept).identified

/-- A generated class is known under a name. -/
theorem wellNamed_of_isGenerated (package : Identifier.isPackage options.basePackage = true)
    (loadable : ∀ model ∈ models, model.Loadable)
    (generated : IsGenerated options (Analysis.ofModels models) name) :
    Identifier.WellNamed name := by
  obtain ⟨entry, kept, unit, emitted, rfl⟩ := generated
  obtain ⟨fields, _, rfl⟩ := emit_eq_ok_iff.mp emitted
  have named := (loadable_of_kept loadable kept).wellNamed
  unfold SourceUnit.qualifiedName
  split
  · exact named.typeName
  · next given =>
      have whole := (Package.qualify_eq_empty_or_wellNamed package named.space).resolve_left
        fun empty => given empty.2.2
      refine (whole.append (by decide)).append ?_
      exact named.typeName.whole

/-- No name of the platform starts with a dot. -/
theorem not_isPlatform_dot (rest : String) : ¬ IsPlatform ("." ++ rest) := by
  unfold IsPlatform
  rw [String.toList_append]
  rintro (numbers | times | list)
  · exact absurd (List.cons_prefix_cons.mp numbers).1 (by decide)
  · exact absurd (List.cons_prefix_cons.mp times).1 (by decide)
  · have first := congrArg (fun name => name.toList.head?) list
    simp [listImport] at first

/-- No class whose name starts with a dot is available. -/
theorem not_available_dot (package : Identifier.isPackage options.basePackage = true)
    (loadable : ∀ model ∈ models, model.Loadable) (rest : String) :
    ¬ Available options (Analysis.ofModels models) (importLine ("." ++ rest)).toList := by
  rw [available_importLine_iff]
  rintro (platform | generated)
  · exact not_isPlatform_dot rest platform
  · exact (wellNamed_of_isGenerated package loadable generated).ne_dot_append rest rfl

/-- A kept type of a package is generated under the name that its imports have. -/
theorem isGenerated_of_resolve {reference : String} {space : List String} {target : QualifiedName}
    (resolved : (Analysis.ofModels models).index.resolve reference space = .ok target)
    (given : target.package options.basePackage ≠ "") :
    IsGenerated options (Analysis.ofModels models)
      (target.package options.basePackage ++ "." ++ target.typeName) := by
  obtain ⟨other, kept, rfl⟩ := Analysis.exists_kept_of_resolve resolved
  obtain ⟨unit, emitted⟩ := exists_emit_of_kept options kept
  refine ⟨other, kept, unit, emitted, ?_⟩
  obtain ⟨fields, _, rfl⟩ := emit_eq_ok_iff.mp emitted
  exact (if_neg given).symm

/-- A kept model sees itself under its own type name. -/
theorem resolve_own (kept : entry ∈ (Analysis.ofModels models).kept) :
    (Analysis.ofModels models).index.resolve entry.2.typeName entry.2.space =
      .ok (QualifiedName.ofModel entry.2) := by
  rw [Analysis.index_ofModels]
  refine Index.resolve_eq_ok_iff.mpr ⟨Index.mem_candidates.mpr ⟨?_, rfl⟩, .inl rfl⟩
  exact Index.mem_names_ofModels.mpr ⟨entry.2, List.mem_map_of_mem kept, rfl⟩

/-- A reference to the name of the model itself means the model. -/
theorem eq_ofModel_of_resolve {reference : String} {target : QualifiedName}
    (kept : entry ∈ (Analysis.ofModels models).kept)
    (resolved : (Analysis.ofModels models).index.resolve reference entry.2.space = .ok target)
    (called : target.typeName = entry.2.typeName) : target = QualifiedName.ofModel entry.2 := by
  have candidate := (Index.resolve_eq_ok_iff.mp resolved).candidate
  have same : reference = entry.2.typeName :=
    (Index.mem_candidates.mp candidate).2.symm.trans called
  have own := resolve_own kept
  rw [← same, resolved] at own
  exact Except.ok.inj own

/-- A model refers to the root namespace from another one, and there is no base package, exactly
when it refers to a type of the default package from some other package. -/
theorem refersToRoot_iff (package : Identifier.isPackage options.basePackage = true)
    (loadable : ∀ model ∈ models, model.Loadable)
    (kept : entry ∈ (Analysis.ofModels models).kept) :
    RefersToRoot options (Analysis.ofModels models) entry.2 ↔
      Package.qualify options.basePackage entry.2.space ≠ "" ∧
        ∃ reference ∈ entry.2.references, ∃ target,
          (Analysis.ofModels models).index.resolve reference entry.2.space = .ok target ∧
          target.package options.basePackage = "" := by
  have named := (loadable_of_kept loadable kept).wellNamed
  constructor
  · rintro ⟨base, space, reference, mentioned, target, resolved, root⟩
    refine ⟨?_, reference, mentioned, target, resolved, ?_⟩
    · rcases Package.qualify_eq_empty_or_wellNamed package named.space with
        ⟨_, ownRoot, _⟩ | whole
      · exact absurd ownRoot space
      · exact whole.ne_empty
    · rw [QualifiedName.package, base, root]
      rfl
  · rintro ⟨own, reference, mentioned, target, resolved, default⟩
    have candidate := (Index.resolve_eq_ok_iff.mp resolved).candidate
    have targetNamed :=
      (identified_of_mem_names loadable (Index.mem_candidates.mp candidate).1).wellNamed
    rcases Package.qualify_eq_empty_or_wellNamed package targetNamed.space with
      ⟨base, root, empty⟩ | whole
    · refine ⟨base, fun ownRoot => own ?_, reference, mentioned, target, resolved, root⟩
      rw [ownRoot, ← root, empty]
    · exact absurd default whole.ne_empty

/-- A reference of some namespace to a type of the default package is imported with a dot in front
of the name. -/
theorem dot_mem_imports (loadable : ∀ model ∈ models, model.Loadable)
    (kept : entry ∈ (Analysis.ofModels models).kept) {fields : List Field}
    (written : entry.2.properties.mapM
      (field options.basePackage (Analysis.ofModels models).index entry.2) = .ok fields)
    (refers : RefersToRoot options (Analysis.ofModels models) entry.2) :
    ∃ rest, "." ++ rest ∈ imports fields := by
  have package : Identifier.isPackage options.basePackage = true := by
    rw [refers.base]
    decide
  obtain ⟨own, reference, mentioned, target, resolved, default⟩ :=
    (refersToRoot_iff package loadable kept).mp refers
  refine ⟨target.typeName, ?_⟩
  rw [mem_imports_iff written (not_isPlatform_dot _)]
  refine ⟨reference, mentioned, target, resolved, mem_imports_modelText_iff.mpr ⟨?_, ?_, ?_⟩⟩
  · rw [default]
    exact own.symm
  · intro called
    rw [eq_ofModel_of_resolve kept resolved called] at default
    exact own default
  · rw [default]
    rfl

/-- Apart from references to the default package, what a class imports is of the platform or
generated. -/
theorem isPlatform_or_isGenerated (package : Identifier.isPackage options.basePackage = true)
    (loadable : ∀ model ∈ models, model.Loadable)
    (kept : entry ∈ (Analysis.ofModels models).kept) {fields : List Field}
    (written : entry.2.properties.mapM
      (field options.basePackage (Analysis.ofModels models).index entry.2) = .ok fields)
    (packaged : ¬ RefersToRoot options (Analysis.ofModels models) entry.2)
    (imported : name ∈ imports fields) :
    IsPlatform name ∨ IsGenerated options (Analysis.ofModels models) name := by
  by_cases platform : IsPlatform name
  · exact .inl platform
  · refine .inr ?_
    obtain ⟨reference, mentioned, target, resolved, asked⟩ :=
      (mem_imports_iff written platform).mp imported
    obtain ⟨apart, _, rfl⟩ := mem_imports_modelText_iff.mp asked
    refine isGenerated_of_resolve resolved fun default => ?_
    have own : Package.qualify options.basePackage entry.2.space ≠ "" := by
      intro empty
      exact apart (default.trans empty.symm)
    exact packaged ((refersToRoot_iff package loadable kept).mpr
      ⟨own, reference, mentioned, target, resolved, default⟩)

/-- A unit has the imports of its fields, below those lines of its header that look like some. -/
theorem importLinesOf_emit (package : Identifier.isPackage options.basePackage = true)
    (loadable : ∀ model ∈ models, model.Loadable)
    (kept : entry ∈ (Analysis.ofModels models).kept) {unit : SourceUnit}
    (emitted : emit options (Analysis.ofModels models).index entry.2 = .ok unit) :
    ∃ fields, entry.2.properties.mapM
        (field options.basePackage (Analysis.ofModels models).index entry.2) = .ok fields ∧
      importLinesOf unit.source = importLinesOf (header entry.2.source) ++
        (imports fields).map fun name => (importLine name).toList := by
  obtain ⟨fields, written, rfl⟩ := emit_eq_ok_iff.mp emitted
  refine ⟨fields, written, importLinesOf_sourceText ?_⟩
  exact unbroken_of_loadable (Package.not_mem_of_isPackage package (by decide) (by decide))
    (loadable_of_kept loadable kept) (fun _ inside => identified_of_mem_names loadable inside)
    written

/-- Every import of a unit names a type of the platform or a class that is generated in the same
run, exactly when the header of the unit has no line that looks like another import, and the model
does not refer to the root namespace from another one without a base package. -/
theorem imports_available_iff (options : EmitOptions) (models : List Model)
    (package : Identifier.isPackage options.basePackage = true)
    (loadable : ∀ model ∈ models, model.Loadable) (entry : Numbered)
    (kept : entry ∈ (Analysis.ofModels models).kept) :
    ∃ unit, emit options (Analysis.ofModels models).index entry.2 = .ok unit ∧
      ((∀ line ∈ importLinesOf unit.source, Available options (Analysis.ofModels models) line) ↔
        (∀ line ∈ importLinesOf (header entry.2.source),
          Available options (Analysis.ofModels models) line) ∧
        ¬ RefersToRoot options (Analysis.ofModels models) entry.2) := by
  obtain ⟨unit, emitted⟩ := exists_emit_of_kept options kept
  refine ⟨unit, emitted, ?_⟩
  obtain ⟨fields, written, lines⟩ := importLinesOf_emit package loadable kept emitted
  rw [lines, List.forall_mem_append]
  refine and_congr_right fun _ => ?_
  constructor
  · intro available refers
    obtain ⟨rest, imported⟩ := dot_mem_imports loadable kept written refers
    exact not_available_dot package loadable rest
      (available _ (List.mem_map_of_mem imported))
  · intro packaged line inside
    obtain ⟨name, imported, rfl⟩ := List.mem_map.mp inside
    exact available_importLine_iff.mpr
      (isPlatform_or_isGenerated package loadable kept written packaged imported)

/-- An order in a namespace of its own refers to an item of the root namespace. -/
def itemAndOrder : List Model :=
  [⟨"Item", none, [], [], ⟨"item.yaml"⟩⟩,
   ⟨"Order", none, [⟨"item", .model "Item", none⟩], ["sales"], ⟨"sales/order.yaml"⟩⟩]

/-- The item and the order could have been loaded. -/
theorem loadable_itemAndOrder : ∀ model ∈ itemAndOrder, model.Loadable := by
  intro model inside
  simp only [itemAndOrder, List.mem_cons, List.not_mem_nil, or_false] at inside
  rcases inside with rfl | rfl
  · exact ⟨by decide +kernel, [], rfl⟩
  · exact ⟨by decide +kernel, ["sales"], by decide +kernel⟩

/-- Everything that the order imports is available. -/
theorem imports_of_order :
    (1, itemAndOrder[1]) ∈ (Analysis.ofModels itemAndOrder).kept ∧
      ∃ unit, emit ⟨"com.example", []⟩ (Analysis.ofModels itemAndOrder).index itemAndOrder[1] =
          .ok unit ∧
        ∀ line ∈ importLinesOf unit.source,
          Available ⟨"com.example", []⟩ (Analysis.ofModels itemAndOrder) line := by
  have kept : (1, itemAndOrder[1]) ∈ (Analysis.ofModels itemAndOrder).kept := by decide +kernel
  obtain ⟨unit, emitted, exactly⟩ := imports_available_iff ⟨"com.example", []⟩ itemAndOrder
    (by decide +kernel) loadable_itemAndOrder (1, itemAndOrder[1]) kept
  refine ⟨kept, unit, emitted, exactly.mpr ⟨?_, fun refers => absurd refers.base (by decide)⟩⟩
  have clean : importLinesOf (header itemAndOrder[1].source) = [] := by decide +kernel
  simp [clean]

/-- Without a base package, the order imports its item with a dot in front of the name. -/
theorem import_of_dot_item :
    ¬ ∀ (options : EmitOptions) (models : List Model),
      Identifier.isPackage options.basePackage = true → (∀ model ∈ models, model.Loadable) →
      ∀ entry ∈ (Analysis.ofModels models).kept, ∀ unit,
        emit options (Analysis.ofModels models).index entry.2 = .ok unit →
          ∀ line ∈ importLinesOf unit.source,
            Available options (Analysis.ofModels models) line := by
  intro available
  have kept : (1, itemAndOrder[1]) ∈ (Analysis.ofModels itemAndOrder).kept := by decide +kernel
  have refers : RefersToRoot ⟨"", []⟩ (Analysis.ofModels itemAndOrder) itemAndOrder[1] :=
    ⟨rfl, by decide, "Item", by decide, ⟨[], "Item"⟩, by decide +kernel, rfl⟩
  obtain ⟨unit, emitted⟩ := exists_emit_of_kept ⟨"", []⟩ kept
  obtain ⟨fields, written, lines⟩ :=
    importLinesOf_emit (by decide) loadable_itemAndOrder kept emitted
  obtain ⟨rest, imported⟩ := dot_mem_imports loadable_itemAndOrder kept written refers
  refine not_available_dot (by decide) loadable_itemAndOrder rest
    (available _ itemAndOrder (by decide) loadable_itemAndOrder _ kept unit emitted _ ?_)
  rw [lines]
  exact List.mem_append_right _ (List.mem_map_of_mem imported)

end Bean

end SchemaBeans

import SchemaBeans.Proofs.Delivery

/-!
# Emission and the check of references

The references of a model are resolved twice: `Index.referenceError?` looks them up
before anything is emitted, and `Bean.emit` looks them up again while it writes the
types of the fields. Both stop at the same property, with the same error. A run
emits only what the check let pass, so none of its emissions fails.
-/

namespace SchemaBeans.Bean

variable {base reference : String} {index : Index} {model : Model} {boxed : Bool} {type : TypeRef}
  {options : EmitOptions} {error : ResolutionError} {failure : ResolutionFailure}

/-- A type has no text exactly when the model that it mentions, below any number of lists, does not
resolve. -/
theorem typeText_eq_error_iff :
    typeText base index model boxed type = .error (reference, failure) ↔
      type.reference? = some reference ∧ index.resolve reference model.space = .error failure := by
  induction type generalizing boxed with
  | primitive type => simp [typeText, TypeRef.reference?]
  | model name =>
      rw [TypeRef.reference?, Option.some.injEq]
      cases outcome : index.resolve name model.space with
      | ok target =>
          simp only [typeText, outcome]
          constructor
          · intro failed
            cases failed
          · rintro ⟨rfl, failed⟩
            rw [outcome] at failed
            cases failed
      | error other =>
          simp only [typeText, outcome, Except.error.injEq, Prod.mk.injEq]
          constructor
          · rintro ⟨rfl, rfl⟩
            exact ⟨rfl, outcome⟩
          · rintro ⟨rfl, failed⟩
            rw [outcome] at failed
            exact ⟨rfl, Except.error.inj failed⟩
  | list element hypothesis =>
      rw [TypeRef.reference?, ← @hypothesis true]
      cases outcome : typeText base index model true element <;>
        simp [typeText, outcome, Except.map]

/-- A property has no field exactly when the check of its reference finds an error, and the error
is the same. -/
theorem field_eq_error_iff {property : Property} :
    field base index model property = .error error ↔
      index.propertyError? model property = some error := by
  rw [Index.propertyError?_eq_some_iff]
  constructor
  · intro failed
    unfold field at failed
    split at failed
    · cases failed
    · next reference failure unwritten =>
        obtain ⟨mentioned, unresolved⟩ := typeText_eq_error_iff.mp unwritten
        exact ⟨reference, failure, mentioned, unresolved, (Except.error.inj failed).symm⟩
  · rintro ⟨reference, failure, mentioned, unresolved, rfl⟩
    rw [field, typeText_eq_error_iff.mpr ⟨mentioned, unresolved⟩]

/-- A model is not emitted exactly when the check of its references finds an error, and the error is
the same. -/
theorem emit_eq_error_iff :
    emit options index model = .error error ↔ index.referenceError? model = some error := by
  have traversed := @mapM_eq_error_iff _ _ _ (field options.basePackage index model)
    model.properties (index.propertyError? model) (fun _ _ => field_eq_error_iff) error
  rw [Index.referenceError?, ← traversed, emit]
  cases model.properties.mapM (field options.basePackage index model) <;> simp [Except.map]

end SchemaBeans.Bean

namespace SchemaBeans.Generation

variable {options : EmitOptions} {index : Index} {root : Path} {model : Model} {host : Host}

/-- Emitting and writing a model fails to resolve a reference exactly when the emission does. -/
theorem emitAndWrite_eq_unresolved_iff {error : ResolutionError} :
    (emitAndWrite options index root model host).1 = .ok (.error error) ↔
      Bean.emit options index model = .error error := by
  unfold emitAndWrite
  cases Bean.emit options index model with
  | error other => simp
  | ok unit =>
      dsimp only
      split <;> simp

/-- The emission of a model and the check of its references agree on every index. A run therefore
has a unit for each model that its plan keeps, and whatever the state of the host is when a worker
takes the model, an unresolved reference is not what comes of it. -/
theorem emission_agrees_with_check (options : EmitOptions) :
    (∀ (index : Index) (model : Model) (error : ResolutionError),
      Bean.emit options index model = .error error ↔ index.referenceError? model = some error) ∧
    ∀ (schedule : List Pool.Move) (settings : Settings) (host planned : Host) (made : Plan),
      plan schedule settings host = (.ok made, planned) →
        ∀ entry ∈ made.analysis.kept,
          (∃ unit, Bean.emit options made.analysis.index entry.2 = .ok unit) ∧
          ∀ (root : Path) (now : Host) (error : ResolutionError),
            (emitAndWrite options made.analysis.index root entry.2 now).1 ≠ .ok (.error error) := by
  refine ⟨fun _ _ _ => Bean.emit_eq_error_iff, ?_⟩
  intro schedule settings host planned made isPlan entry kept
  obtain ⟨⟨loading, rfl⟩, _⟩ := loadable_of_plan isPlan
  obtain ⟨unit, emitted⟩ : ∃ unit,
      Bean.emit options (Plan.ofLoading loading).analysis.index entry.2 = .ok unit :=
    Bean.exists_emit_of_kept options kept
  refine ⟨⟨unit, emitted⟩, fun root now error unresolved => ?_⟩
  rw [emitAndWrite_eq_unresolved_iff, emitted] at unresolved
  cases unresolved

/-- A host with one schema, of an order that refers to the one before it and lists those of earlier
days. -/
def orderedHost : Host :=
  .ofFiles ⟨[(["s"], .directory), (["s", "sales"], .directory),
    (["s", "sales", "order.yaml"], .file (.text
      "typeName: Order\nproperties:\n  earlier: list<list<Order>>\n  previous: Order\n"))], []⟩

/-- The model of the order. -/
def orderedModel : Model :=
  ⟨"Order", none, [⟨"earlier", .list (.list (.model "Order")), none⟩,
    ⟨"previous", .model "Order", none⟩], ["sales"], ⟨"sales/order.yaml"⟩⟩

/-- The order is kept with its references to itself, and it is emitted. -/
theorem order_emitted :
    ∃ made planned, plan [] itemSettings orderedHost = (.ok made, planned) ∧
      (0, orderedModel) ∈ made.analysis.kept ∧
      ∃ unit, Bean.emit ⟨"com.example", []⟩ made.analysis.index orderedModel = .ok unit := by
  have kept : ((plan [] itemSettings orderedHost).1.toOption.any fun made =>
      made.analysis.kept.contains (0, orderedModel)) = true := by decide +kernel
  cases outcome : plan [] itemSettings orderedHost with
  | mk result planned =>
      rw [outcome] at kept
      cases result with
      | error failure => cases kept
      | ok made =>
          have inside : (0, orderedModel) ∈ made.analysis.kept := List.contains_iff_mem.mp kept
          have emitted := ((emission_agrees_with_check ⟨"com.example", []⟩).2 [] itemSettings
            orderedHost planned made outcome (0, orderedModel) inside).1
          exact ⟨made, planned, rfl, inside, emitted⟩

end SchemaBeans.Generation

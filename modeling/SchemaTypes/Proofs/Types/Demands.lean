import SchemaTypes.Building.References
/-!
# What a property demands

The presence check and the null flags follow from the marks of a property, so copying a definition, filling a
placeholder in and relaxing a property set them anew.  All other checks are the property's demands, and those
operations hand them on unchanged.  A property that defers carries the stand-in of a definition that is still
being built.
-/
namespace SchemaTypes

/-- Whether the check stands in for a definition. -/
def Check.isDeferred : Check → Bool
  | .deferred _ => true
  | _ => false

/-- The check, whatever null does. -/
def Check.essence (check : Check) : Check := check.withNull false

theorem Check.isDeferred_withNull (allowed : Bool) (check : Check) :
    (check.withNull allowed).isDeferred = check.isDeferred := by
  cases check <;> rfl

theorem Check.isRequired_withNull (allowed : Bool) (check : Check) :
    (check.withNull allowed).isRequired = check.isRequired := by
  cases check <;> rfl

theorem Check.essence_withNull (allowed : Bool) (check : Check) :
    (check.withNull allowed).essence = check.essence := Check.withNull_withNull allowed false check

namespace Validators

/-- Whether one of the checks stands in for a definition. -/
def defers (validators : Validators) : Bool := validators.toList.any (·.check.isDeferred)

/-- The checks apart from presence and what null does, in order. -/
def demands (validators : Validators) : List Validator :=
  (validators.toList.filter (!·.check.isRequired)).map fun validator =>
    { validator with check := validator.check.essence }

theorem defers_add (validators : Validators) (validator : Validator) :
    (validators.add validator).defers = (validator.check.isDeferred || validators.defers) := by
  unfold defers
  rw [(validators.toList_add_perm validator).any_eq, List.any_cons]

@[simp] theorem defers_addCheck (validators : Validators) (check : Check) :
    (validators.addCheck check).defers = (check.isDeferred || validators.defers) :=
  validators.defers_add check.toValidator

@[simp] theorem defers_removeRequired (validators : Validators) :
    validators.removeRequired.defers = validators.defers := by
  unfold defers
  rw [toList_removeRequired, List.any_filter]
  congr 1
  funext validator
  cases validator.check <;> rfl

@[simp] theorem defers_mapChecks (validators : Validators) (allowed : Bool) :
    (validators.mapChecks (Check.withNull allowed)).defers = validators.defers := by
  unfold defers
  rw [toList_mapChecks, List.any_map]
  congr 1
  funext validator
  exact Check.isDeferred_withNull allowed validator.check

/-- A presence check added is no demand. -/
theorem filter_place (arrival : Arrival) (h : arrival.validator.check.isRequired = true) :
    ∀ arrivals : List Arrival,
      ((place arrival arrivals).map (·.validator)).filter (!·.check.isRequired) =
        (arrivals.map (·.validator)).filter (!·.check.isRequired)
  | [] => by simp [place, h]
  | first :: rest => by
    unfold place
    split
    · rw [List.map_cons, List.filter_cons, filter_place arrival h rest, List.map_cons, List.filter_cons]
    · rw [List.map_cons, List.filter_cons, h]
      rfl

@[simp] theorem demands_addRequired (validators : Validators) :
    (validators.addCheck .required).demands = validators.demands := by
  unfold demands
  exact congrArg _ (filter_place ⟨validators.next, Check.required.toValidator⟩ rfl validators.arrivals)

@[simp] theorem demands_removeRequired (validators : Validators) :
    validators.removeRequired.demands = validators.demands := by
  unfold demands
  rw [toList_removeRequired, List.filter_filter]
  simp

@[simp] theorem demands_mapChecks (validators : Validators) (allowed : Bool) :
    (validators.mapChecks (Check.withNull allowed)).demands = validators.demands := by
  unfold demands
  rw [toList_mapChecks, List.filter_map, List.map_map]
  congr 1
  · funext validator
    simp [Check.essence_withNull]
  · congr 1
    funext validator
    simp [Check.isRequired_withNull]

end Validators

namespace Property

/-- Whether the property waits for a definition. -/
def defers (property : Property) : Bool := property.validators.defers

/-- The checks of the property apart from presence and what null does. -/
def demands (property : Property) : List Validator := property.validators.demands

@[simp] theorem defers_addCheck (property : Property) (check : Check) :
    (property.addCheck check).defers = (check.isDeferred || property.defers) :=
  property.validators.defers_addCheck check

@[simp] theorem defers_addDecorator (property : Property) (decorator : Decorator) :
    (property.addDecorator decorator).defers = property.defers := by
  unfold addDecorator
  split <;> rfl

@[simp] theorem defers_relax (property : Property) : property.relax.defers = property.defers :=
  property.validators.defers_removeRequired

@[simp] theorem demands_relax (property : Property) : property.relax.demands = property.demands :=
  property.validators.demands_removeRequired

@[simp] theorem defers_stampRequired (property : Property) (required allowed : Bool) :
    (property.stampRequired required allowed).defers = property.defers := by
  simp only [stampRequired, defers]
  rw [Validators.defers_mapChecks]
  split
  · rw [Validators.defers_addCheck, Validators.defers_removeRequired]
    rfl
  · exact Validators.defers_removeRequired _

@[simp] theorem demands_stampRequired (property : Property) (required allowed : Bool) :
    (property.stampRequired required allowed).demands = property.demands := by
  simp only [stampRequired, demands]
  rw [Validators.demands_mapChecks]
  split
  · rw [Validators.demands_addRequired, Validators.demands_removeRequired]
  · exact Validators.demands_removeRequired _

end Property

namespace Building

/-- A copy defers if its definition does. -/
@[simp] theorem defers_copied (definition : Property) (name identifier : String) (required allowed : Bool) :
    (copied definition name identifier required allowed).defers = definition.defers := by
  unfold copied
  rw [Property.defers_stampRequired]
  rfl

@[simp] theorem demands_copied (definition : Property) (name identifier : String) (required allowed : Bool) :
    (copied definition name identifier required allowed).demands = definition.demands := by
  unfold copied
  rw [Property.demands_stampRequired]
  rfl

@[simp] theorem defers_bound (placeholder definition : Property) (allowed : Bool) :
    (bound placeholder definition allowed).defers = definition.defers := by
  unfold bound
  rw [Property.defers_stampRequired]
  rfl

/-- A placeholder takes over what its definition demands. -/
@[simp] theorem demands_bound (placeholder definition : Property) (allowed : Bool) :
    (bound placeholder definition allowed).demands = definition.demands := by
  unfold bound
  rw [Property.demands_stampRequired]
  rfl

/-- What the instance of a type demands. -/
def instanceDemands (type : TypeId) : List Validator :=
  [⟨.type [.object] false, 2⟩, ⟨.instanceOf type, 99⟩]

end Building
end SchemaTypes

import SchemaTypes.Building.Compositions
import SchemaTypes.Proofs.Types.Marks
/-!
# Ids that have been handed out

A lookup of an id nobody handed out gives an empty property or type, so a check that names one asks for nothing.
A graph knows a property if all ids that it holds have been handed out, and what it knows it goes on knowing as
it grows (`Grows`).
-/
namespace SchemaTypes
namespace Graph

def HasProperty (graph : Graph) (id : PropertyId) : Prop := id.index < graph.properties.size

def HasType (graph : Graph) (id : TypeId) : Prop := id.index < graph.types.size

structure KnowsCheck (graph : Graph) (check : Check) : Prop where
  children : ∀ id ∈ check.children, graph.HasProperty id
  types : ∀ id ∈ check.types, graph.HasType id

/-- Every id the property holds has been handed out. -/
structure Knows (graph : Graph) (property : Property) : Prop where
  checks : ∀ v ∈ property.validators.toList, graph.KnowsCheck v.check
  nested : ∀ id, property.nested = some id → graph.HasType id
  decorators : ∀ id, Decorator.instantiates id ∈ property.decorators → graph.HasType id

/-- Every id the type holds has been handed out. -/
structure KnowsType (graph : Graph) (type : ObjectType) : Prop where
  properties : ∀ id ∈ type.properties, graph.HasProperty id
  checks : ∀ v ∈ type.validators.toList, graph.KnowsCheck v.check
  redirect : ∀ id, type.redirect = some id → graph.HasType id

/-- No id is taken back. -/
structure Grows (graph other : Graph) : Prop where
  properties : graph.properties.size ≤ other.properties.size
  types : graph.types.size ≤ other.types.size

/-- No type lists the property, and no check leads to it. -/
structure Unclaimed (graph : Graph) (id : PropertyId) : Prop where
  members : ∀ type, id ∉ (graph.entry type).properties
  typeChecks : ∀ type, ∀ v ∈ (graph.entry type).validators.toList, id ∉ v.check.children
  checks : ∀ other, ∀ v ∈ (graph.property other).validators.toList, id ∉ v.check.children

variable {graph other : Graph} {property : Property} {check : Check}

theorem Grows.refl (graph : Graph) : graph.Grows graph := ⟨Nat.le_refl _, Nat.le_refl _⟩

theorem Grows.trans {third : Graph} (h : graph.Grows other) (h' : other.Grows third) : graph.Grows third :=
  ⟨Nat.le_trans h.properties h'.properties, Nat.le_trans h.types h'.types⟩

theorem HasProperty.grows {id : PropertyId} (h : graph.HasProperty id) (hg : graph.Grows other) :
    other.HasProperty id := Nat.lt_of_lt_of_le h hg.properties

theorem HasType.grows {id : TypeId} (h : graph.HasType id) (hg : graph.Grows other) : other.HasType id :=
  Nat.lt_of_lt_of_le h hg.types

theorem KnowsCheck.grows (h : graph.KnowsCheck check) (hg : graph.Grows other) : other.KnowsCheck check :=
  ⟨fun id hid => (h.children id hid).grows hg, fun id hid => (h.types id hid).grows hg⟩

theorem Knows.grows (h : graph.Knows property) (hg : graph.Grows other) : other.Knows property :=
  ⟨fun v hv => (h.checks v hv).grows hg, fun id hid => (h.nested id hid).grows hg,
    fun id hid => (h.decorators id hid).grows hg⟩

theorem KnowsType.grows {type : ObjectType} (h : graph.KnowsType type) (hg : graph.Grows other) :
    other.KnowsType type :=
  ⟨fun id hid => (h.properties id hid).grows hg, fun v hv => (h.checks v hv).grows hg,
    fun id hid => (h.redirect id hid).grows hg⟩

/-! ## Checks -/

/-- A check that names nothing is known. -/
theorem knowsCheck_of_nil (hchildren : check.children = []) (htypes : check.types = []) : graph.KnowsCheck check :=
  ⟨fun _ hid => absurd (hchildren ▸ hid) List.not_mem_nil, fun _ hid => absurd (htypes ▸ hid) List.not_mem_nil⟩

/-- A check that only leads to properties. -/
theorem knowsCheck_of_children (hchildren : ∀ id ∈ check.children, graph.HasProperty id) (htypes : check.types = []) :
    graph.KnowsCheck check := ⟨hchildren, fun _ hid => absurd (htypes ▸ hid) List.not_mem_nil⟩

theorem KnowsCheck.withNull (h : graph.KnowsCheck check) (settles : Bool) :
    graph.KnowsCheck (check.withNull settles) := by
  cases check with
  | type kinds flag => exact knowsCheck_of_nil rfl rfl
  | enumeration values flag => exact knowsCheck_of_nil rfl rfl
  | implicitNull flag => exact knowsCheck_of_nil rfl rfl
  | _ => exact h

/-! ## Properties -/

theorem knows_of_empty (hvalidators : property.validators = {}) (hnested : property.nested = none)
    (hdecorators : property.decorators = []) : graph.Knows property := by
  refine ⟨fun v hv => ?_, fun id hid => ?_, fun id hid => ?_⟩
  · rw [hvalidators] at hv
    exact absurd hv List.not_mem_nil
  · rw [hnested] at hid
    cases hid
  · rw [hdecorators] at hid
    exact absurd hid List.not_mem_nil

theorem Knows.addCheck (h : graph.Knows property) (hcheck : graph.KnowsCheck check) :
    graph.Knows (property.addCheck check) := by
  refine ⟨fun v hv => ?_, h.nested, h.decorators⟩
  rcases Validators.mem_toList_add.1 hv with rfl | hv
  · exact hcheck
  · exact h.checks v hv

theorem Knows.addDecorator (h : graph.Knows property) {decorator : Decorator}
    (hdecorator : ∀ id, decorator = .instantiates id → graph.HasType id) :
    graph.Knows (property.addDecorator decorator) := by
  unfold Property.addDecorator
  split
  · exact h
  · refine ⟨h.checks, h.nested, fun id hid => ?_⟩
    rcases List.mem_append.1 hid with hid | hid
    · exact h.decorators id hid
    · exact hdecorator id (List.mem_singleton.1 hid).symm

/-- The checks of a stamped property are its own, with other flags, and presence. -/
theorem Knows.stampRequired (h : graph.Knows property) (required allowed : Bool) :
    graph.Knows (property.stampRequired required allowed) := by
  have hkept : ∀ v ∈ property.validators.removeRequired.toList, graph.KnowsCheck v.check := by
    intro v hv
    rw [Validators.toList_removeRequired] at hv
    exact h.checks v (List.mem_filter.1 hv).1
  refine ⟨fun v hv => ?_, h.nested, h.decorators⟩
  simp only [Property.stampRequired] at hv
  rw [Validators.toList_mapChecks] at hv
  obtain ⟨w, hw, rfl⟩ := List.mem_map.1 hv
  refine KnowsCheck.withNull ?_ _
  split at hw
  · rcases Validators.mem_toList_add.1 hw with rfl | hw
    · exact knowsCheck_of_nil rfl rfl
    · exact hkept w hw
  · exact hkept w hw

theorem Knows.relax (h : graph.Knows property) : graph.Knows property.relax := by
  refine ⟨fun v hv => ?_, h.nested, h.decorators⟩
  change v ∈ property.validators.removeRequired.toList at hv
  rw [Validators.toList_removeRequired] at hv
  exact h.checks v (List.mem_filter.1 hv).1

theorem Knows.copied {definition : Property} (h : graph.Knows definition) (name identifier : String)
    (required allowed : Bool) : graph.Knows (Building.copied definition name identifier required allowed) := by
  unfold Building.copied
  refine Knows.stampRequired ?_ required allowed
  exact ⟨h.checks, h.nested, h.decorators⟩

theorem Knows.bound {definition : Property} (h : graph.Knows definition) (placeholder : Property) (allowed : Bool) :
    graph.Knows (Building.bound placeholder definition allowed) := by
  unfold Building.bound
  refine Knows.stampRequired ?_ placeholder.required allowed
  exact ⟨h.checks, h.nested, h.decorators⟩

theorem Knows.lifted (h : graph.Knows property) (combinator : Combinator) :
    graph.Knows (Building.lifted property combinator) := by
  unfold Building.lifted
  have hunchecked : graph.Knows { property with required := false, strict := false, validators := {} } :=
    ⟨fun _ hv => (nomatch hv), h.nested, h.decorators⟩
  exact hunchecked.addDecorator fun id heq => nomatch heq

/-! ## Types -/

theorem KnowsType.enlist {type : ObjectType} (h : graph.KnowsType type) {id : PropertyId}
    (hid : graph.HasProperty id) : graph.KnowsType { type with properties := type.properties ++ [id] } := by
  refine ⟨fun member hmember => ?_, h.checks, h.redirect⟩
  rcases List.mem_append.1 hmember with hmember | hmember
  · exact h.properties member hmember
  · exact List.mem_singleton.1 hmember ▸ hid

theorem KnowsType.demand {type : ObjectType} (h : graph.KnowsType type) (hcheck : graph.KnowsCheck check) :
    graph.KnowsType { type with validators := type.validators.addCheck check } := by
  refine ⟨h.properties, fun v hv => ?_, h.redirect⟩
  rcases Validators.mem_toList_add.1 hv with rfl | hv
  · exact hcheck
  · exact h.checks v hv

/-- Following redirects of known types ends at a type that has been handed out. -/
theorem hasType_follow (h : ∀ id, graph.KnowsType (graph.entry id)) :
    ∀ (n : Nat) {id : TypeId}, graph.HasType id → graph.HasType (graph.follow n id)
  | 0, _, hid => hid
  | n + 1, id, hid => by
    unfold follow
    split
    · rename_i target hredirect
      exact hasType_follow h n ((h id).redirect target hredirect)
    · exact hid

end Graph
end SchemaTypes

import SchemaTypes.Proofs.Rendering.Endurance
import SchemaTypes.Types.CanonicalText
/-!
# Properties under later ids

A node that is built a second time gets the same properties under later ids.  A graph repeats another if, by a fixed
offset later, it has what the other has from some id on (`Graph.Repeats`).  Checks on objects name the class they
report, which differs between the two.

The text of a type mentions neither ids of properties nor class names, so it is the same for a type and its repetition
(`Graph.Repeats.canonicalText_eq`), as long as the types that are mentioned are written alike.
-/
namespace SchemaTypes

def PropertyId.shifted (offset : Nat) (id : PropertyId) : PropertyId := ⟨id.index + offset⟩

theorem PropertyId.shifted_injective (offset : Nat) : Function.Injective (PropertyId.shifted offset) := by
  rintro ⟨a⟩ ⟨b⟩ h
  exact congrArg _ (Nat.add_right_cancel (PropertyId.mk.inj h))

def Branch.shifted (offset : Nat) (branch : Branch) : Branch :=
  { branch with property := branch.property.shifted offset }

namespace Check

/-- The check with the properties it applies under later ids. -/
def shifted (offset : Nat) : Check → Check
  | .items item => .items (item.shifted offset)
  | .tuple positions => .tuple (positions.map (·.shifted offset))
  | .additionalItems start item => .additionalItems start (item.shifted offset)
  | .contains item => .contains (item.shifted offset)
  | .additionalProperties className known patterns property =>
    .additionalProperties className known patterns (property.shifted offset)
  | .patternProperty className regex key property => .patternProperty className regex key (property.shifted offset)
  | .propertyNames className property => .propertyNames className (property.shifted offset)
  | .schemaDependency trigger property => .schemaDependency trigger (property.shifted offset)
  | .composition combinator branches onObject =>
    .composition combinator (branches.map (·.shifted offset)) onObject
  | .conditional condition consequent alternative onObject =>
    .conditional (condition.shifted offset) (consequent.map (·.shifted offset)) (alternative.map (·.shifted offset))
      onObject
  | check => check

/-- The check without the class it reports. -/
def anonymous : Check → Check
  | .noAdditionalProperties _ known patterns => .noAdditionalProperties "" known patterns
  | .additionalProperties _ known patterns property => .additionalProperties "" known patterns property
  | .patternProperty _ regex key property => .patternProperty "" regex key property
  | .propertyNames _ property => .propertyNames "" property
  | check => check

variable (offset : Nat) (check : Check)

@[simp] theorem fingerprint_shifted : (check.shifted offset).fingerprint = check.fingerprint := by
  cases check with
  | tuple positions => exact congrArg (fun count => "tuple " ++ toString count) (List.length_map _)
  | composition combinator branches onObject =>
    have haffected : (branches.map (·.shifted offset)).map (fun branch => ",".intercalate branch.affected) =
        branches.map fun branch => ",".intercalate branch.affected := List.map_map
    exact congrArg (fun names => combinator.keyword ++ " object=" ++ toString onObject ++ " affected=["
      ++ ";".intercalate names ++ "]") haffected
  | conditional condition consequent alternative onObject =>
    cases consequent <;> cases alternative <;> rfl
  | _ => rfl

@[simp] theorem defaultPriority_shifted : (check.shifted offset).defaultPriority = check.defaultPriority := by
  cases check <;> rfl

@[simp] theorem nullFlag?_shifted : Graph.nullFlag? (check.shifted offset) = Graph.nullFlag? check := by
  cases check <;> rfl

@[simp] theorem types_shifted : (check.shifted offset).types = check.types := by
  cases check <;> rfl

@[simp] theorem isRequired_shifted : (check.shifted offset).isRequired = check.isRequired := by
  cases check <;> rfl

@[simp] theorem isType_shifted : (check.shifted offset).isType = check.isType := by
  cases check <;> rfl

@[simp] theorem kinds?_shifted : (check.shifted offset).kinds? = check.kinds? := by
  cases check <;> rfl

theorem withNull_shifted (allowed : Bool) :
    (check.shifted offset).withNull allowed = (check.withNull allowed).shifted offset := by
  cases check <;> rfl

theorem children_withNull (settles : Bool) : (check.withNull settles).children = check.children := by
  cases check <;> rfl

theorem types_withNull (settles : Bool) : (check.withNull settles).types = check.types := by
  cases check <;> rfl

theorem children_shifted : (check.shifted offset).children = check.children.map (·.shifted offset) := by
  cases check with
  | composition combinator branches onObject => simp [shifted, children, Branch.shifted, Function.comp_def]
  | conditional condition consequent alternative onObject =>
    cases consequent <;> cases alternative <;> rfl
  | _ => rfl

/-- A check that applies no properties is what it was. -/
theorem shifted_of_children (h : check.children = []) : check.shifted offset = check := by
  cases check with
  | items item => cases h
  | tuple positions =>
    obtain rfl : positions = [] := h
    rfl
  | additionalItems start item => cases h
  | contains item => cases h
  | additionalProperties className known patterns property => cases h
  | patternProperty className regex key property => cases h
  | propertyNames className property => cases h
  | schemaDependency trigger property => cases h
  | composition combinator branches onObject =>
    obtain rfl : branches = [] := List.map_eq_nil_iff.1 h
    rfl
  | conditional condition consequent alternative onObject => cases h
  | _ => rfl

@[simp] theorem fingerprint_anonymous : check.anonymous.fingerprint = check.fingerprint := by
  cases check <;> rfl

@[simp] theorem defaultPriority_anonymous : check.anonymous.defaultPriority = check.defaultPriority := by
  cases check <;> rfl

@[simp] theorem nullFlag?_anonymous : Graph.nullFlag? check.anonymous = Graph.nullFlag? check := by
  cases check <;> rfl

@[simp] theorem types_anonymous : check.anonymous.types = check.types := by
  cases check <;> rfl

@[simp] theorem children_anonymous : check.anonymous.children = check.children := by
  cases check <;> rfl

end Check

/-! ## Validators -/

namespace Validators

variable (validators : Validators) (f : Check → Check)

theorem map_place (g : Arrival → Arrival) (hg : ∀ arrival, (g arrival).validator.priority = arrival.validator.priority)
    (arrival : Arrival) : ∀ arrivals : List Arrival,
      (place arrival arrivals).map g = place (g arrival) (arrivals.map g)
  | [] => rfl
  | first :: rest => by
    rw [List.map_cons, place, place, hg, hg]
    split
    · rw [List.map_cons, map_place g hg arrival rest]
    · rfl

theorem mapChecks_add (validator : Validator) :
    (validators.add validator).mapChecks f =
      (validators.mapChecks f).add { validator with check := f validator.check } :=
  congrArg (Validators.mk · (validators.next + 1)) (map_place (fun arrival => { arrival with
    validator := { arrival.validator with check := f arrival.validator.check } }) (fun _ => rfl)
    ⟨validators.next, validator⟩ validators.arrivals)

theorem mapChecks_addCheck {check : Check} (h : (f check).defaultPriority = check.defaultPriority) :
    (validators.addCheck check).mapChecks f = (validators.mapChecks f).addCheck (f check) := by
  unfold addCheck
  rw [mapChecks_add, Check.toValidator, Check.toValidator, h]

theorem mapChecks_mapChecks (g : Check → Check) :
    (validators.mapChecks f).mapChecks g = validators.mapChecks fun check => g (f check) := by
  simp [mapChecks, Function.comp_def]

theorem removeRequired_mapChecks (h : ∀ check, (f check).isRequired = check.isRequired) :
    (validators.mapChecks f).removeRequired = validators.removeRequired.mapChecks f := by
  simp [removeRequired, retain, mapChecks, List.filter_map, Function.comp_def, h]

theorem find?_mapChecks {p : Check → Bool} (h : ∀ check, p (f check) = p check) :
    (validators.mapChecks f).find? p = (validators.find? p).map f := by
  simp [find?, toList_mapChecks, List.find?_map, Function.comp_def, h]

theorem mem_children_add {validator : Validator} {id : PropertyId} :
    id ∈ (validators.add validator).children ↔ id ∈ validator.check.children ∨ id ∈ validators.children := by
  simp [children, mem_toList_add]

theorem mem_types_add {validator : Validator} {id : TypeId} :
    id ∈ (validators.add validator).types ↔ id ∈ validator.check.types ∨ id ∈ validators.types := by
  simp [types, mem_toList_add]

theorem children_removeRequired_subset : validators.removeRequired.children ⊆ validators.children := by
  intro id hid
  obtain ⟨validator, hvalidator, hid⟩ := List.mem_flatMap.1 hid
  rw [toList_removeRequired] at hvalidator
  exact List.mem_flatMap.2 ⟨validator, (List.mem_filter.1 hvalidator).1, hid⟩

theorem types_removeRequired_subset : validators.removeRequired.types ⊆ validators.types := by
  intro id hid
  obtain ⟨validator, hvalidator, hid⟩ := List.mem_flatMap.1 hid
  rw [toList_removeRequired] at hvalidator
  exact List.mem_flatMap.2 ⟨validator, (List.mem_filter.1 hvalidator).1, hid⟩

end Validators

/-! ## Properties -/

namespace Property

/-- The property with the properties it applies under later ids. -/
def shifted (property : Property) (offset : Nat) : Property :=
  { property with validators := property.validators.mapChecks (Check.shifted offset) }

/-- The types a property is written with. -/
def types (property : Property) : List TypeId := property.nested.toList ++ property.validators.types

variable (property : Property) (offset : Nat)

@[simp] theorem shifted_name : (property.shifted offset).name = property.name := rfl
@[simp] theorem shifted_label : (property.shifted offset).label = property.label := rfl
@[simp] theorem shifted_nested : (property.shifted offset).nested = property.nested := rfl
@[simp] theorem shifted_decorators : (property.shifted offset).decorators = property.decorators := rfl

theorem shifted_of_empty (h : property.validators = {}) : property.shifted offset = property := by
  obtain ⟨_⟩ := property
  cases h
  rfl

theorem shifted_addDecorator (decorator : Decorator) :
    (property.addDecorator decorator).shifted offset = (property.shifted offset).addDecorator decorator := by
  unfold addDecorator
  rw [shifted_decorators]
  split <;> rfl

theorem shifted_relax : property.relax.shifted offset = (property.shifted offset).relax := by
  unfold relax shifted
  rw [Validators.removeRequired_mapChecks _ _ (Check.isRequired_shifted offset)]

theorem shifted_stampRequired (required allowed : Bool) :
    (property.stampRequired required allowed).shifted offset =
      (property.shifted offset).stampRequired required allowed := by
  have hremove := Validators.removeRequired_mapChecks property.validators _ (Check.isRequired_shifted offset)
  have hadd := property.validators.removeRequired.mapChecks_addCheck _ (Check.defaultPriority_shifted offset .required)
  have hnull : ∀ (validators : Validators) (settles : Bool),
      (validators.mapChecks (Check.withNull settles)).mapChecks (Check.shifted offset) =
        (validators.mapChecks (Check.shifted offset)).mapChecks (Check.withNull settles) := by
    intro validators settles
    simp only [Validators.mapChecks_mapChecks, Check.withNull_shifted]
  have hneeds : ({ property with
        required, validators := property.validators.removeRequired.mapChecks (Check.shifted offset) } :
        Property).needsPresence =
      ({ property with required, validators := property.validators.removeRequired } : Property).needsPresence := rfl
  unfold stampRequired shifted
  simp only [hremove, hnull]
  rw [hneeds]
  split
  · rw [hadd]
    rfl
  · rfl

theorem mem_stampRequired {required allowed : Bool} {validator : Validator}
    (h : validator ∈ (property.stampRequired required allowed).validators.toList) :
    validator.check = .required ∨ ∃ original ∈ property.validators.toList, ∃ settles,
      validator.check = original.check.withNull settles := by
  unfold stampRequired at h
  simp only [Validators.toList_mapChecks, List.mem_map] at h
  obtain ⟨original, hmem, rfl⟩ := h
  have hold : ∀ v ∈ property.validators.removeRequired.toList, v ∈ property.validators.toList := fun v hv =>
    (List.mem_filter.1 (Validators.toList_removeRequired _ ▸ hv)).1
  split at hmem
  · rcases Validators.mem_toList_add.1 hmem with rfl | hmem
    · exact Or.inl rfl
    · exact Or.inr ⟨original, hold original hmem, _, rfl⟩
  · exact Or.inr ⟨original, hold original hmem, _, rfl⟩

theorem children_stampRequired_subset (required allowed : Bool) :
    (property.stampRequired required allowed).validators.children ⊆ property.validators.children := by
  intro id hid
  obtain ⟨validator, hvalidator, hid⟩ := List.mem_flatMap.1 hid
  rcases property.mem_stampRequired hvalidator with heq | ⟨original, hmem, settles, heq⟩
  · exact absurd hid (heq ▸ List.not_mem_nil)
  · rw [heq, Check.children_withNull] at hid
    exact List.mem_flatMap.2 ⟨original, hmem, hid⟩

theorem types_stampRequired_subset (required allowed : Bool) :
    (property.stampRequired required allowed).types ⊆ property.types := by
  intro id hid
  rcases List.mem_append.1 hid with hid | hid
  · exact List.mem_append_left _ hid
  obtain ⟨validator, hvalidator, hid⟩ := List.mem_flatMap.1 hid
  refine List.mem_append_right _ ?_
  rcases property.mem_stampRequired hvalidator with heq | ⟨original, hmem, settles, heq⟩
  · exact absurd hid (heq ▸ List.not_mem_nil)
  · rw [heq, Check.types_withNull] at hid
    exact List.mem_flatMap.2 ⟨original, hmem, hid⟩

@[simp] theorem shifted_declaredKinds? : (property.shifted offset).declaredKinds? = property.declaredKinds? := by
  unfold declaredKinds? shifted
  rw [Validators.find?_mapChecks _ _ (Check.isType_shifted offset)]
  cases property.validators.find? Check.isType with
  | none => rfl
  | some check => exact Check.kinds?_shifted offset check

end Property

/-! ## Graphs -/

/-- From `floor` on, the properties are those of the other graph, by the offset later. -/
structure Graph.Repeats (floor offset : Nat) (graph later : Graph) : Prop where
  size : later.properties.size = graph.properties.size + offset
  property : ∀ id : PropertyId, floor ≤ id.index →
    later.property (id.shifted offset) = (graph.property id).shifted offset
  children : ∀ id : PropertyId, floor ≤ id.index →
    ∀ child ∈ (graph.property id).validators.children, floor ≤ child.index

/-- Types that are filled in alike: what they have is shifted, and checks report any class. -/
structure ObjectType.Repeats (floor offset : Nat) (type later : ObjectType) : Prop where
  properties : later.properties = type.properties.map (·.shifted offset)
  validators : later.validators.mapChecks Check.anonymous =
    type.validators.mapChecks fun check => (check.shifted offset).anonymous
  inner : ∀ id ∈ type.properties, floor ≤ id.index
  children : ∀ child ∈ type.validators.children, floor ≤ child.index
  types : type.validators.types = []

/-- Elements with equal images have what follows from that. -/
theorem map_eq_of_map_eq {α β γ δ : Type} {f : α → γ} {g : β → γ} {F : α → δ} {G : β → δ} :
    ∀ {l : List α} {m : List β}, l.map f = m.map g → (∀ a, ∀ b ∈ m, f a = g b → F a = G b) → l.map F = m.map G
  | [], [], _, _ => rfl
  | [], _ :: _, h, _ => nomatch h
  | _ :: _, [], h, _ => nomatch h
  | a :: l, b :: m, h, hFG => by
    obtain ⟨hhead, htail⟩ := List.cons.inj h
    rw [List.map_cons, List.map_cons, hFG a b List.mem_cons_self hhead,
      map_eq_of_map_eq htail fun x y hy => hFG x y (List.mem_cons_of_mem _ hy)]

namespace Graph

variable {graph later : Graph} {floor offset : Nat} {current current' : TypeId}

/-- A validator is written like the one it repeats. -/
theorem validatorText_eq {child child' : PropertyId → String} {validator validator' : Validator}
    (hpriority : validator'.priority = validator.priority)
    (hcheck : validator'.check.anonymous = (validator.check.shifted offset).anonymous)
    (hchild : ∀ id ∈ validator.check.children, child' (id.shifted offset) = child id)
    (htype : ∀ id ∈ validator.check.types, later.typeText current' id = graph.typeText current id) :
    later.validatorText current' child' validator' = graph.validatorText current child validator := by
  have hfingerprint : validator'.check.fingerprint = validator.check.fingerprint := by
    rw [← Check.fingerprint_anonymous, hcheck, Check.fingerprint_anonymous, Check.fingerprint_shifted]
  have hflag : nullFlag? validator'.check = nullFlag? validator.check := by
    rw [← Check.nullFlag?_anonymous, hcheck, Check.nullFlag?_anonymous, Check.nullFlag?_shifted]
  have htypes : validator'.check.types = validator.check.types := by
    rw [← Check.types_anonymous, hcheck, Check.types_anonymous, Check.types_shifted]
  have hchildren : validator'.check.children = validator.check.children.map (·.shifted offset) := by
    rw [← Check.children_anonymous, hcheck, Check.children_anonymous, Check.children_shifted]
  have htypeTexts : validator.check.types.map (fun id => "|" ++ later.typeText current' id) =
      validator.check.types.map fun id => "|" ++ graph.typeText current id :=
    List.map_congr_left fun id hid => congrArg ("|" ++ ·) (htype id hid)
  have hchildTexts : (validator.check.children.map (·.shifted offset)).map (fun id => "\x7b" ++ child' id ++ "\x7d") =
      validator.check.children.map fun id => "\x7b" ++ child id ++ "\x7d" := by
    rw [List.map_map]
    exact List.map_congr_left fun id hid => congrArg (fun text => "\x7b" ++ text ++ "\x7d") (hchild id hid)
  unfold validatorText
  simp only
  rw [hpriority, hfingerprint, hflag, htypes, hchildren, htypeTexts, hchildTexts]

/-- Validators are written like those they repeat, if their children are. -/
theorem validatorTexts_eq {child child' : PropertyId → String} {validators validators' : Validators}
    (hsame : validators'.mapChecks Check.anonymous = validators.mapChecks fun check => (check.shifted offset).anonymous)
    (hchild : ∀ id ∈ validators.children, child' (id.shifted offset) = child id)
    (htype : ∀ id ∈ validators.types, later.typeText current' id = graph.typeText current id) :
    validators'.toList.map (later.validatorText current' child') =
      validators.toList.map (graph.validatorText current child) := by
  have hlists := congrArg Validators.toList hsame
  rw [Validators.toList_mapChecks, Validators.toList_mapChecks] at hlists
  refine map_eq_of_map_eq hlists fun validator' validator hmem heq => ?_
  obtain ⟨hcheck, hpriority⟩ := Validator.mk.inj heq
  refine validatorText_eq hpriority hcheck (fun id hid => hchild id ?_) fun id hid => htype id ?_
  · exact List.mem_flatMap.2 ⟨validator, hmem, hid⟩
  · exact List.mem_flatMap.2 ⟨validator, hmem, hid⟩

/-- The same ids are left in both lists, by the offset later in the second one. -/
structure Unopened (floor offset : Nat) (ids ids' : List PropertyId) : Prop where
  nodup : ids.Nodup
  nodup' : ids'.Nodup
  mem : ∀ id : PropertyId, floor ≤ id.index → (id.shifted offset ∈ ids' ↔ id ∈ ids)

theorem Unopened.erase {ids ids' : List PropertyId} (h : Unopened floor offset ids ids') (id : PropertyId) :
    Unopened floor offset (ids.erase id) (ids'.erase (id.shifted offset)) := by
  refine ⟨h.nodup.erase id, h.nodup'.erase _, fun other hother => ?_⟩
  rw [h.nodup.mem_erase_iff, h.nodup'.mem_erase_iff, h.mem other hother, (PropertyId.shifted_injective offset).ne_iff]

namespace Repeats

theorem unopened (h : graph.Repeats floor offset later) :
    Unopened floor offset graph.propertyIds later.propertyIds := by
  refine ⟨graph.nodup_propertyIds, later.nodup_propertyIds, fun id _ => ?_⟩
  rw [mem_propertyIds, mem_propertyIds, HasProperty, HasProperty, h.size]
  exact Nat.add_lt_add_iff_right

/-- **A property is written like the one it repeats**, with as much left to open. -/
theorem propertyText_eq (h : graph.Repeats floor offset later)
    (htype : ∀ id : PropertyId, floor ≤ id.index → ∀ type ∈ (graph.property id).types,
      later.typeText current' type = graph.typeText current type) :
    ∀ {ids ids' : List PropertyId} {id : PropertyId}, Unopened floor offset ids ids' → floor ≤ id.index →
      later.propertyText current' ids' (id.shifted offset) = graph.propertyText current ids id := by
  intro ids ids' id hids hid
  rw [propertyText, propertyText]
  by_cases hmem : id ∈ ids
  · rw [dif_pos hmem, dif_pos ((hids.mem id hid).2 hmem)]
    have hnested : ∀ nested ∈ (graph.property id).nested, later.typeText current' nested =
        graph.typeText current nested := fun nested hnested =>
      htype id hid nested (List.mem_append_left _ (Option.mem_toList.2 hnested))
    have hvalidators : ((graph.property id).shifted offset).validators.toList.map
          (later.validatorText current' fun child =>
            later.propertyText current' (ids'.erase (id.shifted offset)) child) =
        (graph.property id).validators.toList.map (graph.validatorText current fun child =>
          graph.propertyText current (ids.erase id) child) :=
      validatorTexts_eq (Validators.mapChecks_mapChecks _ _ _)
        (fun child hchild => propertyText_eq h htype (hids.erase id) (h.children id hid child hchild))
        fun type htypes => htype id hid type (List.mem_append_right _ htypes)
    simp only [h.property id hid]
    rw [hvalidators, Property.shifted_nested, Option.map_congr hnested]
    rfl
  · rw [dif_neg hmem, dif_neg fun hin => hmem ((hids.mem id hid).1 hin)]
termination_by ids => ids.length
decreasing_by
  have := List.length_erase_of_mem hmem
  have := List.length_pos_of_mem hmem
  omega

/-- **A type is written like the one it repeats**, if both write the types they mention alike. -/
theorem canonicalText_eq (h : graph.Repeats floor offset later) {type type' : TypeId}
    (hrepeats : (graph.entry type).Repeats floor offset (later.entry type'))
    (htype : ∀ id : PropertyId, floor ≤ id.index → ∀ mentioned ∈ (graph.property id).types,
      later.typeText (later.canonical type') mentioned = graph.typeText (graph.canonical type) mentioned) :
    later.canonicalText type' = graph.canonicalText type := by
  have hchild : ∀ id : PropertyId, floor ≤ id.index →
      later.propertyText (later.canonical type') later.propertyIds (id.shifted offset) =
        graph.propertyText (graph.canonical type) graph.propertyIds id := fun id hid =>
    h.propertyText_eq htype h.unopened hid
  have hproperties : (graph.entry type).properties.map (fun id =>
      later.propertyText (later.canonical type') later.propertyIds (id.shifted offset) ++ "\n") =
      (graph.entry type).properties.map fun id =>
        graph.propertyText (graph.canonical type) graph.propertyIds id ++ "\n" :=
    List.map_congr_left fun id hid => congrArg (· ++ "\n") (hchild id (hrepeats.inner id hid))
  have hvalidators : (later.entry type').validators.toList.map
        (later.validatorText (later.canonical type') (later.propertyText (later.canonical type') later.propertyIds)) =
      (graph.entry type).validators.toList.map
        (graph.validatorText (graph.canonical type) (graph.propertyText (graph.canonical type) graph.propertyIds)) :=
    validatorTexts_eq hrepeats.validators (fun id hid => hchild id (hrepeats.children id hid))
      fun id hid => absurd hid (hrepeats.types ▸ List.not_mem_nil)
  unfold canonicalText
  simp only
  rw [hrepeats.properties, List.map_map, hvalidators]
  exact congrArg (fun texts => String.join texts ++ _ ++ _) hproperties

end Repeats
end Graph
end SchemaTypes

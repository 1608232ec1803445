import SchemaTypes.Proofs.Building.Wrappers
/-!
# Places of a node

A node stands in another one as an item, at the position of a tuple, as a contained item or as a branch
(`Nesting.plug`).  A required property of the outer node is built by building the inner one and adding a property whose
checks lead to it (`Building.runs_plug`), so nothing else about the outer node depends on what is inside.

A root has a node as a member, as what all other members or those of a pattern are, or as what a member brings with it
(`Place`).  Its document is processed by building the node's property while the root is being made, and concluding the
root with it (`Place.runs_document`).
-/
namespace SchemaTypes
namespace Building

open Build Naming

/-! ## Nodes around a node -/

/-- How a node stands in the one around it. -/
inductive Nesting where
  | item
  | position
  | contained
  | branch (combinator : Combinator)

namespace Nesting

/-- The node around a node. -/
def plug : Nesting → Json → Json
  | item, node => .object [("type", .string "array"), ("items", node)]
  | position, node => .object [("type", .string "array"), ("items", .array [node])]
  | contained, node => .object [("type", .string "array"), ("contains", node)]
  | branch .not, node => .object [("not", node)]
  | branch combinator, node => .object [(combinator.keyword, .array [node])]

/-- The node is read as a schema: a list of items would be a tuple, and a boolean branch is written out first. -/
def Takes : Nesting → Json → Prop
  | item, node => ∀ items, node ≠ .array items
  | branch _, node => ∀ value, node ≠ .bool value
  | _, _ => True

/-- What the inner property is called if the outer one has this name. -/
def label : Nesting → String → String
  | item, name => "item of array " ++ name
  | position, name => "tuple item #" ++ toString 0 ++ " of array " ++ name
  | contained, name => "contained item of array " ++ name
  | branch _, name => name

/-- Build the inner property.  An item may be missing. -/
def hold (nesting : Nesting) (build : Builder) (site : Site) (node : Json) : Build PropertyId :=
  match nesting with
  | branch _ => build { scope := site.scope, name := site.name, required := true } node
  | _ => nested build site.scope (nesting.label site.name) node

/-- The check of the outer property that leads to the inner one. -/
def check : Nesting → PropertyId → Check
  | item, id => .items id
  | position, id => .tuple [id]
  | contained, id => .contains id
  | branch combinator, id => .composition combinator [⟨id, []⟩] false

/-- What the outer property asks for before. -/
def guard : Nesting → Check
  | branch _ => .implicitNull false
  | _ => .type [.array] false

/-- The inner name has an identifier if the outer one does. -/
theorem hasIdentifier_label (nesting : Nesting) {name : String} (h : HasIdentifier name) :
    HasIdentifier (nesting.label name) := by
  have hnames : HasIdentifier "item of array " ∧ HasIdentifier "tuple item #" ∧
      HasIdentifier "contained item of array " := by decide +kernel
  cases nesting with
  | item => exact hnames.1.append_left name
  | position => exact ((hnames.2.1.append_left _).append_left _).append_left name
  | contained => exact hnames.2.2.append_left name
  | branch combinator => exact h

end Nesting

/-- The node that a node stands in after all. -/
def surround (nestings : List Nesting) (node : Json) : Json := nestings.foldr Nesting.plug node

/-- Each of the nodes is read as a schema. -/
def Fits : List Nesting → Json → Prop
  | [], _ => True
  | nesting :: rest, node => nesting.Takes (surround rest node) ∧ Fits rest node

theorem references_plug (nesting : Nesting) (node : Json) : references (nesting.plug node) = references node := by
  cases nesting with
  | branch combinator =>
    cases combinator <;> simp [Nesting.plug, references, referencesOfMembers, referencesOfItems, ownReference,
      Combinator.keyword]
  | _ => simp [Nesting.plug, references, referencesOfMembers, referencesOfItems, ownReference]

theorem references_surround (nestings : List Nesting) (node : Json) :
    references (surround nestings node) = references node := by
  induction nestings with
  | nil => rfl
  | cons nesting rest ih => exact (references_plug nesting _).trans ih

theorem levels_lt_plug (nesting : Nesting) (node : Json) : node.levels < (nesting.plug node).levels := by
  have hlist : ∀ keyword, keyword ≠ "type" → (nesting.plug node).get? keyword = some (.array [node]) →
      node.levels < (nesting.plug node).levels :=
    fun keyword hkeyword hget => levels_lt_item hkeyword hget List.mem_cons_self
  have hone : ∀ keyword, (nesting.plug node).get? keyword = some node → node.levels < (nesting.plug node).levels :=
    fun _ => levels_lt_get
  cases nesting with
  | item => exact hone "items" rfl
  | position => exact hlist "items" (by decide) rfl
  | contained => exact hone "contains" rfl
  | branch combinator =>
    cases combinator with
    | not => exact hone "not" rfl
    | allOf => exact hlist "allOf" (by decide) rfl
    | anyOf => exact hlist "anyOf" (by decide) rfl
    | oneOf => exact hlist "oneOf" (by decide) rfl

theorem length_lt_levels_surround (nestings : List Nesting) (node : Json) :
    nestings.length + node.levels ≤ (surround nestings node).levels := by
  induction nestings with
  | nil => exact Nat.le_of_eq (Nat.zero_add _)
  | cons nesting rest ih =>
    have hlt := levels_lt_plug nesting (surround rest node)
    change rest.length + 1 + node.levels ≤ (nesting.plug (surround rest node)).levels
    omega

variable {config : Config} {build : Builder} {scope : Scope} {site : Site} {node : Json} {bound : Nat}
  {identifier : String}

theorem presentProperty_eq (hname : identifier? site.name = some identifier) (hrequired : site.required = true) :
    presentProperty site = pure (Property.addCheck { name := site.name, identifier, required := true } .required) := by
  unfold presentProperty newProperty
  rw [hname, hrequired]
  rfl

theorem allowsNull_true : allowsNull true = pure false := by
  unfold allowsNull
  simp only [Bool.not_true, Bool.and_false]
  rfl

/-- The labels that branches share change the label, and hint at it. -/
theorem inferLabel_eq (property : Property) (labels : List (Option TypeLabel)) : inferLabel property labels =
    { property with
      label := (inferLabel property labels).label, decorators := (inferLabel property labels).decorators } := by
  unfold inferLabel
  split
  · split
    · unfold Property.addDecorator
      split <;> rfl
    · rfl
  · rfl

/-- The draft of a required array. -/
def arrayDraft (name identifier : String) : Property :=
  Property.addCheck { Property.addCheck { name, identifier, required := true } .required with
    label := some (labelOf .array) } (.type [.array] false)

theorem ofKind_array (hname : identifier? site.name = some identifier) (hrequired : site.required = true) :
    ofKind build site node .array = addArrayChecks build site.scope (arrayDraft site.name identifier) node := by
  unfold ofKind
  rw [presentProperty_eq hname hrequired, hrequired, allowsNull_true]
  rfl

theorem addArrayChecks_item (draft : Property) (htakes : Nesting.item.Takes node) :
    addArrayChecks build scope draft (Nesting.item.plug node) =
      (nested build scope (Nesting.item.label draft.name) node >>= fun id => pure (draft.addCheck (.items id))) := by
  have hitems : addItems build scope draft (Nesting.item.plug node) =
      (nested build scope (Nesting.item.label draft.name) node >>= fun id => pure (draft.addCheck (.items id))) := by
    cases node with
    | array items => exact absurd rfl (htakes items)
    | _ => rfl
  have hparts : addArrayChecks build scope draft (Nesting.item.plug node) =
      addItems build scope draft (Nesting.item.plug node) >>= pure := rfl
  rw [hparts, hitems, bind_pure]

theorem addArrayChecks_position (draft : Property) : addArrayChecks build scope draft (Nesting.position.plug node) =
    (nested build scope (Nesting.position.label draft.name) node >>= fun id =>
      pure (draft.addCheck (.tuple [id]))) := by
  have hpositions : [node].zipIdx.mapM (fun entry : Json × Nat =>
      nested build scope ("tuple item #" ++ toString entry.2 ++ " of array " ++ draft.name) entry.1) =
        (nested build scope (Nesting.position.label draft.name) node >>= fun id => pure [id]) := by
    rw [List.zipIdx_cons, List.zipIdx_nil, List.mapM_cons, List.mapM_nil]
    rfl
  have hparts : addArrayChecks build scope draft (Nesting.position.plug node) =
      addItems build scope draft (Nesting.position.plug node) >>= pure := rfl
  have hitems : addItems build scope draft (Nesting.position.plug node) =
      ([node].zipIdx.mapM (fun entry : Json × Nat =>
        nested build scope ("tuple item #" ++ toString entry.2 ++ " of array " ++ draft.name) entry.1) >>=
          fun positions => pure (draft.addCheck (.tuple positions))) := rfl
  rw [hparts, hitems, hpositions, bind_pure, bind_assoc]
  simp only [pure_bind]

theorem addArrayChecks_contained (draft : Property) : addArrayChecks build scope draft (Nesting.contained.plug node) =
    (nested build scope (Nesting.contained.label draft.name) node >>= fun id =>
      pure (draft.addCheck (.contains id))) := rfl

/-- An array is built by building the inner property, and is complete then. -/
theorem property_plug_array {nesting : Nesting} (hname : identifier? site.name = some identifier)
    (hrequired : site.required = true) (htakes : nesting.Takes node) (harray : nesting.guard = .type [.array] false) :
    property (bound + 1) site (nesting.plug node) = (nesting.hold (property bound) site node >>= fun id =>
      Build.addProperty ((arrayDraft site.name identifier).addCheck (nesting.check id))) := by
  have hmade : ∀ {check : PropertyId → Check},
      property (bound + 1) site (nesting.plug node) = (ofKind (property bound) site (nesting.plug node) .array >>=
        complement (property bound) site (nesting.plug node)) →
      (∀ draft : Property, addArrayChecks (property bound) site.scope draft (nesting.plug node) =
        (nested (property bound) site.scope (nesting.label draft.name) node >>= fun id =>
          pure (draft.addCheck (check id)))) →
      (∀ id, complement (property bound) site (nesting.plug node)
        ((arrayDraft site.name identifier).addCheck (check id)) =
          Build.addProperty ((arrayDraft site.name identifier).addCheck (check id))) →
      property (bound + 1) site (nesting.plug node) =
        (nested (property bound) site.scope (nesting.label site.name) node >>= fun id =>
          Build.addProperty ((arrayDraft site.name identifier).addCheck (check id))) := by
    intro check hkind hchecks hcomplement
    rw [hkind, ofKind_array hname hrequired, hchecks, bind_assoc]
    exact bind_congr fun id => (pure_bind _ _).trans (hcomplement id)
  cases nesting with
  | item => exact hmade rfl (fun draft => addArrayChecks_item draft htakes) fun _ => rfl
  | position => exact hmade rfl (fun draft => addArrayChecks_position draft) fun _ => rfl
  | contained => exact hmade rfl (fun draft => addArrayChecks_contained draft) fun _ => rfl
  | branch combinator => exact nomatch harray

/-! ## Compositions around a node -/

theorem inheritType_plug (combinator : Combinator) (htakes : (Nesting.branch combinator).Takes node) :
    Keyword.inheritType ((Nesting.branch combinator).plug node) node = node := by
  have hnone : ((Nesting.branch combinator).plug node).get? "type" = none := by cases combinator <;> rfl
  unfold Keyword.inheritType
  rw [hnone]
  cases node with
  | bool value => exact absurd rfl (htakes value)
  | _ => rfl

theorem branch_of_required (hrequired : site.required = true) : branch build site node =
    build { scope := site.scope, name := site.name, required := true } node := by
  unfold branch
  rw [hrequired]
  exact bind_pure _

/-- The composition is the only one. -/
theorem foldlM_addComposition (combinator : Combinator) (draft : Property) :
    Combinator.all.foldlM (addComposition build site ((Nesting.branch combinator).plug node)) draft =
      addComposition build site ((Nesting.branch combinator).plug node) draft combinator := by
  have hothers : ∀ other, other ≠ combinator → ∀ draft : Property,
      addComposition build site ((Nesting.branch combinator).plug node) draft other = pure draft := by
    intro other hother draft
    cases combinator <;> cases other <;> first | exact absurd rfl hother | rfl
  unfold Combinator.all
  simp only [List.foldlM_cons, List.foldlM_nil]
  cases combinator with
  | allOf =>
    simp only [hothers .anyOf (by decide), hothers .oneOf (by decide), hothers .not (by decide), bind_pure]
  | anyOf =>
    simp only [hothers .allOf (by decide), hothers .oneOf (by decide), hothers .not (by decide), bind_pure, pure_bind]
  | oneOf =>
    simp only [hothers .allOf (by decide), hothers .anyOf (by decide), hothers .not (by decide), bind_pure, pure_bind]
  | not =>
    simp only [hothers .allOf (by decide), hothers .anyOf (by decide), hothers .oneOf (by decide), bind_pure, pure_bind]

theorem addComposition_plug (build : Builder) (combinator : Combinator) (htakes : (Nesting.branch combinator).Takes node)
    (hrequired : site.required = true) (draft : Property) :
    ∃ (label : PropertyId → Graph → Option TypeLabel) (decorators : PropertyId → Graph → List Decorator),
      addComposition build site ((Nesting.branch combinator).plug node) draft combinator =
        ((Nesting.branch combinator).hold build site node >>= fun id => (do
          let graph ← Build.graph
          let labelled := { draft with label := label id graph, decorators := decorators id graph }
          return labelled.addCheck (.composition combinator [⟨id, []⟩] false))) := by
  have hbranches : Keyword.branches? site.name ((Nesting.branch combinator).plug node) combinator =
      pure (some [node]) := by
    cases combinator <;> rfl
  let labelled : PropertyId → Graph → Property := fun id graph =>
    if draft.label.isNone && combinator != .not then inferLabel draft [(graph.property id).label] else draft
  have hlabelled : ∀ id graph, labelled id graph =
      { draft with label := (labelled id graph).label, decorators := (labelled id graph).decorators } := by
    intro id graph
    unfold labelled
    split
    · exact inferLabel_eq draft _
    · rfl
  refine ⟨fun id graph => (labelled id graph).label, fun id graph => (labelled id graph).decorators, ?_⟩
  simp only [← hlabelled]
  unfold addComposition
  rw [hbranches, pure_bind]
  simp only [List.mapM_cons, List.mapM_nil, inheritType_plug combinator htakes, branch_of_required hrequired,
    bind_assoc, pure_bind]
  rfl

/-- A composition is built by building its branch, and nothing else decides about null. -/
theorem property_plug_branch {combinator : Combinator} (bound : Nat) (hname : identifier? site.name = some identifier)
    (hrequired : site.required = true) (htakes : (Nesting.branch combinator).Takes node) :
    ∃ (label : PropertyId → Graph → Option TypeLabel) (decorators : PropertyId → Graph → List Decorator),
      property (bound + 1) site ((Nesting.branch combinator).plug node) =
        ((Nesting.branch combinator).hold (property bound) site node >>= fun id => (do
          let graph ← Build.graph
          let draft := Property.addCheck { name := site.name, identifier, required := true } .required
          let labelled := { draft with label := label id graph, decorators := decorators id graph }
          Build.addProperty ((labelled.addCheck (.composition combinator [⟨id, []⟩] false)).addCheck
            (.implicitNull false)))) := by
  obtain ⟨label, decorators, hadd⟩ := addComposition_plug (property bound) combinator htakes hrequired
    (Property.addCheck { name := site.name, identifier, required := true } .required)
  refine ⟨label, decorators, ?_⟩
  have huntyped : property (bound + 1) site ((Nesting.branch combinator).plug node) =
      (presentProperty site >>= complement (property bound) site ((Nesting.branch combinator).plug node)) := by
    cases combinator <;> rfl
  have hvalued : ∀ draft, applyValueKeywords draft ((Nesting.branch combinator).plug node) site.required =
      pure draft := by
    intro draft
    cases combinator <;> rfl
  have hunconditional : ∀ build, conditional? build site.name ((Nesting.branch combinator).plug node) false =
      pure none := by
    intro build
    cases combinator <;> rfl
  rw [huntyped, presentProperty_eq hname hrequired, pure_bind]
  unfold complement applyCompositions
  rw [hvalued, pure_bind, foldlM_addComposition, hadd, hrequired]
  simp only [hunconditional, allowsNull_true, bind_assoc, pure_bind]
  rfl

/-- What is added for the outer property. -/
structure Nesting.Frames (nesting : Nesting) (id : PropertyId) (property : Property) : Prop where
  default : property.default = none
  poses : Poses property [.required, nesting.guard, nesting.check id]

/-- **A node around another one is built by building the inner one**, and adding a property whose checks lead to it. -/
theorem runs_plug {nesting : Nesting} (config : Config) (bound : Nat) (hname : HasIdentifier site.name)
    (hrequired : site.required = true) (htakes : nesting.Takes node) :
    ∃ f : PropertyId → Graph → Property, (∀ id graph, nesting.Frames id (f id graph)) ∧
      ∀ s outer s', (property (bound + 1) site (nesting.plug node)).Runs config s outer s' ↔
        ∃ id m, (nesting.hold (property bound) site node).Runs config s id m ∧
          outer = (m.graph.addProperty (f id m.graph)).1 ∧ s' = m.withGraph (m.graph.addProperty (f id m.graph)).2 := by
  obtain ⟨identifier, hidentifier⟩ := Option.isSome_iff_exists.1 hname
  by_cases harray : nesting.guard = .type [.array] false
  · refine ⟨fun id _ => (arrayDraft site.name identifier).addCheck (nesting.check id), fun id _ => ?_,
      fun s outer s' => ?_⟩
    · cases nesting with
      | branch combinator => exact nomatch harray
      | _ => exact ⟨rfl, rfl, rfl, rfl⟩
    · rw [property_plug_array hidentifier hrequired htakes harray, runs_bind]
      exact exists_congr fun id => exists_congr fun m => and_congr_right fun _ => runs_addProperty
  · obtain ⟨combinator, rfl⟩ : ∃ combinator, nesting = .branch combinator := by
      cases nesting with
      | branch combinator => exact ⟨combinator, rfl⟩
      | _ => exact absurd rfl harray
    obtain ⟨label, decorators, heq⟩ := property_plug_branch bound hidentifier hrequired htakes
    refine ⟨fun id graph => Property.addCheck (Property.addCheck { Property.addCheck
        { name := site.name, identifier, required := true } .required with
          label := label id graph, decorators := decorators id graph }
        (.composition combinator [⟨id, []⟩] false)) (.implicitNull false), fun id graph => ⟨rfl, rfl, rfl, rfl⟩,
      fun s outer s' => ?_⟩
    rw [heq, runs_bind]
    exact exists_congr fun id => exists_congr fun m => and_congr_right fun _ => runs_graph_bind.trans runs_addProperty

/-! ## Places in a root -/

/-- A type gets a check. -/
def demand (check : Check) (type : ObjectType) : ObjectType :=
  { type with validators := type.validators.addCheck check }

/-- Where a root has a node. -/
inductive Place where
  | member (name : String)
  | additional
  | pattern (source : String)
  | dependant (trigger : String)

namespace Place

/-- The document whose root has the node in the place and nothing else, with definitions to refer to. -/
def rootAmong (place : Place) (definitions : Members) (node : Json) : Json :=
  match place with
  | member name => wrapperAmong definitions name node
  | additional =>
    .object [("type", .string "object"), ("definitions", .object definitions), ("additionalProperties", node)]
  | pattern source =>
    .object [("type", .string "object"), ("definitions", .object definitions),
      ("patternProperties", .object [(source, node)])]
  | dependant trigger =>
    .object [("type", .string "object"), ("definitions", .object definitions),
      ("dependencies", .object [(trigger, node)])]

/-- The node is read as a schema, and not as a flag or as a list of names. -/
def Takes : Place → Json → Prop
  | additional, node | dependant _, node => ∃ members, node = .object members
  | _, _ => True

/-- What a node in the place is taken for: a dependency is on an object. -/
def dress : Place → Json → Json
  | dependant _, node => Keyword.withObjectType node
  | _, node => node

/-- What the property of a node in the place is called. -/
def label : Place → String
  | member name => name
  | additional => "additional property"
  | pattern source => "pattern property " ++ source
  | dependant trigger => "dependency of " ++ trigger

theorem hasIdentifier_label (place : Place) (h : ∀ name, place = member name → HasIdentifier name) :
    HasIdentifier place.label := by
  have hnames : HasIdentifier "additional property" ∧ HasIdentifier "pattern property " ∧
      HasIdentifier "dependency of " := by decide +kernel
  cases place with
  | member name => exact h name rfl
  | additional => exact hnames.1
  | pattern source => exact hnames.2.1.append_left source
  | dependant trigger => exact hnames.2.2.append_left trigger

/-- Build the property of a node in the place. -/
def hold (place : Place) (build : Builder) (scope : Scope) (node : Json) : Build PropertyId :=
  match place with
  | member name => build { scope, name, required := true } node
  | additional => nested build scope "additional property" node
  | pattern source => do
    let _ ← Keyword.pattern scope.className source
    nested build scope ("pattern property " ++ source) node
  | dependant trigger => nested build scope ("dependency of " ++ trigger) (Keyword.withObjectType node)

/-- What the root gets for it. -/
def install (place : Place) (className : String) (node : Json) (id : PropertyId) : ObjectType → ObjectType :=
  match place with
  | member _ => enlist id
  | additional => demand (.additionalProperties className [] [] id)
  | pattern source =>
    match Pattern.ofSource source with
    | .ok regex => demand (.patternProperty className regex ((node.stringAt? "key").getD source) id)
    | .error _ => fun type => type
  | dependant trigger => demand (.schemaDependency trigger id)

theorem isRoot_install (place : Place) (className : String) (node : Json) (id : PropertyId) (type : ObjectType) :
    (place.install className node id type).isRoot = type.isRoot := by
  cases place with
  | pattern source =>
    simp only [install]
    cases Pattern.ofSource source <;> rfl
  | _ => rfl

end Place

variable {place : Place} {nesting : Nesting} {nestings : List Nesting} {definitions : Members} {type root : TypeId}
  {source : Source} {s s' : Session}

theorem fill_additional {members : Members} (hnew : (s.graph.entry type).properties = []) {u : Unit} :
    (fill build scope type (Place.additional.rootAmong definitions (.object members))).Runs config s u s' ↔
      (Place.additional.hold build scope (.object members) >>= fun id =>
        Build.modifyType type (Place.additional.install scope.className (.object members) id)).Runs config s u s' := by
  have hparts : fill build scope type (Place.additional.rootAmong definitions (.object members)) =
      (addOpenProperties build scope type (Place.additional.rootAmong definitions (.object members)) >>= pure) := rfl
  have hopen : addOpenProperties build scope type (Place.additional.rootAmong definitions (.object members)) =
      (Build.graph >>= fun graph => nested build scope "additional property" (.object members) >>= fun id =>
        Build.addTypeCheck type (.additionalProperties scope.className
          ((graph.entry type).properties.map fun id => (graph.property id).name) [] id)) := rfl
  rw [hparts, bind_pure, hopen, runs_graph_bind, hnew]
  rfl

theorem fill_pattern {source : String} {u : Unit} :
    (fill build scope type ((Place.pattern source).rootAmong definitions node)).Runs config s u s' ↔
      ((Place.pattern source).hold build scope node >>= fun id =>
        Build.modifyType type ((Place.pattern source).install scope.className node id)).Runs config s u s' := by
  have hparts : fill build scope type ((Place.pattern source).rootAmong definitions node) =
      (addOpenProperties build scope type ((Place.pattern source).rootAmong definitions node) >>= pure) := rfl
  have hopen : addOpenProperties build scope type ((Place.pattern source).rootAmong definitions node) =
      (Build.graph >>= fun _ => [(source, node)].foldlM (addPatternProperty build scope type) [] >>= fun _ =>
        pure ()) := rfl
  have hadd : addPatternProperty build scope type [] (source, node) =
      (Keyword.pattern scope.className source >>= fun regex =>
        nested build scope ("pattern property " ++ source) node >>= fun id =>
          Build.addTypeCheck type (.patternProperty scope.className regex ((node.stringAt? "key").getD source) id) >>=
            fun _ => pure [(regex, (node.stringAt? "key").getD source)]) := rfl
  rw [hparts, bind_pure, hopen, runs_graph_bind, List.foldlM_cons, hadd]
  unfold Keyword.pattern Place.hold Place.install Keyword.pattern
  cases hsource : Pattern.ofSource source with
  | error fault =>
    simp only [hsource, bind_assoc]
    constructor
    · intro h
      obtain ⟨_, _, hrefuse, _⟩ := runs_bind.1 h
      exact absurd hrefuse not_runs_refuse
    · intro h
      obtain ⟨_, _, hrefuse, _⟩ := runs_bind.1 h
      exact absurd hrefuse not_runs_refuse
  | ok regex =>
    simp only [hsource, List.foldlM_nil, pure_bind, bind_assoc]
    rfl

theorem fill_dependant {trigger : String} {members : Members} :
    fill build scope type ((Place.dependant trigger).rootAmong definitions (.object members)) =
      ((Place.dependant trigger).hold build scope (.object members) >>= fun id =>
        Build.modifyType type ((Place.dependant trigger).install scope.className (.object members) id)) := by
  have hparts : fill build scope type ((Place.dependant trigger).rootAmong definitions (.object members)) =
      (dependencyWords.forM (addDependencies build scope type
        ((Place.dependant trigger).rootAmong definitions (.object members))) >>= pure) := rfl
  have hwords : dependencyWords.forM (addDependencies build scope type
      ((Place.dependant trigger).rootAmong definitions (.object members))) =
        (addDependency build scope type (trigger, .object members) >>= pure >>= pure) := rfl
  rw [hparts, bind_pure, hwords, bind_pure, bind_pure]
  rfl

/-- **A root with a node in a place is filled in by building the node's property**, and installing it. -/
theorem Place.runs_fill (htakes : place.Takes node) (hnew : (s.graph.entry type).properties = []) {u : Unit} :
    (fill build scope type (place.rootAmong definitions node)).Runs config s u s' ↔
      (place.hold build scope node >>= fun id =>
        Build.modifyType type (place.install scope.className node id)).Runs config s u s' := by
  cases place with
  | member name =>
    rw [Place.rootAmong, (wraps_wrapperAmong definitions name node).fill_eq]
    rfl
  | additional =>
    obtain ⟨members, rfl⟩ := htakes
    exact fill_additional hnew
  | pattern source => exact fill_pattern
  | dependant trigger =>
    obtain ⟨members, rfl⟩ := htakes
    rw [fill_dependant]

theorem Place.isObject_rootAmong (place : Place) (definitions : Members) (node : Json) :
    Keyword.isObject (place.rootAmong definitions node) = true ∧
      (place.rootAmong definitions node).get? "$ref" = none := by
  cases place <;> exact ⟨rfl, rfl⟩

/-- **A document with a node in a place of its root** is built by building the node's property while the root is being
made, and concluding the root with it. -/
theorem Place.runs_document (htakes : place.Takes node) :
    (document source (place.rootAmong definitions node)).Runs config s root s' ↔ ∃ id m,
      (place.hold (property (recursionBound (s.register source (place.rootAmong definitions node)).documents))
        (rootScope source (rootClass s source)) node).Runs config
          (begun (s.register source (place.rootAmong definitions node)) source) id m ∧
      (conclude source (rootClass s source) (rootId s) (place.install (rootClass s source) node id)).Runs config m root
        s' := by
  obtain ⟨hobject, hreference⟩ := place.isObject_rootAmong definitions node
  have hnew : ((begun (s.register source (place.rootAmong definitions node)) source).graph.entry
      (rootId s)).properties = [] := congrArg ObjectType.properties
    ((Session.entry_reserve_eq _ _ _ _ _).trans (if_pos rfl))
  rw [runs_document_iff, runs_rootType hobject hreference, makeRoot_eq_fill, runs_bind]
  constructor
  · rintro ⟨_, m₁, hfill, hclose⟩
    obtain ⟨id, m, hheld, hinstall⟩ := runs_bind.1 ((place.runs_fill htakes hnew).1 hfill)
    exact ⟨id, m, hheld, runs_bind.2 ⟨_, m₁, hinstall, hclose⟩⟩
  · rintro ⟨id, m, hheld, hconclude⟩
    obtain ⟨_, m₁, hinstall, hclose⟩ := runs_bind.1 hconclude
    exact ⟨⟨⟩, m₁, (place.runs_fill htakes hnew).2 (runs_bind.2 ⟨id, m, hheld, hinstall⟩), hclose⟩

/-- The property is built for a required site, and made optional unless it is a member. -/
theorem Place.runs_hold {id : PropertyId}
    (h : (place.hold (property bound) scope node).Runs config s id s') : ∃ m,
      (property bound { scope, name := place.label, required := true } (place.dress node)).Runs config s id m ∧
        (s' = m ∨ s' = m.withGraph (m.graph.modifyProperty id Property.relax)) := by
  have hnested : ∀ {label : String} {x : Json}, (nested (property bound) scope label x).Runs config s id s' → ∃ m,
      (property bound { scope, name := label, required := true } x).Runs config s id m ∧
        (s' = m ∨ s' = m.withGraph (m.graph.modifyProperty id Property.relax)) := by
    intro label x h
    obtain ⟨built, m, hbuilt, hrest⟩ := runs_bind.1 h
    obtain ⟨_, m', hrelax, hreturn⟩ := runs_bind.1 hrest
    obtain ⟨rfl, rfl⟩ := runs_pure.1 hreturn
    exact ⟨m, hbuilt, Or.inr (runs_modifyGraph.1 hrelax)⟩
  cases place with
  | member name => exact ⟨s', h, Or.inl rfl⟩
  | additional => exact hnested h
  | dependant trigger => exact hnested h
  | pattern source =>
    change (Keyword.pattern scope.className source >>= fun _ => nested (property bound) scope _ _).Runs config s id
      s' at h
    unfold Keyword.pattern at h
    split at h
    · exact hnested (runs_pure_bind.1 h)
    · obtain ⟨_, _, hrefuse, _⟩ := runs_bind.1 h
      exact absurd hrefuse not_runs_refuse

theorem Place.references_subset (place : Place) (definitions : Members) (node : Json) :
    references node ⊆ references (place.rootAmong definitions node) := by
  have hget : ∀ keyword, (place.rootAmong definitions node).get? keyword = some node →
      references node ⊆ references (place.rootAmong definitions node) := fun _ => references_subset_get
  have hmember : ∀ keyword name, (place.rootAmong definitions node).get? keyword = some (.object [(name, node)]) →
      references node ⊆ references (place.rootAmong definitions node) := by
    intro keyword name hget
    have hmem : (name, node) ∈ [(name, node)] := List.mem_cons_self
    exact List.Subset.trans (references_member hmem) (references_subset_get hget)
  cases place with
  | member name => exact hmember "properties" name rfl
  | additional => exact hget "additionalProperties" rfl
  | pattern source => exact hmember "patternProperties" source rfl
  | dependant trigger => exact hmember "dependencies" trigger rfl

theorem Place.levels_lt (place : Place) (definitions : Members) (node : Json) :
    node.levels < (place.rootAmong definitions node).levels := by
  have hget : ∀ keyword, (place.rootAmong definitions node).get? keyword = some node →
      node.levels < (place.rootAmong definitions node).levels := fun _ => levels_lt_get
  have hmember : ∀ keyword name, (place.rootAmong definitions node).get? keyword = some (.object [(name, node)]) →
      node.levels < (place.rootAmong definitions node).levels :=
    fun _ _ hget => levels_lt_member hget List.mem_cons_self
  cases place with
  | member name => exact hmember "properties" name rfl
  | additional => exact hget "additionalProperties" rfl
  | pattern source => exact hmember "patternProperties" source rfl
  | dependant trigger => exact hmember "dependencies" trigger rfl

/-! ## References in a place -/

/-- A reference, and nothing beside it. -/
def referral (reference : String) : Json := .object [("$ref", .string reference)]

/-- The node is read as a schema in the place, and left as it is. -/
structure Place.Holds (place : Place) (nestings : List Nesting) (node : Json) : Prop where
  fits : Fits nestings node
  takes : place.Takes (surround nestings node)
  dress : place.dress (surround nestings node) = surround nestings node

theorem exists_plug (nesting : Nesting) (node : Json) : ∃ members, nesting.plug node = .object members := by
  cases nesting with
  | branch combinator => cases combinator <;> exact ⟨_, rfl⟩
  | _ => exact ⟨_, rfl⟩

theorem exists_surround (nestings : List Nesting) (members : Members) :
    ∃ others, surround nestings (.object members) = .object others := by
  cases nestings with
  | nil => exact ⟨members, rfl⟩
  | cons nesting rest => exact exists_plug nesting _

theorem Nesting.takes_object (nesting : Nesting) (members : Members) : nesting.Takes (.object members) := by
  cases nesting with
  | item => exact nofun
  | branch combinator => exact nofun
  | _ => trivial

theorem fits_object (members : Members) : ∀ nestings : List Nesting, Fits nestings (.object members)
  | [] => trivial
  | nesting :: rest => by
    obtain ⟨others, hothers⟩ := exists_surround rest members
    exact ⟨hothers ▸ nesting.takes_object others, fits_object members rest⟩

theorem Place.takes_object (place : Place) (members : Members) : place.Takes (.object members) := by
  cases place with
  | additional => exact ⟨members, rfl⟩
  | dependant trigger => exact ⟨members, rfl⟩
  | _ => trivial

/-- A place that leaves a node alone leaves every other one alone that stands in the same node. -/
theorem Place.dress_plug {x : Json} (h : place.dress (nesting.plug x) = nesting.plug x) (y : Json) :
    place.dress (nesting.plug y) = nesting.plug y := by
  cases place with
  | dependant trigger =>
    cases nesting with
    | branch combinator =>
      have htype : some (Json.string "object") = none := by
        have hget := congrArg (Json.get? · "type") h
        cases combinator <;> exact hget
      exact nomatch htype
    | _ => rfl
  | _ => rfl

/-- In the place a reference is still one. -/
theorem Place.Holds.exists_referring (h : place.Holds nestings node) (reference : String) :
    ∃ referring, referring.get? "$ref" = some (.string reference) ∧ Fits nestings referring ∧
      place.Takes (surround nestings (referral reference)) ∧
      place.dress (surround nestings (referral reference)) = surround nestings referring := by
  have htakes : place.Takes (surround nestings (referral reference)) := by
    obtain ⟨others, hothers⟩ := exists_surround nestings [("$ref", .string reference)]
    exact hothers ▸ place.takes_object others
  cases nestings with
  | nil =>
    cases place with
    | dependant trigger =>
      exact ⟨.object [("$ref", .string reference), ("type", .string "object")], rfl, trivial, htakes, rfl⟩
    | _ => exact ⟨referral reference, rfl, trivial, htakes, rfl⟩
  | cons nesting rest =>
    exact ⟨referral reference, rfl, fits_object _ _, htakes, Place.dress_plug h.dress _⟩

end Building
end SchemaTypes

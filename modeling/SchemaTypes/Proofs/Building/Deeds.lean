import SchemaTypes.Building.Process
import SchemaTypes.Proofs.Building.Parallels
import SchemaTypes.Proofs.Types.Lifting
/-!
# What a successful call does, deed by deed

Steps say that a property is added, but little of what it is.  Deeds say it (`Session.Deed`): a property is drafted from
a node, or copied from a definition, lifted from a branch, or stands for an object that is still being built, and a
definition is completed by what has been made of its node.  What a property is called by, what it runs and where it
comes from are then one case analysis over deeds each.

Only the last kind of property can hold a type that is not finished.  It is made where a definition leads back to itself
(`Building.Recurs`).
-/
namespace SchemaTypes

/-! ## Properties in the making -/

/-- What a filter check runs is a filter of the configuration. -/
def Config.Admits (config : Config) : Check → Prop
  | .filter _ _ accepts apply => ∃ filter ∈ config.filters, filter.accepts = accepts ∧ filter.apply = apply
  | _ => True

namespace Property

def Admitted (config : Config) (property : Property) : Prop :=
  ∀ v ∈ property.validators.toList, config.Admits v.check

/-- The names that the label lists, none without a label. -/
def names (property : Property) : List String := (property.label.map (·.names)).getD []

/-- The label names the class, and whatever else it names are kinds. -/
structure Shows (property : Property) (className : String) : Prop where
  named : className ∈ property.names
  kinds : ∀ name ∈ property.names, name = className ∨ ∃ kind : Kind, name = kind.keyword

/-- A draft that holds no type. -/
structure Flat (config : Config) (property : Property) : Prop where
  nested : property.nested = none
  admitted : property.Admitted config
  own : property.isLifted = false

/-- What keywords make of a draft.  A label is never replaced, and the type that is held stays. -/
structure Refines (config : Config) (draft result : Property) : Prop where
  label : ∀ label, draft.label = some label → result.label = some label
  nested : result.nested = draft.nested
  admitted : draft.Admitted config → result.Admitted config
  lifted : result.isLifted = draft.isLifted

/-- What a property takes over from another one: what it is called by and what it holds. -/
structure PassesTo (config : Config) (source result : Property) : Prop where
  label : result.label = source.label
  nested : result.nested = source.nested
  admitted : source.Admitted config → result.Admitted config

variable {config : Config} {draft source result final property : Property} {className : String}

theorem PassesTo.refl (config : Config) (property : Property) : property.PassesTo config property :=
  ⟨rfl, rfl, fun h => h⟩

theorem PassesTo.trans (h : source.PassesTo config result) (h' : result.PassesTo config final) :
    source.PassesTo config final :=
  ⟨h'.label.trans h.label, h'.nested.trans h.nested, fun hadmitted => h'.admitted (h.admitted hadmitted)⟩

theorem Refines.refl (config : Config) (property : Property) : property.Refines config property :=
  ⟨fun _ h => h, rfl, fun h => h, rfl⟩

theorem Refines.trans (h : draft.Refines config result) (h' : result.Refines config final) :
    draft.Refines config final :=
  ⟨fun label hlabel => h'.label label (h.label label hlabel), h'.nested.trans h.nested,
    fun hadmitted => h'.admitted (h.admitted hadmitted), h'.lifted.trans h.lifted⟩

theorem Flat.refines (h : draft.Flat config) (hrefines : draft.Refines config result) : result.Flat config :=
  ⟨hrefines.nested.trans h.nested, hrefines.admitted h.admitted, hrefines.lifted.trans h.own⟩

theorem Shows.refines (h : draft.Shows className) (hrefines : draft.Refines config result) :
    result.Shows className := by
  have hnames : result.names = draft.names := by
    unfold names
    cases hlabel : draft.label with
    | none =>
      have hnamed := h.named
      unfold names at hnamed
      rw [hlabel] at hnamed
      cases hnamed
    | some label => rw [hrefines.label label hlabel]
  exact ⟨hnames ▸ h.named, hnames ▸ h.kinds⟩

theorem Shows.of_label (h : draft.Shows className) (hlabel : result.label = draft.label) : result.Shows className := by
  have hnames : result.names = draft.names := by
    unfold names
    rw [hlabel]
  exact ⟨hnames ▸ h.named, hnames ▸ h.kinds⟩

/-! ### What operations on validators do to the filters among them -/

theorem Admitted.of_empty (h : property.validators.toList = []) : property.Admitted config := by
  intro v hv
  rw [h] at hv
  cases hv

theorem Admitted.addCheck (h : property.Admitted config) {check : Check} (hcheck : config.Admits check) :
    (property.addCheck check).Admitted config := by
  intro v hv
  rcases Validators.mem_toList_add.1 hv with rfl | hv
  · exact hcheck
  · exact h v hv

theorem admits_withNull {check : Check} (h : config.Admits check) (settles : Bool) :
    config.Admits (check.withNull settles) := by
  cases check with
  | filter => exact h
  | _ => trivial

theorem Admitted.stampRequired (h : property.Admitted config) (required allowed : Bool) :
    (property.stampRequired required allowed).Admitted config := by
  have hkept : ∀ v ∈ property.validators.removeRequired.toList, config.Admits v.check := by
    intro v hv
    rw [Validators.toList_removeRequired] at hv
    exact h v (List.mem_filter.1 hv).1
  intro v hv
  simp only [Property.stampRequired] at hv
  rw [Validators.toList_mapChecks] at hv
  obtain ⟨w, hw, rfl⟩ := List.mem_map.1 hv
  refine admits_withNull ?_ _
  split at hw
  · rcases Validators.mem_toList_add.1 hw with rfl | hw
    · trivial
    · exact hkept w hw
  · exact hkept w hw

theorem Admitted.relax (h : property.Admitted config) : property.relax.Admitted config := by
  intro v hv
  change v ∈ property.validators.removeRequired.toList at hv
  rw [Validators.toList_removeRequired] at hv
  exact h v (List.mem_filter.1 hv).1

theorem passesTo_relax (property : Property) : property.PassesTo config property.relax := ⟨rfl, rfl, Admitted.relax⟩

end Property

namespace Building

/-- A definition that is built as an object: its node describes one, or it is a root that declares no type. -/
def DescribesObject (documents : Reference.Documents) (key : DefinitionKey) : Prop :=
  ∃ node, nodeAt? documents key = some node ∧ (Keyword.isObject node = true ∨ node.has "type" = false)

/-- An object definition that leads back to itself. -/
def Recurs (documents : Reference.Documents) (key : DefinitionKey) : Prop :=
  DescribesObject documents key ∧ Leads documents key key

/-- The definition of a root: an instance of the type that is filled in from it. -/
def rootInto (build : Builder) (scope : Scope) (root : Json) (className : String) (type : TypeId) :
    Build PropertyId := do
  fill build scope type root
  let type ← finish type
  Build.addProperty (← instanceProperty className type true)

/-- The property has just been made of the node, and of the type that was reserved for it if there is one. -/
inductive Made (config : Config) (node : Json) : Option TypeId → PropertyId → Session → Prop
  | value {bound : Nat} {site : Site} {s s' : Session} {id : PropertyId} :
    (property bound site node).Runs config s id s' → Made config node none id s'
  | object {bound : Nat} {site : Site} {type : TypeId} {s s' : Session} {id : PropertyId} :
    (objectInto (property bound) site node type).Runs config s id s' → Made config node (some type) id s'
  | root {bound : Nat} {scope : Scope} {className : String} {type : TypeId} {s s' : Session} {id : PropertyId} :
    (rootInto (property bound) scope node className type).Runs config s id s' → Made config node (some type) id s'

/-- The property has been made for a reference to a definition in progress, and goes on its list. -/
def Holds (config : Config) (s : Session) (key : DefinitionKey) (waiting : List PropertyId) (property : Property) : Prop :=
  ∃ (site : Site) (reference : String) (target : Target) (id : PropertyId),
    targetIn? s.documents site.scope.document reference = some target ∧ target.key = key ∧
    (placeholder key site reference none waiting).Runs config s id (s.awaiting key waiting property)

end Building

namespace Session

/-- The property waits for a definition that leads back to itself. -/
def Lingers (s : Session) (id : PropertyId) : Prop := ∃ key, s.Waits key id ∧ Building.Leads s.documents key key

/-- The type is that of a definition in progress which leads back to itself. -/
def Recurring (s : Session) (type : TypeId) : Prop :=
  ∃ key, s.InProgress key (some type) ∧ Building.Leads s.documents key key

/-- The property stands for a definition in progress which leads back to itself. -/
def Returns (s : Session) (id : PropertyId) : Prop :=
  s.Lingers id ∨ ∃ type, (s.graph.property id).nested = some type ∧ s.Recurring type

/-- The type is finished, and is generated itself. -/
structure Lasts (s : Session) (type : TypeId) : Prop where
  signature : (s.graph.entry type).signature ≠ none
  redirect : (s.graph.entry type).redirect = none

/-- The type is finished, and the property holds what is generated for it. -/
structure Embodies (s : Session) (id : PropertyId) (type : TypeId) : Prop where
  signature : (s.graph.entry type).signature ≠ none
  nested : (s.graph.property id).nested = some (s.graph.canonical type)

/-- A property that has been drafted from a node: it holds a type that lasts, if any, and is labelled with its class. -/
structure Fits (config : Config) (s : Session) (property : Property) : Prop where
  admitted : property.Admitted config
  own : property.isLifted = false
  lasts : ∀ type, property.nested = some type → s.Lasts type
  shows : ∀ type, property.nested = some type → property.Shows (s.graph.entry type).name.className

/-- The property is there, and has not been lifted. -/
structure Own (s : Session) (id : PropertyId) : Prop where
  hasProperty : s.graph.HasProperty id
  isLifted : (s.graph.property id).isLifted = false

/-- The branch populates only what has been lifted into the type, and all names of its own type that the enclosing one
does not declare, unless its property is exempt. -/
structure Feeds (s : Session) (exempt : PropertyId → Prop) (type : TypeId) (branch : Branch) : Prop where
  hasProperty : s.graph.HasProperty branch.property
  lifted : ∀ name ∈ branch.affected, name ∈ s.graph.names type ∧ s.graph.declares type name = false
  covers : ∀ nested, (s.graph.property branch.property).nested = some nested →
    (s.graph.entry nested).signature ≠ none ∧ s.graph.Covers type (s.graph.canonical nested) branch ∨
      exempt branch.property

/-- If the check is a composition of an object that lifts, its branches feed the type. -/
def FedBy (s : Session) (exempt : PropertyId → Prop) (type : TypeId) (check : Check) : Prop :=
  ∀ combinator branches, check = .composition combinator branches true → combinator ≠ .not →
    ∀ branch ∈ branches, s.Feeds exempt type branch

/-- One deed of a call that succeeds.  Types are written to until they are finished.  If deeds are traced, a property
that stands for an object which is being built tells that the object's type is not finished, and that its definition
leads back to itself; what waits tells the latter, too.  Besides, what a type lists is there, what completes a
definition has not been lifted, and branches feed their type unless they stand for definitions that lead back to
themselves and are in progress. -/
inductive Deed (config : Config) (traced : Prop) : Session → Session → Prop
  | notify {s : Session} {notice : Notice} : notice.isWarning = true →
    Deed config traced s { s with notices := s.notices ++ [notice] }
  | reserve {s : Session} (namespaceName className : String) (isRoot : Bool) :
    Deed config traced s (s.withGraph (s.graph.reserve namespaceName className isRoot).2)
  | describe {s : Session} {id : TypeId} (text : String) : s.Unfinished id →
    Deed config traced s (s.withGraph (s.graph.modifyType id fun type => { type with description := some text }))
  | enlist {s : Session} {id : TypeId} {property : PropertyId} : s.Unfinished id →
    (traced → s.graph.HasProperty property) →
    Deed config traced s (s.withGraph (s.graph.modifyType id fun type =>
      { type with properties := type.properties ++ [property] }))
  | demand {s : Session} {id : TypeId} {check : Check} : s.Unfinished id → (traced → s.FedBy s.Returns id check) →
    Deed config traced s (s.withGraph (s.graph.modifyType id fun type =>
      { type with validators := type.validators.addCheck check }))
  | finish {s s' : Session} {id target : TypeId} : s.Unfinished id →
    (Building.finish id).Runs config s target s' → Deed config traced s s'
  | draft {s : Session} {property : Property} : s.Fits config property →
    Deed config traced s (s.withGraph (s.graph.addProperty property).2)
  | copy {s : Session} {key : DefinitionKey} {definition : PropertyId} (name identifier : String) (required : Bool) :
    s.definition? key = some (.built definition) →
    Deed config traced s (s.withGraph (s.graph.addProperty
      (Building.copied (s.graph.property definition) name identifier required config.settings.implicitNull)).2)
  | lift {s : Session} (source : PropertyId) (combinator : Combinator) :
    Deed config traced s (s.withGraph (s.graph.addProperty
      (Building.lifted (s.graph.property source) combinator)).2)
  | recur {s : Session} {key : DefinitionKey} {type : TypeId} {waiting : List PropertyId} {name : String}
      {required : Bool} {property : Property} : s.definition? key = some (.inProgress (some type) waiting) →
    (traced → s.Unfinished type ∧ Building.Recurs s.documents key) →
    (Building.instanceProperty name type required).Runs config s property s →
    Deed config traced s (s.withGraph (s.graph.addProperty property).2)
  | relax {s : Session} (id : PropertyId) : (s.graph.property id).required = true →
    Deed config traced s (s.withGraph (s.graph.modifyProperty id Property.relax))
  | caption {s : Session} (id : PropertyId) (text : String) :
    Deed config traced s (s.withGraph (s.graph.modifyProperty id fun property =>
      { property with description := some text }))
  | begin {s : Session} {key : DefinitionKey} {type : Option TypeId} {node : Json} : s.definition? key = none →
    Building.nodeAt? s.documents key = some node → type.isSome = Keyword.isObject node →
    (∀ known, type = some known → s.Unfinished known) →
    Deed config traced s (s.setDefinition key (.inProgress type []))
  | wait {s : Session} {key : DefinitionKey} {waiting : List PropertyId} {property : Property} :
    s.definition? key = some (.inProgress none waiting) → (traced → Building.Leads s.documents key key) →
    property.Flat config → Building.Holds config s key waiting property →
    Deed config traced s (s.awaiting key waiting property)
  | complete {s : Session} {key : DefinitionKey} {type : Option TypeId} {waiting : List PropertyId}
      {definition : PropertyId} {node : Json} : s.definition? key = some (.inProgress type waiting) →
    Building.nodeAt? s.documents key = some node → Building.Made config node type definition s →
    (∀ known, type = some known → s.Embodies definition known) → (traced → s.Own definition) →
    Deed config traced s (s.completed config.settings.implicitNull key definition waiting)

abbrev Deeds (config : Config) (traced : Prop) : Session → Session → Prop :=
  Relation.ReflTransGen (Deed config traced)

variable {config : Config} {traced : Prop} {s m s' : Session} {property draft result : Property} {id : PropertyId}
  {type : TypeId}

/-- What every deed keeps, deeds keep. -/
theorem Deeds.keeps {P : Session → Prop} (hdeed : ∀ m m', Deed config traced m m' → P m → P m')
    (h : Deeds config traced s s') (hs : P s) : P s' := by
  induction h with
  | refl => exact hs
  | tail _ hlast ih => exact hdeed _ _ hlast ih

/-! ## Deeds as writes -/

theorem keepsStanding_describe (text : String) :
    KeepsStanding fun entry => { entry with description := some text } :=
  ⟨⟨fun _ => rfl, fun _ => rfl, fun _ => rfl⟩, fun _ => rfl⟩

theorem keepsStanding_enlist (property : PropertyId) :
    KeepsStanding fun entry => { entry with properties := entry.properties ++ [property] } :=
  ⟨⟨fun _ => rfl, fun _ => rfl, fun _ => rfl⟩, fun _ => rfl⟩

theorem keepsStanding_demand (check : Check) :
    KeepsStanding fun entry => { entry with validators := entry.validators.addCheck check } :=
  ⟨⟨fun _ => rfl, fun _ => rfl, fun _ => rfl⟩, fun _ => rfl⟩

theorem precedes_foldl_bindOne (allowed : Bool) (definition : PropertyId) : ∀ (waiting : List PropertyId) (s : Session),
    Precedes s (waiting.foldl (bindOne allowed definition) s)
  | [], _ => .refl
  | _ :: rest, _ => .head (.write (.amend _ (Nat.not_lt_zero _))) (precedes_foldl_bindOne allowed definition rest _)

theorem precedes_setDefinition (s : Session) (key : DefinitionKey) (definition : Definition) :
    Precedes s (s.setDefinition key definition) := by
  refine .single (.write (.define definition ?_))
  rintro type ⟨_, hpending⟩
  cases hpending

theorem precedes_addProperty (s : Session) (property : Property) :
    Precedes s (s.withGraph (s.graph.addProperty property).2) := .single (.write (.add property))

/-- Deeds are writes, so what is known of types stays known and redirects stay settled. -/
theorem Deed.precedes (h : Deed config traced s s') : Precedes s s' := by
  cases h with
  | notify hnotice => exact .single (.write (.notify hnotice))
  | reserve => exact .single (.write (.reserve _ _ _))
  | describe text => exact .single (.write (.change (Nat.not_lt_zero _) (keepsStanding_describe text)))
  | enlist => exact .single (.write (.change (Nat.not_lt_zero _) (keepsStanding_enlist _)))
  | demand => exact .single (.write (.change (Nat.not_lt_zero _) (keepsStanding_demand _)))
  | finish hunfinished hrun => exact .single (.write (.finish (Nat.not_lt_zero _) hunfinished hrun))
  | draft => exact precedes_addProperty s _
  | copy => exact precedes_addProperty s _
  | lift => exact precedes_addProperty s _
  | recur => exact precedes_addProperty s _
  | relax => exact .single (.write (.amend _ (Nat.not_lt_zero _)))
  | caption => exact .single (.write (.amend _ (Nat.not_lt_zero _)))
  | begin => exact precedes_setDefinition s _ _
  | wait => exact (precedes_addProperty s _).trans (precedes_setDefinition _ _ _)
  | complete => exact (precedes_setDefinition s _ _).trans (precedes_foldl_bindOne _ _ _ _)

theorem Deeds.precedes (h : Deeds config traced s s') : Precedes s s' :=
  h.keeps (P := Precedes s) (fun _ _ hdeed hm => hm.trans hdeed.precedes) .refl

theorem Deed.documents (h : Deed config traced s s') : s'.documents = s.documents := by
  cases h with
  | finish _ hrun =>
    obtain ⟨_, _, hdocuments, _, _⟩ := runs_finish hrun
    exact hdocuments
  | complete => exact documents_foldl_bindOne _ _ _
  | _ => rfl

theorem Deeds.documents (h : Deeds config traced s s') : s'.documents = s.documents :=
  h.keeps (P := fun m => m.documents = s.documents) (fun _ _ hdeed hm => hdeed.documents.trans hm) rfl

theorem entry_completed (allowed : Bool) (key : DefinitionKey) (definition : PropertyId) (waiting : List PropertyId)
    (s : Session) (type : TypeId) :
    (s.completed allowed key definition waiting).graph.entry type = s.graph.entry type := by
  unfold completed Graph.entry
  rw [types_foldl_bindOne]
  rfl

/-- **What is finished stays as it is**: no deed writes to it. -/
theorem Deed.entry (h : Deed config traced s s') (hfinished : (s.graph.entry type).signature ≠ none) :
    s'.graph.entry type = s.graph.entry type := by
  have hother : ∀ other, s.Unfinished other → type.index ≠ other.index := by
    intro other hu heq
    obtain rfl : type = other := by cases type; cases other; exact congrArg _ heq
    exact hfinished hu.signature
  cases h with
  | reserve namespaceName className isRoot =>
    exact entry_reserve_of_lt s.graph namespaceName className isRoot (lt_of_signature hfinished)
  | describe _ hu => exact entry_modifyType_of_ne _ _ (hother _ hu)
  | enlist hu => exact entry_modifyType_of_ne _ _ (hother _ hu)
  | demand hu => exact entry_modifyType_of_ne _ _ (hother _ hu)
  | finish hu hrun =>
    obtain ⟨_, _, _, _, hgraph⟩ := runs_finish hrun
    rw [hgraph, entry_modifyType_of_ne _ _ (hother _ hu)]
  | complete => exact entry_completed _ _ _ _ s type
  | _ => rfl

theorem Deeds.entry (h : Deeds config traced s s') (hfinished : (s.graph.entry type).signature ≠ none) :
    s'.graph.entry type = s.graph.entry type :=
  h.keeps (P := fun m => m.graph.entry type = s.graph.entry type)
    (fun _ _ hdeed hm => (hdeed.entry (hm ▸ hfinished)).trans hm) rfl

/-- A finished type is generated as the same one from then on. -/
theorem Deeds.canonical (h : Deeds config traced s s') (hs : s.Collapsed)
    (hfinished : (s.graph.entry type).signature ≠ none) : s'.graph.canonical type = s.graph.canonical type := by
  rw [(h.precedes.collapsed hs).toRegistered.canonical_eq, hs.toRegistered.canonical_eq, h.entry hfinished]

theorem Lasts.deeds (h : s.Lasts type) (hdeeds : Deeds config traced s s') : s'.Lasts type := by
  have hentry := hdeeds.entry h.signature
  exact ⟨hentry ▸ h.signature, hentry ▸ h.redirect⟩

theorem Lasts.hasType (h : s.Lasts type) : s.graph.HasType type := lt_of_signature h.signature

/-! ## Drafts -/

/-- A draft that holds no type fits anywhere. -/
theorem fits_of_flat (h : property.Flat config) : s.Fits config property := by
  refine ⟨h.admitted, h.own, fun type htype => ?_, fun type htype => ?_⟩
  · rw [h.nested] at htype
    cases htype
  · rw [h.nested] at htype
    cases htype

theorem Fits.refines (h : s.Fits config draft) (hrefines : draft.Refines config result) : s.Fits config result := by
  refine ⟨hrefines.admitted h.admitted, hrefines.lifted.trans h.own, fun type htype => ?_, fun type htype => ?_⟩
  · rw [hrefines.nested] at htype
    exact h.lasts type htype
  · rw [hrefines.nested] at htype
    exact (h.shows type htype).refines hrefines

theorem Fits.deeds (h : s.Fits config property) (hdeeds : Deeds config traced s s') : s'.Fits config property := by
  refine ⟨h.admitted, h.own, fun type htype => (h.lasts type htype).deeds hdeeds, fun type htype => ?_⟩
  rw [hdeeds.precedes.recalls.names type (h.lasts type htype).hasType]
  exact h.shows type htype

end Session
end SchemaTypes

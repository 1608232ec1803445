import SchemaTypes.Proofs.Building.Chains
import SchemaTypes.Proofs.Building.Integrity
import SchemaTypes.Proofs.Building.KindChecks
import SchemaTypes.Proofs.Building.TandemNodes
import SchemaTypes.Proofs.Evaluation.OnlyMembers
/-!
# Wrappers

A wrapper is a document whose root has one property, a required one.  Processing it builds the property while the root
is being made (`Making`), and then the root gets the property and is finished (`Wraps.runs_document`).  That fails only
if the root's class has no identifier (`Making.exists_runs_enclose`), and the root judges a value under the property's
name as the property does (`Enclosed.evaluate`).
-/
namespace SchemaTypes
namespace Building

open Build Naming

/-- The document whose root has the node as its only property, a required one. -/
def wrapper (name : String) (node : Json) : Json :=
  .object [("type", .string "object"), ("properties", .object [(name, node)]), ("required", .array [.string name])]

/-- The same document, with definitions to refer to. -/
def wrapperAmong (definitions : Members) (name : String) (node : Json) : Json :=
  .object [("type", .string "object"), ("definitions", .object definitions), ("properties", .object [(name, node)]),
    ("required", .array [.string name])]

/-- Fill a reserved type in and finish it. -/
def shape (build : Builder) (scope : Scope) (node : Json) (type : TypeId) : Build TypeId := do
  fill build scope type node
  finish type

/-- Fill a reserved type in, finish it, and add the required property that holds it. -/
def embody (build : Builder) (scope : Scope) (name : String) (node : Json) (revise : Property → Property)
    (type : TypeId) : Build (TypeId × PropertyId) := do
  fill build scope type node
  let held ← finish type
  let property ← instanceProperty name held true
  return (held, ← Build.addProperty (revise property))

theorem embody_eq_shape (build : Builder) (scope : Scope) (name : String) (node : Json) (revise : Property → Property)
    (type : TypeId) : embody build scope name node revise type = shape build scope node type >>= fun held => (do
      let property ← instanceProperty name held true
      return (held, ← Build.addProperty (revise property))) := by
  unfold embody shape
  rw [bind_assoc]

namespace Tandem

variable {t : Tandem} {C : Prop} {build build' : Builder} {scope scope' : Scope} {name name' : String} {node : Json}
  {k l : TypeId} {revise revise' : Property → Property} {s₁ s₂ : Session}

/-- Two reserved types are filled in and finished in tandem. -/
theorem goesAt_shape (hb : t.Shares node build build') (hclasses : t.Classes scope scope') (hserves : t.Serves s₁ s₂)
    (hcoupled : C → t.Coupled s₁.graph s₂.graph) (hkl : C → t.Types k l) (hthere : s₁.graph.HasType k) :
    t.GoesAt C s₁ s₂ (shape build scope node k) (shape build' scope' node l) fun C' i j => C' → t.Types i j := by
  unfold shape
  have hfill : t.Goes C (fill build scope k node) (fill build' scope' l node) fun _ _ _ => True :=
    goes_fill hb hclasses hkl
  refine (hfill s₁ s₂ hserves hcoupled).bind fun C₁ _ _ m₁ m₂ hbetween _ _ _ => ?_
  exact goesAt_finish (fun hC => hkl (hbetween.implies hC)) hbetween.coupled (hthere.grows hbetween.first.grows)

/-- Two reserved types are embodied in tandem, under names of their own. -/
theorem goesAt_embody (hb : t.Shares node build build') (hclasses : t.Classes scope scope') (hname : Named name name')
    (hrevise : ∀ (C' : Prop) a b, t.Drafts C' a b → t.Drafts C' (revise a) (revise' b))
    (hserves : t.Serves s₁ s₂) (hcoupled : C → t.Coupled s₁.graph s₂.graph) (hkl : C → t.Types k l)
    (hthere : s₁.graph.HasType k) :
    t.GoesAt C s₁ s₂ (embody build scope name node revise k) (embody build' scope' name' node revise' l)
      fun C' a b => C' → t.Types a.1 b.1 ∧ t.Ids a.2 b.2 := by
  rw [embody_eq_shape, embody_eq_shape]
  refine (goesAt_shape hb hclasses hserves hcoupled hkl hthere).bind fun C₂ i j n₁ n₂ hlater _ _ hij => ?_
  have hrest : t.Goes C₂ (do
      let property ← instanceProperty name i true
      return (i, ← Build.addProperty (revise property))) (do
      let property ← instanceProperty name' j true
      return (j, ← Build.addProperty (revise' property))) fun C' a b => C' → t.Types a.1 b.1 ∧ t.Ids a.2 b.2 := by
    refine (goes_instanceProperty hname hij).bind fun C₃ a b hC₃ hdrafts => ?_
    refine (goes_addProperty (hrevise C₃ a b hdrafts).kin).bind fun C₄ id id' hC₄ hids => ?_
    exact goes_pure fun hC => ⟨hij (hC₃ (hC₄ hC)), hids hC⟩
  exact hrest n₁ n₂ (hlater.serves hserves) hlater.coupled

end Tandem

variable {config : Config} {build : Builder} {scope : Scope} {source : Source} {site : Site} {name className : String}
  {node : Json} {type root target : TypeId} {member : PropertyId} {revise : ObjectType → ObjectType}
  {stored s s' m : Session} {bound : Nat}

/-! ## Only properties -/

/-- The document is an object node that asks for nothing but one property, a required one. -/
structure Wraps (document : Json) (name : String) (node : Json) : Prop where
  isObject : Keyword.isObject document = true
  reference : document.get? "$ref" = none
  description : document.stringAt? "description" = none
  required : ∀ label, Keyword.requiredNames label document = pure [name]
  properties : document.get? "properties" = some (.object [(name, node)])
  rest : ∀ (build : Builder) (scope : Scope) (type : TypeId), (do
    addOpenProperties build scope type document
    addPropertyNames build scope type document
    addPropertyCounts scope type document
    dependencyWords.forM (addDependencies build scope type document)
    applyObjectCompositions build scope type document) = pure ()

theorem wraps_wrapper (name : String) (node : Json) : Wraps (wrapper name node) name node :=
  ⟨rfl, rfl, rfl, fun _ => rfl, rfl, fun _ _ _ => rfl⟩

theorem wraps_wrapperAmong (definitions : Members) (name : String) (node : Json) :
    Wraps (wrapperAmong definitions name node) name node :=
  ⟨rfl, rfl, rfl, fun _ => rfl, rfl, fun _ _ _ => rfl⟩

variable {value : Json}

/-- A wrapper is filled in by building its only property. -/
theorem Wraps.fill_eq (h : Wraps value name node) : fill build scope type value =
    (build { scope, name, required := true } node >>= addTypeProperty type) := by
  have hproperties : addProperties build scope type value =
      (build { scope, name, required := true } node >>= addTypeProperty type) := by
    have hknown : [name].contains name = true := List.contains_iff_mem.2 List.mem_cons_self
    have hnone : [name].filter (!Members.has [(name, node)] ·) = [] := by simp [Members.has]
    unfold addProperties Keyword.members?
    rw [h.required, pure_bind, h.properties]
    simp only [Option.getD_some, List.forIn_cons, List.forIn_nil, hknown, hnone, bind_assoc, pure_bind]
    exact congrArg (build _ node >>= ·) (funext fun _ => bind_pure _)
  unfold fill
  rw [h.description, h.rest, hproperties]
  exact bind_pure _

/-! ## Making a root -/

/-- The type of a root, which is reserved first. -/
def rootId (stored : Session) : TypeId := ⟨stored.graph.types.size⟩

/-- Where the making of a root starts: its type has been reserved, and its definition is in progress. -/
def begun (stored : Session) (source : Source) : Session :=
  (stored.withGraph (stored.graph.reserve source.namespaceName source.className true).2).setDefinition
    ⟨source.key, ""⟩ (.inProgress (some (rootId stored)) [])

/-- What holds of every session of a run holds where the root is begun. -/
theorem stands_begun (h : stored.Orderly config) (source : Source) (value : Json) (spelled : List String) :
    (⟨config, (stored.register source value).documents, source.key, spelled⟩ : Scene).Stands
      (begun (stored.register source value) source) := by
  have hstands : (⟨config, (stored.register source value).documents, source.key, spelled⟩ : Scene).Stands
      (stored.register source value) := ⟨rfl, (h.register source value).closed, h.inStep⟩
  have hreserved := hstands.writes (.single (.reserve source.namespaceName source.className true))
  refine hreserved.writes (.single (.define _ ⟨fun id heq => ?_, fun _ hid => absurd hid List.not_mem_nil⟩))
  obtain rfl := Option.some.inj heq
  exact Nat.lt_of_lt_of_eq (Nat.lt_succ_self _) (Array.size_push _).symm

/-- As long as no definition has changed, the root's is in progress, and nothing waits for it. -/
theorem pending_of_calm (h : (begun stored source).Calm m) :
    m.definition? ⟨source.key, ""⟩ = some (.inProgress (some (rootId stored)) []) :=
  (congrArg (List.lookup _) h.definitions).trans ((Session.definition?_setDefinition _ _ _ _).trans (if_pos rfl))

/-- The name that a root's class is given. -/
def rootClass (stored : Session) (source : Source) : String :=
  (stored.graph.freeName source.namespaceName source.className).className

theorem className_begun (stored : Session) (source : Source) :
    ((begun stored source).graph.entry (rootId stored)).name.className = rootClass stored source :=
  congrArg (·.name.className) ((Session.entry_reserve_eq _ _ _ _ _).trans (if_pos rfl))

/-- The scope of a root's class. -/
def rootScope (source : Source) (className : String) : Scope :=
  { document := source.key, namespaceName := source.namespaceName, className }

/-- Where the only property of the root is built. -/
def memberSite (stored : Session) (source : Source) (name : String) : Site :=
  { scope := rootScope source (rootClass stored source), name, required := true }

/-- Fill a root in, finish it, and complete its definition. -/
def makeRoot (build : Builder) (source : Source) (className : String) (node : Json) (root : TypeId) :
    Build TypeId := do
  let made ← embody build (rootScope source className) className node id root
  complete ⟨source.key, ""⟩ made.2
  return made.1

/-- Finish a root and complete its definition. -/
def closeRoot (source : Source) (className : String) (root : TypeId) : Build TypeId := do
  let held ← finish root
  let property ← instanceProperty className held true
  let definition ← Build.addProperty property
  complete ⟨source.key, ""⟩ definition
  return held

theorem makeRoot_eq_fill : makeRoot build source className node root =
    (fill build (rootScope source className) root node >>= fun _ => closeRoot source className root) := by
  unfold makeRoot embody closeRoot
  simp only [bind_assoc, pure_bind, id_eq]

/-- Change a root for the last time and close it. -/
def conclude (source : Source) (className : String) (root : TypeId) (revise : ObjectType → ObjectType) :
    Build TypeId := do
  Build.modifyType root revise
  closeRoot source className root

/-- A type gets a property. -/
def enlist (member : PropertyId) (type : ObjectType) : ObjectType :=
  { type with properties := type.properties ++ [member] }

theorem isRoot_enlist (member : PropertyId) (type : ObjectType) : (enlist member type).isRoot = type.isRoot := rfl

/-- The same as making a root, from when its only property has been built. -/
def enclose (source : Source) (className : String) (root : TypeId) (member : PropertyId) : Build TypeId :=
  conclude source className root (enlist member)

theorem Wraps.makeRoot_eq (h : Wraps value name node) : makeRoot build source className value root =
    (build { scope := rootScope source className, name, required := true } node >>=
      enclose source className root) := by
  rw [makeRoot_eq_fill, h.fill_eq, bind_assoc]
  rfl

/-- The root of a document that is an object node itself. -/
theorem runs_rootType (hobject : Keyword.isObject node = true) (hreference : node.get? "$ref" = none) :
    (rootType build source node).Runs config stored target s' ↔
      (makeRoot build source (rootClass stored source) node (rootId stored)).Runs config
        (begun stored source) target s' := by
  have hroot : ∀ scope, rootOf source scope node = pure (node, some ⟨source.key, ""⟩) := by
    intro scope
    unfold rootOf Json.stringAt?
    rw [hreference, hobject]
    rfl
  have hmade : rootType build source node = (do
      let root ← Build.reserve source.namespaceName source.className true
      let className := ((← Build.graph).entry root).name.className
      modify (·.setDefinition ⟨source.key, ""⟩ (.inProgress (some root) []))
      makeRoot build source className node root) := by
    unfold rootType makeRoot embody
    simp only [hroot, bind_assoc, pure_bind]
    rfl
  rw [hmade, runs_bind_of_iff fun _ _ => runs_reserve, runs_graph_bind, runs_modify_bind,
    ← className_begun stored source]
  rfl

/-! ## Instances -/

/-- What the required property of an instance checks. -/
theorem poses_instanceProperty {property : Property}
    (h : (instanceProperty name type true).Runs config s property s') : s' = s ∧ property.name = name ∧
      Poses property [.required, .type [.object] false, .instanceOf type] := by
  refine ⟨(Env.runs_instanceProperty h).1, congrArg Property.Purpose.name
    ((gives_instanceProperty s trivial).1 property s' h).2, ?_⟩
  unfold instanceProperty at h
  rw [runs_graph_bind] at h
  obtain ⟨fresh, m, hnew, hrest⟩ := runs_bind.1 h
  obtain ⟨rfl, -, hposes⟩ := poses_newProperty hnew
  rw [runs_bind_of_iff fun _ _ => runs_allowsNull] at hrest
  simp only [Bool.not_true, Bool.and_false, if_true] at hrest
  obtain ⟨rfl, rfl⟩ := runs_pure.1 hrest
  have hlabelled : ∀ label nested, Poses { fresh with label, nested } [] := fun _ _ =>
    ⟨hposes.required, hposes.relaxed, hposes.toList⟩
  have hpresent := ((hlabelled (some (.single (s'.graph.className type))) (some type)).addDecorator
    (.instantiates type)).addLast (c := .required) fun _ hd => absurd hd List.not_mem_nil
  have htyped := hpresent.addLast (c := .type [.object] false) fun d hd =>
    List.mem_singleton.1 hd ▸ (by decide : 1 ≤ 2)
  have hfamily : Check.IsFamily .object [.instanceOf type] :=
    ⟨fun c hc => List.mem_singleton.1 hc ▸ rfl, List.pairwise_singleton _ _⟩
  exact htyped.addFamily hfamily

theorem exists_runs_instanceProperty (hname : HasIdentifier name) (type : TypeId) (required : Bool) (config : Config)
    (s : Session) :
    ∃ property, (instanceProperty name type required).Runs config s property s := by
  obtain ⟨identifier, hidentifier⟩ := Option.isSome_iff_exists.1 hname
  refine ⟨_, runs_graph_bind.2 (runs_bind.2 ⟨{ name, identifier, required }, s, ?_,
    (runs_bind_of_iff fun _ _ => runs_allowsNull).2 (runs_pure.2 ⟨rfl, rfl⟩)⟩)⟩
  unfold newProperty
  rw [hidentifier]
  exact runs_pure.2 ⟨rfl, rfl⟩

theorem hasIdentifier_of_runs {property : Property} {required : Bool}
    (h : (instanceProperty name type required).Runs config s property s') : HasIdentifier name := by
  unfold instanceProperty at h
  rw [runs_graph_bind] at h
  obtain ⟨fresh, m, hnew, _⟩ := runs_bind.1 h
  unfold newProperty at hnew
  unfold HasIdentifier
  split at hnew
  · rename_i identifier hidentifier
    rw [hidentifier]
    rfl
  · exact absurd hnew not_runs_refuse

/-- What is embodied is filled in and finished, and then held by the property that is added. -/
theorem runs_embody {revise : Property → Property} {held : TypeId} :
    (embody build scope name node revise type).Runs config s (held, member) s' ↔ ∃ m property,
      (shape build scope node type).Runs config s held m ∧
      (instanceProperty name held true).Runs config m property m ∧
      member = (m.graph.addProperty (revise property)).1 ∧
      s' = m.withGraph (m.graph.addProperty (revise property)).2 := by
  rw [embody_eq_shape, runs_bind]
  constructor
  · rintro ⟨made, m, hshape, hrest⟩
    obtain ⟨property, m', hinstance, hrest⟩ := runs_bind.1 hrest
    obtain ⟨id, m'', hadd, hreturn⟩ := runs_bind.1 hrest
    obtain ⟨heq, rfl⟩ := runs_pure.1 hreturn
    obtain ⟨rfl, rfl⟩ := Prod.mk.inj heq
    obtain ⟨rfl, _, _⟩ := poses_instanceProperty hinstance
    exact ⟨m', property, hshape, hinstance, runs_addProperty.1 hadd⟩
  · rintro ⟨m, property, hshape, hinstance, hadd⟩
    exact ⟨held, m, hshape, runs_bind.2 ⟨property, m, hinstance, runs_bind.2 ⟨member, s', runs_addProperty.2 hadd,
      runs_pure.2 ⟨rfl, rfl⟩⟩⟩⟩

theorem hasIdentifier_of_embody {revise : Property → Property} {made : TypeId × PropertyId}
    (h : (embody build scope name node revise type).Runs config s made s') : HasIdentifier name := by
  obtain ⟨_, _, _, hinstance, _, _⟩ := runs_embody.1 h
  exact hasIdentifier_of_runs hinstance

theorem hasIdentifier_of_conclude (h : (conclude source className root revise).Runs config s target s') :
    HasIdentifier className := by
  unfold conclude closeRoot at h
  obtain ⟨_, m₁, _, hrest₁⟩ := runs_bind.1 h
  obtain ⟨_, m₂, _, hrest₂⟩ := runs_bind.1 hrest₁
  obtain ⟨_, _, hinstance, _⟩ := runs_bind.1 hrest₂
  exact hasIdentifier_of_runs hinstance

theorem hasIdentifier_of_enclose (h : (enclose source className root member).Runs config s target s') :
    HasIdentifier className := hasIdentifier_of_conclude h

/-! ## Completing a root -/

/-- The root's definition is completed, and nothing waits for it. -/
theorem runs_complete_alone {key : DefinitionKey} {found : Option TypeId} {definition : PropertyId}
    (hpending : s.definition? key = some (.inProgress found [])) {u : Unit} :
    (complete key definition).Runs config s u s' ↔ s' = s.setDefinition key (.built definition) := by
  unfold complete
  rw [runs_get_bind]
  simp only
  rw [runs_modify_bind, hpending]
  exact runs_pure.trans (and_iff_right rfl)

/-- What concluding a root leaves: the root has been changed, and all else is as it was. -/
structure Concluded (root : TypeId) (revise : ObjectType → ObjectType) (m s : Session) : Prop where
  property : ∀ id, m.graph.HasProperty id → s.graph.property id = m.graph.property id
  entry : ∀ id, id ≠ root → s.graph.entry id = m.graph.entry id
  properties : (s.graph.entry root).properties = (revise (m.graph.entry root)).properties
  validators : (s.graph.entry root).validators = (revise (m.graph.entry root)).validators
  redirect : (s.graph.entry root).redirect = (revise (m.graph.entry root)).redirect

/-- What enclosing the only property leaves: the root has it, and all else is as it was. -/
structure Enclosed (root : TypeId) (member : PropertyId) (m s : Session) : Prop where
  property : ∀ id, m.graph.HasProperty id → s.graph.property id = m.graph.property id
  entry : ∀ id, id ≠ root → s.graph.entry id = m.graph.entry id
  properties : (s.graph.entry root).properties = [member]
  validators : (s.graph.entry root).validators = {}
  redirect : (s.graph.entry root).redirect = none

theorem exists_runs_finish (config : Config) (s : Session) (type : TypeId) :
    ∃ target m, (finish type).Runs config s target m :=
  exists_runs_of_not_halts fun _ _ => Scene.not_halts_finish

/-- A root is not redirected when it is finished. -/
theorem runs_finish_root (hroot : (s.graph.entry root).isRoot = true)
    (h : (finish root).Runs config s target s') : target = root ∧
      s'.graph = Session.signing s.graph root (s.graph.signature root) ∧ s'.definitions = s.definitions := by
  cases Session.concludes_finish h with
  | kept => exact ⟨rfl, rfl, rfl⟩
  | first => exact ⟨rfl, rfl, rfl⟩
  | duplicate _ hnot => exact absurd (hnot.symm.trans hroot) nofun

/-- A root that is still being made: nothing waits for its definition, and it has got nothing yet. -/
structure Making (source : Source) (root : TypeId) (s : Session) : Prop where
  pending : s.definition? ⟨source.key, ""⟩ = some (.inProgress (some root) [])
  hasType : s.graph.HasType root
  isRoot : (s.graph.entry root).isRoot = true
  properties : (s.graph.entry root).properties = []
  validators : (s.graph.entry root).validators = {}
  redirect : (s.graph.entry root).redirect = none

/-- The root is changed. -/
def revised (m : Session) (root : TypeId) (revise : ObjectType → ObjectType) : Session :=
  m.withGraph (m.graph.modifyType root revise)

theorem Making.entry_revised (hm : Making source root m) (revise : ObjectType → ObjectType) :
    (revised m root revise).graph.entry root = revise (m.graph.entry root) :=
  Session.entry_modifyType m.graph revise hm.hasType

section
variable (hm : Making source root m) (hroot : ∀ type, (revise type).isRoot = type.isRoot)
include hm hroot

theorem Making.isRoot_revised : ((revised m root revise).graph.entry root).isRoot = true :=
  (congrArg ObjectType.isRoot (hm.entry_revised revise)).trans ((hroot _).trans hm.isRoot)

theorem Making.runs_conclude (h : (conclude source className root revise).Runs config m target s') :
    target = root ∧ Concluded root revise m s' := by
  unfold conclude closeRoot Build.modifyType at h
  obtain ⟨_, m₁, hadd, hrest⟩ := runs_bind.1 h
  obtain rfl : m₁ = revised m root revise := runs_modifyGraph.1 hadd
  obtain ⟨held, m₂, hfinish, hrest₂⟩ := runs_bind.1 hrest
  obtain ⟨property, m₃, hinstance, hrest₃⟩ := runs_bind.1 hrest₂
  obtain ⟨definition, m₄, hproperty, hrest₄⟩ := runs_bind.1 hrest₃
  obtain ⟨_, m₅, hcomplete, hreturn⟩ := runs_bind.1 hrest₄
  obtain ⟨rfl, hsigned, hdefinitions⟩ := runs_finish_root (hm.isRoot_revised hroot) hfinish
  obtain ⟨rfl, _, _⟩ := poses_instanceProperty hinstance
  obtain ⟨rfl, rfl⟩ := runs_addProperty.1 hproperty
  obtain ⟨rfl, rfl⟩ := runs_pure.1 hreturn
  have hpending : (m₃.withGraph (m₃.graph.addProperty property).2).definition? ⟨source.key, ""⟩ =
      some (.inProgress (some target) []) := (congrArg (List.lookup _) hdefinitions).trans hm.pending
  obtain rfl := (runs_complete_alone hpending).1 hcomplete
  have hentry : m₃.graph.entry target = { revise (m.graph.entry target) with
      signature := some ((revised m target revise).graph.signature target) } := by
    rw [hsigned, Session.entry_modifyType, hm.entry_revised]
    exact Nat.lt_of_lt_of_eq hm.hasType (Session.size_modifyType _ _ _).symm
  refine ⟨rfl, fun id hid => ?_, fun id hid => ?_, ?_, ?_, ?_⟩
  · have hkept : m₃.graph.property id = m.graph.property id := by
      rw [hsigned]
      rfl
    refine (Graph.property_addProperty_of_lt _ _ ?_).trans hkept
    rw [hsigned]
    exact hid
  · have hkept : m₃.graph.entry id = m.graph.entry id := by
      rw [hsigned, Session.entry_modifyType_of_other _ _ hid]
      exact Session.entry_modifyType_of_other _ _ hid
    exact hkept
  · exact (congrArg ObjectType.properties hentry).trans rfl
  · exact (congrArg ObjectType.validators hentry).trans rfl
  · exact (congrArg ObjectType.redirect hentry).trans rfl

theorem Making.exists_runs_conclude (hclass : HasIdentifier className) (config : Config) :
    ∃ target s', (conclude source className root revise).Runs config m target s' := by
  obtain ⟨held, m₁, hfinish⟩ := exists_runs_finish config (revised m root revise) root
  obtain ⟨rfl, hsigned, hdefinitions⟩ := runs_finish_root (hm.isRoot_revised hroot) hfinish
  obtain ⟨property, hinstance⟩ := exists_runs_instanceProperty hclass held true config m₁
  have hpending : (m₁.withGraph (m₁.graph.addProperty property).2).definition? ⟨source.key, ""⟩ =
      some (.inProgress (some held) []) := (congrArg (List.lookup _) hdefinitions).trans hm.pending
  refine ⟨held, (m₁.withGraph (m₁.graph.addProperty property).2).setDefinition ⟨source.key, ""⟩
    (.built (m₁.graph.addProperty property).1), ?_⟩
  unfold conclude closeRoot Build.modifyType
  exact runs_bind.2 ⟨⟨⟩, revised m held revise, runs_modifyGraph.2 rfl, runs_bind.2 ⟨held, m₁, hfinish,
    runs_bind.2 ⟨property, m₁, hinstance, runs_bind.2 ⟨_, m₁.withGraph (m₁.graph.addProperty property).2,
      runs_addProperty.2 ⟨rfl, rfl⟩, runs_bind.2 ⟨⟨⟩, _, (runs_complete_alone hpending).2 rfl,
        runs_pure.2 ⟨rfl, rfl⟩⟩⟩⟩⟩⟩

end

theorem Making.runs_enclose (hm : Making source root m)
    (h : (enclose source className root member).Runs config m target s') :
    target = root ∧ Enclosed root member m s' := by
  unfold enclose at h
  obtain ⟨rfl, hconcluded⟩ := hm.runs_conclude (isRoot_enlist member) h
  refine ⟨rfl, hconcluded.property, hconcluded.entry, ?_, hconcluded.validators.trans hm.validators,
    hconcluded.redirect.trans hm.redirect⟩
  exact hconcluded.properties.trans (congrArg (· ++ [member]) hm.properties)

theorem Making.exists_runs_enclose (hm : Making source root m) (hclass : HasIdentifier className) (config : Config)
    (member : PropertyId) : ∃ target s', (enclose source className root member).Runs config m target s' :=
  hm.exists_runs_conclude (isRoot_enlist member) hclass config

/-! ## Documents -/

theorem runs_document_iff {value : Json} : (document source value).Runs config s type s' ↔
    (rootType (property (recursionBound (s.register source value).documents)) source value).Runs config
      (s.register source value) type s' := by
  rw [document_eq]
  unfold documentBy
  rw [runs_modify_bind, runs_get_bind]
  rfl

/-- A bound that is enough for the document is enough for its levels. -/
theorem levels_le_recursionBound (s : Session) (source : Source) (value : Json) :
    value.levels ≤ recursionBound (s.register source value).documents := by
  have hstored : (⟨source.key, source.namespaceName, value⟩ : Reference.Document) ∈
      (s.register source value).documents := List.mem_append_right _ (List.mem_singleton.2 rfl)
  have hdepth := Nat.add_le_add_right (depth_le_depthOf hstored) 3
  have hroot : ∃ document ∈ (s.register source value).documents, document.key = source.key := ⟨_, hstored, rfl⟩
  have hbound := targets_le_recursionBound hroot
  rw [Nat.succ_mul] at hbound
  exact Nat.le_trans (levels_le_depth value) (Nat.le_trans hdepth (Nat.le_trans (Nat.le_add_left _ _) hbound))

theorem Wraps.levels_lt (h : Wraps value name node) : node.levels < value.levels :=
  levels_lt_member h.properties List.mem_cons_self

theorem runs_document_root (hobject : Keyword.isObject node = true) (hreference : node.get? "$ref" = none) :
    (document source node).Runs config s type s' ↔ ∃ definition m,
      (embody (property (recursionBound (s.register source node).documents)) (rootScope source (rootClass s source))
        (rootClass s source) node id (rootId s)).Runs config (begun (s.register source node) source)
        (type, definition) m ∧ (complete ⟨source.key, ""⟩ definition).Runs config m ⟨⟩ s' := by
  rw [runs_document_iff, runs_rootType hobject hreference]
  unfold makeRoot
  constructor
  · intro h
    obtain ⟨⟨held, definition⟩, m, hmade, hrest⟩ := runs_bind.1 h
    obtain ⟨_, m', hcomplete, hreturn⟩ := runs_bind.1 hrest
    obtain ⟨rfl, rfl⟩ := runs_pure.1 hreturn
    exact ⟨definition, m, hmade, hcomplete⟩
  · rintro ⟨definition, m, hmade, hcomplete⟩
    exact runs_bind.2 ⟨_, m, hmade, runs_bind.2 ⟨⟨⟩, s', hcomplete, runs_pure.2 ⟨rfl, rfl⟩⟩⟩

/-- A wrapper's only property is built while its root is being made. -/
theorem Wraps.runs_document (h : Wraps value name node) : (document source value).Runs config s root s' ↔ ∃ member m,
    (property (recursionBound (s.register source value).documents) (memberSite s source name) node).Runs config
      (begun (s.register source value) source) member m ∧
    (enclose source (rootClass s source) (rootId s) member).Runs config m root s' := by
  rw [runs_document_iff, runs_rootType h.isObject h.reference, h.makeRoot_eq, runs_bind]
  exact ⟨fun ⟨member, m, hmade, hrest⟩ => ⟨member, m, hmade, hrest⟩,
    fun ⟨member, m, hmade, hrest⟩ => ⟨member, m, hmade, hrest⟩⟩

/-- Where its property has been built and nothing waits for it, the root of a wrapper is still being made. -/
theorem Making.of_member
    (hbuilt : (property bound (memberSite stored source name) node).Runs config (begun stored source) member m)
    (hpending : m.definition? ⟨source.key, ""⟩ = some (.inProgress (some (rootId stored)) [])) :
    Making source (rootId stored) m := by
  have hendures := ((confined_property bound (.ofDocument config (begun stored source)) _ _ _
    (Course.passes_ofDocument config _)).1 _ _ hbuilt).1.since.endures
  have hthere : (begun stored source).graph.HasType (rootId stored) :=
    Nat.lt_of_lt_of_eq (Nat.lt_succ_self _) (Array.size_push _).symm
  have hentry : m.graph.entry (rootId stored) = _ :=
    (hendures.entry (rootId stored) hthere).trans ((Session.entry_reserve_eq _ _ _ _ _).trans (if_pos rfl))
  refine ⟨hpending, hthere.grows hendures.grows, ?_, ?_, ?_, ?_⟩
  · rw [hentry]
  · rw [hentry]
  · rw [hentry]
  · rw [hentry]

/-- **The root of a wrapper judges as its property does.** -/
theorem Enclosed.evaluate (h : Enclosed root member m s) (hmember : m.graph.HasProperty member)
    (hname : (m.graph.property member).name = name) (mode : Mode) (value : Json) :
    (s.graph.evaluate mode root (.object [(name, value)])).map (·.isValid) =
      (s.graph.evaluateProperty mode member (some value)).map (·.isValid) := by
  rw [← (congrArg Property.name (h.property member hmember)).trans hname]
  exact Graph.evaluate_only h.redirect h.properties h.validators mode value

end Building
end SchemaTypes

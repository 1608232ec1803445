import SchemaTypes.Proofs.Building.Order
/-!
# Roots and members

An object node is the root of a document, or the only property of one (`wrapper`).  Either way a type is filled in from
it, and the two runs go in tandem from there (`Tandem.goesAt_embody`).  So as a root and as a member the node makes the
same of every value, unless a type is redirected on the way (`Session.root_judges_as_member`).  It may refer to
definitions of other documents that have been built before: both runs copy these.

That does not extend to the keywords every property has: a root is no property, and its `enum`, `const`, `filter` and
`default` are not even read (`Session.not_forall_root_judges_as_member`).
-/
namespace SchemaTypes

/-- From the place the reference leads out of the document, to a definition that has been built. -/
def Session.LeadsAbroad (s : Session) (source : Source) (value : Json) (place reference : String)
    (definition : PropertyId) : Prop :=
  ∃ target, Building.targetIn? (s.register source value).documents place reference = some target ∧
    target.key.document ≠ source.key ∧ s.definition? target.key = some (.built definition)

/-- From the document all references of the node do. -/
def Session.RefersAbroad (s : Session) (source : Source) (value node : Json) : Prop :=
  ∀ reference ∈ Building.references node, ∃ definition, s.LeadsAbroad source value source.key reference definition

namespace Building

open Build Naming

variable {config : Config} {build : Builder} {scope : Scope} {source : Source} {site : Site} {name : String}
  {node : Json} {type held : TypeId} {member : PropertyId} {s s' m : Session} {bound : Nat} {ground : Ground}

/-! ## Nodes without value keywords -/

/-- The node has none of the keywords that apply to a value as a whole. -/
def Unvalued (node : Json) : Prop := ∀ keyword ∈ ["enum", "const", "filter", "default"], node.get? keyword = none

instance (node : Json) : Decidable (Unvalued node) := inferInstanceAs (Decidable (∀ keyword ∈ _, _))

theorem applyValueKeywords_of_unvalued (h : Unvalued node) (property : Property) (required : Bool) :
    applyValueKeywords property node required = pure (describe property node) := by
  have henum : ∀ property : Property, enumerate property node required = pure property := by
    intro property
    unfold enumerate Keyword.enumeration?
    rw [h "enum" (by decide), pure_bind]
  have hconst : ∀ property : Property, constant property node = property := by
    intro property
    unfold constant
    rw [h "const" (by decide)]
  have hfilter : ∀ property : Property, applyFilters property node = pure property := by
    intro property
    unfold applyFilters
    rw [h "filter" (by decide)]
  have hdefault : ∀ property : Property, applyDefault property node = pure property := by
    intro property
    unfold applyDefault
    rw [h "default" (by decide)]
  unfold applyValueKeywords
  rw [henum, pure_bind, hconst, hfilter, pure_bind, hdefault]

/-- An object node that is no reference makes an object. -/
theorem nodeProperty_eq_object (hobject : Keyword.isObject node = true) (hreference : node.get? "$ref" = none) :
    nodeProperty build site node = object build site node := by
  obtain ⟨members, rfl⟩ : ∃ members, node = .object members := by
    cases node with
    | object members => exact ⟨members, rfl⟩
    | _ => cases hobject
  unfold nodeProperty Keyword.normalize
  rw [pure_bind]
  generalize Json.object members = node at hobject hreference ⊢
  rw [hreference]
  simp only
  split
  · rename_i word hget
    unfold Keyword.isObject at hobject
    rw [hget] at hobject
    obtain rfl : word = "object" := of_decide_eq_true hobject
    rfl
  · rename_i types hget
    unfold Keyword.isObject at hobject
    rw [hget] at hobject
    cases hobject
  · rename_i other hword hlist hget
    unfold Keyword.isObject at hobject
    rw [hget] at hobject
    cases other with
    | string word => exact absurd rfl (hword word)
    | _ => cases hobject
  · rw [if_pos hobject]

/-- A node without value keywords is embodied. -/
theorem objectInto_eq_embody (hvalue : Unvalued node) (hrequired : site.required = true) :
    objectInto build site node type = (do
      let className := ((← Build.graph).entry type).name.className
      let made ← embody build { site.scope with className } site.name node (describe · node) type
      return made.2) := by
  unfold objectInto materialize embody
  simp only [hrequired, applyValueKeywords_of_unvalued hvalue, bind_assoc, pure_bind, bind_pure]

/-- Such an object is reserved and then embodied. -/
theorem property_eq_embody (hobject : Keyword.isObject node = true) (hreference : node.get? "$ref" = none)
    (hvalue : Unvalued node) :
    property (bound + 1) { scope, name, required := true } node = (do
      let type ← reserveFor { scope, name, required := true } node
      let className := ((← Build.graph).entry type).name.className
      let made ← embody (property bound) { scope with className } name node (describe · node) type
      return made.2) := by
  change nodeProperty (property bound) _ node = _
  rw [nodeProperty_eq_object hobject hreference]
  unfold object
  simp only [objectInto_eq_embody hvalue]

/-! ## A root and a member in tandem -/

/-- What has been built that references lead to from the document, and from the place as well. -/
def abroad (s : Session) (source : Source) (value : Json) (place : String) (hclosed : s.Closed)
    (hsettled : s.RedirectsSettled) : Ground where
  graph := s.graph
  agrees := hclosed.agreeOn_larger hsettled
  leads reference definition := s.LeadsAbroad source value source.key reference definition ∧
    s.LeadsAbroad source value place reference definition
  there := fun ⟨⟨_, _, _, hbuilt⟩, _⟩ => hclosed.definitions _ _ hbuilt

/-- Whatever the document is, it is there as long as the definitions of the others stay. -/
theorem servedIn_of_leads {place : String} {value : Json} (other : Json) (hdocuments : m.documents =
      (s.register source other).documents) (hstays : ∀ key : DefinitionKey, key.document ≠ source.key →
      ∀ definition, s.definition? key = some (.built definition) → m.definition? key = some (.built definition))
    (hleads : ∀ reference definition, ground.leads reference definition →
      s.LeadsAbroad source value place reference definition) : ground.ServedIn place m := by
  intro reference definition h
  obtain ⟨target, htarget, hforeign, hbuilt⟩ := hleads reference definition h
  exact ⟨target, hdocuments ▸ targetIn?_foreign htarget hforeign other, hstays _ hforeign _ hbuilt⟩

theorem definition?_begun {key : DefinitionKey} (hforeign : key.document ≠ source.key) :
    (begun s source).definition? key = s.definition? key := by
  have hne : key ≠ ⟨source.key, ""⟩ := fun heq => hforeign (heq ▸ rfl)
  exact (Session.definition?_setDefinition _ _ _ _).trans (if_neg hne)

variable {hclosed : s.Closed} {hsettled : s.RedirectsSettled}

theorem covers_abroad {value : Json} (hrefers : s.RefersAbroad source value node) :
    (abroad s source value source.key hclosed hsettled).Covers node := fun reference hreference =>
  (hrefers reference hreference).imp fun _ hleads => ⟨hleads, hleads⟩

theorem servedIn_abroad {value : Json} (other : Json) : (abroad s source value source.key hclosed hsettled).ServedIn
    source.key (begun (s.register source other) source) :=
  servedIn_of_leads other rfl (fun _ hforeign _ => (definition?_begun hforeign).trans) fun _ _ hleads => hleads.1

/-- **A node whose references are to definitions from before** is built without a change to the definitions, or to
anything that was there. -/
theorem calm_property (h : (property bound site node).Runs config s member s')
    (hcarries : config.naming.Carries) (hlevels : node.levels ≤ bound) (hcovers : ground.Covers node)
    (hserved : ground.ServedIn site.scope.document s) (hendures : ground.graph.EnduresIn s.graph)
    (hscope : config.naming.CarriesInto site.scope.className) : s.Calm s' := by
  let t : Tandem := .starting config hcarries (site.scope.document, site.scope.document) hendures hendures
  have hgoes := Tandem.goes_property (t := t) bound bound True site site node hlevels hlevels hcovers
    ⟨rfl, Iff.rfl, fun _ => ⟨rfl, rfl⟩, hscope, hscope⟩
  exact hgoes.calm ⟨hserved, hserved⟩ (fun _ => Tandem.coupled_start rfl rfl hendures hendures) h

/-! ## Documents -/

/-- A member is reserved, in a class inside the enclosing one, and embodied. -/
theorem runs_member (hobject : Keyword.isObject node = true) (hreference : node.get? "$ref" = none)
    (hvalue : Unvalued node) :
    (property (bound + 1) { scope, name, required := true } node).Runs config s member m ↔ ∃ held,
      (embody (property bound) { scope with
        className := (s.graph.freeName scope.namespaceName (config.naming name node false scope.className)).className }
        name node (describe · node) ⟨s.graph.types.size⟩).Runs config
        (s.withGraph (s.graph.reserve scope.namespaceName (config.naming name node false scope.className) false).2)
        (held, member) m := by
  rw [property_eq_embody hobject hreference hvalue]
  unfold reserveFor
  rw [bind_assoc, runs_read_bind, runs_bind_of_iff fun _ _ => runs_reserve, runs_graph_bind]
  have hname : ((s.graph.reserve scope.namespaceName (config.naming name node false scope.className) false).2.entry
      (s.graph.reserve scope.namespaceName (config.naming name node false scope.className) false).1).name =
        s.graph.freeName scope.namespaceName (config.naming name node false scope.className) :=
    (congrArg ObjectType.name (Session.entry_reserve_eq _ _ _ _ _)).trans (congrArg ObjectType.name (if_pos rfl))
  simp only
  rw [hname]
  constructor
  · intro h
    obtain ⟨⟨held, id⟩, m', hmade, hreturn⟩ := runs_bind.1 h
    obtain ⟨rfl, rfl⟩ := runs_pure.1 hreturn
    exact ⟨held, hmade⟩
  · rintro ⟨held, hmade⟩
    exact runs_bind.2 ⟨_, m, hmade, runs_pure.2 ⟨rfl, rfl⟩⟩

/-- Where the root of a wrapper has been begun, and its member has been reserved. -/
def memberReserved (config : Config) (s : Session) (source : Source) (name : String) (node : Json) : Session :=
  (begun (s.register source (wrapper name node)) source).withGraph
    ((begun (s.register source (wrapper name node)) source).graph.reserve source.namespaceName
      (config.naming name node false (rootClass s source)) false).2

/-- The name that the member's class is given. -/
def memberClass (config : Config) (s : Session) (source : Source) (name : String) (node : Json) : String :=
  ((begun (s.register source (wrapper name node)) source).graph.freeName source.namespaceName
    (config.naming name node false (rootClass s source))).className

/-- The type of the member. -/
def memberId (s : Session) (source : Source) : TypeId :=
  ⟨(s.graph.reserve source.namespaceName source.className true).2.types.size⟩

/-- A wrapper is processed by embodying the member's type, while the root is being made. -/
theorem runs_document_member (hobject : Keyword.isObject node = true) (hreference : node.get? "$ref" = none)
    (hvalue : Unvalued node) (hbound : recursionBound (s.register source (wrapper name node)).documents = bound + 1) :
    (document source (wrapper name node)).Runs config s type s' ↔ ∃ held member m,
      (embody (property bound) (rootScope source (memberClass config s source name node)) name node (describe · node)
        (memberId s source)).Runs config (memberReserved config s source name node) (held, member) m ∧
      (enclose source (rootClass s source) (rootId s) member).Runs config m type s' := by
  rw [(wraps_wrapper name node).runs_document, hbound]
  simp only [memberSite, runs_member hobject hreference hvalue]
  constructor
  · rintro ⟨member, m, ⟨held, hmade⟩, hrest⟩
    exact ⟨held, member, m, hmade, hrest⟩
  · rintro ⟨held, member, m, hmade, hrest⟩
    exact ⟨member, m, ⟨held, hmade⟩, hrest⟩

/-- The two runs, from when the root has been begun and the member has been reserved. -/
def besides (config : Config) (hcarries : config.naming.Carries) (s : Session) (source : Source) (place : String)
    {ground : Ground} (hground : ground.graph.EnduresIn s.graph) : Tandem where
  config
  carries := hcarries
  places := (source.key, place)
  ground
  properties := (s.graph.properties.size, s.graph.properties.size)
  types := ((rootId s).index, (memberId s source).index)
  aboveProperties := ⟨hground.grows.properties, hground.grows.properties⟩
  aboveTypes := ⟨hground.grows.types, Nat.le_trans hground.grows.types (Session.grows_reserve _ _ _ _).types⟩

variable {hground : ground.graph.EnduresIn s.graph}

theorem goesAt_besides (hground : ground.graph.EnduresIn s.graph) (hcarries : config.naming.Carries)
    (hclass : HasIdentifier (rootClass s source)) (hname : HasIdentifier name) (hobject : Keyword.isObject node = true)
    (hcovers : ground.Covers node)
    (hserved : ∀ value, ground.ServedIn source.key (begun (s.register source value) source))
    (hbound : recursionBound (s.register source (wrapper name node)).documents = bound + 1) :
    (besides config hcarries s source source.key hground).GoesAt True (begun (s.register source node) source)
      (memberReserved config s source name node)
      (embody (property (recursionBound (s.register source node).documents)) (rootScope source (rootClass s source))
        (rootClass s source) node id (rootId s))
      (embody (property bound) (rootScope source (memberClass config s source name node)) name node (describe · node)
        (memberId s source))
      fun C a b => C → (besides config hcarries s source source.key hground).Types a.1 b.1 ∧
        (besides config hcarries s source source.key hground).Ids a.2 b.2 := by
  have hlevels := levels_le_recursionBound s source node
  have hlevels' := Nat.le_of_lt (Nat.lt_of_lt_of_le (wraps_wrapper name node).levels_lt
    (levels_le_recursionBound s source (wrapper name node)))
  rw [hbound] at hlevels'
  have hshares := (Tandem.goes_property (t := besides config hcarries s source source.key hground) _ bound).shares
    (Nat.le_succ_of_le hlevels) hlevels' hcovers (isObject_of_isObject hobject) (mild_of_isObject hobject)
  have hinner : HasIdentifier (memberClass config s source name node) :=
    (hcarries name node false _ hclass).freeName _ _
  have hcoupled : (besides config hcarries s source source.key hground).Coupled
      (begun (s.register source node) source).graph (memberReserved config s source name node).graph :=
    Tandem.Coupled.reserve (Tandem.coupled_start rfl rfl hground (Session.enduresIn_reserve hground _ _ _)) _ _ _ _ _ _
  have hreserved : (begun (s.register source (wrapper name node)) source).Calm
      (memberReserved config s source name node) := .reserve _ _ _ _
  refine Tandem.goesAt_embody hshares ⟨fun _ => ⟨rfl, rfl⟩, hclass, hinner⟩ (Tandem.named_of hclass hname)
    (fun C' a b hdrafts => ?_) ⟨hserved node, (hserved _).calm hreserved⟩ (fun _ => hcoupled)
    (fun _ => ⟨0, rfl, rfl⟩) ?_
  · refine Tandem.Drafts.revise hdrafts rfl ?_ fun hkin => ?_
    · unfold describe
      split <;> rfl
    · unfold describe
      split
      · exact ⟨hkin.default, hkin.lifted, hkin.nested, hkin.validators⟩
      · exact hkin
  · exact Nat.lt_of_lt_of_eq (Nat.lt_succ_self _) (Array.size_push _).symm

/-- A property asks for an instance of a type, and is required. -/
def AsksForInstance (graph : Graph) (held : TypeId) (id : PropertyId) : Prop :=
  (graph.property id).validators.toList.map (·.check) = [.required, .type [.object] false, .instanceOf held]

/-- The later graph has what the graph had, as it was; no type has come since. -/
structure Retains (made later : Graph) : Prop where
  property : ∀ id, made.HasProperty id → later.HasProperty id ∧ later.property id = made.property id
  types : later.types = made.types

theorem Retains.refl (made : Graph) : Retains made made := ⟨fun _ h => ⟨h, rfl⟩, rfl⟩

theorem map_eq_of_rel {α β γ : Type} {r : α → β → Prop} {f : α → γ} {g : β → γ} (hfg : ∀ a b, r a b → f a = g b)
    {x : Option α} {y : Option β} (h : Option.Rel r x y) : x.map f = y.map g := by
  cases h with
  | none => rfl
  | some h => exact congrArg some (hfg _ _ h)

/-- **Where two runs have stayed in step, the root of the one judges as that of the other does**, whose only property
holds the type that corresponds to it. -/
theorem Enclosed.judges_alike {p₁ p₂ s₁ k s₂ : Session} {copy : PropertyId} {C : Prop} {place : String}
    {hcarries : config.naming.Carries} (henclosed : Enclosed (rootId s) copy m s₂)
    (hbetween : (besides config hcarries s source place hground).Between True p₁ p₂ C s₁ k)
    (htypes : C → (besides config hcarries s source place hground).Types type held)
    (hendures : s.graph.EnduresIn s₂.graph) (hretains : Retains k.graph m.graph) (hexists : m.graph.HasProperty copy)
    (hname : (m.graph.property copy).name = name) (hasks : AsksForInstance m.graph held copy)
    (hproperties : ∀ id, s₁.graph.Knows (s₁.graph.property id))
    (hentries : ∀ id, s₁.graph.KnowsType (s₁.graph.entry id)) (hthere : s₁.graph.HasType type)
    (hnone₁ : s.NoneRedirected s₁) (hnone₂ : s.NoneRedirected s₂) (mode : Mode) (members : Members) :
    (s₁.graph.evaluate mode type (.object members)).map (·.isValid) =
      (s₂.graph.evaluate mode (rootId s) (.object [(name, .object members)])).map (·.isValid) := by
  have hsize : (memberId s source).index = s.graph.types.size + 1 := Array.size_push _
  have hbehind : s.graph.types.size ≤ (memberId s source).index := hsize ▸ Nat.le_succ _
  have hentry : ∀ id : TypeId, (memberId s source).index ≤ id.index → s₂.graph.entry id = k.graph.entry id := by
    intro id hid
    have hapart : id ≠ rootId s := fun heq => absurd (hsize ▸ heq ▸ hid) (Nat.not_succ_le_self _)
    rw [henclosed.entry id hapart]
    unfold Graph.entry
    rw [hretains.types]
  have hstraight : (besides config hcarries s source place hground).Straight s₁.graph k.graph := by
    refine ⟨hnone₁, fun id hid => ?_⟩
    rw [← hentry id hid]
    exact hnone₂ id (Nat.le_trans hbehind hid)
  have hC := hbetween.kept trivial hstraight
  have hcoupled := hbetween.coupled hC
  have hkeeps : (besides config hcarries s source place hground).Keeps s₁.graph k.graph s₁.graph s₂.graph := by
    refine ⟨hcoupled.first, hground.trans hendures, fun a b hab ha => ⟨rfl, ?_⟩, fun a b ⟨n, _, hb⟩ _ => ?_⟩
    · obtain ⟨hmoved, hsame⟩ := hretains.property b ((hcoupled.hasProperty_iff hab.links).1 ha)
      exact (henclosed.property b hmoved).trans hsame
    · exact ⟨rfl, hentry b (hb ▸ Nat.le_add_right _ _)⟩
  have hlikeness := hcoupled.isLikeness hkeeps hproperties hentries
  unfold AsksForInstance at hasks
  rw [henclosed.evaluate hexists hname, Graph.evaluateProperty_instance (henclosed.property copy hexists ▸ hasks)]
  exact map_eq_of_rel (fun _ _ halike => halike.isValid)
    (hlikeness.evaluate mode ⟨Or.inl (htypes hC), hthere⟩ (.object members))

/-- The member holds an instance of its type, and is required. -/
theorem member_embodied (h : (embody build scope name node (describe · node) type).Runs config s (held, member) s') :
    s'.graph.HasProperty member ∧ (s'.graph.property member).name = name ∧
      AsksForInstance s'.graph held member := by
  obtain ⟨m, property, _, hinstance, rfl, rfl⟩ := runs_embody.1 h
  obtain ⟨_, hname, hposes⟩ := poses_instanceProperty hinstance
  have hkept : (describe property node).name = property.name ∧
      (describe property node).validators = property.validators := by
    unfold describe
    split <;> exact ⟨rfl, rfl⟩
  refine ⟨Session.hasProperty_addProperty _ _, ?_, ?_⟩
  · exact (congrArg Property.name (Graph.property_addProperty _ _)).trans (hkept.1.trans hname)
  · refine (congrArg (·.validators.toList.map (·.check)) (Graph.property_addProperty _ _)).trans ?_
    rw [hkept.2, hposes.toList]
    rfl

/-- Where the member has been built, its root is still being made. -/
theorem making_member (hobject : Keyword.isObject node = true) (hreference : node.get? "$ref" = none)
    (hvalue : Unvalued node)
    (h : (embody (property bound) (rootScope source (memberClass config s source name node)) name node (describe · node)
      (memberId s source)).Runs config (memberReserved config s source name node) (held, member) m)
    (hcalm : (memberReserved config s source name node).Calm m) : Making source (rootId s) m := by
  have hbuilt : (property (bound + 1) (memberSite s source name) node).Runs config
      (begun (s.register source (wrapper name node)) source) member m :=
    (runs_member hobject hreference hvalue).2 ⟨held, h⟩
  have hreserved : (begun (s.register source (wrapper name node)) source).Calm
      (memberReserved config s source name node) := .reserve _ _ _ _
  have hmaking : Making source (rootId (s.register source (wrapper name node))) m :=
    .of_member hbuilt (pending_of_calm (hreserved.trans hcalm))
  exact hmaking

end Building

namespace Session

open Building Build Naming

variable {config : Config} {s s₁ s₂ m₁ m₂ : Session} {source : Source} {name : String} {node : Json} {bound : Nat}
  {type root held : TypeId} {definition member : PropertyId} {C : Prop} {ground : Ground}
  {hground : ground.graph.EnduresIn s.graph}

/-- Where the two runs have stayed in step to the end, the root judges as the root of the wrapper does. -/
theorem judges_as_member (hcarries : config.naming.Carries) (hobject : Keyword.isObject node = true)
    (hreference : node.get? "$ref" = none) (hvalue : Unvalued node)
    (hcomplete : (complete ⟨source.key, ""⟩ definition).Runs config m₁ ⟨⟩ s₁)
    (hmember : (embody (property bound) (rootScope source (memberClass config s source name node)) name node
      (describe · node) (memberId s source)).Runs config (memberReserved config s source name node) (held, member) m₂)
    (henclose : (enclose source (rootClass s source) (rootId s) member).Runs config m₂ root s₂)
    (hbetween : (besides config hcarries s source source.key hground).Between True
      (begun (s.register source node) source) (memberReserved config s source name node) C m₁ m₂)
    (htypes : C → (besides config hcarries s source source.key hground).Types type held) (hclosed : s₁.Closed)
    (hthere : s₁.graph.HasType type) (hendures : s.graph.EnduresIn s₂.graph) (hnone₁ : s.NoneRedirected s₁)
    (hnone₂ : s.NoneRedirected s₂) (mode : Mode) (members : Members) :
    (s₁.graph.evaluate mode type (.object members)).map (·.isValid) =
      (s₂.graph.evaluate mode root (.object [(name, .object members)])).map (·.isValid) := by
  obtain rfl := (runs_complete_alone (pending_of_calm hbetween.first)).1 hcomplete
  have hmaking := making_member hobject hreference hvalue hmember hbetween.second
  obtain ⟨rfl, henclosed⟩ := hmaking.runs_enclose henclose
  obtain ⟨hexists, hname, hasks⟩ := member_embodied hmember
  exact henclosed.judges_alike hbetween htypes hendures (.refl _) hexists hname hasks hclosed.properties hclosed.types
    hthere hnone₁ hnone₂ mode members

/-- Both documents can be processed, and then in tandem, or neither can. -/
theorem inTandem_or_neither (hground : ground.graph.EnduresIn s.graph) (hcarries : config.naming.Carries)
    (hname : HasIdentifier name) (hobject : Keyword.isObject node = true) (hreference : node.get? "$ref" = none)
    (hcovers : ground.Covers node)
    (hserved : ∀ value, ground.ServedIn source.key (begun (s.register source value) source)) (hvalue : Unvalued node)
    (hbound : recursionBound (s.register source (wrapper name node)).documents = bound + 1) :
    (HasIdentifier (rootClass s source) ∧ ∃ type definition held member m₁ m₂ C,
      (embody (property (recursionBound (s.register source node).documents)) (rootScope source (rootClass s source))
        (rootClass s source) node id (rootId s)).Runs config (begun (s.register source node) source)
        (type, definition) m₁ ∧
      (embody (property bound) (rootScope source (memberClass config s source name node)) name node (describe · node)
        (memberId s source)).Runs config (memberReserved config s source name node) (held, member) m₂ ∧
      (besides config hcarries s source source.key hground).Between True (begun (s.register source node) source)
        (memberReserved config s source name node) C m₁ m₂ ∧
      (C → (besides config hcarries s source source.key hground).Types type held)) ∨
    (∀ type s₁, ¬ (document source node).Runs config s type s₁) ∧
      ∀ root s₂, ¬ (document source (wrapper name node)).Runs config s root s₂ := by
  by_cases hclass : HasIdentifier (rootClass s source)
  · rcases (goesAt_besides hground hcarries hclass hname hobject hcovers hserved hbound).cases with
      ⟨made, made', m₁, m₂, C, hrun, hrun', hbetween, hids⟩ | ⟨hnot, hnot'⟩
    · exact Or.inl ⟨hclass, _, _, _, _, m₁, m₂, C, hrun, hrun', hbetween, fun hC => (hids hC).1⟩
    · refine Or.inr ⟨fun type s₁ hrun => ?_, fun root s₂ hrun => ?_⟩
      · obtain ⟨definition, m, hmade, _⟩ := (runs_document_root hobject hreference).1 hrun
        exact hnot _ _ hmade
      · obtain ⟨held, member, m, hmade, _⟩ := (runs_document_member hobject hreference hvalue hbound).1 hrun
        exact hnot' _ _ hmade
  · refine Or.inr ⟨fun type s₁ hrun => ?_, fun root s₂ hrun => ?_⟩
    · obtain ⟨definition, m, hmade, _⟩ := (runs_document_root hobject hreference).1 hrun
      exact hclass (hasIdentifier_of_embody hmade)
    · obtain ⟨held, member, m, _, henclose⟩ := (runs_document_member hobject hreference hvalue hbound).1 hrun
      exact hclass (hasIdentifier_of_enclose henclose)

/-- **An object node judges alike as a root and as a member.**  Whatever calls came before, it can be processed as a
document exactly if a document can that has it as its only property, a required one.  Then, unless a type is redirected,
the root of the one accepts an object exactly if that of the other accepts what holds the object under the property's
name.  The node may refer to whatever other documents define, if that has been built. -/
theorem root_judges_as_member (hcarries : config.naming.Carries) (calls : List Call) (source : Source)
    (hname : HasIdentifier name) (hobject : Keyword.isObject node = true) (hreference : node.get? "$ref" = none)
    (hrefers : (performAll config calls).RefersAbroad source node node) (hvalue : Unvalued node) :
    ((∃ type s₁, (performAll config calls).process config source node = (.ok type, s₁)) ↔
      ∃ root s₂, (performAll config calls).process config source (wrapper name node) = (.ok root, s₂)) ∧
    ∀ type s₁ root s₂, (performAll config calls).process config source node = (.ok type, s₁) →
      (performAll config calls).process config source (wrapper name node) = (.ok root, s₂) →
      (performAll config calls).NoneRedirected s₁ → (performAll config calls).NoneRedirected s₂ →
      ∀ mode members, (s₁.graph.evaluate mode type (.object members)).map (·.isValid) =
        (s₂.graph.evaluate mode root (.object [(name, .object members)])).map (·.isValid) := by
  have horderly := orderly_performAll config calls
  have hsettled := (collapsed_performAll config calls).settled
  generalize performAll config calls = s at horderly hsettled hrefers
  have hcovers : (abroad s source node source.key horderly.closed hsettled).Covers node := covers_abroad hrefers
  obtain ⟨bound, hbound⟩ : ∃ bound, recursionBound (s.register source (wrapper name node)).documents = bound + 1 :=
    Nat.exists_eq_succ_of_ne_zero fun hzero => absurd (levels_le_recursionBound s source (wrapper name node))
      (hzero ▸ Nat.not_le_of_lt (one_le_levels _))
  rcases inTandem_or_neither (.refl s.graph) hcarries hname hobject hreference hcovers servedIn_abroad hvalue
    hbound with ⟨hclass, type, definition, held, member, m₁, m₂, C, hrun, hrun', hbetween, htypes⟩ | ⟨hnot, hnot'⟩
  · have hmaking := making_member hobject hreference hvalue hrun' hbetween.second
    obtain ⟨target, s', henclose⟩ := hmaking.exists_runs_enclose hclass config member
    have hcompleted : (complete ⟨source.key, ""⟩ definition).Runs config m₁ ⟨⟩ _ :=
      (runs_complete_alone (pending_of_calm hbetween.first)).2 rfl
    refine ⟨iff_of_true ⟨type, _, (runs_document_root hobject hreference).2 ⟨definition, m₁, hrun, hcompleted⟩⟩
      ⟨target, s', (runs_document_member hobject hreference hvalue hbound).2 ⟨held, member, m₂, hrun', henclose⟩⟩, ?_⟩
    intro type' s₁ root s₂ hdone hdone' hnone₁ hnone₂
    obtain ⟨definition', m₁', hmade, hcomplete⟩ := (runs_document_root hobject hreference).1 hdone
    obtain ⟨held', member', m₂', hmade', henclose'⟩ := (runs_document_member hobject hreference hvalue hbound).1 hdone'
    obtain ⟨heq, rfl⟩ := hmade.unique hrun
    obtain ⟨rfl, rfl⟩ := Prod.mk.inj heq
    obtain ⟨heq', rfl⟩ := hmade'.unique hrun'
    obtain ⟨rfl, rfl⟩ := Prod.mk.inj heq'
    exact judges_as_member hcarries hobject hreference hvalue hcomplete hrun' henclose' hbetween htypes
      (horderly.of_process hdone).closed (horderly.asFinished_process hdone).2 (enduresIn_of_process hdone') hnone₁
      hnone₂
  · exact ⟨iff_of_false (fun ⟨type, s₁, hrun⟩ => hnot type s₁ hrun) fun ⟨root, s₂, hrun⟩ => hnot' root s₂ hrun,
      fun type s₁ _ _ hrun => absurd hrun (hnot type s₁)⟩

/-! ## Documents that accept -/

variable {document : Json}

/-- The document can be processed, and no type that comes of it is redirected. -/
def Builds (config : Config) (s : Session) (source : Source) (document : Json) : Prop :=
  ∃ root s', s.process config source document = (.ok root, s') ∧ s.NoneRedirected s'

/-- The document can be processed, and its root accepts the value. -/
def Accepts (config : Config) (s : Session) (source : Source) (document : Json) (mode : Mode) (value : Json) : Prop :=
  ∃ root s', s.process config source document = (.ok root, s') ∧
    (s'.graph.evaluate mode root value).map (·.isValid) = some true

theorem accepts_iff_of_process (h : s.process config source document = (.ok root, s')) (mode : Mode) (value : Json) :
    s.Accepts config source document mode value ↔
      (s'.graph.evaluate mode root value).map (·.isValid) = some true := by
  constructor
  · rintro ⟨root', s'', hdone, haccepted⟩
    obtain ⟨hroot, rfl⟩ := Prod.mk.inj (hdone.symm.trans h)
    obtain rfl := Except.ok.inj hroot
    exact haccepted
  · exact fun haccepted => ⟨root, s', h, haccepted⟩

/-! ## A node that judges alike, and one that does not -/

theorem builds_of_run (hdone : (s.process config source document).1.toOption = some root)
    (hnone : (s.process config source document).2.graph.types.toList.all (·.redirect.isNone) = true) :
    s.Builds config source document :=
  ⟨root, _, eq_ok_of_toOption hdone, noneRedirected_of_all hnone⟩

theorem accepts_iff_of_run {mode : Mode} {value : Json} {bound : Nat} {valid : Bool}
    (hdone : (s.process config source document).1.toOption = some root)
    (hrun : (Evaluation.run (s.process config source document).2.graph mode bound root value).map (·.isValid) =
      some valid) : s.Accepts config source document mode value ↔ valid = true := by
  obtain ⟨result, hresult, rfl⟩ := Option.map_eq_some_iff.1 hrun
  rw [accepts_iff_of_process (eq_ok_of_toOption hdone), Evaluation.evaluate_eq_some_iff.2 ⟨bound, hresult⟩,
    Option.map_some, Option.some.injEq]

/-- A document with an object that has what another document is. -/
def trusting : Json := .object
  [("type", .string "object"), ("properties", .object [("c", .object [("$ref", .string "c")])]),
    ("required", .array [.string "c"])]

def trusted : List Call := [.process counting.1 counting.2]

/-- The reference leads to the other document, whatever this one is. -/
theorem refersAbroad_trusted {value node : Json} (hreferences : references node = ["c"]) :
    (performAll oneName trusted).RefersAbroad ⟨"t", "", "T"⟩ value node := by
  have hbuilt : ((performAll oneName trusted).built? ⟨"c", ""⟩).isSome = true := by decide +kernel
  obtain ⟨definition, hdefinition⟩ := Option.isSome_iff_exists.1 hbuilt
  have hdocuments : ((performAll oneName trusted).register ⟨"t", "", "T"⟩ value).documents =
      [filed counting, filed (⟨"t", "", "T"⟩, value)] :=
    congrArg (Reference.Documents.insert · _) ((orderly_performAll oneName []).documents_process _ _)
  intro reference hreference
  obtain rfl := List.mem_singleton.1 (hreferences ▸ hreference)
  refine ⟨definition, ⟨⟨"c", ""⟩, "", counted, "c"⟩, ?_, by decide, definition?_of_built? hdefinition⟩
  rw [hdocuments]
  rfl

def trustingRun : Except Halt TypeId × Session := (performAll oneName trusted).process oneName ⟨"t", "", "T"⟩ trusting

def trustingMemberRun : Except Halt TypeId × Session :=
  (performAll oneName trusted).process oneName ⟨"t", "", "T"⟩ (wrapper "x" trusting)

set_option maxRecDepth 100000 in
/-- The object is accepted alike as a root and as a member, and so neither way without the number that the other
document asks for. -/
theorem root_judges_as_member_trusting :
    trustingRun.1.toOption = some ⟨1⟩ ∧ trustingMemberRun.1.toOption = some ⟨1⟩ ∧
      (trustingRun.2.graph.evaluate .collectAll ⟨1⟩ (.object [("c", .object [])])).map (·.isValid) = some false ∧
      ∀ members, (trustingRun.2.graph.evaluate .collectAll ⟨1⟩ (.object members)).map (·.isValid) =
        (trustingMemberRun.2.graph.evaluate .collectAll ⟨1⟩ (.object [("x", .object members)])).map (·.isValid) := by
  have hfacts : trustingRun.1.toOption = some ⟨1⟩ ∧ trustingMemberRun.1.toOption = some ⟨1⟩ ∧
      trustingRun.2.graph.types.toList.all (·.redirect.isNone) = true ∧
      trustingMemberRun.2.graph.types.toList.all (·.redirect.isNone) = true ∧
      (Evaluation.run trustingRun.2.graph .collectAll 9 ⟨1⟩ (.object [("c", .object [])])).map (·.isValid) =
        some false ∧
      references trusting = ["c"] := by
    decide +kernel
  obtain ⟨hroot, hmember, hnone, hnone', hrun, hreferences⟩ := hfacts
  obtain ⟨result, hresult, hinvalid⟩ := Option.map_eq_some_iff.1 hrun
  refine ⟨hroot, hmember, ?_, ?_⟩
  · rw [Evaluation.evaluate_eq_some_iff.2 ⟨9, hresult⟩, Option.map_some, hinvalid]
  · have hname : HasIdentifier "x" := by decide +kernel
    have hprocessed : (performAll oneName trusted).process oneName ⟨"t", "", "T"⟩ trusting =
        (.ok ⟨1⟩, trustingRun.2) := eq_ok_of_toOption hroot
    have hprocessed' : (performAll oneName trusted).process oneName ⟨"t", "", "T"⟩ (wrapper "x" trusting) =
        (.ok ⟨1⟩, trustingMemberRun.2) := eq_ok_of_toOption hmember
    have hjudged := (root_judges_as_member carries_oneName trusted ⟨"t", "", "T"⟩ hname rfl rfl
      (refersAbroad_trusted hreferences) (by decide)).2
    exact hjudged _ _ _ _ hprocessed hprocessed' (noneRedirected_of_all hnone) (noneRedirected_of_all hnone')
      .collectAll

def pinnedRun : Except Halt TypeId × Session := process {} oneName ⟨"t", "", "T"⟩ pinned.2

def pinnedMemberRun : Except Halt TypeId × Session := process {} oneName ⟨"t", "", "T"⟩ (wrapper "x" pinned.2)

set_option maxRecDepth 100000 in
/-- **A root is not held to a value.**  The object that is to be one value is accepted as a root whatever it is, and
declined as a member. -/
theorem not_forall_root_judges_as_member : ¬ ∀ (config : Config) (calls : List Call) (source : Source) (name : String)
    (node : Json) (type root : TypeId) (s₁ s₂ : Session) (mode : Mode) (members : Members), config.naming.Carries →
    HasIdentifier name → Keyword.isObject node = true → node.get? "$ref" = none → references node = [] →
    (performAll config calls).process config source node = (.ok type, s₁) →
    (performAll config calls).process config source (wrapper name node) = (.ok root, s₂) →
    (performAll config calls).NoneRedirected s₁ → (performAll config calls).NoneRedirected s₂ →
    (s₁.graph.evaluate mode type (.object members)).map (·.isValid) =
      (s₂.graph.evaluate mode root (.object [(name, .object members)])).map (·.isValid) := by
  intro h
  have hfacts : pinnedRun.1.toOption = some ⟨0⟩ ∧ pinnedMemberRun.1.toOption = some ⟨0⟩ ∧
      pinnedRun.2.graph.types.toList.all (·.redirect.isNone) = true ∧
      pinnedMemberRun.2.graph.types.toList.all (·.redirect.isNone) = true ∧
      (Evaluation.run pinnedRun.2.graph .collectAll 9 ⟨0⟩ (.object [])).map (·.isValid) = some true ∧
      (Evaluation.run pinnedMemberRun.2.graph .collectAll 9 ⟨0⟩ (.object [("x", .object [])])).map (·.isValid) =
        some false ∧
      references pinned.2 = [] := by
    decide +kernel
  obtain ⟨hroot, hmember, hnone, hnone', hvalid, hinvalid, hreferences⟩ := hfacts
  obtain ⟨a, ha, hvalid⟩ := Option.map_eq_some_iff.1 hvalid
  obtain ⟨b, hb, hinvalid⟩ := Option.map_eq_some_iff.1 hinvalid
  have hname : HasIdentifier "x" := by decide +kernel
  have hsame := h oneName [] ⟨"t", "", "T"⟩ "x" pinned.2 ⟨0⟩ ⟨0⟩ _ _ .collectAll [] carries_oneName hname rfl rfl
    hreferences (eq_ok_of_toOption hroot) (eq_ok_of_toOption hmember) (noneRedirected_of_all hnone)
    (noneRedirected_of_all hnone')
  have ha' : pinnedRun.2.graph.evaluate .collectAll ⟨0⟩ (.object []) = some a :=
    Evaluation.evaluate_eq_some_iff.2 ⟨9, ha⟩
  have hb' : pinnedMemberRun.2.graph.evaluate .collectAll ⟨0⟩ (.object [("x", .object [])]) = some b :=
    Evaluation.evaluate_eq_some_iff.2 ⟨9, hb⟩
  change (pinnedRun.2.graph.evaluate _ _ _).map _ = (pinnedMemberRun.2.graph.evaluate _ _ _).map _ at hsame
  rw [ha', hb', Option.map_some, Option.map_some, hvalid, hinvalid] at hsame
  cases hsame

end Session
end SchemaTypes

import SchemaTypes.Proofs.Building.Transparency
/-!
# Roots in other documents

A document that is a reference to an object of another one has its root filled in from there, and no definition for it
(`Building.runs_document_foreign`).  A required property with the same reference has the definition built, in the other
document, and gets a copy (`Building.exists_runs_referral`).  Where the object refers to nothing but definitions from
before, the two types are filled in in tandem, so the root accepts what the property accepts unless a type is
redirected.

But a root does not switch to the document its node is in.  It makes no difference where the node's references lead to
the same place from either document (`Session.process_broken_behind`), and it does for one without a document part
(`Session.not_forall_process_broken_behind`).
-/
namespace SchemaTypes

/-- The references of the node all lead out of the document, to definitions that have been built, and to the same ones
from the document as from where the node lies. -/
def Session.RefersAlike (s : Session) (source : Source) (value : Json) (target : Building.Target) : Prop :=
  ∀ reference ∈ Building.references target.node, ∃ definition,
    s.LeadsAbroad source value source.key reference definition ∧
    s.LeadsAbroad source value target.key.document reference definition

namespace Building

open Build Naming

variable {config : Config} {build : Builder} {source : Source} {site : Site} {own name : String} {value : Json}
  {target : Target} {type held : TypeId} {definition copy : PropertyId} {s s' k m n : Session} {bound : Nat}
  {ground : Ground}

/-- Where references resolve alike, they are broken alike. -/
theorem Broken.of_same {documents : Reference.Documents} {document other reference : String} {spelled : List String}
    (h : Broken documents document spelled reference)
    (hsame : ∀ r ∈ spelled, targetIn? documents document r = targetIn? documents other r) :
    Broken documents other spelled reference := by
  cases h with
  | here hmem hnone => exact .here hmem (hsame reference hmem ▸ hnone)
  | behind hmem htarget hbehind => exact .behind hmem (hsame _ hmem ▸ htarget) hbehind

/-! ## The root -/

/-- Where the making of a root that is no definition starts: its type has been reserved. -/
def rootReserved (stored : Session) (source : Source) : Session :=
  stored.withGraph (stored.graph.reserve source.namespaceName source.className true).2

/-- A root in another document is filled in and finished. -/
theorem runs_document_foreign (hown : value.stringAt? "$ref" = some own)
    (htarget : targetIn? (s.register source value).documents source.key own = some target)
    (hobject : Keyword.isObject target.node = true) (hforeign : target.key.document ≠ source.key) :
    (document source value).Runs config s type s' ↔
      (shape (property (recursionBound (s.register source value).documents)) (rootScope source (rootClass s source))
        target.node (rootId s)).Runs config (rootReserved (s.register source value) source) type s' := by
  rw [runs_document_iff]
  generalize property (recursionBound (s.register source value).documents) = build
  have hroot : ∀ {scope : Scope} {found : Json × Option DefinitionKey} {m : Session}, scope.document = source.key →
      ((rootOf source scope value).Runs config (s.register source value) found m ↔
        found = (target.node, none) ∧ m = s.register source value) := by
    intro scope found m hscope
    unfold rootOf
    rw [hown]
    simp only
    rw [runs_bind_of_iff fun other m => runs_locate.trans (by rw [hscope, htarget, Option.some.injEq, eq_comm])]
    rw [if_pos hobject, if_neg hforeign]
    exact runs_pure
  unfold rootType
  rw [runs_bind_of_iff fun _ _ => hroot rfl]
  simp only [bind_pure]
  rw [runs_bind_of_iff fun _ _ => runs_reserve, runs_graph_bind]
  have hclass : ((rootReserved (s.register source value) source).graph.entry (rootId s)).name.className =
      rootClass s source := congrArg (·.name.className) ((Session.entry_reserve_eq _ _ _ _ _).trans (if_pos rfl))
  rw [← hclass]
  rfl

/-! ## The property -/

/-- A reference to a definition nobody has begun gets a copy of what is built for it. -/
theorem runs_referral (htarget : targetIn? s.documents site.scope.document own = some target)
    (hfresh : s.definition? target.key = none) :
    (property (bound + 1) site (referral own)).Runs config s copy m ↔ ∃ definition n,
      (define (property bound) target).Runs config s definition n ∧
        (Building.copy definition { site with merged := false }).Runs config n copy m := by
  have hget : (referral own).get? "$ref" = some (.string own) := rfl
  have hplain : referred (property bound) site (referral own) (.string own) =
      refer (property bound) { site with merged := false } own := bind_pure _
  rw [property_eq_referred hget, hplain]
  unfold refer
  rw [runs_bind_of_iff fun other m => runs_locate.trans (by rw [htarget, Option.some.injEq, eq_comm]),
    runs_get_bind, hfresh]
  exact runs_bind

/-- Where the definition of an object has been begun: its type has been reserved. -/
def definitionBegun (config : Config) (s : Session) (target : Target) : Session :=
  (reservedFor config s (definitionSite target) target.node).setDefinition target.key
    (.inProgress (some ⟨s.graph.types.size⟩) [])

/-- The scope of the definition's class. -/
def definitionScope (config : Config) (s : Session) (target : Target) : Scope :=
  { (definitionSite target).scope with
    className := ((definitionBegun config s target).graph.entry ⟨s.graph.types.size⟩).name.className }

/-- The definition of an object is embodied, and completed. -/
theorem runs_define_object (hobject : Keyword.isObject target.node = true) (hvalue : Unvalued target.node) :
    (define build target).Runs config s definition n ↔ ∃ held k,
      (embody build (definitionScope config s target) target.name target.node (describe · target.node)
        ⟨s.graph.types.size⟩).Runs config (definitionBegun config s target) (held, definition) k ∧
      (complete target.key definition).Runs config k ⟨⟩ n := by
  rw [define_eq_object hobject, runs_bind_of_iff fun _ _ => runs_reserveFor_iff, runs_modify_bind,
    objectInto_eq_embody hvalue rfl, bind_assoc, runs_graph_bind]
  simp only [bind_assoc, pure_bind]
  constructor
  · intro h
    obtain ⟨⟨held, definition⟩, k, hmade, hrest⟩ := runs_bind.1 h
    obtain ⟨_, n', hcomplete, hreturn⟩ := runs_bind.1 hrest
    obtain ⟨rfl, rfl⟩ := runs_pure.1 hreturn
    exact ⟨held, k, hmade, hcomplete⟩
  · rintro ⟨held, k, hmade, hcomplete⟩
    exact runs_bind.2 ⟨_, k, hmade, runs_bind.2 ⟨⟨⟩, n, hcomplete, runs_pure.2 ⟨rfl, rfl⟩⟩⟩

/-- The definition that holds the type has been built; nothing else has come. -/
structure Defines (config : Config) (s k : Session) (target : Target) (held : TypeId) (definition : PropertyId)
    (n : Session) : Prop where
  orderly : n.Orderly config
  passed : Passed config.settings.implicitNull n definition n definition
  asks : AsksForInstance n.graph held definition
  retains : Retains k.graph n.graph
  untouched : Untouched [target.key] s n

/-- Once its type has been filled in and finished, the definition is built. -/
theorem exists_runs_define (horderly : s.Orderly config) (hobject : Keyword.isObject target.node = true)
    (hvalue : Unvalued target.node) (hdefined : HasIdentifier target.name)
    (hshape : (shape (property bound) (definitionScope config s target) target.node ⟨s.graph.types.size⟩).Runs config
      (definitionBegun config s target) held k) (hcalm : (definitionBegun config s target).Calm k) :
    ∃ definition n, (define (property bound) target).Runs config s definition n ∧
      Defines config s k target held definition n := by
  obtain ⟨instanced, hinstance⟩ := exists_runs_instanceProperty hdefined held true config k
  generalize hlater : k.withGraph (k.graph.addProperty (describe instanced target.node)).2 = later
  generalize hdefinition : (k.graph.addProperty (describe instanced target.node)).1 = definition
  have hmade : (embody (property bound) (definitionScope config s target) target.name target.node
      (describe · target.node) ⟨s.graph.types.size⟩).Runs config (definitionBegun config s target) (held, definition)
      later := runs_embody.2 ⟨k, instanced, hshape, hinstance, hdefinition.symm, hlater.symm⟩
  have hdefinitions : ∀ key, later.definition? key = (definitionBegun config s target).definition? key :=
    fun key => hlater ▸ congrArg (List.lookup key) hcalm.definitions
  have hcompleted : (complete target.key definition).Runs config later ⟨⟩
      (later.setDefinition target.key (.built definition)) :=
    (runs_complete_alone ((hdefinitions _).trans (definition?_begin _ _ _))).2 rfl
  have hthere := hasType_reservedFor config s (definitionSite target) target.node
  have hbegun : (definitionBegun config s target).Orderly config :=
    orderly_begin (orderly_reservedFor horderly _ _) _ _ fun type heq => Option.some.inj heq ▸ hthere
  have hinto : (objectInto (property bound) (definitionSite target) target.node ⟨s.graph.types.size⟩).Runs config
      (definitionBegun config s target) definition later := by
    rw [objectInto_eq_embody hvalue rfl, runs_graph_bind]
    exact runs_bind.2 ⟨_, later, hmade, runs_pure.2 ⟨rfl, rfl⟩⟩
  have hpurpose := ((makes_objectInto _ trivial).1 definition later hinto).2
  have hkept := orderly_of_objectInto hbegun hthere hinto
  obtain ⟨hexists, _, hchecks⟩ := member_embodied hmade
  refine ⟨definition, _, (runs_define_object hobject hvalue).2 ⟨held, later, hmade, hcompleted⟩, ?_, ?_, hchecks, ?_,
    fun other hother => ?_⟩
  · exact orderly_of_writes hkept (.single (.define _ hexists))
  · exact ⟨hexists, ⟨hkept.inStep definition, congrArg Property.Purpose.required hpurpose,
      congrArg Property.Purpose.relaxed hpurpose, rfl, rfl⟩, .refl _⟩
  · exact hlater ▸ (Retains.refl k.graph).addProperty _
  · rw [Session.definition?_setDefinition, if_neg fun heq => hother (List.mem_singleton.2 heq), hdefinitions]
    exact untouched_begin _ _ _ _ hother

/-- What the type comes to where a reference is: the property has a copy of the definition. -/
structure Lends (s k : Session) (target : Target) (name : String) (held : TypeId) (copy : PropertyId) (m : Session) :
    Prop where
  hasProperty : m.graph.HasProperty copy
  name : (m.graph.property copy).name = name
  asks : AsksForInstance m.graph held copy
  retains : Retains k.graph m.graph
  untouched : Untouched [target.key] s m

/-- **Once the type has been filled in and finished, the reference gets its property.** -/
theorem exists_runs_referral (site : Site) (horderly : s.Orderly config)
    (htarget : targetIn? s.documents site.scope.document own = some target) (hfresh : s.definition? target.key = none)
    (hobject : Keyword.isObject target.node = true) (hvalue : Unvalued target.node) (hname : HasIdentifier site.name)
    (hdefined : HasIdentifier target.name) (hrequired : site.required = true)
    (hshape : (shape (property bound) (definitionScope config s target) target.node ⟨s.graph.types.size⟩).Runs config
      (definitionBegun config s target) held k) (hcalm : (definitionBegun config s target).Calm k) :
    ∃ copy m, (property (bound + 1) site (referral own)).Runs config s copy m ∧
      Lends s k target site.name held copy m := by
  obtain ⟨definition, n, hdefine, hdefines⟩ := exists_runs_define horderly hobject hvalue hdefined hshape hcalm
  obtain ⟨copy, m, hcopy, hpassed, _, hdefinitions, _⟩ :=
    hdefines.passed.exists_copy { site with merged := false } hdefines.orderly hname hrequired
  refine ⟨copy, m, (runs_referral htarget hfresh).2 ⟨definition, n, hdefine, hcopy⟩, hpassed.hasProperty, ?_, ?_,
    hdefines.retains.trans hpassed.retains, fun other hother => ?_⟩
  · obtain ⟨identifier, rfl, rfl⟩ := runs_copy hcopy
    exact congrArg Property.name (Graph.property_addProperty _ _)
  · have hasks := hdefines.asks
    unfold AsksForInstance at hasks ⊢
    rw [hpassed.restates.checks, hasks]
  · exact (congrArg (List.lookup other) hdefinitions).trans (hdefines.untouched other hother)

/-! ## The root and the property in tandem -/

/-- An object that is no reference, and has none of the keywords that apply to a value as a whole. -/
structure ObjectTarget (target : Target) : Prop where
  identified : HasIdentifier target.name
  isObject : Keyword.isObject target.node = true
  reference : target.node.get? "$ref" = none
  unvalued : Unvalued target.node

/-- The document that has the reference as its only property, where that property is built. -/
def referralBegun (s : Session) (source : Source) (name own : String) : Session :=
  begun (s.register source (wrapper name (referral own))) source

/-- The definitions that the references lead to are still there when the object's definition has been begun. -/
theorem servedIn_definitionBegun {place : String} (name own : String) (hfresh : s.definition? target.key = none)
    (hleads : ∀ reference definition, ground.leads reference definition →
      s.LeadsAbroad source value place reference definition) :
    ground.ServedIn place (definitionBegun config (referralBegun s source name own) target) := by
  refine servedIn_of_leads (wrapper name (referral own)) rfl (fun key hforeign definition hbuilt => ?_) hleads
  have hne : key ≠ target.key := fun heq => absurd (heq ▸ hbuilt) (hfresh ▸ nofun)
  exact (Session.definition?_setDefinition _ _ _ _).trans
    ((if_neg hne).trans ((definition?_begun hforeign).trans hbuilt))

/-- The root's type and the definition's are filled in and finished in tandem. -/
theorem goesAt_shapes (hground : ground.graph.EnduresIn s.graph) (hcarries : config.naming.Carries)
    (htop : config.naming.CarriesInto "") (name own : String) (hclass : HasIdentifier (rootClass s source))
    (h : ObjectTarget target) (hcovers : ground.Covers target.node)
    (hfirst : ground.ServedIn source.key (rootReserved (s.register source value) source))
    (hsecond : ground.ServedIn target.key.document (definitionBegun config (referralBegun s source name own) target))
    {bound bound' : Nat} (hlevels : target.node.levels ≤ bound) (hlevels' : target.node.levels ≤ bound') :
    (besides config hcarries s source target.key.document hground).GoesAt True
      (rootReserved (s.register source value) source)
      (definitionBegun config (referralBegun s source name own) target)
      (shape (property bound) (rootScope source (rootClass s source)) target.node (rootId s))
      (shape (property bound') (definitionScope config (referralBegun s source name own) target) target.node
        (memberId s source))
      fun C i j => C → (besides config hcarries s source target.key.document hground).Types i j := by
  have hshares := (Tandem.goes_property (t := besides config hcarries s source target.key.document hground) bound
    bound').shares (Nat.le_succ_of_le hlevels) (Nat.le_succ_of_le hlevels') hcovers (isObject_of_isObject h.isObject)
    (mild_of_isObject h.isObject)
  have hcoupled : (besides config hcarries s source target.key.document hground).Coupled
      (rootReserved (s.register source value) source).graph
      (definitionBegun config (referralBegun s source name own) target).graph :=
    Tandem.Coupled.reserve (Tandem.coupled_start rfl rfl hground (Session.enduresIn_reserve hground _ _ _)) _ _ _ _ _ _
  refine Tandem.goesAt_shape hshares ⟨fun _ => ⟨rfl, rfl⟩, hclass, hasIdentifier_reservedFor _ _ _ htop⟩
    ⟨hfirst, hsecond⟩ (fun _ => hcoupled) (fun _ => ⟨0, rfl, rfl⟩) ?_
  exact Nat.lt_of_lt_of_eq (Nat.lt_succ_self _) (Array.size_push _).symm

/-- The recursion bound allows for every node that a reference leads to. -/
theorem levels_lt_recursionBound {documents : Reference.Documents} {place text : String}
    (htarget : targetIn? documents place text = some target) : target.node.levels + 1 ≤ recursionBound documents := by
  have hlevels := levels_target htarget
  have hbound : 2 * (depthOf documents + 5) ≤ recursionBound documents :=
    Nat.mul_le_mul_right _ (Nat.le_add_left _ _)
  omega

/-- Where the reference has got its property, its root is still being made. -/
theorem making_referralBegun {bound : Nat} (hforeign : target.key.document ≠ source.key)
    (hrun : (property bound (memberSite s source name) (referral own)).Runs config (referralBegun s source name own)
      copy m)
    (hlends : Lends (referralBegun s source name own) k target name held copy m) : Making source (rootId s) m := by
  have hother : (⟨source.key, ""⟩ : DefinitionKey) ∉ [target.key] := by
    rw [List.mem_singleton]
    exact fun heq => hforeign (heq ▸ rfl)
  have hpending := (hlends.untouched _ hother).trans (pending_of_calm (.refl (referralBegun s source name own)))
  have hmaking : Making source (rootId (s.register source (wrapper name (referral own)))) m := .of_member hrun hpending
  exact hmaking

/-- A reference that has got its property had the type filled in and finished. -/
theorem exists_runs_shape (site : Site) (htarget : targetIn? s.documents site.scope.document own = some target)
    (hfresh : s.definition? target.key = none) (h : ObjectTarget target)
    (hrun : (property (bound + 1) site (referral own)).Runs config s copy m) :
    ∃ held k, (shape (property bound) (definitionScope config s target) target.node ⟨s.graph.types.size⟩).Runs config
      (definitionBegun config s target) held k := by
  obtain ⟨_, _, hdefine, _⟩ := (runs_referral htarget hfresh).1 hrun
  obtain ⟨held, _, hmade, _⟩ := (runs_define_object h.isObject h.unvalued).1 hdefine
  obtain ⟨k, _, hshape, _⟩ := runs_embody.1 hmade
  exact ⟨held, k, hshape⟩

end Building

namespace Session

open Building Build Naming

variable {config : Config} {calls : List Call} {source : Source} {value : Json} {s s' : Session} {own name : String}
  {target : Target}

/-- **A root in another document judges as a required property with its reference.**  Either document can be processed
or neither can, and then their roots accept the same objects unless a type is redirected. -/
theorem foreign_root_judges_as_member (hcarries : config.naming.Carries) (htop : config.naming.CarriesInto "")
    (horderly : s.Orderly config) (hsettled : s.RedirectsSettled) (hown : value.stringAt? "$ref" = some own)
    (htarget : targetIn? (s.register source value).documents source.key own = some target)
    (hforeign : target.key.document ≠ source.key) (h : ObjectTarget target)
    (hrefers : s.RefersAlike source value target) (hclass : HasIdentifier source.className)
    (hname : HasIdentifier name) (hfresh : s.definition? target.key = none) :
    ((∃ type s₁, s.process config source value = (.ok type, s₁)) ↔
      ∃ root s₂, s.process config source (wrapper name (referral own)) = (.ok root, s₂)) ∧
    ∀ type s₁ root s₂, s.process config source value = (.ok type, s₁) →
      s.process config source (wrapper name (referral own)) = (.ok root, s₂) →
      s.NoneRedirected s₁ → s.NoneRedirected s₂ →
      ∀ mode members, (s₁.graph.evaluate mode type (.object members)).map (·.isValid) =
        (s₂.graph.evaluate mode root (.object [(name, .object members)])).map (·.isValid) := by
  have hrooted : HasIdentifier (rootClass s source) := hclass.freeName _ _
  have hroot : ∀ {type : TypeId} {s₁ : Session}, s.process config source value = (.ok type, s₁) ↔ _ :=
    runs_document_foreign hown htarget h.isObject hforeign
  have hwraps := wraps_wrapper name (referral own)
  have htarget' := targetIn?_foreign htarget hforeign (wrapper name (referral own))
  have hlevels := levels_lt_recursionBound htarget
  have hlevels' := levels_lt_recursionBound htarget'
  obtain ⟨bound, hbound⟩ : ∃ bound, recursionBound (s.register source (wrapper name (referral own))).documents =
      bound + 1 := Nat.exists_eq_succ_of_ne_zero (by omega)
  rw [hbound] at hlevels'
  have hstill : (referralBegun s source name own).definition? target.key = none :=
    (definition?_begun hforeign).trans hfresh
  have hcovers : (abroad s source value target.key.document horderly.closed hsettled).Covers target.node := hrefers
  have hreserved : (abroad s source value target.key.document horderly.closed hsettled).ServedIn source.key
      (rootReserved (s.register source value) source) :=
    servedIn_of_leads value rfl (fun _ _ _ hbuilt => hbuilt) fun _ _ hleads => hleads.1
  rcases (goesAt_shapes (.refl s.graph) hcarries htop name own hrooted h hcovers hreserved
    (servedIn_definitionBegun name own hfresh fun _ _ hleads => hleads.2) (Nat.le_of_succ_le hlevels)
    (Nat.le_of_succ_le_succ hlevels')).cases with ⟨type, held, s₁, k, C, hrun, hrun', hbetween, htypes⟩ | ⟨hnot, hnot'⟩
  · obtain ⟨copy, m, hreferral, hlends⟩ := exists_runs_referral (memberSite s source name)
      (orderly_begun horderly _) htarget' hstill h.isObject h.unvalued hname h.identified rfl hrun' hbetween.second
    rw [← hbound] at hreferral
    have hmaking := making_referralBegun hforeign hreferral hlends
    obtain ⟨root, s₂, henclose⟩ := hmaking.exists_runs_enclose hrooted config copy
    refine ⟨iff_of_true ⟨type, s₁, hroot.2 hrun⟩ ⟨root, s₂, hwraps.runs_document.2 ⟨copy, m, hreferral, henclose⟩⟩, ?_⟩
    clear henclose
    intro type' s₁' root s₂ hdone hdone' hnone₁ hnone₂
    obtain ⟨rfl, rfl⟩ := (hroot.1 hdone).unique hrun
    obtain ⟨copy', m', hmade, henclose⟩ := hwraps.runs_document.1 hdone'
    obtain ⟨rfl, rfl⟩ := hmade.unique hreferral
    obtain ⟨rfl, henclosed⟩ := hmaking.runs_enclose henclose
    have hclosed := (horderly.of_process hdone).closed
    exact henclosed.judges_alike hbetween htypes (enduresIn_of_process hdone') hlends.retains hlends.hasProperty
      hlends.name hlends.asks hclosed.properties hclosed.types (horderly.asFinished_process hdone).2 hnone₁ hnone₂
  · refine ⟨iff_of_false (fun ⟨type, s₁, hdone⟩ => hnot type s₁ (hroot.1 hdone)) fun ⟨root, s₂, hdone⟩ => ?_,
      fun type s₁ _ _ hdone => absurd (hroot.1 hdone) (hnot type s₁)⟩
    obtain ⟨copy, m, hmade, _⟩ := hwraps.runs_document.1 hdone
    rw [hbound] at hmade
    obtain ⟨held, k, hshape⟩ :=
      exists_runs_shape (s := referralBegun s source name own) (memberSite s source name) htarget'
        hstill h hmade
    exact hnot' held k hshape

/-- **A root that refers to another document's node** fails for a reference only if one that the node leads to is
broken in the document that holds it, provided that the node's references lead to the same place from both documents.

Such a node, if what its references lead to has been built, gives the root what it gives a required property with the
reference: either can be built or neither can, and they accept the same objects unless a type is redirected. -/
theorem process_broken_behind (hown : value.stringAt? "$ref" = some own)
    (htarget : targetIn? ((performAll config calls).register source value).documents source.key own = some target) :
    (∀ reference s', (∀ r ∈ references target.node,
        targetIn? ((performAll config calls).register source value).documents source.key r =
          targetIn? ((performAll config calls).register source value).documents target.key.document r) →
      (performAll config calls).process config source value =
        (.error (.refused (.unresolvedReference reference)), s') →
      Broken ((performAll config calls).register source value).documents target.key.document
        (references target.node) reference) ∧
    ∀ name, config.naming.Carries → config.naming.CarriesInto "" → HasIdentifier source.className →
      HasIdentifier name → target.key.document ≠ source.key → ObjectTarget target →
      (performAll config calls).RefersAlike source value target →
      (performAll config calls).definition? target.key = none →
      ((∃ type s₁, (performAll config calls).process config source value = (.ok type, s₁)) ↔
        ∃ root s₂, (performAll config calls).process config source (wrapper name (referral own)) = (.ok root, s₂)) ∧
      ∀ type s₁ root s₂, (performAll config calls).process config source value = (.ok type, s₁) →
        (performAll config calls).process config source (wrapper name (referral own)) = (.ok root, s₂) →
        (performAll config calls).NoneRedirected s₁ → (performAll config calls).NoneRedirected s₂ →
        ∀ mode members, (s₁.graph.evaluate mode type (.object members)).map (·.isValid) =
          (s₂.graph.evaluate mode root (.object [(name, .object members)])).map (·.isValid) := by
  refine ⟨fun reference s' hsame h => ?_, fun name hcarries htop hclass hname hforeign h hrefers hfresh =>
    foreign_root_judges_as_member hcarries htop (orderly_performAll config calls)
      (collapsed_performAll config calls).settled hown htarget hforeign h hrefers hclass hname hfresh⟩
  have hbroken := (orderly_performAll config calls).process_broken h
  rw [rootNode_of_own hown, htarget] at hbroken
  exact hbroken.of_same hsame

/-- A document whose object has a property under a reference. -/
def lender (reference : String) : Json :=
  .object [("definitions", .object
    [("n", .object [("type", .string "object"), ("properties", .object
      [("a", .object [("$ref", .string reference)])])]),
      ("s", .object [("type", .string "string")])])]

/-- The object, where it lies. -/
def lent (reference : String) : Target where
  key := ⟨"d", "/definitions/n"⟩
  namespaceName := ""
  node := .object [("type", .string "object"), ("properties", .object
    [("a", .object [("$ref", .string reference)])])]
  name := "n"

def lenderCalls (reference : String) : List Call := [.register ⟨"d", "", "D"⟩ (lender reference)]

/-- A document that is the object. -/
def reborn : Json := .object [("$ref", .string "d#/definitions/n")]

def rebornRun (reference : String) : Except Halt TypeId × Session :=
  (performAll oneName (lenderCalls reference)).process oneName ⟨"t", "", "T"⟩ reborn

/-- A document with an object that has what another document is. -/
def keeper : Json := .object [("definitions", .object [("n", trusting)])]

def keeperCalls : List Call := [.process counting.1 counting.2, .register ⟨"d", "", "D"⟩ keeper]

/-- The object is the root, and the property of one. -/
def keptRun : Except Halt TypeId × Session := (performAll oneName keeperCalls).process oneName ⟨"t", "", "T"⟩ reborn

def keptMemberRun : Except Halt TypeId × Session :=
  (performAll oneName keeperCalls).process oneName ⟨"t", "", "T"⟩ (wrapper "x" (referral "d#/definitions/n"))

theorem documents_keeperCalls : ((performAll oneName keeperCalls).register ⟨"t", "", "T"⟩ reborn).documents =
    [filed counting, filed (⟨"d", "", "D"⟩, keeper), filed (⟨"t", "", "T"⟩, reborn)] :=
  congrArg (fun documents => (Reference.Documents.insert documents _).insert _)
    ((orderly_performAll oneName []).documents_process _ _)

/-- The other document is found from either document. -/
theorem refersAlike_keeper : (performAll oneName keeperCalls).RefersAlike ⟨"t", "", "T"⟩ reborn
    ⟨⟨"d", "/definitions/n"⟩, "", trusting, "n"⟩ := by
  have hfacts : references trusting = ["c"] ∧ ((performAll oneName keeperCalls).built? ⟨"c", ""⟩).isSome = true := by
    decide +kernel
  obtain ⟨definition, hdefinition⟩ := Option.isSome_iff_exists.1 hfacts.2
  have hbuilt := definition?_of_built? hdefinition
  intro reference hreference
  obtain rfl := List.mem_singleton.1 (hfacts.1 ▸ hreference)
  refine ⟨definition, ⟨⟨⟨"c", ""⟩, "", counted, "c"⟩, ?_, by decide, hbuilt⟩, ⟨⟨"c", ""⟩, "", counted, "c"⟩, ?_,
    by decide, hbuilt⟩
  · rw [documents_keeperCalls]
    rfl
  · rw [documents_keeperCalls]
    rfl

set_option maxRecDepth 100000 in
/-- A reference with a document part leads nowhere from either document, and is broken in the one that holds it.  An
object is declined without what it requires, as a root and as a member. -/
theorem process_broken_behind_lender :
    unresolved? (rebornRun "d#/definitions/gone") = some "d#/definitions/gone" ∧
      Broken ((performAll oneName (lenderCalls "d#/definitions/gone")).register ⟨"t", "", "T"⟩ reborn).documents
        "d" ["d#/definitions/gone"] "d#/definitions/gone" ∧
      (keptRun.2.graph.evaluate .collectAll ⟨1⟩ (.object [])).map (·.isValid) = some false ∧
      ∀ members, (keptRun.2.graph.evaluate .collectAll ⟨1⟩ (.object members)).map (·.isValid) =
        (keptMemberRun.2.graph.evaluate .collectAll ⟨1⟩ (.object [("x", .object members)])).map (·.isValid) := by
  have hrun : unresolved? (rebornRun "d#/definitions/gone") = some "d#/definitions/gone" := by decide +kernel
  have hfacts : keptRun.1.toOption = some ⟨1⟩ ∧ keptMemberRun.1.toOption = some ⟨1⟩ ∧
      keptRun.2.graph.types.toList.all (·.redirect.isNone) = true ∧
      keptMemberRun.2.graph.types.toList.all (·.redirect.isNone) = true ∧
      (Evaluation.run keptRun.2.graph .collectAll 9 ⟨1⟩ (.object [])).map (·.isValid) = some false ∧
      ((performAll oneName keeperCalls).definition? ⟨"d", "/definitions/n"⟩).isNone = true := by
    decide +kernel
  obtain ⟨hroot, hmember, hnone, hnone', hjudged, hfresh⟩ := hfacts
  obtain ⟨result, hresult, hinvalid⟩ := Option.map_eq_some_iff.1 hjudged
  have htarget : targetIn? ((performAll oneName (lenderCalls "d#/definitions/gone")).register ⟨"t", "", "T"⟩
      reborn).documents "t" "d#/definitions/n" = some (lent "d#/definitions/gone") := rfl
  refine ⟨hrun, ?_, ?_, ?_⟩
  · refine (process_broken_behind rfl htarget).1 _ _ (fun r hr => ?_) (eq_error_of_unresolved? hrun)
    obtain rfl : r = "d#/definitions/gone" := List.mem_singleton.1 hr
    rfl
  · rw [Evaluation.evaluate_eq_some_iff.2 ⟨9, hresult⟩, Option.map_some, hinvalid]
  · have hnames : HasIdentifier "n" ∧ HasIdentifier "x" ∧ HasIdentifier "N" ∧ HasIdentifier "T" := by decide +kernel
    obtain ⟨hlent, hname, hclasses, hclass⟩ := hnames
    have hkept : targetIn? ((performAll oneName keeperCalls).register ⟨"t", "", "T"⟩ reborn).documents "t"
        "d#/definitions/n" = some ⟨⟨"d", "/definitions/n"⟩, "", trusting, "n"⟩ := by
      rw [documents_keeperCalls]
      rfl
    have hobject : ObjectTarget ⟨⟨"d", "/definitions/n"⟩, "", trusting, "n"⟩ :=
      ⟨hlent, rfl, rfl, (by decide : Unvalued trusting)⟩
    have hprocessed : (performAll oneName keeperCalls).process oneName ⟨"t", "", "T"⟩ reborn = (.ok ⟨1⟩, keptRun.2) :=
      eq_ok_of_toOption hroot
    have hprocessed' : (performAll oneName keeperCalls).process oneName ⟨"t", "", "T"⟩
        (wrapper "x" (referral "d#/definitions/n")) = (.ok ⟨1⟩, keptMemberRun.2) := eq_ok_of_toOption hmember
    have halike := ((process_broken_behind rfl hkept).2 "x" carries_oneName (fun _ _ _ => hclasses) hclass hname
      (by decide) hobject refersAlike_keeper (Option.isNone_iff_eq_none.1 hfresh)).2
    exact halike _ _ _ _ hprocessed hprocessed' (noneRedirected_of_all hnone) (noneRedirected_of_all hnone') .collectAll

set_option maxRecDepth 100000 in
/-- **A root does not switch to the document its node is in.**  The object's string is found from its own document
and not from the one that refers to the object. -/
theorem not_forall_process_broken_behind : ¬ ∀ (config : Config) (calls : List Call) (source : Source) (value : Json)
    (own reference : String) (target : Target) (s' : Session),
    value.stringAt? "$ref" = some own →
    targetIn? ((performAll config calls).register source value).documents source.key own = some target →
    Keyword.isObject target.node = true →
    (performAll config calls).process config source value =
      (.error (.refused (.unresolvedReference reference)), s') →
    Broken ((performAll config calls).register source value).documents target.key.document
      (references target.node) reference := by
  intro h
  have hrun : unresolved? (rebornRun "#/definitions/s") = some "#/definitions/s" := by decide +kernel
  have hbroken := h oneName (lenderCalls "#/definitions/s") ⟨"t", "", "T"⟩ reborn "d#/definitions/n" "#/definitions/s"
    (lent "#/definitions/s") (rebornRun "#/definitions/s").2 rfl rfl rfl (eq_error_of_unresolved? hrun)
  have hfound : targetIn?
      ((performAll oneName (lenderCalls "#/definitions/s")).register ⟨"t", "", "T"⟩ reborn).documents
        (lent "#/definitions/s").key.document "#/definitions/s" =
      some ⟨⟨"d", "/definitions/s"⟩, "", .object [("type", .string "string")], "s"⟩ := rfl
  -- In the document that holds it, the reference leads to a string, and that spells no reference.
  cases hbroken with
  | here _ hnone =>
    rw [hfound] at hnone
    cases hnone
  | behind hmem htarget hbehind =>
    rw [List.mem_singleton.1 hmem, hfound] at htarget
    cases htarget
    cases hbehind with
    | here hnever => exact absurd hnever List.not_mem_nil
    | behind hnever => exact absurd hnever List.not_mem_nil

end Session
end SchemaTypes

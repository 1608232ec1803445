import SchemaTypes.Proofs.Building.Passages
import SchemaTypes.Proofs.Building.Restoring
import SchemaTypes.Proofs.Building.Transparency
import SchemaTypes.Proofs.Building.Waiting
/-!
# Placeholders end up as copies

A reference to a definition that is being built gets a placeholder, and one that comes later gets a copy.  Once the
definition is complete there is no telling which came first (`Session.placeholder_matches_copy`): the placeholder
matches the copy its site would get now, amended as the placeholder has been.

Definitions that are built as objects are left out: their placeholders are instances of the type from the start, and what
the keywords beside it ask of the value as a whole comes later.  What is left is completed in two ways
(`Building.Completion`), and where a call builds a definition in one of these ways it proceeds from the session in which
the definition is begun to the one in which it is completed (`Building.bringsAbout_define`,
`Building.bringsAbout_document`).
-/
namespace SchemaTypes
namespace Building

open Property

variable {config : Config} {build : Builder} {site : Site} {node : Json} {reference : String} {target : Target}
  {s m n t s' start : Session} {id definition : PropertyId} {key : DefinitionKey} {type : TypeId}
  {known : Option TypeId} {source : Source} {value : Json} {bound : Nat}

/-! ## Completion -/

/-- How a definition is completed that is not built as an object: by what has been made of its node, or, if it is the
root of the document that is processed, by an instance of the finished type. -/
inductive Completion (config : Config) (key : DefinitionKey) : Option TypeId → Session → Session → Prop
  | value {s s' : Session} (definition : PropertyId) : (complete key definition).Runs config s () s' →
    Completion config key none s s'
  | root {s m s' : Session} {type target : TypeId} (className : String) : (finish type).Runs config s target m →
    (do
      let definition ← Build.addProperty (← instanceProperty className target true)
      complete key definition : Build Unit).Runs config m () s' →
    Completion config key (some type) s s'

/-- What a call does between two of its sessions, as long as it succeeds. -/
structure Proceeds (config : Config) (s s' : Session) : Prop where
  deeds : Session.Deeds config False s s'
  writes : Session.Writes config.settings.implicitNull s s'

/-- From where the definition is begun, the call proceeds to where it is completed. -/
structure BringsAbout (config : Config) (key : DefinitionKey) (known : Option TypeId) (s n t : Session) : Prop where
  proceeds : Proceeds config s n
  inProgress : n.InProgress key known
  completion : Completion config key known n t

/-- The property has been made in a step from one session to another one, where a reference met the definition. -/
structure MadeFor (config : Config) (build : Builder) (key : DefinitionKey) (site : Site) (reference : String)
    (m m' : Session) (id : PropertyId) : Prop where
  target : ∃ target, targetIn? m.documents site.scope.document reference = some target ∧ target.key = key
  inProgress : m.InProgress key none
  made : (refer build site reference).Runs config m id m'

/-- Between the two sessions the property has been that placeholder, amended, and at the end it matches the copy that
the same reference would make, amended in the same way. -/
def EndsAsCopy (config : Config) (build : Builder) (n t : Session) (site : Site) (reference : String)
    (placeholder : Property) (id : PropertyId) : Prop :=
  ∃ amendments copy t', n.graph.property id = placeholder.amended amendments ∧
    (refer build site reference).Runs config t copy t' ∧
    (t.graph.property id).Matches ((t'.graph.property copy).amended amendments)

/-! ## Runs that complete a definition -/

/-- What holds of a session of a call that all goes well in, as far as building on from it depends on it. -/
structure Prepared (config : Config) (s : Session) : Prop where
  orderly : s.Orderly config
  distinct : Distinct s.documents
  collapsed : s.Collapsed

theorem prepared_performAll (config : Config) (calls : List Call) : Prepared config (Session.performAll config calls) :=
  ⟨Session.orderly_performAll config calls, Session.distinct_performAll config calls,
    Session.collapsed_performAll config calls⟩

theorem Prepared.register (h : Prepared config s) (source : Source) (value : Json) :
    Prepared config (s.register source value) :=
  ⟨h.orderly.register source value, h.distinct.insert _,
    h.collapsed.congr rfl rfl rfl fun _ => ⟨rfl, rfl, rfl, rfl⟩⟩

theorem Prepared.proceeds (h : Prepared config s) (hs : Proceeds config s s') : Prepared config s' :=
  ⟨⟨hs.writes.closed h.orderly.closed, hs.writes.inStep h.orderly.inStep⟩,
    hs.deeds.documents.symm ▸ h.distinct, hs.deeds.precedes.collapsed h.collapsed⟩

/-- A definition may be begun that has no type yet. -/
theorem Prepared.begin (h : Prepared config s) (key : DefinitionKey) :
    Prepared config (s.setDefinition key (.inProgress none [])) := by
  have hwrites : Session.Writes config.settings.implicitNull s (s.setDefinition key (.inProgress none [])) :=
    .single (.define key ⟨nofun, nofun⟩)
  exact ⟨⟨hwrites.closed h.orderly.closed, hwrites.inStep h.orderly.inStep⟩, h.distinct,
    h.collapsed.congr rfl rfl rfl fun _ => ⟨rfl, rfl, rfl, rfl⟩⟩

/-- The writes that lead to where the deeds of a call start. -/
theorem Starts.writes (h : Starts s source value start) (allowed : Bool) : Session.Writes allowed s start := by
  cases h with
  | bare namespaceName className => exact .single (.reserve namespaceName className true)
  | root namespaceName className =>
    refine (Relation.ReflTransGen.single (.reserve namespaceName className true)).tail (.define _ ⟨fun id heq => ?_, ?_⟩)
    · obtain rfl := Option.some.inj heq
      exact Nat.lt_of_lt_of_eq (Nat.lt_succ_self _) (Array.size_push _).symm
    · exact fun _ hid => absurd hid List.not_mem_nil

theorem Starts.prepared (h : Starts s source value start) (hs : Prepared config s) : Prepared config start := by
  have hwrites := h.writes config.settings.implicitNull
  exact ⟨⟨hwrites.closed hs.orderly.closed, hwrites.inStep hs.orderly.inStep⟩, h.documents.symm ▸ hs.distinct,
    h.collapsed hs.collapsed⟩

/-- The trail and the scene of what is built without anything being known of what is in progress. -/
theorem Prepared.ready (h : Prepared config s) (document : String) (spelled : List String) :
    (Trail.mk config False document spelled []).Ready s :=
  ⟨h.distinct, h.collapsed, False.elim, False.elim, False.elim, False.elim, fun _ hmem => absurd hmem List.not_mem_nil⟩

theorem Prepared.stands (h : Prepared config s) (document : String) (spelled : List String) :
    (Scene.mk config s.documents document spelled).Stands s := ⟨rfl, h.orderly.closed, h.orderly.inStep⟩

/-- Where a node becomes a property, the call proceeds, and the same is in progress again. -/
theorem Prepared.property (h : Prepared config s) (hrun : (property bound site node).Runs config s id s') :
    Proceeds config s s' ∧ ∀ key type, s'.InProgress key type ↔ s.InProgress key type := by
  have hready := h.ready site.scope.document (references node)
  have hafter := ((Trail.accepts_property bound _).makes site node rfl (List.Subset.refl _) hready hrun).1
  have hyields := Scene.accepts_property bound ⟨config, s.documents, site.scope.document, references node⟩ s site node
    rfl (List.Subset.refl _)
  have hstands := h.stands site.scope.document (references node)
  exact ⟨⟨hafter.deeds, ((hyields hstands).1 id s' hrun).1⟩, hafter.inProgress⟩

/-- Where a type is filled in, too. -/
theorem Prepared.fill (h : Prepared config s) {scope : Scope} (hu : s.Unfinished type) {u : Unit}
    (hrun : (fill (Building.property bound) scope type node).Runs config s u s') :
    Proceeds config s s' ∧ ∀ key type, s'.InProgress key type ↔ s.InProgress key type := by
  have hready := h.ready scope.document (references node)
  have hafter := Trail.after_fill (Trail.accepts_property bound _) rfl (List.Subset.refl _) hready hu hrun
  have hyields : (Scene.mk config s.documents scope.document (references node)).Yields s
      (Building.fill (Building.property bound) scope type node) fun _ _ => True :=
    Scene.yields_fill (Scene.accepts_property bound _) rfl (List.Subset.refl _)
  have hstands := h.stands scope.document (references node)
  exact ⟨⟨hafter.deeds, ((hyields hstands).1 u s' hrun).1⟩, hafter.inProgress⟩

/-- **A definition that is not built as an object is brought about by building its node**: by the property that is made of
it as required. -/
theorem bringsAbout_define (hs : Prepared config s) (hplain : Keyword.isObject target.node = false)
    (h : (define (Building.property bound) target).Runs config s definition t) : ∃ n,
    (Building.property bound ⟨⟨target.key.document, target.namespaceName, ""⟩, target.name, true, false⟩ target.node).Runs
        config (s.setDefinition target.key (.inProgress none [])) definition n ∧
      BringsAbout config target.key none (s.setDefinition target.key (.inProgress none [])) n t := by
  unfold define at h
  simp only [hplain] at h
  rw [if_neg Bool.false_ne_true, Build.runs_pure_bind, Build.runs_modify_bind] at h
  obtain ⟨made, n, hmade, hrest⟩ := Build.runs_bind.1 h
  obtain ⟨_, m, hcomplete, hreturn⟩ := Build.runs_bind.1 hrest
  obtain ⟨rfl, rfl⟩ := Build.runs_pure.1 hreturn
  obtain ⟨hproceeds, hinProgress⟩ := (hs.begin target.key).property hmade
  refine ⟨n, hmade, hproceeds, (hinProgress target.key none).2 ⟨[], ?_⟩, .value definition hcomplete⟩
  exact (Session.definition?_setDefinition _ _ _ _).trans (if_pos rfl)

/-- **A document that is a definition brings it about as it fills in its type.** -/
theorem bringsAbout_document (hs : Prepared config s)
    (hkey : rootKey? (s.register source value).documents source value = some key)
    (h : (document source value).Runs config s type t) : ∃ start n known,
    Starts (s.register source value) source value start ∧ (start.graph.entry known).isRoot = true ∧
      start.InProgress key (some known) ∧ BringsAbout config key (some known) start n t := by
  unfold document at h
  rw [Build.runs_modify_bind, Build.runs_get_bind] at h
  simp only at h
  obtain ⟨⟨root, found⟩, m, hroot, hrun⟩ := Build.runs_bind.1 h
  obtain rfl := runs_rootOf hroot
  simp only at hrun
  obtain ⟨known, m, hreserve, hrun'⟩ := Build.runs_bind.1 hrun
  obtain ⟨rfl, rfl⟩ := Build.runs_reserve.1 hreserve
  rw [Build.runs_graph_bind] at hrun'
  have htop : nodeAt? (s.register source value).documents ⟨source.key, ""⟩ = some value :=
    (congrArg (Option.bind · _) (Reference.Documents.get?_insert_self s.documents _)).trans rfl
  obtain ⟨hrootKey, hnodes⟩ := runs_rootOf_key rfl (hs.distinct.insert _) htop hroot
  obtain rfl : found = some key := hrootKey.symm.trans hkey
  obtain ⟨_, hnode, _⟩ := hnodes key rfl
  simp only at hrun'
  rw [Build.runs_modify_bind] at hrun'
  obtain ⟨_, n, hfill, hrest⟩ := Build.runs_bind.1 hrun'
  obtain ⟨target, n', hfinish, hrest'⟩ := Build.runs_bind.1 hrest
  have hstart : Starts (s.register source value) source value _ :=
    .root source.namespaceName source.className hkey hnode
  obtain ⟨hproceeds, hinProgress⟩ :=
    (hstart.prepared (hs.register source value)).fill (unfinished_start hstart) hfill
  have hbegun := Session.definition?_setDefinition ((s.register source value).withGraph (s.graph.reserve
    source.namespaceName source.className true).2) key key (.inProgress (some ⟨s.graph.types.size⟩) [])
  rw [if_pos rfl] at hbegun
  obtain ⟨property, m₁, hinstance, hrest⟩ := Build.runs_bind.1 hrest'
  obtain ⟨definition, m₂, hadd, hrest'⟩ := Build.runs_bind.1 hrest
  obtain ⟨_, m₃, hcomplete, hreturn⟩ := Build.runs_bind.1 hrest'
  obtain ⟨_, rfl⟩ := Build.runs_pure.1 hreturn
  have hcompletion : Completion config key (some ⟨s.graph.types.size⟩) n t := .root _ hfinish
    (Build.runs_bind.2 ⟨property, m₁, hinstance, Build.runs_bind.2 ⟨definition, m₂, hadd, hcomplete⟩⟩)
  refine ⟨_, n, ⟨s.graph.types.size⟩, hstart, ?_, ⟨[], hbegun⟩, hproceeds, (hinProgress key _).2 ⟨[], hbegun⟩,
    hcompletion⟩
  exact congrArg ObjectType.isRoot ((Session.entry_reserve_eq _ _ _ _ _).trans (if_pos rfl))

end Building

namespace Session

open Building Property

variable {config : Config} {calls : List Call} {build : Builder} {site : Site} {reference : String} {target : Target}
  {known : Option TypeId} {waiting : List PropertyId} {s m m' n t : Session} {id : PropertyId}

/-- What comes up at a reference between two points of a call. -/
theorem writes_placeholder (hclosed : m.Closed) (hstep : ∀ id, (m.graph.property id).InStep config.settings.implicitNull)
    (hpending : m.definition? target.key = some (.inProgress known waiting))
    (h : (placeholder target.key site reference known waiting).Runs config m id m') :
    Writes config.settings.implicitNull m m' := by
  let scene : Scene := { config, documents := m.documents, document := "", spelled := [] }
  have hstands : scene.Stands m := ⟨rfl, hclosed, hstep⟩
  have hyields : scene.Yields m (placeholder target.key site reference known waiting) fun _ _ => True :=
    (Scene.yields_placeholder (hclosed.definitions _ _ hpending)).imp fun _ _ _ => trivial
  exact ((hyields hstands).1 id m' h).1

/-- The definition is built, and the property matches the copy of it for the site, amended as the placeholder has been. -/
def FillsAsCopy (config : Config) (n t : Session) (key : DefinitionKey) (site : Site) (identifier : String)
    (placeholder : Property) (id : PropertyId) : Prop :=
  t.documents = n.documents ∧ ∃ amendments definition, n.graph.property id = placeholder.amended amendments ∧
    t.definition? key = some (.built definition) ∧
    (t.graph.property id).Matches ((copied (t.graph.property definition) site.name identifier site.required
      config.settings.implicitNull).amended amendments)

variable {key : DefinitionKey} {identifier : String} {placeholder : Property} {type : TypeId}

/-- Nothing but what is required has been relaxed. -/
theorem required_of_relax (hbears : Property.Bears site.name identifier site.required placeholder)
    (howed : (n.graph.property id).owes = placeholder.owes) {amendments : List Amendment}
    (hamended : n.graph.property id = placeholder.amended amendments) (hmem : .relax ∈ amendments) :
    site.required = true := by
  unfold Property.owes at howed
  rw [hamended, relaxed_amended placeholder hmem, hbears.relaxed, Bool.or_true, Bool.or_false] at howed
  exact hbears.required.symm.trans howed.symm

/-- The copy is the one that the same reference would make. -/
theorem FillsAsCopy.endsAsCopy (h : n.FillsAsCopy config t target.key site identifier placeholder id)
    (hidentifier : Naming.identifier? site.name = some identifier)
    (htarget : targetIn? n.documents site.scope.document reference = some target) :
    EndsAsCopy config build n t site reference placeholder id := by
  obtain ⟨hdocuments, amendments, definition, hamended, hbuilt, hmatches⟩ := h
  refine ⟨amendments, _, _, hamended, runs_refer_built (hdocuments ▸ htarget) hbuilt hidentifier, ?_⟩
  change (t.graph.property id).Matches (((t.graph.addProperty _).2.property (t.graph.addProperty _).1).amended _)
  rwa [Graph.property_addProperty]

/-- **What has waited is filled in as a copy.** -/
theorem fillsAsCopy_waiting (hn : n.Orderly config) (hout : n.Outstanding key placeholder id)
    (hpending : n.InProgress key none) (hwaits : n.Waits key id)
    (hbears : Property.Bears site.name identifier site.required placeholder)
    (hdescription : placeholder.description = none)
    (howed : (n.graph.property id).owes = placeholder.owes) {definition : PropertyId}
    (h : (complete key definition).Runs config n () t) : n.FillsAsCopy config t key site identifier placeholder id := by
  obtain ⟨amendments, hamended⟩ := hout.amended_of_inProgress hpending
  obtain ⟨waiting, hpending⟩ := hpending
  have hmem : id ∈ waiting := by
    obtain ⟨_, _, hpending', hmem⟩ := hwaits
    cases hpending.symm.trans hpending'
    exact hmem
  obtain rfl := (runs_complete hpending).1 h
  have hstep := hn.inStep definition
  obtain ⟨hsource, hfilled⟩ := matches_foldl_bindOne waiting (n.setDefinition key (.built definition)) hstep
  refine ⟨documents_foldl_bindOne _ _ _, amendments, definition, hamended,
    (definition?_completed _ _ _ _ _).trans (if_pos rfl), ?_⟩
  have hmatches := hfilled id hmem hout.there
  change Matches _ (bound (n.graph.property id) (n.graph.property definition) _) at hmatches
  rw [hamended] at hmatches
  exact hmatches.trans (bound_matches hbears hdescription (required_of_relax hbears howed hamended) hstep hsource)

/-- The definition that a root gets is an instance of it, and what does not wait for it stays as it is. -/
theorem runs_complete_instance {u : Session} {className : String}
    (hpending : u.definition? key = some (.inProgress (some type) waiting))
    (h : (do
      let definition ← Build.addProperty (← instanceProperty className type true)
      complete key definition : Build Unit).Runs config u () t) :
    t.documents = u.documents ∧
    (∀ id, u.graph.HasProperty id → id ∉ waiting → t.graph.property id = u.graph.property id) ∧
    ∃ definition property, t.definition? key = some (.built definition) ∧
      Instantiates config.settings.implicitNull type (u.graph.className type) property ∧
      SameSource config.settings.implicitNull (t.graph.property definition) property := by
  obtain ⟨property, m, hinstance, hrest⟩ := Build.runs_bind.1 h
  obtain ⟨rfl, hinstantiates, _⟩ := instantiates_instanceProperty hinstance
  obtain ⟨definition, m', hadd, hcomplete⟩ := Build.runs_bind.1 hrest
  obtain ⟨rfl, rfl⟩ := Build.runs_addProperty.1 hadd
  have hadds : (m.withGraph (m.graph.addProperty property).2).definition? key =
    some (.inProgress (some type) waiting) := hpending
  obtain rfl := (runs_complete hadds).1 hcomplete
  have hadded := Graph.property_addProperty m.graph property
  obtain ⟨hsource, _⟩ := matches_foldl_bindOne waiting
    ((m.withGraph (m.graph.addProperty property).2).setDefinition key (.built (m.graph.addProperty property).1))
    (hadded.symm ▸ hinstantiates.inStep)
  change SameSource _ _ ((m.graph.addProperty property).2.property (m.graph.addProperty property).1) at hsource
  rw [hadded] at hsource
  refine ⟨documents_foldl_bindOne _ _ _, fun id hid hmem => ?_, _, property,
    (definition?_completed _ _ _ _ _).trans (if_pos rfl), hinstantiates, hsource⟩
  rw [property_completed_of_not_mem hmem]
  exact (property_addProperty_eq _ _ _).trans (if_neg (Nat.ne_of_lt hid))

/-- **An instance of a root is what a copy of the root's definition is.** -/
theorem fillsAsCopy_root (hn : n.Orderly config) (hupright : n.Upright) (hout : n.Outstanding key placeholder id)
    (hpending : n.InProgress key (some type)) (hfree : ¬ n.Waits key id)
    (hbears : Property.Bears site.name identifier site.required placeholder)
    (hplaceholder : Instantiates config.settings.implicitNull type (n.graph.className type) placeholder)
    (hroot : (n.graph.entry type).isRoot = true)
    (howed : (n.graph.property id).owes = placeholder.owes) {target : TypeId} {u : Session} {className : String}
    (hfinish : (finish type).Runs config n target u)
    (h : (do
      let definition ← Build.addProperty (← instanceProperty className target true)
      complete key definition : Build Unit).Runs config u () t) :
    n.FillsAsCopy config t key site identifier placeholder id := by
  obtain ⟨amendments, hamended⟩ := hout.amended_of_inProgress hpending
  obtain ⟨waiting, hpending⟩ := hpending
  have htype : n.graph.HasType type := (hn.closed.definitions _ _ hpending).1 type rfl
  have hwrite : Writes config.settings.implicitNull n u := .single (.finish htype hfinish)
  obtain ⟨rfl, _, _⟩ := runs_finish_root hroot hfinish
  obtain ⟨_, _, hdocuments, hdefinitions, hgraph⟩ := runs_finish hfinish
  have hpending' : u.definition? key = some (.inProgress (some target) waiting) :=
    (congrArg (List.lookup key) hdefinitions).trans hpending
  obtain ⟨hsame, hkept, definition, instanced, hbuilt, hinstantiates, hsource⟩ := runs_complete_instance hpending' h
  have hmem : id ∉ waiting := fun hmem => hfree ⟨_, _, hpending, hmem⟩
  refine ⟨hsame.trans hdocuments, amendments, definition, hamended, hbuilt, ?_⟩
  rw [hkept id (hout.there.grows hwrite.grows) hmem, congrArg (Graph.property · id) hgraph]
  change (n.graph.property id).Matches _
  rw [hamended]
  rw [hupright.className_writes hwrite htype hroot] at hinstantiates
  refine matches_amended hbears ?_ (required_of_relax hbears howed hamended) hplaceholder.inStep ?_ hsource.inStep
  · exact hplaceholder.description.trans (hinstantiates.description.symm.trans hsource.description.symm)
  · exact (hplaceholder.sameContent hinstantiates).trans hsource.content.symm

/-- Nothing waits under a number that has not been handed out. -/
theorem Closed.not_waits_fresh (hclosed : m.Closed) (key : DefinitionKey) :
    ¬ m.Waits key ⟨m.graph.properties.size⟩ := by
  rintro ⟨_, _, hwaiting, hmem⟩
  exact Nat.lt_irrefl _ ((hclosed.definitions _ _ hwaiting).2 _ hmem)

/-- What has been put on the list of a definition without a type is filled in as a copy. -/
theorem fillsAsCopy_placeholder_waiting (hfresh : ∀ other, ¬ m.Waits other ⟨m.graph.properties.size⟩)
    (hpending : m.definition? key = some (.inProgress none waiting))
    (hplaced : (Building.placeholder key site reference none waiting).Runs config m id m')
    (hbetween : Deeds config False m' n) (hn : n.Orderly config) (hstill : n.InProgress key none)
    (hcomplete : (complete key definition).Runs config n () t) :
    ∃ identifier, Naming.identifier? site.name = some identifier ∧
      n.FillsAsCopy config t key site identifier (m'.graph.property id) id := by
  obtain ⟨identifier, property, hidentifier, hbears, hdescription, rfl, rfl⟩ := runs_placeholder_waiting hplaced
  have hwaits := waits_awaiting property hpending
  have hproperty : (m.awaiting key waiting property).graph.property ⟨m.graph.properties.size⟩ = property :=
    (property_awaiting _ _ _ _).trans (if_pos rfl)
  have hout : (m.awaiting key waiting property).Outstanding key property ⟨m.graph.properties.size⟩ := by
    refine ⟨hasProperty_addProperty m.graph property, fun other hother => ?_, Or.inr ⟨[], hproperty⟩⟩
    rcases (hwaits other _).1 hother with hother | ⟨heq, _⟩
    · exact absurd hother (hfresh other)
    · exact heq
  refine ⟨identifier, hidentifier, ?_⟩
  rw [hproperty]
  have howed := hbetween.owes hout.there
  rw [hproperty] at howed
  refine fillsAsCopy_waiting hn (hout.deeds hbetween) hstill ?_ hbears hdescription howed hcomplete
  refine (hbetween.waits_on ((hwaits _ _).2 (Or.inr ⟨rfl, rfl⟩))).resolve_right ?_
  rintro ⟨_, hbuilt⟩
  obtain ⟨_, hstill⟩ := hstill
  exact absurd (hstill.symm.trans hbuilt) nofun

/-- What has been made an instance of a root ends up as a copy. -/
theorem fillsAsCopy_placeholder_root (hclosed : m.Closed) (hupright : m.Upright)
    (hpending : m.definition? key = some (.inProgress (some type) waiting))
    (hroot : (m.graph.entry type).isRoot = true)
    (hplaced : (Building.placeholder key site reference (some type) waiting).Runs config m id m')
    (hcourse : Writes config.settings.implicitNull m n) (hbetween : Deeds config False m' n) (hn : n.Orderly config)
    (hstill : n.InProgress key (some type)) (hcompleted : Completion config key (some type) n t) :
    ∃ identifier, Naming.identifier? site.name = some identifier ∧
      n.FillsAsCopy config t key site identifier (m'.graph.property id) id := by
  unfold Building.placeholder at hplaced
  obtain ⟨property, m₁, hinstance, hadd⟩ := Build.runs_bind.1 hplaced
  obtain ⟨rfl, hinstantiates, identifier, hidentifier, hbears⟩ := instantiates_instanceProperty hinstance
  obtain ⟨rfl, rfl⟩ := Build.runs_addProperty.1 hadd
  have hproperty := Graph.property_addProperty m₁.graph property
  have hentry := hcourse.sameRoot ((hclosed.definitions _ _ hpending).1 type rfl)
  have hclass := hupright.className_writes hcourse ((hclosed.definitions _ _ hpending).1 type rfl) hroot
  have hout : (m₁.withGraph (m₁.graph.addProperty property).2).Outstanding key property
      (m₁.graph.addProperty property).1 :=
    ⟨hasProperty_addProperty m₁.graph property, fun other hother => absurd hother (hclosed.not_waits_fresh other),
      Or.inr ⟨[], hproperty⟩⟩
  refine ⟨identifier, hidentifier, ?_⟩
  rw [hproperty]
  have howed := hbetween.owes hout.there
  rw [hproperty] at howed
  cases hcompleted with
  | root _ hfinish hcomplete =>
    refine fillsAsCopy_root hn (hcourse.upright hupright) (hout.deeds hbetween) hstill ?_
      hbears (hclass ▸ hinstantiates) (hentry.isRoot.trans hroot) howed hfinish hcomplete
    exact fun hwaits => hclosed.not_waits_fresh _ (hbetween.waits_there hout.there hwaits)

/-! ## Placeholders and copies -/

/-- Wherever in a call a reference meets a definition in progress that is not built as an object, the property it makes
ends up as a copy when the definition is completed. -/
theorem endsAsCopy_of_refer (hm : Writes config.settings.implicitNull (performAll config calls) m)
    (htarget : targetIn? m.documents site.scope.document reference = some target)
    (hpending : m.definition? target.key = some (.inProgress known waiting))
    (hknown : ∀ type, known = some type → (m.graph.entry type).isRoot = true)
    (hmade : (refer build site reference).Runs config m id m') (hbetween : Proceeds config m' n)
    (hstill : n.InProgress target.key known) (hcompleted : Completion config target.key known n t) :
    EndsAsCopy config build n t site reference (m'.graph.property id) id := by
  have hbefore := orderly_performAll config calls
  have hclosed := hm.closed hbefore.closed
  have hplaced := (runs_refer_pending htarget hpending).1 hmade
  have hwrites := writes_placeholder hclosed (hm.inStep hbefore.inStep) hpending hplaced
  have hcourse : Writes config.settings.implicitNull m n := hwrites.trans hbetween.writes
  have hall : Writes config.settings.implicitNull (performAll config calls) n := hm.trans hcourse
  have hn : n.Orderly config := ⟨hall.closed hbefore.closed, hall.inStep hbefore.inStep⟩
  have hfills : ∃ identifier, Naming.identifier? site.name = some identifier ∧
      n.FillsAsCopy config t target.key site identifier (m'.graph.property id) id := by
    cases known with
    | none =>
      cases hcompleted with
      | value _ hcomplete =>
        exact fillsAsCopy_placeholder_waiting hclosed.not_waits_fresh hpending hplaced hbetween.deeds hn hstill hcomplete
    | some type =>
      exact fillsAsCopy_placeholder_root hclosed (hm.upright (upright_performAll config calls)) hpending
        (hknown type rfl) hplaced hcourse hbetween.deeds hn hstill hcompleted
  obtain ⟨identifier, hidentifier, hfills⟩ := hfills
  exact hfills.endsAsCopy hidentifier (hcourse.documents ▸ htarget)

/-- **Whatever waits for a definition when it is completed ends up as a copy**: it has been made for a reference that met
the definition since it was begun. -/
theorem endsAsCopy_of_waits (build : Builder) {key : DefinitionKey} (hs : Prepared config s)
    (hbrings : BringsAbout config key none (s.setDefinition key (.inProgress none [])) n t) (hwaits : n.Waits key id) :
    ∃ site reference m m', Deeds config False (s.setDefinition key (.inProgress none [])) m ∧
      MadeFor config build key site reference m m' id ∧ Deeds config False m' n ∧
      EndsAsCopy config build n t site reference (m'.graph.property id) id := by
  have hbegun := hs.begin key
  have hthere : ∀ other id, (s.setDefinition key (.inProgress none [])).Waits other id →
      (s.setDefinition key (.inProgress none [])).graph.HasProperty id := by
    rintro other id ⟨_, _, hpending, hmem⟩
    exact (hbegun.orderly.closed.definitions _ _ hpending).2 id hmem
  have hnot : ¬ (s.setDefinition key (.inProgress none [])).Waits key id := by
    rintro ⟨_, _, hpending, hmem⟩
    rw [definition?_setDefinition, if_pos rfl] at hpending
    cases hpending
    exact absurd hmem List.not_mem_nil
  obtain ⟨m, waiting, property, hbefore, hpending, ⟨site, reference, target, placed, htarget, rfl, hplaced⟩, rfl,
    hafter⟩ := (hbrings.proceeds.deeds.waits_made hwaits).resolve_left hnot
  obtain rfl : placed = ⟨m.graph.properties.size⟩ := by
    obtain ⟨_, _, _, _, _, hid, _⟩ := runs_placeholder_waiting hplaced
    exact hid
  have hfresh : ∀ other, ¬ m.Waits other ⟨m.graph.properties.size⟩ := fun other hother =>
    Nat.lt_irrefl _ (hbefore.waits_hasProperty hthere other _ hother)
  have hn := (hbegun.proceeds hbrings.proceeds).orderly
  obtain ⟨identifier, hidentifier, hfills⟩ : ∃ identifier, Naming.identifier? site.name = some identifier ∧
      n.FillsAsCopy config t target.key site identifier
        ((m.awaiting target.key waiting property).graph.property ⟨m.graph.properties.size⟩)
          ⟨m.graph.properties.size⟩ := by
    cases hbrings.completion with
    | value _ hcomplete =>
      exact fillsAsCopy_placeholder_waiting hfresh hpending hplaced hafter hn hbrings.inProgress hcomplete
  have hmade : (refer build site reference).Runs config m ⟨m.graph.properties.size⟩ _ :=
    (runs_refer_pending htarget hpending).2 hplaced
  refine ⟨site, reference, m, _, hbefore, ⟨⟨target, htarget, rfl⟩, ⟨waiting, hpending⟩, hmade⟩, hafter, ?_⟩
  refine hfills.endsAsCopy hidentifier ?_
  rw [hafter.documents]
  exact htarget

/-- **A placeholder ends up as a copy.**  Wherever in a call a reference meets a definition in progress that is not built
as an object, the property it makes is amended only, and when the definition is completed, it is the copy that the
same reference would make now, amended in the same way.  Earlier calls may have failed, and so may this one later.

Where the call builds the definition from its node, what waits in the end are such properties, each made for a reference
on the way; and where the definition is the root of the document itself, the call brings it about as it fills in the
type. -/
theorem placeholder_matches_copy (config : Config) (calls : List Call) :
    (∀ {build : Builder} {site : Site} {reference : String} {target : Target} {known : Option TypeId}
        {waiting : List PropertyId} {m m' n t : Session} {id : PropertyId},
      Writes config.settings.implicitNull (performAll config calls) m →
      targetIn? m.documents site.scope.document reference = some target →
      m.definition? target.key = some (.inProgress known waiting) →
      (∀ type, known = some type → (m.graph.entry type).isRoot = true) →
      (refer build site reference).Runs config m id m' → Proceeds config m' n →
      n.InProgress target.key known → Completion config target.key known n t →
      ∃ amendments copy t', n.graph.property id = (m'.graph.property id).amended amendments ∧
        (refer build site reference).Runs config t copy t' ∧
        (t.graph.property id).Matches ((t'.graph.property copy).amended amendments)) ∧
    (∀ {source : Source} {value : Json} {start s t : Session} {target : Target} {bound : Nat} {definition : PropertyId},
      Starts ((performAll config calls).register source value) source value start → Proceeds config start s →
      Keyword.isObject target.node = false →
      (define (Building.property bound) target).Runs config s definition t →
      ∃ n, (Building.property bound ⟨⟨target.key.document, target.namespaceName, ""⟩, target.name, true, false⟩
          target.node).Runs config (s.setDefinition target.key (.inProgress none [])) definition n ∧
        BringsAbout config target.key none (s.setDefinition target.key (.inProgress none [])) n t ∧
        ∀ id, n.Waits target.key id → ∃ site reference m m',
          Deeds config False (s.setDefinition target.key (.inProgress none [])) m ∧
          MadeFor config (Building.property bound) target.key site reference m m' id ∧ Deeds config False m' n ∧
          EndsAsCopy config (Building.property bound) n t site reference (m'.graph.property id) id) ∧
    ∀ {source : Source} {value : Json} {key : DefinitionKey} {root : TypeId} {t : Session},
      rootKey? ((performAll config calls).register source value).documents source value = some key →
      (document source value).Runs config (performAll config calls) root t →
      ∃ start n known, Starts ((performAll config calls).register source value) source value start ∧
        (start.graph.entry known).isRoot = true ∧ start.InProgress key (some known) ∧
        BringsAbout config key (some known) start n t := by
  refine ⟨fun hm htarget hpending hknown hmade hbetween hstill hcompleted => ?_,
    fun hstart hs hplain hrun => ?_, fun hkey hrun => ?_⟩
  · exact endsAsCopy_of_refer hm htarget hpending hknown hmade hbetween hstill hcompleted
  · have hprepared := (hstart.prepared ((prepared_performAll config calls).register _ _)).proceeds hs
    obtain ⟨n, hmade, hbrings⟩ := bringsAbout_define hprepared hplain hrun
    exact ⟨n, hmade, hbrings, fun id hwaits => endsAsCopy_of_waits _ hprepared hbrings hwaits⟩
  · exact bringsAbout_document (prepared_performAll config calls) hkey hrun

/-! ## Rows of rows -/

/-- Rows whose items are rows again, -/
def rowsNode : Json := .object [("type", .string "array"), ("items", referral "#/definitions/a")]

def rowsKey : DefinitionKey := ⟨"t", "/definitions/a"⟩

/-- and a document with a property that holds them. -/
def heldRows : Json := wrapperAmong [("a", rowsNode)] "x" (referral "#/definitions/a")

def heldRowsRun : Except Halt TypeId × Session := process {} oneName ⟨"t", "", "T"⟩ heldRows

/-- Where the root is begun, and the rows are met. -/
def rowsMet : Session := begun (register {} ⟨"t", "", "T"⟩ heldRows) ⟨"t", "", "T"⟩

def rowsMade : Except Halt PropertyId × Session :=
  (((Building.property 35 ⟨⟨"t", "", ""⟩, "a", true, false⟩ rowsNode).run oneName).run).run
    (rowsMet.setDefinition rowsKey (.inProgress none []))

set_option maxRecDepth 100000 in
/-- When the property of the document is built, the rows within the rows have been relaxed before they are filled in, and
match a relaxed copy in the end. -/
theorem placeholder_matches_copy_rows : ∃ definition member m s t site reference m₁ m₂,
    (define (Building.property 35) ⟨rowsKey, "", rowsNode, "a"⟩).Runs oneName rowsMet definition t ∧
    (copy definition ⟨rootScope ⟨"t", "", "T"⟩ "T", "x", true, false⟩).Runs oneName t member m ∧
    (enclose ⟨"t", "", "T"⟩ "T" ⟨0⟩ member).Runs oneName m ⟨0⟩ heldRowsRun.2 ∧
    BringsAbout oneName rowsKey none (rowsMet.setDefinition rowsKey (.inProgress none [])) s t ∧
    (s.graph.property ⟨0⟩).relaxed = true ∧ (s.graph.property ⟨0⟩).defers = true ∧
    MadeFor oneName (Building.property 35) rowsKey site reference m₁ m₂ ⟨0⟩ ∧
    EndsAsCopy oneName (Building.property 35) s t site reference (m₂.graph.property ⟨0⟩) ⟨0⟩ := by
  have hok : heldRowsRun.1.toOption = some ⟨0⟩ := by decide +kernel
  have hmade : rowsMade.1.toOption = some ⟨1⟩ := by decide +kernel
  have hbound : recursionBound (register {} ⟨"t", "", "T"⟩ heldRows).documents = 35 + 1 := by decide +kernel
  have hrun : (document ⟨"t", "", "T"⟩ heldRows).Runs oneName (performAll oneName []) ⟨0⟩ heldRowsRun.2 :=
    eq_ok_of_toOption hok
  have hclass : rootClass {} ⟨"t", "", "T"⟩ = "T" := by decide +kernel
  -- The call builds its only property from a reference to rows that nobody has begun.
  obtain ⟨member, m, hmember, henclose⟩ := (wraps_wrapperAmong _ _ _).runs_document.1 hrun
  change (Building.property (recursionBound (register {} ⟨"t", "", "T"⟩ heldRows).documents)
    (memberSite {} ⟨"t", "", "T"⟩ "x") (referral "#/definitions/a")).Runs oneName rowsMet member m at hmember
  change (enclose ⟨"t", "", "T"⟩ (rootClass {} ⟨"t", "", "T"⟩) ⟨0⟩ member).Runs oneName m ⟨0⟩ heldRowsRun.2 at henclose
  have hget : (referral "#/definitions/a").get? "$ref" = some (.string "#/definitions/a") := rfl
  unfold memberSite at hmember
  rw [hclass] at hmember henclose
  rw [hbound, property_eq_referred hget] at hmember
  obtain ⟨held, m', hrefer, hreturn⟩ := Build.runs_bind.1 hmember
  obtain ⟨rfl, rfl⟩ := Build.runs_pure.1 hreturn
  have htarget : targetIn? rowsMet.documents "t" "#/definitions/a" = some ⟨rowsKey, "", rowsNode, "a"⟩ := rfl
  have hnone : rowsMet.definition? rowsKey = none := by rfl
  obtain ⟨definition, t, hdefine, hcopy⟩ : ∃ definition t,
      (define (Building.property 35) ⟨rowsKey, "", rowsNode, "a"⟩).Runs oneName rowsMet definition t ∧
        (copy definition ⟨rootScope ⟨"t", "", "T"⟩ "T", "x", true, false⟩).Runs oneName t member m := by
    obtain ⟨target, hfound, ⟨_, hother, _⟩ | ⟨_, _, hother, _⟩ | ⟨_, definition, t, hdefine, hcopy⟩⟩ := runs_refer hrefer
    all_goals obtain rfl := Option.some.inj (htarget.symm.trans hfound)
    · exact absurd (hnone.symm.trans hother) nofun
    · exact absurd (hnone.symm.trans hother) nofun
    · exact ⟨definition, t, hdefine, hcopy⟩
  have hstart : Starts (register (performAll oneName []) ⟨"t", "", "T"⟩ heldRows) ⟨"t", "", "T"⟩ heldRows rowsMet :=
    .root "" "T" rfl (by rfl)
  obtain ⟨s, hnode, hbrings, hcopies⟩ :=
    (placeholder_matches_copy oneName []).2.1 hstart ⟨.refl, .refl⟩ (by rfl) hdefine
  obtain ⟨rfl, rfl⟩ := hnode.unique (eq_ok_of_toOption hmade)
  obtain ⟨site, reference, m₁, m₂, _, hmet, _, hends⟩ := hcopies ⟨0⟩ ⟨none, [⟨0⟩], by rfl, List.mem_cons_self⟩
  exact ⟨_, member, m, _, t, site, reference, m₁, m₂, hdefine, hcopy, henclose, hbrings, by decide +kernel,
    by decide +kernel, hmet, hends⟩

end Session
end SchemaTypes

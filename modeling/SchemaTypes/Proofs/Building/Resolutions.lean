import SchemaTypes.Proofs.Building.RootMembers
import SchemaTypes.Proofs.Building.TrailNodes
/-!
# Resolved references and written nodes

A reference resolves to a node by way of definitions: all of them but the last are aliases, nodes with a reference of
their own (`ResolvesTo`).  Following it begins them one inside the other and builds the node for the last, and each hands
a copy on to the one before it.  A copy of a required property asks for the same again (`Restates.copied`).

The node can also be built by itself, in another run.  Either both succeed or neither does, and what the reference gets
asks for what the node gets (`concur_refer`): the two runs go in tandem once the definitions have begun, until the last
of them is complete.
-/
namespace SchemaTypes
namespace Building

open Build Naming

/-- **What a reference resolves to**, and the definitions on the way there.  The last one holds the node, which spells no
references. -/
inductive ResolvesTo (documents : Reference.Documents) : String → String → List DefinitionKey → Json → Prop
  | last {document reference : String} {target : Target} :
    targetIn? documents document reference = some target → HasIdentifier target.name →
    target.node.get? "$ref" = none → references target.node = [] →
    ResolvesTo documents document reference [target.key] target.node
  | link {document reference next : String} {target : Target} {keys : List DefinitionKey} {node : Json} :
    targetIn? documents document reference = some target → HasIdentifier target.name →
    Keyword.isObject target.node = false → target.node.get? "$ref" = some (.string next) → target.key ∉ keys →
    ResolvesTo documents target.key.document next keys node →
    ResolvesTo documents document reference (target.key :: keys) node

namespace ResolvesTo

variable {documents : Reference.Documents} {document reference root : String} {keys : List DefinitionKey} {node : Json}

theorem references_eq (h : ResolvesTo documents document reference keys node) : references node = [] := by
  induction h with
  | last _ _ _ hnone => exact hnone
  | link _ _ _ _ _ _ ih => exact ih

theorem levels (h : ResolvesTo documents document reference keys node) : node.levels ≤ depthOf documents + 3 := by
  induction h with
  | last htarget => exact levels_target htarget
  | link _ _ _ _ _ _ ih => exact ih

/-- The definitions on the way are a chain of targets. -/
theorem chained (h : ResolvesTo documents document reference keys node)
    (hfirst : ∀ target, targetIn? documents document reference = some target → target.key ∈ targets documents root) :
    Chained documents root keys := by
  induction h with
  | last htarget =>
    exact ⟨List.nodup_singleton _, fun key hkey => List.mem_singleton.1 hkey ▸ hfirst _ htarget⟩
  | @link _ _ next target _ _ htarget _ _ hget hnew _ ih =>
    have hnext : ∀ other, targetIn? documents target.key.document next = some other →
        other.key ∈ targets documents root := covered_target htarget next (mem_references_of_get hget)
    exact ⟨List.nodup_cons.2 ⟨hnew, (ih hnext).1⟩, List.forall_mem_cons.2 ⟨hfirst _ htarget, (ih hnext).2⟩⟩

/-- None of the definitions is a document as a whole that is an object and spells references. -/
theorem ne_of_lookup (h : ResolvesTo documents document reference keys node) {value : Json} {key : String}
    (hstored : ∀ stored ∈ documents, stored.key = key → stored.value = value) (hobject : Keyword.isObject value = true)
    (hspells : references value ≠ []) : ⟨key, ""⟩ ∉ keys := by
  have hnode : ∀ {place text : String} {target : Target}, targetIn? documents place text = some target →
      target.key = ⟨key, ""⟩ → target.node = value := by
    intro place text target htarget hkey
    obtain ⟨stored, hmem, hdocument, hlookup⟩ := targetIn?_spec htarget
    rw [hkey] at hdocument hlookup
    rw [hstored stored hmem hdocument] at hlookup
    exact (Option.some.inj hlookup).symm
  induction h with
  | last htarget _ _ hnone =>
    intro hmem
    exact hspells (hnode htarget (List.mem_singleton.1 hmem).symm ▸ hnone)
  | link htarget _ halias _ _ _ ih =>
    intro hmem
    rcases List.mem_cons.1 hmem with heq | hmem
    · rw [hnode htarget heq.symm, hobject] at halias
      cases halias
    · exact ih hmem

end ResolvesTo

/-! ## Copies of required properties -/

variable {config : Config} {allowed : Bool} {a b : Property} {made later : Graph} {definition member : PropertyId}

/-- A required property that asks for what the first one asks for. -/
structure Restates (allowed : Bool) (a b : Property) : Prop where
  inStep : b.InStep allowed
  required : b.required = true
  relaxed : b.relaxed = false
  checks : b.validators.toList = a.validators.toList
  default : b.default = a.default

theorem Restates.copied (h : Restates allowed a b) (name identifier : String) :
    Restates allowed a (copied b name identifier true allowed) := by
  have hstamped : (Building.copied b name identifier true allowed).validators.toList =
      (b.stampRequired b.required allowed).validators.toList := by
    unfold Building.copied Property.stampRequired Property.needsPresence Property.settlesNull
    rw [h.required, h.relaxed]
  refine ⟨inStep_copied h.inStep name identifier true, rfl, rfl, ?_, h.default⟩
  rw [hstamped, h.inStep.toList_stampRequired, h.checks]

theorem Restates.describe (h : Restates allowed a b) (text : String) :
    Restates allowed a { b with description := some text } := ⟨h.inStep, h.required, h.relaxed, h.checks, h.default⟩

theorem Retains.trans {third : Graph} (h : Retains made later) (h' : Retains later third) : Retains made third := by
  refine ⟨fun id hid => ?_, h'.types.trans h.types⟩
  obtain ⟨hthere, hsame⟩ := h.property id hid
  obtain ⟨hstill, hsame'⟩ := h'.property id hthere
  exact ⟨hstill, hsame'.trans hsame⟩

theorem Retains.addProperty (h : Retains made later) (property : Property) :
    Retains made (later.addProperty property).2 := by
  refine ⟨fun id hid => ?_, h.types⟩
  obtain ⟨hthere, hsame⟩ := h.property id hid
  exact ⟨hthere.grows (Session.grows_addProperty _ _), (Graph.property_addProperty_of_lt _ _ hthere).trans hsame⟩

theorem Retains.modifyProperty (h : Retains made later) {changed : PropertyId} (hnew : ¬ made.HasProperty changed)
    (f : Property → Property) : Retains made (later.modifyProperty changed f) := by
  refine ⟨fun id hid => ?_, h.types⟩
  obtain ⟨hthere, hsame⟩ := h.property id hid
  have hne : id ≠ changed := fun heq => hnew (heq ▸ hid)
  exact ⟨hthere.grows (Session.grows_modifyProperty _ _ _),
    (Graph.property_modifyProperty_of_ne _ _ hne).trans hsame⟩

theorem Retains.not_hasProperty (h : Retains made later) (property : Property) :
    ¬ made.HasProperty (later.addProperty property).1 :=
  fun hthere => Nat.lt_irrefl _ (h.property _ hthere).1

/-- The definition has been built in the one session; in the other, later one the property asks for the same. -/
structure Passed (allowed : Bool) (made : Session) (definition : PropertyId) (later : Session) (copy : PropertyId) :
    Prop where
  hasProperty : later.graph.HasProperty copy
  restates : Restates allowed (made.graph.property definition) (later.graph.property copy)
  retains : Retains made.graph later.graph

/-! ## Two computations side by side -/

variable {α β γ : Type} {x : Build α} {y : Build β} {f : α → Build γ} {s s₁ s₂ m n : Session}
  {Q : α → Session → β → Session → Prop} {R : γ → Session → β → Session → Prop}

/-- Both computations succeed, and then as said, or neither does. -/
def Concur (config : Config) (x : Build α) (s₁ : Session) (y : Build β) (s₂ : Session)
    (Q : α → Session → β → Session → Prop) : Prop :=
  Option.Rel (fun r₁ r₂ => Q r₁.1 r₁.2 r₂.1 r₂.2) (x.outcome config s₁) (y.outcome config s₂)

theorem Concur.cases (h : Concur config x s₁ y s₂ Q) :
    (∃ a m b n, x.Runs config s₁ a m ∧ y.Runs config s₂ b n ∧ Q a m b n) ∨
      ((∀ a m, ¬ x.Runs config s₁ a m) ∧ ∀ b n, ¬ y.Runs config s₂ b n) :=
  outcomes_of_rel h

theorem concur_of_runs {a : α} {b : β} (hx : x.Runs config s₁ a m) (hy : y.Runs config s₂ b n) (hQ : Q a m b n) :
    Concur config x s₁ y s₂ Q := by
  unfold Concur
  rw [hx.outcome, hy.outcome]
  exact .some hQ

theorem concur_of_not (hx : ∀ a m, ¬ x.Runs config s₁ a m) (hy : ∀ b n, ¬ y.Runs config s₂ b n) :
    Concur config x s₁ y s₂ Q := by
  unfold Concur
  rw [outcome_eq_none_iff.2 hx, outcome_eq_none_iff.2 hy]
  exact .none

/-- Both computations go on, side by side again. -/
theorem Concur.bind {β' : Type} {g : β → Build β'} {P : γ → Session → β' → Session → Prop}
    (h : Concur config x s₁ y s₂ Q) (hf : ∀ a m b n, x.Runs config s₁ a m → y.Runs config s₂ b n → Q a m b n →
      Concur config (f a) m (g b) n P) : Concur config (x >>= f) s₁ (y >>= g) s₂ P := by
  rcases h.cases with ⟨a, m, b, n, hx, hy, hQ⟩ | ⟨hx, hy⟩
  · have hrest := hf a m b n hx hy hQ
    unfold Concur at hrest ⊢
    rw [outcome_bind, outcome_bind, hx.outcome, hy.outcome]
    exact hrest
  · refine concur_of_not (fun c m hrun => ?_) fun d n hrun => ?_
    · obtain ⟨a, m, hrun, _⟩ := runs_bind.1 hrun
      exact hx a m hrun
    · obtain ⟨b, n, hrun, _⟩ := runs_bind.1 hrun
      exact hy b n hrun

theorem Concur.imp {P : α → Session → β → Session → Prop} (h : Concur config x s₁ y s₂ Q)
    (hQP : ∀ a m b n, x.Runs config s₁ a m → y.Runs config s₂ b n → Q a m b n → P a m b n) :
    Concur config x s₁ y s₂ P := by
  rcases h.cases with ⟨a, m, b, n, hx, hy, hQ⟩ | ⟨hx, hy⟩
  · exact concur_of_runs hx hy (hQP a m b n hx hy hQ)
  · exact concur_of_not hx hy

/-- What succeeds anyhow may come first. -/
theorem Concur.after {a : α} (hx : x.Runs config s₁ a m) {z : Build β} {P : γ → Session → β → Session → Prop}
    (h : Concur config (f a) m z s₂ P) : Concur config (x >>= f) s₁ z s₂ P := by
  unfold Concur at h ⊢
  rw [outcome_bind, hx.outcome]
  exact h

/-- What succeeds after all of these runs may come last. -/
theorem Concur.before (h : Concur config x s₁ y s₂ Q) (hf : ∀ a m b n, x.Runs config s₁ a m → y.Runs config s₂ b n →
    Q a m b n → ∃ c m', (f a).Runs config m c m' ∧ R c m' b n) : Concur config (x >>= f) s₁ y s₂ R := by
  rcases h.cases with ⟨a, m, b, n, hx, hy, hQ⟩ | ⟨hx, hy⟩
  · obtain ⟨c, m', hc, hR⟩ := hf a m b n hx hy hQ
    exact concur_of_runs (runs_bind.2 ⟨a, m, hx, hc⟩) hy hR
  · refine concur_of_not (fun c m hrun => ?_) hy
    obtain ⟨a, m, hrun, _⟩ := runs_bind.1 hrun
    exact hx a m hrun

/-- The same on the other side. -/
theorem Concur.afterOther {β' : Type} {z : Build β'} {g : β' → Build β} {b : β'} (hz : z.Runs config s₂ b n)
    (h : Concur config x s₁ (g b) n Q) : Concur config x s₁ (z >>= g) s₂ Q := by
  unfold Concur at h ⊢
  rw [outcome_bind z, hz.outcome]
  exact h

/-! ## The definition that holds the node -/

variable {t : Tandem} {target : Target} {site : Site} {bound bound' : Nat} {key : DefinitionKey} {found : Option TypeId}

/-- The definitions that are not listed are as they were. -/
def Untouched (keys : List DefinitionKey) (s s' : Session) : Prop := ∀ key ∉ keys, s'.definition? key = s.definition? key

/-- The node has been built as a definition in the one run and by itself in the other.  The runs have stayed in step,
unless a type has been redirected. -/
structure Twinned (t : Tandem) (made : Session) (definition : PropertyId) (m : Session) (member : PropertyId) : Prop where
  closed : made.Closed
  hasProperty : made.graph.HasProperty definition
  coupled : t.Straight made.graph m.graph → t.Coupled made.graph m.graph ∧ t.Ids definition member

/-- What the one run has asks for what the other run has got for the node. -/
structure Answers (t : Tandem) (keys : List DefinitionKey) (s : Session) (copy : PropertyId) (later : Session)
    (member : PropertyId) (m : Session) (made : Session) (definition : PropertyId) : Prop where
  twinned : Twinned t made definition m member
  passed : Passed t.config.settings.implicitNull made definition later copy
  untouched : Untouched keys s later
  orderly : later.Orderly t.config

/-- It does so by way of some definition. -/
def Answered (t : Tandem) (keys : List DefinitionKey) (s : Session) (copy : PropertyId) (later : Session)
    (member : PropertyId) (m : Session) : Prop :=
  ∃ made definition, Answers t keys s copy later member m made definition

/-- The runs begin in these graphs, and the other one builds the node for this site. -/
structure Begins (t : Tandem) (g h : Graph) (site : Site) : Prop where
  properties : t.properties = (g.properties.size, h.properties.size)
  types : t.types = (g.types.size, h.types.size)
  /-- The runs refer to nothing from before. -/
  ground : t.ground = .empty
  required : site.required = true
  name : HasIdentifier site.name
  enclosing : t.config.naming.CarriesInto site.scope.className
  /-- Classes at the top of a document get identifiers as well: there definitions are built. -/
  top : t.config.naming.CarriesInto ""

/-- Where a definition is built: at the top of its document, and required. -/
def definitionSite (target : Target) : Site where
  scope := { document := target.key.document, namespaceName := target.namespaceName, className := "" }
  name := target.name
  required := true

theorem Begins.leads_nothing {g h : Graph} (hbegins : Begins t g h site) {reference : String}
    {definition : PropertyId} : ¬ t.ground.leads reference definition := by
  rw [hbegins.ground]
  exact id

theorem Begins.placed {g h : Graph} (hbegins : Begins t g h site) (scope scope' : Scope) : t.Placed scope scope' :=
  fun hleads => absurd hleads hbegins.leads_nothing

theorem Begins.serves {g h : Graph} (hbegins : Begins t g h site) (s₁ s₂ : Session) : t.Serves s₁ s₂ :=
  ⟨fun _ _ hleads => absurd hleads hbegins.leads_nothing, fun _ _ hleads => absurd hleads hbegins.leads_nothing⟩

theorem Begins.abreast {g h : Graph} (hbegins : Begins t g h site) (hname : HasIdentifier target.name) :
    t.Abreast (definitionSite target) site :=
  ⟨hbegins.required, Tandem.named_of hname hbegins.name, hbegins.placed _ _, hbegins.top, hbegins.enclosing⟩

theorem Begins.coupled {g h : Graph} (hbegins : Begins t g h site) : t.Coupled g h :=
  Tandem.coupled_start hbegins.properties hbegins.types (hbegins.ground ▸ Ground.empty_enduresIn g)
    (hbegins.ground ▸ Ground.empty_enduresIn h)

/-- Writes keep a session orderly. -/
theorem orderly_of_writes (h : m.Orderly config) (hwrites : Session.Writes config.settings.implicitNull m n) :
    n.Orderly config := ⟨hwrites.closed h.closed, hwrites.inStep h.inStep⟩

/-- What has been built for a definition completes it. -/
theorem concur_complete {x y : Build PropertyId} (hgo : t.GoesAt True s₁ s₂ x y fun C i j => C → t.Ids i j)
    (hpending : s₁.definition? key = some (.inProgress found [])) (huntouched : Untouched [key] s s₁)
    (hx : ∀ definition m, x.Runs t.config s₁ definition m → m.Orderly t.config ∧ m.graph.HasProperty definition ∧
      (m.graph.property definition).required = true ∧ (m.graph.property definition).relaxed = false) :
    Concur t.config (x >>= fun definition => complete key definition >>= fun _ => pure definition) s₁ y s₂
      (Answered t [key] s) := by
  have hconcur : Concur t.config x s₁ y s₂ fun i m j n => ∃ C, t.Between True s₁ s₂ C m n ∧ (C → t.Ids i j) := hgo
  refine hconcur.before fun definition m member n hrun _ ⟨C, hbetween, hids⟩ => ?_
  obtain ⟨horderly, hthere, hrequired, hrelaxed⟩ := hx definition m hrun
  have hsame : ∀ other, m.definition? other = s₁.definition? other :=
    fun other => congrArg (List.lookup other) hbetween.first.definitions
  have hcompleted : (complete key definition).Runs t.config m ⟨⟩ (m.setDefinition key (.built definition)) :=
    (runs_complete_alone ((hsame key).trans hpending)).2 rfl
  refine ⟨definition, _, runs_bind.2 ⟨⟨⟩, _, hcompleted, runs_pure.2 ⟨rfl, rfl⟩⟩, m, definition, ?_, ?_,
    fun other hother => ?_, ?_⟩
  · refine ⟨horderly.closed, hthere, fun hstraight => ?_⟩
    have hC := hbetween.kept trivial hstraight
    exact ⟨hbetween.coupled hC, hids hC⟩
  · exact ⟨hthere, ⟨horderly.inStep definition, hrequired, hrelaxed, rfl, rfl⟩, .refl _⟩
  · rw [Session.definition?_setDefinition, if_neg fun heq => hother (List.mem_singleton.2 heq), hsame,
      huntouched other hother]
  · exact orderly_of_writes horderly (.single (.define key hthere))

/-- A definition that is no object is begun, and its node is built. -/
theorem define_eq_plain (hplain : Keyword.isObject target.node = false) (build : Builder) :
    define build target = (do
      modify (·.setDefinition target.key (.inProgress none []))
      build (definitionSite target) target.node >>= fun definition =>
        complete target.key definition >>= fun _ => pure definition) := by
  unfold define
  simp only [hplain]
  rfl

/-- One that is an object gets its type first. -/
theorem define_eq_object (hobject : Keyword.isObject target.node = true) (build : Builder) :
    define build target = (do
      let type ← reserveFor (definitionSite target) target.node
      modify (·.setDefinition target.key (.inProgress (some type) []))
      objectInto build (definitionSite target) target.node type >>= fun definition =>
        complete target.key definition >>= fun _ => pure definition) := by
  unfold define
  simp only [hobject, if_true]
  rw [bind_map_left]
  rfl

theorem orderly_begin (h : m.Orderly config) (key : DefinitionKey) (found : Option TypeId)
    (hfound : ∀ type, found = some type → m.graph.HasType type) :
    (m.setDefinition key (.inProgress found [])).Orderly config :=
  orderly_of_writes h (.single (.define key ⟨hfound, fun _ hid => absurd hid List.not_mem_nil⟩))

theorem definition?_begin (m : Session) (key : DefinitionKey) (found : Option TypeId) :
    (m.setDefinition key (.inProgress found [])).definition? key = some (.inProgress found []) :=
  (Session.definition?_setDefinition _ _ _ _).trans (if_pos rfl)

theorem untouched_begin (m : Session) (key : DefinitionKey) (found : Option TypeId) :
    Untouched [key] m (m.setDefinition key (.inProgress found [])) := fun _ hother =>
  (Session.definition?_setDefinition _ _ _ _).trans (if_neg fun heq => hother (List.mem_singleton.2 heq))

/-- What building a node may be taken for: a scene of its own. -/
theorem stands_alone (h : m.Orderly config) (document : String) (spelled : List String) :
    (⟨config, m.documents, document, spelled⟩ : Scene).Stands m := ⟨rfl, h.closed, h.inStep⟩

theorem orderly_of_property {node : Json} (h : m.Orderly config)
    (hrun : (property bound site node).Runs config m member n) : n.Orderly config :=
  orderly_of_writes h ((Scene.accepts_property bound _ m site node rfl (List.Subset.refl _)
    (stands_alone h _ _)).1 member n hrun).1

/-- What has been built for a node nobody claims yet. -/
theorem unclaimed_of_property {node : Json} (h : m.Orderly config)
    (hrun : (property bound site node).Runs config m member n) : n.graph.Unclaimed member :=
  ((Scene.accepts_property bound _ m site node rfl (List.Subset.refl _) (stands_alone h _ _)).1 member n
    hrun).2.2.unclaimed

theorem orderly_of_objectInto {node : Json} {type : TypeId} (h : m.Orderly config) (hthere : m.graph.HasType type)
    (hrun : (objectInto (property bound) site node type).Runs config m member n) : n.Orderly config := by
  have hends := Scene.ends_objectInto (Scene.accepts_property bound ⟨config, m.documents, site.scope.document,
    references node⟩) rfl (List.Subset.refl _) hthere
  exact orderly_of_writes h ((hends (stands_alone h _ _)).1 member n hrun).1

/-- **The definition of a node** that is no object asks for what the node asks for by itself. -/
theorem concur_define_plain (horderly : s₁.Orderly t.config) (hbegins : Begins t s₁.graph s₂.graph site)
    (hname : HasIdentifier target.name) (hplain : Keyword.isObject target.node = false)
    (hnone : references target.node = []) (hlevels : target.node.levels ≤ bound)
    (hlevels' : target.node.levels ≤ bound') :
    Concur t.config (define (property bound) target) s₁ (property bound' site target.node) s₂
      (Answered t [target.key] s₁) := by
  rw [define_eq_plain hplain]
  have hgo : t.GoesAt True (s₁.setDefinition target.key (.inProgress none [])) s₂
      (property bound (definitionSite target) target.node) (property bound' site target.node)
      fun C i j => C → t.Ids i j :=
    Tandem.goes_property bound bound' True _ site target.node hlevels hlevels' (Ground.covers_of_nil hnone)
      (hbegins.abreast hname) _ s₂ (hbegins.serves _ _) fun _ => hbegins.coupled
  refine Concur.after (a := ⟨⟩) (runs_modify.2 rfl) (concur_complete hgo (definition?_begin _ _ _)
    (untouched_begin _ _ _) fun definition m hrun => ?_)
  have hbegun := orderly_begin horderly target.key none nofun
  obtain ⟨hthere, hpurpose⟩ := (makes_property bound _ trivial).1 definition m hrun
  exact ⟨orderly_of_property hbegun hrun, hthere, congrArg Property.Purpose.required hpurpose,
    congrArg Property.Purpose.relaxed hpurpose⟩

/-- The session with the type of a node reserved. -/
def reservedFor (config : Config) (s : Session) (site : Site) (node : Json) : Session :=
  s.withGraph (s.graph.reserve site.scope.namespaceName
    (config.naming site.name node site.merged site.scope.className) false).2

theorem runs_reserveFor_iff {type : TypeId} {node : Json} : (reserveFor site node).Runs config m type n ↔
    type = ⟨m.graph.types.size⟩ ∧ n = reservedFor config m site node := by
  unfold reserveFor
  rw [runs_read_bind]
  exact runs_reserve

theorem hasType_reservedFor (config : Config) (s : Session) (site : Site) (node : Json) :
    (reservedFor config s site node).graph.HasType ⟨s.graph.types.size⟩ :=
  Nat.lt_of_lt_of_eq (Nat.lt_succ_self _) (Array.size_push _).symm

/-- The type gets a name with an identifier wherever classes do. -/
theorem hasIdentifier_reservedFor (s : Session) (site : Site) (node : Json)
    (h : config.naming.CarriesInto site.scope.className) :
    HasIdentifier ((reservedFor config s site node).graph.entry ⟨s.graph.types.size⟩).name.className := by
  have hentry := Session.entry_reserve_eq s.graph site.scope.namespaceName
    (config.naming site.name node site.merged site.scope.className) false ⟨s.graph.types.size⟩
  rw [if_pos rfl] at hentry
  exact hentry.symm ▸ (h site.name node site.merged).freeName _ _

theorem Begins.coupled_reservedFor (h : Begins t s₁.graph s₂.graph site) (site' : Site) (node : Json) :
    t.Coupled (reservedFor t.config s₁ site' node).graph (reservedFor t.config s₂ site node).graph :=
  h.coupled.reserve _ _ _ _ _ _

theorem orderly_reservedFor (h : s.Orderly config) (site : Site) (node : Json) :
    (reservedFor config s site node).Orderly config := orderly_of_writes h (.single (.reserve _ _ _))

/-- **The definition of an object** asks for what the object asks for by itself. -/
theorem concur_define_object (horderly : s₁.Orderly t.config) (hbegins : Begins t s₁.graph s₂.graph site)
    (hname : HasIdentifier target.name) (hobject : Keyword.isObject target.node = true)
    (hreference : target.node.get? "$ref" = none) (hnone : references target.node = [])
    (hlevels : target.node.levels ≤ bound) (hlevels' : target.node.levels ≤ bound' + 1) :
    Concur t.config (define (property bound) target) s₁ (property (bound' + 1) site target.node) s₂
      (Answered t [target.key] s₁) := by
  have hother : property (bound' + 1) site target.node =
      reserveFor site target.node >>= objectInto (property bound') site target.node :=
    nodeProperty_eq_object hobject hreference
  rw [define_eq_object hobject, hother]
  refine Concur.after (runs_reserveFor_iff.2 ⟨rfl, rfl⟩) (Concur.afterOther (runs_reserveFor_iff.2 ⟨rfl, rfl⟩)
    (Concur.after (a := ⟨⟩) (runs_modify.2 rfl) ?_))
  have hshares := (Tandem.goes_property (t := t) bound bound').shares (Nat.le_succ_of_le hlevels) hlevels'
    (Ground.covers_of_nil hnone) (isObject_of_isObject hobject) (mild_of_isObject hobject)
  have hthere := hasType_reservedFor t.config s₁ (definitionSite target) target.node
  have hbegun : ((reservedFor t.config s₁ (definitionSite target) target.node).setDefinition target.key
      (.inProgress (some ⟨s₁.graph.types.size⟩) [])).Orderly t.config :=
    orderly_begin (orderly_reservedFor horderly _ _) _ _ fun type heq => Option.some.inj heq ▸ hthere
  have hgo : t.GoesAt True ((reservedFor t.config s₁ (definitionSite target) target.node).setDefinition target.key
      (.inProgress (some ⟨s₁.graph.types.size⟩) [])) (reservedFor t.config s₂ site target.node)
      (objectInto (property bound) (definitionSite target) target.node ⟨s₁.graph.types.size⟩)
      (objectInto (property bound') site target.node ⟨s₂.graph.types.size⟩) fun C i j => C → t.Ids i j :=
    Tandem.goesAt_objectInto hshares (hbegins.abreast hname) (hbegins.serves _ _)
      (fun _ => hbegins.coupled_reservedFor _ _) (fun _ => hbegins.coupled.types) hthere
      (hasIdentifier_reservedFor s₁ _ _ hbegins.top) (hasIdentifier_reservedFor s₂ _ _ hbegins.enclosing)
  refine concur_complete hgo (definition?_begin _ _ _) (untouched_begin _ _ _) fun definition m hrun => ?_
  obtain ⟨hmade, hpurpose⟩ := (makes_objectInto _ trivial).1 definition m hrun
  exact ⟨orderly_of_objectInto hbegun hthere hrun, hmade, congrArg Property.Purpose.required hpurpose,
    congrArg Property.Purpose.relaxed hpurpose⟩

/-- Either way. -/
theorem concur_define (horderly : s₁.Orderly t.config) (hbegins : Begins t s₁.graph s₂.graph site)
    (hname : HasIdentifier target.name) (hreference : target.node.get? "$ref" = none)
    (hnone : references target.node = []) (hlevels : target.node.levels ≤ bound)
    (hlevels' : target.node.levels ≤ bound' + 1) :
    Concur t.config (define (property bound) target) s₁ (property (bound' + 1) site target.node) s₂
      (Answered t [target.key] s₁) := by
  cases hobject : Keyword.isObject target.node with
  | true => exact concur_define_object horderly hbegins hname hobject hreference hnone hlevels hlevels'
  | false => exact concur_define_plain horderly hbegins hname hobject hnone hlevels hlevels'

/-! ## Along the aliases -/

variable {place : Site} {reference : String} {keys : List DefinitionKey} {node : Json}

/-- A copy of what asks for the same asks for the same. -/
theorem Passed.exists_copy {made later : Session} {definition copy : PropertyId}
    (h : Passed config.settings.implicitNull made definition later copy) (place : Site) (horderly : later.Orderly config)
    (hname : HasIdentifier place.name) (hrequired : place.required = true) :
    ∃ again m, (Building.copy copy place).Runs config later again m ∧
      Passed config.settings.implicitNull made definition m again ∧ m.Orderly config ∧
      m.definitions = later.definitions ∧ ¬ made.graph.HasProperty again := by
  obtain ⟨identifier, hidentifier⟩ := Option.isSome_iff_exists.1 hname
  have hrestates := h.restates.copied place.name identifier
  generalize hcopied : copied (later.graph.property copy) place.name identifier true
    config.settings.implicitNull = copied at hrestates
  have hknows : later.graph.Knows copied :=
    hcopied ▸ (horderly.closed.properties copy).copied place.name identifier true config.settings.implicitNull
  have hrun : (Building.copy copy place).Runs config later (later.graph.addProperty copied).1
      (later.withGraph (later.graph.addProperty copied).2) := by
    unfold Building.copy
    rw [runs_bind_of_iff fun _ _ => runs_getProperty, hidentifier]
    simp only
    rw [runs_read_bind, hrequired, hcopied]
    exact runs_addProperty.2 ⟨rfl, rfl⟩
  refine ⟨_, _, hrun, ⟨Session.hasProperty_addProperty _ _, ?_, h.retains.addProperty copied⟩,
    orderly_of_writes horderly (.single (.add hknows hrestates.inStep)), rfl, h.retains.not_hasProperty copied⟩
  exact (Graph.property_addProperty later.graph copied).symm ▸ hrestates

theorem Answers.exists_copy {start later made : Session} {definition copy : PropertyId}
    (h : Answers t keys start copy later member n made definition) (hname : HasIdentifier place.name)
    (hrequired : place.required = true) : ∃ again m, (Building.copy copy place).Runs t.config later again m ∧
      Answers t keys start again m member n made definition ∧ ¬ made.graph.HasProperty again := by
  obtain ⟨again, m, hrun, hpassed, horderly, hdefinitions, hnew⟩ := h.passed.exists_copy place h.orderly hname hrequired
  refine ⟨again, m, hrun, ⟨h.twinned, hpassed, fun key hkey => ?_, horderly⟩, hnew⟩
  exact (congrArg (List.lookup key) hdefinitions).trans (h.untouched key hkey)

/-- So does the copy with words of its own. -/
theorem Answers.captioned {start later made : Session} {definition copy : PropertyId}
    (h : Answers t keys start copy later member n made definition) (hnew : ¬ made.graph.HasProperty copy)
    (text : String) :
    Answers t keys start copy (later.withGraph (later.graph.modifyProperty copy fun property =>
      { property with description := some text })) member n made definition := by
  refine ⟨h.twinned, ⟨?_, ?_, h.passed.retains.modifyProperty hnew _⟩, h.untouched,
    orderly_of_writes h.orderly (.single (.caption copy text))⟩
  · exact h.passed.hasProperty.grows (Session.grows_modifyProperty _ _ _)
  · exact (Graph.property_modifyProperty later.graph _ h.passed.hasProperty).symm ▸ h.passed.restates.describe text

/-- So does what has been completed. -/
theorem Answers.completed {start later made : Session} {definition copy : PropertyId}
    (h : Answers t keys (start.setDefinition key (.inProgress found [])) copy later member n made definition)
    (hnew : key ∉ keys) : ∃ m, (complete key copy).Runs t.config later ⟨⟩ m ∧
      Answers t (key :: keys) start copy m member n made definition := by
  have hpending := (h.untouched key hnew).trans (definition?_begin start key found)
  refine ⟨_, (runs_complete_alone hpending).2 rfl, h.twinned, ⟨h.passed.hasProperty, h.passed.restates,
    h.passed.retains⟩, fun other hother => ?_, ?_⟩
  · obtain ⟨hne, hother⟩ := not_or.1 (mt List.mem_cons.2 hother)
    rw [Session.definition?_setDefinition, if_neg hne, h.untouched other hother, Session.definition?_setDefinition,
      if_neg hne]
  · exact orderly_of_writes h.orderly (.single (.define key h.passed.hasProperty))

/-- A reference to a definition nobody has begun. -/
theorem concur_refer_of_define {y : Build PropertyId} (htarget : targetIn? s₁.documents place.scope.document reference =
      some target) (hfresh : s₁.definition? target.key = none) (hname : HasIdentifier place.name)
    (hrequired : place.required = true) {build : Builder}
    (h : Concur t.config (define build target) s₁ y s₂ (Answered t keys s₁)) :
    Concur t.config (refer build place reference) s₁ y s₂ fun copy m member n =>
      ∃ made first, Answers t keys s₁ copy m member n made first ∧ ¬ made.graph.HasProperty copy := by
  unfold refer
  refine Concur.after (runs_locate.2 ⟨htarget, rfl⟩) (Concur.after (runs_get.2 ⟨rfl, rfl⟩) ?_)
  rw [hfresh]
  refine h.before fun definition m member n _ _ ⟨made, first, hanswers⟩ => ?_
  obtain ⟨copy, m', hcopy, hcopied⟩ := hanswers.exists_copy hname hrequired
  exact ⟨copy, m', hcopy, made, first, hcopied⟩

/-- A node with a reference gets what the reference gets, under the node's words. -/
theorem property_eq_referred {value : Json} (hget : node.get? "$ref" = some value) :
    property (bound + 1) place node = referred (property bound) place node value := by
  obtain ⟨members, rfl⟩ : ∃ members, node = .object members := by
    cases node with
    | object members => exact ⟨members, rfl⟩
    | _ => cases hget
  change nodeProperty (property bound) place _ = _
  unfold nodeProperty Keyword.normalize
  rw [pure_bind]
  generalize Json.object members = node at hget ⊢
  rw [hget]

theorem concur_referred {y : Build PropertyId} {build : Builder} {text : String}
    (h : Concur t.config (refer build { place with merged := false } text) s₁ y s₂ fun copy m member n =>
      ∃ made first, Answers t keys s₁ copy m member n made first ∧ ¬ made.graph.HasProperty copy) :
    Concur t.config (referred build place node (.string text)) s₁ y s₂ (Answered t keys s₁) := by
  refine Concur.before h fun copy m member n _ _ ⟨made, first, hanswers, hnew⟩ => ?_
  split
  · rename_i words _
    exact ⟨copy, _, runs_bind.2 ⟨⟨⟩, _, runs_modifyGraph.2 rfl, runs_pure.2 ⟨rfl, rfl⟩⟩, made, first,
      hanswers.captioned hnew words⟩
  · exact ⟨copy, m, runs_pure.2 ⟨rfl, rfl⟩, made, first, hanswers⟩

/-- **A reference gets what asks for what the node it resolves to asks for**, or neither can be built. -/
theorem concur_refer {documents : Reference.Documents} {document : String}
    (h : ResolvesTo documents document reference keys node) : ∀ (bound : Nat) (place : Site) (s₁ : Session),
    s₁.documents = documents → s₁.Orderly t.config → Begins t s₁.graph s₂.graph site →
    place.scope.document = document → place.required = true → HasIdentifier place.name →
    (∀ key ∈ keys, s₁.definition? key = none) → node.levels + keys.length ≤ bound + 1 → node.levels ≤ bound' + 1 →
    Concur t.config (refer (property bound) place reference) s₁ (property (bound' + 1) site node) s₂
      fun copy m member n => ∃ made first, Answers t keys s₁ copy m member n made first ∧
        ¬ made.graph.HasProperty copy := by
  induction h with
  | last htarget hname hreference hnone =>
    rintro bound place s₁ rfl horderly hbegins rfl hrequired hplace hfresh hlevels hlevels'
    exact concur_refer_of_define htarget (hfresh _ List.mem_cons_self) hplace hrequired
      (concur_define horderly hbegins hname hreference hnone (Nat.le_of_succ_le_succ hlevels) hlevels')
  | @link _ _ next target keys node htarget hname hplain hget hnew _ ih =>
    rintro bound place s₁ rfl horderly hbegins rfl hrequired hplace hfresh hlevels hlevels'
    have hroom : node.levels + keys.length ≤ bound := Nat.le_of_succ_le_succ hlevels
    have hnode := one_le_levels node
    obtain ⟨bound, rfl⟩ : ∃ less, bound = less + 1 := Nat.exists_eq_succ_of_ne_zero (by omega)
    refine concur_refer_of_define htarget (hfresh _ List.mem_cons_self) hplace hrequired ?_
    -- The alias is in progress while what it refers to is built, and all other definitions are as they were.
    have hbegun := orderly_begin horderly target.key none nofun
    have hstill : ∀ key ∈ keys, (s₁.setDefinition target.key (.inProgress none [])).definition? key = none := by
      intro key hkey
      rw [untouched_begin s₁ target.key none key fun heq => hnew (List.mem_singleton.1 heq ▸ hkey)]
      exact hfresh key (List.mem_cons_of_mem _ hkey)
    have hinner := ih bound { definitionSite target with merged := false }
      (s₁.setDefinition target.key (.inProgress none [])) rfl hbegun hbegins rfl rfl hname hstill hroom hlevels'
    have hreferred : Concur t.config (property (bound + 1) (definitionSite target) target.node)
        (s₁.setDefinition target.key (.inProgress none [])) (property (bound' + 1) site node) s₂
        (Answered t keys (s₁.setDefinition target.key (.inProgress none []))) := by
      rw [property_eq_referred hget]
      exact concur_referred hinner
    rw [define_eq_plain hplain]
    refine Concur.after (a := ⟨⟩) (runs_modify.2 rfl) (hreferred.before fun copy m member n _ _ ⟨made, first, h⟩ => ?_)
    obtain ⟨m', hcompleted, hanswers⟩ := h.completed hnew
    exact ⟨copy, m', runs_bind.2 ⟨⟨⟩, m', hcompleted, runs_pure.2 ⟨rfl, rfl⟩⟩, made, first, hanswers⟩

end Building
end SchemaTypes

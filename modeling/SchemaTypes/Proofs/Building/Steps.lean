import Mathlib.Logic.Relation
import SchemaTypes.Proofs.Building.Runs
import SchemaTypes.Proofs.Reference.Leads
import SchemaTypes.Proofs.Types.Demands
/-!
# What building does to a session

Whatever is built, the session changes by few kinds of steps (`Session.Step`): a notice, a name reserved, a
property added or copied, a type filled in or finished, a definition begun or completed, a placeholder that
starts to wait.  Each kind states under which condition it happens, so an invariant of all runs is one case
analysis over the steps.

The `floor` of a way of steps is the first type it may change: building never touches a type that was there
before, its own excepted.  A way is `tidy` if definitions are completed only by properties that may.
-/
namespace SchemaTypes
namespace Session

/-- The definition is being built; an object's type is known. -/
def InProgress (session : Session) (key : DefinitionKey) (type : Option TypeId) : Prop :=
  ∃ waiting, session.definition? key = some (.inProgress type waiting)

/-- The property waits for the definition. -/
def Waits (session : Session) (key : DefinitionKey) (id : PropertyId) : Prop :=
  ∃ type waiting, session.definition? key = some (.inProgress type waiting) ∧ id ∈ waiting

/-- The property is there and waits for nothing. -/
structure Settled (session : Session) (id : PropertyId) : Prop where
  lt : id.index < session.graph.properties.size
  defers : (session.graph.property id).defers = false

/-- The type is finished, and an instance of it is demanded, or of the type it is redirected to. -/
def Demanded (session : Session) (type : TypeId) (demands : List Validator) : Prop :=
  (session.graph.entry type).signature ≠ none ∧
    ∃ target, (target = type ∨ (session.graph.entry type).redirect = some target) ∧
      demands = Building.instanceDemands target

/-- The property is the instance of a finished type, or of the type that one is redirected to. -/
def Represents (session : Session) (id : PropertyId) (type : TypeId) : Prop :=
  session.Demanded type (session.graph.property id).demands

/-- The property may complete the definition: it waits for nothing, and holds the type known from the start. -/
structure Completes (session : Session) (key : DefinitionKey) (type : Option TypeId) (id : PropertyId) :
    Prop where
  settled : session.Settled id
  represents : ∀ known, type = some known → Building.BareAt session.documents key → session.Represents id known

def withGraph (session : Session) (graph : Graph) : Session := { session with graph }

/-- One placeholder filled in from a definition. -/
def bindOne (allowed : Bool) (definition : PropertyId) (session : Session) (placeholder : PropertyId) : Session :=
  session.withGraph (session.graph.modifyProperty placeholder
    (Building.bound · (session.graph.property definition) allowed))

/-- The definition marked finished and those that wait for it filled in. -/
def completed (allowed : Bool) (key : DefinitionKey) (definition : PropertyId) (waiting : List PropertyId)
    (session : Session) : Session :=
  waiting.foldl (bindOne allowed definition) (session.setDefinition key (.built definition))

/-- A new property that waits for a definition. -/
def awaiting (key : DefinitionKey) (waiting : List PropertyId) (property : Property) (session : Session) :
    Session :=
  (session.withGraph (session.graph.addProperty property).2).setDefinition key
    (.inProgress none (waiting ++ [(session.graph.addProperty property).1]))

/-- A change of a type that leaves alone what it is known by. -/
structure KeepsIdentity (f : ObjectType → ObjectType) : Prop where
  name : ∀ type, (f type).name = type.name
  signature : ∀ type, (f type).signature = type.signature
  redirect : ∀ type, (f type).redirect = type.redirect

/-- One change of a session while something is built.  `allowed` tells whether null settles optional values. -/
inductive Step (tidy : Prop) (allowed : Bool) (floor : Nat) : Session → Session → Prop
  | notify {s : Session} (notice : Notice) : Step tidy allowed floor s { s with notices := s.notices ++ [notice] }
  | reserve {s : Session} (namespaceName className : String) (isRoot : Bool) :
    Step tidy allowed floor s (s.withGraph (s.graph.reserve namespaceName className isRoot).2)
  | change {s : Session} {id : TypeId} {f : ObjectType → ObjectType} : floor ≤ id.index → KeepsIdentity f →
    Step tidy allowed floor s (s.withGraph (s.graph.modifyType id f))
  | finish {s s' : Session} {config : Config} {id target : TypeId} : floor ≤ id.index →
    id.index < s.graph.types.size → (s.graph.entry id).signature = none →
    Build.Runs (Building.finish id) config s target s' → Step tidy allowed floor s s'
  | add {s : Session} {property : Property} : property.defers = false →
    Step tidy allowed floor s (s.withGraph (s.graph.addProperty property).2)
  | copy {s : Session} {key : DefinitionKey} {definition : PropertyId} (name identifier : String)
      (required : Bool) : s.definition? key = some (.built definition) →
    Step tidy allowed floor s (s.withGraph (s.graph.addProperty
      (Building.copied (s.graph.property definition) name identifier required allowed)).2)
  | amend {s : Session} {id : PropertyId} {f : Property → Property} :
    (∀ property, (f property).defers = property.defers ∧ (f property).demands = property.demands) →
    Step tidy allowed floor s (s.withGraph (s.graph.modifyProperty id f))
  | begin {s : Session} {key : DefinitionKey} (type : Option TypeId) : s.definition? key = none →
    Step tidy allowed floor s (s.setDefinition key (.inProgress type []))
  | wait {s : Session} {key : DefinitionKey} {waiting : List PropertyId} {property : Property} :
    s.definition? key = some (.inProgress none waiting) → property.defers = true →
    Step tidy allowed floor s (s.awaiting key waiting property)
  | complete {s : Session} {key : DefinitionKey} {type : Option TypeId} {waiting : List PropertyId}
      {definition : PropertyId} : s.definition? key = some (.inProgress type waiting) →
    (tidy → s.Completes key type definition) →
    Step tidy allowed floor s (s.completed allowed key definition waiting)

/-- A way of steps. -/
abbrev Steps (tidy : Prop) (allowed : Bool) (floor : Nat) : Session → Session → Prop :=
  Relation.ReflTransGen (Step tidy allowed floor)

variable {tidy : Prop} {allowed : Bool} {floor : Nat} {s s' : Session}

theorem Step.lower {lower : Nat} (hle : lower ≤ floor) (h : Step tidy allowed floor s s') :
    Step tidy allowed lower s s' := by
  cases h with
  | notify notice => exact .notify notice
  | reserve namespaceName className isRoot => exact .reserve namespaceName className isRoot
  | change hid hf => exact .change (Nat.le_trans hle hid) hf
  | finish hid hlt hnone hrun => exact .finish (Nat.le_trans hle hid) hlt hnone hrun
  | add hclean => exact .add hclean
  | copy name identifier required hbuilt => exact .copy name identifier required hbuilt
  | amend hf => exact .amend hf
  | begin type hnone => exact .begin type hnone
  | wait hpending hdefers => exact .wait hpending hdefers
  | complete hpending hsettled => exact .complete hpending hsettled

theorem Steps.lower {lower : Nat} (hle : lower ≤ floor) (h : Steps tidy allowed floor s s') :
    Steps tidy allowed lower s s' :=
  Relation.ReflTransGen.mono (fun _ _ hstep => Step.lower hle hstep) _ _ h

/-- What every step keeps, a way of steps keeps. -/
theorem Steps.keeps {P : Session → Prop} (hstep : ∀ m m', Step tidy allowed floor m m' → P m → P m')
    (h : Steps tidy allowed floor s s') (hs : P s) : P s' := by
  induction h with
  | refl => exact hs
  | tail _ hlast ih => exact hstep _ _ hlast ih

/-! ## Definitions -/

theorem lookup_filter_append (key other : DefinitionKey) (definition : Definition) :
    ∀ definitions : List (DefinitionKey × Definition),
      (definitions.filter (·.1 ≠ key) ++ [(key, definition)]).lookup other =
        if other = key then some definition else definitions.lookup other
  | [] => by
    by_cases h : other = key
    · simp [h]
    · simp [h]
  | (k, d) :: rest => by
    have ih := lookup_filter_append key other definition rest
    rw [List.filter_cons]
    by_cases hk : k = key
    · simp only [ne_eq, hk, not_true_eq_false, decide_false, Bool.false_eq_true, if_false]
      rw [ih]
      by_cases ho : other = key
      · rw [if_pos ho, if_pos ho]
      · rw [if_neg ho, if_neg ho, List.lookup_cons, beq_false_of_ne ho]
    · simp only [ne_eq, hk, not_false_eq_true, decide_true, if_true, List.cons_append]
      rw [List.lookup_cons, List.lookup_cons]
      by_cases ho : other = k
      · have hne : other ≠ key := fun h => hk (ho ▸ h)
        rw [if_neg hne, beq_iff_eq.2 ho]
      · rw [beq_false_of_ne ho]
        exact ih

theorem definition?_setDefinition (session : Session) (key other : DefinitionKey) (definition : Definition) :
    (session.setDefinition key definition).definition? other =
      if other = key then some definition else session.definition? other :=
  lookup_filter_append key other definition session.definitions

@[simp] theorem definition?_withGraph (session : Session) (graph : Graph) (key : DefinitionKey) :
    (session.withGraph graph).definition? key = session.definition? key := rfl

/-! ## Filling placeholders in -/

theorem definitions_foldl_bindOne (definition : PropertyId) : ∀ (waiting : List PropertyId) (session : Session),
    (waiting.foldl (bindOne allowed definition) session).definitions = session.definitions
  | [], _ => rfl
  | _ :: rest, _ => definitions_foldl_bindOne definition rest _

theorem documents_foldl_bindOne (definition : PropertyId) : ∀ (waiting : List PropertyId) (session : Session),
    (waiting.foldl (bindOne allowed definition) session).documents = session.documents
  | [], _ => rfl
  | _ :: rest, _ => documents_foldl_bindOne definition rest _

theorem signatures_foldl_bindOne (definition : PropertyId) : ∀ (waiting : List PropertyId) (session : Session),
    (waiting.foldl (bindOne allowed definition) session).signatures = session.signatures
  | [], _ => rfl
  | _ :: rest, _ => signatures_foldl_bindOne definition rest _

theorem types_foldl_bindOne (definition : PropertyId) : ∀ (waiting : List PropertyId) (session : Session),
    (waiting.foldl (bindOne allowed definition) session).graph.types = session.graph.types
  | [], _ => rfl
  | _ :: rest, _ => types_foldl_bindOne definition rest _

theorem size_foldl_bindOne (definition : PropertyId) : ∀ (waiting : List PropertyId) (session : Session),
    (waiting.foldl (bindOne allowed definition) session).graph.properties.size = session.graph.properties.size
  | [], _ => rfl
  | _ :: rest, session => by
    rw [List.foldl_cons, size_foldl_bindOne definition rest]
    exact Array.size_modify

theorem definition?_completed (key other : DefinitionKey) (definition : PropertyId) (waiting : List PropertyId)
    (session : Session) : (session.completed allowed key definition waiting).definition? other =
      if other = key then some (.built definition) else session.definition? other := by
  unfold completed definition?
  rw [definitions_foldl_bindOne]
  exact definition?_setDefinition session key other _

/-! ## What no step changes -/

theorem size_modifyProperty (graph : Graph) (id : PropertyId) (f : Property → Property) :
    (graph.modifyProperty id f).properties.size = graph.properties.size := Array.size_modify

theorem size_modifyType (graph : Graph) (id : TypeId) (f : ObjectType → ObjectType) :
    (graph.modifyType id f).types.size = graph.types.size := Array.size_modify

theorem modifyType_modifyType (graph : Graph) (id : TypeId) (f g : ObjectType → ObjectType) :
    (graph.modifyType id f).modifyType id g = graph.modifyType id fun type => g (f type) := by
  unfold Graph.modifyType
  congr 1
  refine Array.ext (by simp) fun index h _ => ?_
  simp only [Array.getElem_modify]
  split <;> rfl

/-- What finishing a type leaves: the answer, the redirect it got, and the signatures known. -/
inductive Finishes (s : Session) (id : TypeId) : TypeId → Option TypeId → List (String × TypeId) → Prop
  | kept : Finishes s id id none s.signatures
  | first : s.signatures.lookup (s.graph.signature id) = none →
    Finishes s id id none (s.signatures ++ [(s.graph.signature id, id)])
  | duplicate {existing : TypeId} : s.signatures.lookup (s.graph.signature id) = some existing →
    s.graph.canonical existing ≠ id →
    Finishes s id (s.graph.canonical existing) (some (s.graph.canonical existing)) s.signatures

/-- **Finishing a type records its signature and redirects it if it is a duplicate**; nothing else of the
graph changes. -/
theorem runs_finish {config : Config} {id target : TypeId}
    (h : Build.Runs (Building.finish id) config s target s') :
    ∃ redirect, Finishes s id target redirect s'.signatures ∧ s'.documents = s.documents ∧
      s'.definitions = s.definitions ∧ s'.graph = s.graph.modifyType id fun entry =>
        { entry with signature := some (s.graph.signature id), redirect := redirect <|> entry.redirect } := by
  unfold Building.finish Build.modifyType Build.modifyGraph Build.notify at h
  simp only at h
  rw [Build.runs_get_bind, Build.runs_modify_bind] at h
  split at h
  · rename_i existing hexisting
    split at h
    · obtain ⟨rfl, rfl⟩ := Build.runs_pure.1 h
      exact ⟨none, .kept, rfl, rfl, rfl⟩
    · rename_i hkept
      rw [Build.runs_modify_bind, Build.runs_modify_bind] at h
      obtain ⟨rfl, rfl⟩ := Build.runs_pure.1 h
      rw [Bool.or_eq_true, not_or, decide_eq_true_eq] at hkept
      exact ⟨some _, .duplicate hexisting hkept.2, rfl, rfl, modifyType_modifyType _ _ _ _⟩
  · rename_i hnone
    rw [Build.runs_modify_bind] at h
    obtain ⟨rfl, rfl⟩ := Build.runs_pure.1 h
    exact ⟨none, .first hnone, rfl, rfl, rfl⟩

/-- Steps leave the documents alone. -/
theorem Step.documents (h : Step tidy allowed floor s s') : s'.documents = s.documents := by
  cases h with
  | finish _ _ _ hrun =>
    obtain ⟨_, _, hdocuments, _, _⟩ := runs_finish hrun
    exact hdocuments
  | complete => exact documents_foldl_bindOne _ _ _
  | _ => rfl

theorem Step.size_types_le (h : Step tidy allowed floor s s') : s.graph.types.size ≤ s'.graph.types.size := by
  cases h with
  | reserve => simp [withGraph, Graph.reserve]
  | change => exact Nat.le_of_eq (size_modifyType _ _ _).symm
  | finish _ _ _ hrun =>
    obtain ⟨_, _, _, _, hgraph⟩ := runs_finish hrun
    exact Nat.le_of_eq (by rw [hgraph, size_modifyType])
  | complete =>
    unfold completed
    rw [types_foldl_bindOne]
    exact Nat.le_refl _
  | _ => exact Nat.le_refl _

theorem Step.size_properties_le (h : Step tidy allowed floor s s') :
    s.graph.properties.size ≤ s'.graph.properties.size := by
  cases h with
  | add => simp [withGraph, Graph.addProperty]
  | copy => simp [withGraph, Graph.addProperty]
  | wait => simp [awaiting, setDefinition, withGraph, Graph.addProperty]
  | amend => exact Nat.le_of_eq (size_modifyProperty _ _ _).symm
  | finish _ _ _ hrun =>
    obtain ⟨_, _, _, _, hgraph⟩ := runs_finish hrun
    rw [hgraph]
    exact Nat.le_refl _
  | complete =>
    unfold completed
    rw [size_foldl_bindOne]
    exact Nat.le_refl _
  | _ => exact Nat.le_refl _

theorem entry_modifyType_of_ne (graph : Graph) (f : ObjectType → ObjectType) {id other : TypeId}
    (h : other.index ≠ id.index) : (graph.modifyType id f).entry other = graph.entry other := by
  simp [Graph.modifyType, Graph.entry, Array.getElem?_modify, Ne.symm h]

theorem entry_modifyType (graph : Graph) (f : ObjectType → ObjectType) {id : TypeId}
    (h : id.index < graph.types.size) : (graph.modifyType id f).entry id = f (graph.entry id) := by
  simp [Graph.modifyType, Graph.entry, Array.getElem_modify_self, h]

theorem entry_reserve_of_lt (graph : Graph) (namespaceName className : String) (isRoot : Bool) {id : TypeId}
    (h : id.index < graph.types.size) :
    (graph.reserve namespaceName className isRoot).2.entry id = graph.entry id := by
  simp [Graph.reserve, Graph.entry, Array.getElem?_push, Nat.ne_of_lt h]

/-- **Types below the floor stay as they are.** -/
theorem Step.entry_of_lt (h : Step tidy allowed floor s s') (hfloor : floor ≤ s.graph.types.size) {id : TypeId}
    (hid : id.index < floor) : s'.graph.entry id = s.graph.entry id := by
  cases h with
  | reserve namespaceName className isRoot =>
    exact entry_reserve_of_lt _ _ _ _ (Nat.lt_of_lt_of_le hid hfloor)
  | change hother => exact entry_modifyType_of_ne _ _ (Nat.ne_of_lt (Nat.lt_of_lt_of_le hid hother))
  | finish hother _ _ hrun =>
    obtain ⟨_, _, _, _, hgraph⟩ := runs_finish hrun
    rw [hgraph]
    exact entry_modifyType_of_ne _ _ (Nat.ne_of_lt (Nat.lt_of_lt_of_le hid hother))
  | complete =>
    unfold completed Graph.entry
    rw [types_foldl_bindOne]
    rfl
  | _ => rfl

theorem KeepsIdentity.entry {f : ObjectType → ObjectType} (hf : KeepsIdentity f) (graph : Graph)
    (id other : TypeId) : ((graph.modifyType id f).entry other).signature = (graph.entry other).signature ∧
      ((graph.modifyType id f).entry other).redirect = (graph.entry other).redirect := by
  by_cases hne : other.index = id.index
  · rcases Nat.lt_or_ge id.index graph.types.size with hlt | hge
    · obtain rfl : other = id := by cases other; cases id; exact congrArg _ hne
      rw [entry_modifyType graph f hlt]
      exact ⟨hf.signature _, hf.redirect _⟩
    · have hentry : (graph.modifyType id f).entry other = graph.entry other := by
        simp [Graph.modifyType, Graph.entry, hne, Array.getElem?_modify, Array.getElem?_eq_none hge]
      rw [hentry]
      exact ⟨rfl, rfl⟩
  · rw [entry_modifyType_of_ne graph f hne]
    exact ⟨rfl, rfl⟩

theorem entry_of_le {graph : Graph} {id : TypeId} (h : graph.types.size ≤ id.index) :
    graph.entry id = default := by
  unfold Graph.entry
  rw [Array.getD_eq_getD_getElem?, Array.getElem?_eq_none h]
  rfl

theorem lt_of_signature {graph : Graph} {id : TypeId} (h : (graph.entry id).signature ≠ none) :
    id.index < graph.types.size := by
  rcases Nat.lt_or_ge id.index graph.types.size with hlt | hge
  · exact hlt
  · refine absurd ?_ h
    rw [entry_of_le hge]
    rfl

/-- **A finished type stays finished**, and redirected as it is. -/
theorem Step.finished (h : Step tidy allowed floor s s') {id : TypeId}
    (hid : (s.graph.entry id).signature ≠ none) :
    (s'.graph.entry id).signature = (s.graph.entry id).signature ∧
      (s'.graph.entry id).redirect = (s.graph.entry id).redirect := by
  have hlt := lt_of_signature hid
  cases h with
  | reserve namespaceName className isRoot =>
    have hentry := entry_reserve_of_lt s.graph namespaceName className isRoot hlt
    exact ⟨congrArg ObjectType.signature hentry, congrArg ObjectType.redirect hentry⟩
  | change _ hf => exact hf.entry s.graph _ id
  | @finish _ _ finishing _ _ _ hnone hrun =>
    obtain ⟨_, _, _, _, hgraph⟩ := runs_finish hrun
    have hne : id.index ≠ finishing.index := by
      intro h
      obtain rfl : id = finishing := by cases id; cases finishing; exact congrArg _ h
      exact hid hnone
    rw [hgraph, entry_modifyType_of_ne _ _ hne]
    exact ⟨rfl, rfl⟩
  | complete =>
    unfold completed Graph.entry
    rw [types_foldl_bindOne]
    exact ⟨rfl, rfl⟩
  | _ => exact ⟨rfl, rfl⟩

theorem Steps.finished (h : Steps tidy allowed floor s s') {id : TypeId}
    (hid : (s.graph.entry id).signature ≠ none) :
    (s'.graph.entry id).signature = (s.graph.entry id).signature ∧
      (s'.graph.entry id).redirect = (s.graph.entry id).redirect := by
  refine h.keeps (P := fun m => (m.graph.entry id).signature = (s.graph.entry id).signature ∧
    (m.graph.entry id).redirect = (s.graph.entry id).redirect) (fun m m' hstep hm => ?_) ⟨rfl, rfl⟩
  obtain ⟨hsignature, hredirect⟩ := hstep.finished (hm.1 ▸ hid)
  exact ⟨hsignature.trans hm.1, hredirect.trans hm.2⟩

theorem Steps.documents (h : Steps tidy allowed floor s s') : s'.documents = s.documents :=
  h.keeps (P := fun m => m.documents = s.documents) (fun _ _ hstep hm => hstep.documents.trans hm) rfl

theorem Steps.size_types_le (h : Steps tidy allowed floor s s') : s.graph.types.size ≤ s'.graph.types.size :=
  h.keeps (P := fun m => s.graph.types.size ≤ m.graph.types.size)
    (fun _ _ hstep hm => Nat.le_trans hm hstep.size_types_le) (Nat.le_refl _)

theorem Steps.size_properties_le (h : Steps tidy allowed floor s s') :
    s.graph.properties.size ≤ s'.graph.properties.size :=
  h.keeps (P := fun m => s.graph.properties.size ≤ m.graph.properties.size)
    (fun _ _ hstep hm => Nat.le_trans hm hstep.size_properties_le) (Nat.le_refl _)

theorem Steps.entry_of_lt (h : Steps tidy allowed floor s s') (hfloor : floor ≤ s.graph.types.size) {id : TypeId}
    (hid : id.index < floor) : s'.graph.entry id = s.graph.entry id := by
  have hkeeps := h.keeps (P := fun m => floor ≤ m.graph.types.size ∧ m.graph.entry id = s.graph.entry id)
    (fun m m' hstep hm => ⟨Nat.le_trans hm.1 hstep.size_types_le, (hstep.entry_of_lt hm.1 hid).trans hm.2⟩)
    ⟨hfloor, rfl⟩
  exact hkeeps.2

end Session
end SchemaTypes

import SchemaTypes.Proofs.Building.Parallels
import SchemaTypes.Proofs.Building.PropertyNames
/-!
# Properties of object nodes

An object node gets its type in one go, from reserving to finishing (`typeOf`), whether it stands in another node or is
a definition.  The property that is built from it holds that type (`runs_objectAs`).
-/
namespace SchemaTypes
namespace Building

open Build

variable {config : Config} {build : Builder} {site : Site} {node : Json} {key : Option DefinitionKey} {id : PropertyId}
  {s s' : Session}

/-! ## From reserving to finishing -/

/-- Fill a reserved type in.  The scope's class becomes the type's own. -/
def fillIn (build : Builder) (site : Site) (node : Json) (type : TypeId) : Build Unit := do
  let className := ((← Build.graph).entry type).name.className
  fill build { site.scope with className } type node

/-- If the node is a definition, that begins with the type that has been reserved for it. -/
def announce (key : Option DefinitionKey) (type : TypeId) : Build Unit :=
  match key with
  | some key => modify (·.setDefinition key (.inProgress (some type) []))
  | none => pure ()

/-- The type of an object node, from its reservation until it is finished. -/
def typeOf (build : Builder) (site : Site) (node : Json) (key : Option DefinitionKey) : Build TypeId := do
  let type ← reserveFor site node
  announce key type
  fillIn build site node type
  finish type

theorem reserveFor_materialize (build : Builder) (site : Site) (node : Json) :
    (reserveFor site node >>= materialize build site node) =
      typeOf build site node none >>= fun type => instanceProperty site.name type site.required := by
  simp only [typeOf, announce, fillIn, bind_assoc, pure_bind]
  rfl

theorem object_eq (build : Builder) (site : Site) (node : Json) :
    object build site node = (reserveFor site node >>= materialize build site node) >>= fun property =>
      applyValueKeywords property node site.required >>= Build.addProperty := by
  rw [bind_assoc]
  rfl

/-- The definition, if it is one, has not begun. -/
def Unbegun (session : Session) (key : Option DefinitionKey) : Prop :=
  ∀ known ∈ key, ∀ type, ¬ session.InProgress known type

theorem unbegun_none (session : Session) : Unbegun session none := fun _ hknown => nomatch hknown

theorem keeps_announce {course : Course} {key : Option DefinitionKey} {type : TypeId}
    (h : Unbegun course.origin key) : course.Keeps (announce key type) fun _ => True := by
  cases key with
  | none => exact keeps_pure trivial
  | some key => exact Course.keeps_modify fun _ hs => hs.of_types (.define _ (h key rfl)) rfl

theorem runs_announce {config : Config} {key : Option DefinitionKey} {type : TypeId} {s s' : Session} {u : Unit}
    (h : (announce key type).Runs config s u s') : s'.graph = s.graph ∧ s'.signatures = s.signatures := by
  cases key with
  | none =>
    obtain ⟨_, rfl⟩ := runs_pure.1 h
    exact ⟨rfl, rfl⟩
  | some key =>
    cases runs_modify.1 h
    exact ⟨rfl, rfl⟩

/-- What earlier calls have left in progress does not matter. -/
theorem unbegun_outside (s : Session) (key : Option DefinitionKey) : Unbegun { s with definitions := [] } key := by
  rintro _ _ _ ⟨_, hpending⟩
  cases hpending

/-- Whatever is built within a call comes before what comes after it. -/
theorem Confined.precedes (hb : Confined build) (h : (build site node).Runs config s id s') : s.Precedes s' :=
  ((hb (Course.ofDocument config s) site node s (Course.passes_ofDocument config s)).1 id s' h).1.moves.precedes

/-! ## An object node's property -/

/-- The property of an object node, built for a part of another node or for a definition. -/
def objectAs (key : Option DefinitionKey) (build : Builder) (site : Site) (node : Json) : Build PropertyId := do
  let type ← typeOf build site node key
  let property ← instanceProperty site.name type site.required
  Build.addProperty (← applyValueKeywords property node site.required)

theorem object_eq_objectAs : object build site node = objectAs none build site node := by
  rw [object_eq, reserveFor_materialize, bind_assoc]
  rfl

/-- A property is built from a node, at the node's place or for a definition. -/
inductive Builds (config : Config) (node : Json) : Session → PropertyId → Session → Prop
  | part {bound : Nat} {site : Site} {s s' : Session} {id : PropertyId} :
    (property bound site node).Runs config s id s' → Builds config node s id s'
  | definition {bound : Nat} {site : Site} {key : DefinitionKey} {s s' : Session} {id : PropertyId} :
    (objectAs (some key) (property bound) site node).Runs config s id s' → Builds config node s id s'

/-- What succeeds for an object node other than a reference is an object. -/
theorem runs_object_of_nodeProperty (hobject : Keyword.isObject node = true)
    (hreference : ∀ text, node.get? "$ref" ≠ some (.string text))
    (h : (nodeProperty build site node).Runs config s id s') : (object build site node).Runs config s id s' := by
  obtain ⟨members, rfl⟩ : ∃ members, node = .object members := by
    cases node with
    | object members => exact ⟨members, rfl⟩
    | _ => cases hobject
  unfold nodeProperty Keyword.normalize at h
  rw [runs_pure_bind] at h
  generalize Json.object members = node at hobject hreference h ⊢
  split at h
  · rename_i reference hget
    unfold referred at h
    split at h
    · exact absurd hget (hreference _)
    · exact absurd h not_runs_refuse
  · unfold Keyword.isObject at hobject
    split at h
    · rename_i word hget
      rw [hget] at hobject
      obtain rfl : word = "object" := of_decide_eq_true hobject
      exact h
    · rename_i types hget
      rw [hget] at hobject
      cases hobject
    · exact absurd h not_runs_refuse
    · rename_i hget
      rw [hget] at hobject
      rw [if_pos] at h
      · exact h
      · unfold Keyword.isObject
        rw [hget]
        exact hobject

/-- An object node is built as one. -/
theorem Builds.runs (h : Builds config node s id s') (hobject : Keyword.isObject node = true)
    (hreference : ∀ text, node.get? "$ref" ≠ some (.string text)) :
    ∃ bound site key, (objectAs key (property bound) site node).Runs config s id s' := by
  cases h with
  | definition hrun => exact ⟨_, _, _, hrun⟩
  | @part bound site _ _ _ hrun =>
    cases bound with
    | zero => exact absurd hrun not_runs_throw
    | succ bound =>
      refine ⟨bound, site, none, ?_⟩
      rw [← object_eq_objectAs]
      exact runs_object_of_nodeProperty hobject hreference hrun

/-! ## What the property holds -/

variable {draft : Property} {type : TypeId} {required : Bool}

theorem runs_nested_instanceProperty {name : String}
    (h : (instanceProperty name type required).Runs config s draft s') : draft.nested = some type := by
  unfold instanceProperty at h
  rw [runs_graph_bind] at h
  obtain ⟨fresh, m, _, hrest⟩ := runs_bind.1 h
  rw [runs_bind_of_iff fun _ _ => runs_allowsNull] at hrest
  obtain ⟨rfl, _⟩ := runs_pure.1 hrest
  simp only [Property.addCheck, Property.addDecorator]
  split <;> split <;> rfl

theorem keeps_typeOf {course : Course} (hb : Confined build) (hbegun : Unbegun course.origin key) :
    course.Keeps (typeOf build site node key) fun _ => True := by
  unfold typeOf fillIn
  refine Course.keeps_bracket Course.opens_reserveFor fun type hnot => ?_
  refine Course.Closes.after (keeps_announce hbegun) fun _ => ?_
  refine Course.Closes.after (keeps_graph.andThen fun graph => Course.keeps_fill hb List.mem_cons_self) fun _ => ?_
  exact Course.closes_finish hnot

theorem Confined.precedes_typeOf (hb : Confined build) {m : Session}
    (h : (typeOf build site node key).Runs config s type m) : s.Precedes m := by
  have hkeeps : (Course.ofDocument config s).Keeps (typeOf build site node key) fun _ => True :=
    keeps_typeOf hb (unbegun_outside s key)
  exact (hkeeps s (Course.passes_ofDocument config s)).1 type m h |>.1.moves.precedes

/-- The property of an object node holds the type that was made for it. -/
theorem runs_objectAs (hb : Confined build) (h : (objectAs key build site node).Runs config s id s') :
    ∃ type m, (typeOf build site node key).Runs config s type m ∧ s.Precedes m ∧ m.Precedes s' ∧
      (s'.graph.property id).nested = some type := by
  obtain ⟨type, m, htype, hrest⟩ := runs_bind.1 h
  obtain ⟨held, t, hheld, hrest⟩ := runs_bind.1 hrest
  obtain ⟨result, u, hresult, hadd⟩ := runs_bind.1 hrest
  obtain rfl := (Env.runs_instanceProperty hheld).1
  obtain rfl := detached_applyValueKeywords.eq_of_runs hresult
  have hrequired : held.required = site.required :=
    congrArg Property.Purpose.required ((gives_instanceProperty _ trivial).1 held _ hheld).2
  have hnested : result.nested = held.nested :=
    ((extends_applyValueKeywords hrequired _ trivial).1 result _ hresult).2.nested
  obtain ⟨rfl, rfl⟩ := runs_addProperty.1 hadd
  refine ⟨type, _, htype, hb.precedes_typeOf htype, .single (.write (.add result)), ?_⟩
  refine (congrArg Property.nested ((Session.property_addProperty_eq _ _ _).trans (if_pos rfl))).trans ?_
  rw [hnested, runs_nested_instanceProperty hheld]

end Building
end SchemaTypes

import SchemaTypes.Proofs.Building.Confinement
import SchemaTypes.Proofs.Building.PropertyNames
import SchemaTypes.Proofs.Building.TrailFills
/-!
# What a type comes to list

A type that is filled in lists three things, one behind the other: what its node declares, what it requires besides,
and what is lifted from branches.  The first two are listed as they stand in the node (`ownNames`), a name that is
required twice also twice.  Lifting looks at the list first, so behind them every name that branches populate stands
once (`liftedNames`).

Nodes inside are built between these steps, and they leave the type alone: each is watched from the session in which its
building begins, and what is there by then endures (`Course.Keeps.endures`).  So one invariant carries the whole filling
in, what the type lists and what its compositions populate so far (`Session.Lists`, `meets_fill`).
-/
namespace SchemaTypes

namespace Building

/-! ## Names of a node -/

def declaredMembers (node : Json) : Members :=
  match node.get? "properties" with
  | some (.object members) => members
  | _ => []

def declaredNames (node : Json) : List String := (declaredMembers node).names

def requiredTexts (node : Json) : List String :=
  match node.get? "required" with
  | some (.array names) => names.filterMap Json.string?
  | _ => []

/-- What the node requires and does not declare, as often as it requires it. -/
def undeclaredNames (node : Json) : List String := (requiredTexts node).filter (!(declaredMembers node).has ·)

/-- The names a node brings itself. -/
def ownNames (node : Json) : List String := declaredNames node ++ undeclaredNames node

/-- The populated names that are listed behind a type's own ones: each once, where it is first populated. -/
def liftedNames (own populated : List String) : List String := (populated.filter (!own.contains ·)).eraseDups

variable {own populated : List String} {name : String} {node : Json}

theorem mem_liftedNames : name ∈ liftedNames own populated ↔ name ∈ populated ∧ name ∉ own := by
  unfold liftedNames
  rw [List.mem_eraseDups, List.mem_filter]
  simp

theorem eraseDups_concat (names : List String) (name : String) :
    (names ++ [name]).eraseDups = if name ∈ names then names.eraseDups else names.eraseDups ++ [name] := by
  rw [List.eraseDups_append]
  unfold List.removeAll
  split
  · rename_i hmem
    rw [List.filter_cons_of_neg (by simpa using hmem), List.filter_nil, List.eraseDups_nil, List.append_nil]
  · rename_i hnot
    rw [List.filter_cons_of_pos (by simpa using hnot), List.filter_nil]
    rfl

/-- One more name that a branch populates is listed unless it is there. -/
theorem liftedNames_concat (own populated : List String) (name : String) : liftedNames own (populated ++ [name]) =
    if name ∈ own ++ liftedNames own populated then liftedNames own populated
    else liftedNames own populated ++ [name] := by
  have hlisted : name ∈ own ++ liftedNames own populated ↔ name ∈ own ∨ name ∈ populated := by
    rw [List.mem_append, mem_liftedNames]
    tauto
  simp only [hlisted]
  unfold liftedNames
  rw [List.filter_append]
  by_cases hown : name ∈ own
  · rw [List.filter_cons_of_neg (by simpa using hown), List.filter_nil, List.append_nil, if_pos (Or.inl hown)]
  · rw [List.filter_cons_of_pos (by simpa using hown), List.filter_nil, eraseDups_concat]
    simp [hown]

theorem nodup_eraseDups (names : List String) : names.eraseDups.Nodup := by
  induction h : names.length using Nat.strongRecOn generalizing names with
  | ind n ih =>
    cases names with
    | nil => exact List.nodup_nil
    | cons name rest =>
      rw [List.eraseDups_cons, List.nodup_cons, List.mem_eraseDups, List.mem_filter]
      refine ⟨fun hmem => by simp at hmem, ih _ ?_ _ rfl⟩
      subst h
      exact Nat.lt_succ_of_le (List.length_filter_le _ _)

theorem nodup_append_liftedNames : (own ++ liftedNames own populated).Nodup ↔ own.Nodup := by
  rw [List.nodup_append]
  constructor
  · exact fun h => h.1
  · refine fun h => ⟨h, nodup_eraseDups _, fun a ha b hb heq => ?_⟩
    exact (mem_liftedNames.1 hb).2 (heq ▸ ha)

theorem nodup_ownNames : (ownNames node).Nodup ↔ (declaredNames node).Nodup ∧ (undeclaredNames node).Nodup := by
  unfold ownNames
  rw [List.nodup_append]
  constructor
  · exact fun h => ⟨h.1, h.2.1⟩
  · refine fun h => ⟨h.1, h.2, fun a ha b hb heq => ?_⟩
    subst heq
    obtain ⟨member, hmember, rfl⟩ := List.mem_map.1 ha
    have hnot := (List.mem_filter.1 hb).2
    have hhas : (declaredMembers node).has member.1 = true := List.any_eq_true.2 ⟨member, hmember, beq_self_eq_true _⟩
    rw [hhas] at hnot
    cases hnot

end Building

/-! ## What a type lists so far -/

theorem Validators.toList_add_of_last {validators : Validators} {validator : Validator}
    (h : ∀ v ∈ validators.toList, v.priority ≤ validator.priority) :
    (validators.add validator).toList = validators.toList ++ [validator] := by
  obtain ⟨arrivals, next⟩ := validators
  unfold toList add at *
  induction arrivals with
  | nil => rfl
  | cons first rest ih =>
    rw [List.map_cons, List.forall_mem_cons] at h
    unfold place
    rw [if_pos h.1, List.map_cons, ih h.2]
    rfl

/-- The names that the compositions of a type populate, composition by composition and branch by branch. -/
def Graph.populated (graph : Graph) (type : TypeId) : List String :=
  (graph.entry type).validators.toList.flatMap (·.check.populated)

theorem Graph.names_eq (graph : Graph) (type : TypeId) :
    graph.names type = (graph.entry type).properties.map fun id => (graph.property id).name := List.map_map

namespace Session

/-- The type is there, and so is all that it lists. -/
structure Stocked (type : TypeId) (s : Session) : Prop where
  hasType : s.graph.HasType type
  listed : ∀ id ∈ (s.graph.entry type).properties, s.graph.HasProperty id

/-- The type lists these names, and its compositions populate those. -/
structure Lists (type : TypeId) (root : Bool) (names populated : List String) (s : Session) : Prop
    extends Stocked type s where
  last : ∀ v ∈ (s.graph.entry type).validators.toList, v.priority ≤ 99
  isRoot : (s.graph.entry type).isRoot = root
  names : s.graph.names type = names
  populated : s.graph.populated type = populated

/-- Behind its own names the type lists what its compositions populate. -/
def Tallies (type : TypeId) (root : Bool) (own : List String) (s : Session) : Prop :=
  ∃ populated, Lists type root (own ++ Building.liftedNames own populated) populated s

variable {type : TypeId} {root : Bool} {names populated : List String} {s s' : Session}

/-- Nothing but the entry of the type and the names of its properties matter. -/
theorem Lists.of_graph (h : Lists type root names populated s) (hgrows : s.graph.Grows s'.graph)
    (hentry : s'.graph.entry type = s.graph.entry type) (hname : ∀ id, s.graph.HasProperty id →
      (s'.graph.property id).name = (s.graph.property id).name) : Lists type root names populated s' where
  hasType := h.hasType.grows hgrows
  listed id hid := (h.listed id (hentry ▸ hid)).grows hgrows
  last := hentry ▸ h.last
  isRoot := hentry ▸ h.isRoot
  names := by
    rw [← h.names, Graph.names_eq, Graph.names_eq, hentry]
    exact List.map_congr_left fun id hid => hname id (h.listed id hid)
  populated := by
    rw [← h.populated]
    unfold Graph.populated
    rw [hentry]

theorem Lists.endures (h : Lists type root names populated s) (hendures : s.graph.EnduresIn s'.graph) :
    Lists type root names populated s' :=
  h.of_graph hendures.grows (hendures.entry type h.hasType) fun id hid => by rw [hendures.property id hid]

/-- A type that has been reserved and nothing else. -/
structure Blank (s : Session) (type : TypeId) : Prop where
  hasType : s.graph.HasType type
  properties : (s.graph.entry type).properties = []
  validators : (s.graph.entry type).validators.toList = []

theorem Blank.lists (h : s.Blank type) (hroot : (s.graph.entry type).isRoot = root) : Lists type root [] [] s where
  hasType := h.hasType
  listed id hid := absurd (h.properties ▸ hid) List.not_mem_nil
  last v hv := absurd (h.validators ▸ hv) List.not_mem_nil
  isRoot := hroot
  names := by
    rw [Graph.names_eq, h.properties]
    rfl
  populated := by
    unfold Graph.populated
    rw [h.validators]
    rfl

theorem entry_reserved (s : Session) (namespaceName className : String) (isRoot : Bool) :
    (s.graph.reserve namespaceName className isRoot).2.entry (s.graph.reserve namespaceName className isRoot).1 =
      { name := s.graph.freeName namespaceName className, isRoot } :=
  (entry_reserve_eq s.graph namespaceName className isRoot ⟨s.graph.types.size⟩).trans (if_pos rfl)

theorem blank_reserve (s : Session) (namespaceName className : String) (isRoot : Bool) :
    (s.withGraph (s.graph.reserve namespaceName className isRoot).2).Blank
      (s.graph.reserve namespaceName className isRoot).1 where
  hasType := Nat.lt_of_lt_of_eq (Nat.lt_succ_self _) (Array.size_push _).symm
  properties := congrArg ObjectType.properties (entry_reserved s namespaceName className isRoot)
  validators := congrArg (·.validators.toList) (entry_reserved s namespaceName className isRoot)

theorem lists_reserve (s : Session) (namespaceName className : String) (isRoot : Bool) :
    Lists (s.graph.reserve namespaceName className isRoot).1 isRoot [] []
      (s.withGraph (s.graph.reserve namespaceName className isRoot).2) :=
  (blank_reserve s namespaceName className isRoot).lists
    (congrArg ObjectType.isRoot (entry_reserved s namespaceName className isRoot))

/-- A change of the type's own entry. -/
theorem Lists.modifyType (h : Lists type root names populated s) {f : ObjectType → ObjectType}
    (added : List PropertyId) (checks : List Validator)
    (hproperties : ∀ entry, (f entry).properties = entry.properties ++ added)
    (hvalidators : (f (s.graph.entry type)).validators.toList = (s.graph.entry type).validators.toList ++ checks)
    (hroot : ∀ entry, (f entry).isRoot = entry.isRoot) (hadded : ∀ id ∈ added, s.graph.HasProperty id)
    (hlast : ∀ v ∈ checks, v.priority ≤ 99) :
    Lists type root (names ++ added.map fun id => (s.graph.property id).name)
      (populated ++ checks.flatMap (·.check.populated)) (s.withGraph (s.graph.modifyType type f)) := by
  have hentry : (s.graph.modifyType type f).entry type = f (s.graph.entry type) := entry_modifyType _ f h.hasType
  have hgrows := grows_modifyType s.graph type f
  refine ⟨⟨h.hasType.grows hgrows, fun id hid => ?_⟩, fun v hv => ?_, ?_, ?_, ?_⟩
  · change id ∈ ((s.graph.modifyType type f).entry type).properties at hid
    rw [hentry, hproperties] at hid
    exact ((List.mem_append.1 hid).elim (h.listed id) (hadded id)).grows hgrows
  · change v ∈ ((s.graph.modifyType type f).entry type).validators.toList at hv
    rw [hentry, hvalidators] at hv
    exact (List.mem_append.1 hv).elim (h.last v) (hlast v)
  · exact (congrArg ObjectType.isRoot hentry).trans ((hroot _).trans h.isRoot)
  · rw [← h.names, Graph.names_eq, Graph.names_eq]
    change ((s.graph.modifyType type f).entry type).properties.map _ = _
    rw [hentry, hproperties, List.map_append]
    rfl
  · rw [← h.populated]
    unfold Graph.populated
    change ((s.graph.modifyType type f).entry type).validators.toList.flatMap _ = _
    rw [hentry, hvalidators, List.flatMap_append]

/-- The session with one more property, which the type lists. -/
def enlisting (s : Session) (type : TypeId) (property : Property) : Session :=
  s.withGraph ((s.graph.addProperty property).2.modifyType type fun entry =>
    { entry with properties := entry.properties ++ [(s.graph.addProperty property).1] })

theorem Stocked.enlist (h : Stocked type s) (property : Property) : Stocked type (s.enlisting type property) ∧
    (s.enlisting type property).graph.names type = s.graph.names type ++ [property.mark.1] ∧
    ∀ id, s.graph.HasProperty id → (s.enlisting type property).graph.HasProperty id ∧
      (s.enlisting type property).graph.property id = s.graph.property id := by
  have hendures : s.graph.EnduresIn (s.graph.addProperty property).2 := enduresIn_addProperty (.refl s.graph) property
  have hgrows := grows_modifyType (s.graph.addProperty property).2 type fun entry =>
    { entry with properties := entry.properties ++ [(s.graph.addProperty property).1] }
  refine ⟨⟨(h.hasType.grows hendures.grows).grows hgrows, fun id hid => ?_⟩, ?_, fun id hid => ?_⟩
  · have hentry := entry_modifyType (s.graph.addProperty property).2 (fun entry : ObjectType =>
      { entry with properties := entry.properties ++ [(s.graph.addProperty property).1] }) (by exact h.hasType)
    change id ∈ (((s.graph.addProperty property).2.modifyType type _).entry type).properties at hid
    rw [hentry, List.mem_append, List.mem_singleton] at hid
    obtain hold | rfl := hid
    · exact ((h.listed id hold).grows hendures.grows).grows hgrows
    · exact (hasProperty_addProperty s.graph property).grows hgrows
  · exact (congrArg (List.map Prod.fst) (Building.Trail.marks_enlist h.hasType h.listed)).trans List.map_append
  · exact ⟨(hid.grows hendures.grows).grows hgrows, hendures.property id hid⟩

theorem Lists.enlist (h : Lists type root names populated s) {property : Property} {name : String}
    (hname : property.name = name) : Lists type root (names ++ [name]) populated (s.enlisting type property) := by
  have hadded : Lists type root names populated (s.withGraph (s.graph.addProperty property).2) :=
    h.endures (enduresIn_addProperty (.refl s.graph) property)
  have h' := hadded.modifyType (f := fun entry =>
      { entry with properties := entry.properties ++ [(s.graph.addProperty property).1] })
    [(s.graph.addProperty property).1] [] (fun _ => rfl) (List.append_nil _).symm (fun _ => rfl)
    (List.forall_mem_singleton.2 (hasProperty_addProperty _ _)) fun _ hv => absurd hv List.not_mem_nil
  rw [List.flatMap_nil, List.append_nil, List.map_singleton] at h'
  change Lists type root (names ++ [((s.graph.addProperty property).2.property _).name]) populated _ at h'
  rw [Graph.property_addProperty, hname] at h'
  exact h'

/-- A change of the entry that concerns neither its properties nor its checks. -/
theorem Lists.amend (h : Lists type root names populated s) {f : ObjectType → ObjectType}
    (hproperties : ∀ entry, (f entry).properties = entry.properties)
    (hvalidators : ∀ entry, (f entry).validators = entry.validators)
    (hroot : ∀ entry, (f entry).isRoot = entry.isRoot) :
    Lists type root names populated (s.withGraph (s.graph.modifyType type f)) := by
  have h' := h.modifyType [] [] (fun entry => (hproperties entry).trans (List.append_nil _).symm)
    ((congrArg Validators.toList (hvalidators _)).trans (List.append_nil _).symm) hroot
    (fun _ hid => absurd hid List.not_mem_nil) fun _ hv => absurd hv List.not_mem_nil
  rwa [List.map_nil, List.append_nil, List.flatMap_nil, List.append_nil] at h'

end Session

namespace Building

open Build Session

variable {config : Config} {build : Builder} {scope : Scope} {site : Site} {node : Json} {type : TypeId} {root : Bool}
  {names own reached populated : List String} {id : PropertyId} {combinator : Combinator} {s s' : Session}
  {H : Session → Prop}

/-! ## Writes to the type -/

theorem meets_modifyType {P Q : Session → Prop} {f : ObjectType → ObjectType}
    (h : ∀ s, P s → Q (s.withGraph (s.graph.modifyType type f))) :
    Meets config P (Build.modifyType type f) (fun _ => Q) H :=
  meets_of_runs (v := ⟨⟩) (fun _ => runs_modifyGraph.2 rfl) h

theorem meets_addTypeProperty {name : String} : Meets config
    (fun s => Lists type root names populated s ∧ s.graph.HasProperty id ∧ (s.graph.property id).name = name)
    (Build.addTypeProperty type id) (fun _ => Lists type root (names ++ [name]) populated) H := by
  refine meets_modifyType fun s hs => ?_
  obtain ⟨hlists, hthere, rfl⟩ := hs
  have h := hlists.modifyType (f := fun entry => { entry with properties := entry.properties ++ [id] })
    [id] [] (fun _ => rfl) (List.append_nil _).symm (fun _ => rfl)
    (List.forall_mem_singleton.2 hthere) fun _ hv => absurd hv List.not_mem_nil
  rwa [List.flatMap_nil, List.append_nil] at h

theorem meets_addTypeCheck {check : Check} (hlast : check.defaultPriority = 99) : Meets config
    (Lists type root names populated) (Build.addTypeCheck type check)
    (fun _ => Lists type root names (populated ++ check.populated)) H := by
  refine meets_modifyType fun s hs => ?_
  have h := hs.modifyType (f := fun entry => { entry with validators := entry.validators.addCheck check })
    [] [check.toValidator] (fun _ => (List.append_nil _).symm)
    (Validators.toList_add_of_last fun v hv => Nat.le_trans (hs.last v hv) (Nat.le_of_eq hlast.symm)) (fun _ => rfl)
    (fun _ hid => absurd hid List.not_mem_nil) (List.forall_mem_singleton.2 (Nat.le_of_eq hlast))
  rw [List.map_nil, List.append_nil, List.flatMap_singleton] at h
  exact h

/-! ## Nodes inside -/

/-- What a builder finds, it leaves as it is. -/
theorem Course.meets_endures {α : Type} {x : Build α} {q : α → Prop} (h : (ofDocument config s).Keeps x q) :
    Meets config (· = s) x (fun a s' => s.graph.EnduresIn s'.graph ∧ q a) fun s' => s.graph.EnduresIn s'.graph := by
  rintro s rfl
  obtain ⟨hok, hhalts⟩ := h s (passes_ofDocument config s)
  exact ⟨fun a s' hrun => ⟨(hok a s' hrun).1.since.endures, (hok a s' hrun).2⟩,
    fun halt s' hhalt => (hhalts halt s' hhalt).since.endures⟩

theorem keeps_lists {α : Type} {x : Build α} {q : Session → α → Prop}
    (h : ∀ s, (Course.ofDocument config s).Keeps x (q s)) :
    Keeps config (Lists type root names populated) x fun _ => True := fun s hs => by
  obtain ⟨hok, hhalts⟩ := Course.meets_endures (h s) s rfl
  exact ⟨fun a s' hrun => ⟨hs.endures (hok a s' hrun).1, trivial⟩,
    fun halt s' hhalt => hs.endures (hhalts halt s' hhalt)⟩

theorem keeps_lists_of_graph {f : Session → Session} (hgraph : ∀ s, (f s).graph = s.graph) :
    Keeps config (Lists type root names populated) (modify f) fun _ => True :=
  meets_of_runs (v := ⟨⟩) (fun _ => runs_modify.2 rfl) fun s hs =>
    ⟨hs.of_graph (hgraph s ▸ .refl _) (hgraph s ▸ rfl) fun _ _ => hgraph s ▸ rfl, trivial⟩

theorem keeps_lists_setDefinition {key : DefinitionKey} {definition : Definition} :
    Keeps config (Lists type root names populated) (modify (·.setDefinition key definition)) fun _ => True :=
  keeps_lists_of_graph fun _ => rfl

/-- A change of a property that does not rename it. -/
theorem keeps_lists_modifyProperty {f : Property → Property} (hf : ∀ property, (f property).name = property.name) :
    Keeps config (Lists type root names populated) (Build.modifyProperty id f) fun _ => True :=
  meets_of_runs (v := ⟨⟩) (fun _ => runs_modifyGraph.2 rfl) fun _ hs =>
    ⟨hs.of_graph (grows_modifyProperty _ _ _) rfl fun _ hother => (hasProperty_modifyProperty id hother hf).2, trivial⟩

theorem abides_lists (hb : Confined build) : Abides config (Lists type root names populated) build type where
  node site node := keeps_lists fun s => hb (.ofDocument config s) site node
  nested _ _ _ := keeps_lists fun s => (Course.keeps_nested hb : (Course.ofDocument config s).Keeps _ _)
  addTypeCheck check hsilent := Meets.imp (meets_addTypeCheck hsilent.last) fun _ s hs => by
    rw [hsilent.populated, List.append_nil] at hs
    exact ⟨hs, trivial⟩
  notify _ _ := keeps_lists_of_graph fun _ => rfl

/-- A builder that keeps to every course and answers properties under the names of their sites. -/
structure Reliable (config : Config) (build : Builder) : Prop where
  confined : Confined build
  names : ∀ site node, Names config (build site node) site.name

theorem reliable_property (config : Config) (bound : Nat) : Reliable config (property bound) :=
  ⟨confined_property bound, fun _ _ => names_property bound⟩

/-- A built property is listed under the name of its site. -/
theorem meets_declare (hb : Reliable config build) : Meets config (Lists type root names populated)
    (do
      let id ← build site node
      Build.addTypeProperty type id)
    (fun _ => Lists type root (names ++ [site.name]) populated) fun _ => True := by
  refine Meets.bind (fun s hs => ⟨fun id s' hrun => ?_, fun _ _ _ => trivial⟩) fun id => meets_addTypeProperty
  exact ⟨(((abides_lists hb.confined).node site node s hs).1 id s' hrun).1,
    (hb.names site node s trivial).1 id s' hrun⟩

/-! ## Declared and required names -/

theorem keeps_strings {I : Session → Prop} {name reason : String} {values : List Json} :
    Keeps config I (Keyword.strings name reason values) (· = values.filterMap Json.string?) := by
  induction values with
  | nil => exact keeps_pure rfl
  | cons value values ih =>
    unfold Keyword.strings
    rw [List.mapM_cons]
    cases value with
    | string text =>
      rw [pure_bind]
      refine Keeps.bind ih fun texts htexts => keeps_pure ?_
      rw [htexts]
      rfl
    | _ => exact keeps_refuse_bind

theorem keeps_requiredNames {I : Session → Prop} {name : String} :
    Keeps config I (Keyword.requiredNames name node) (· = requiredTexts node) := by
  unfold Keyword.requiredNames requiredTexts
  cases node.get? "required" with
  | none => exact keeps_pure rfl
  | some found =>
    cases found with
    | array names => exact keeps_strings
    | _ => exact keeps_malformed

theorem keeps_declaredMembers {I : Session → Prop} {name : String} :
    Keeps config I (Keyword.members? name node "properties") (·.getD [] = declaredMembers node) := by
  unfold Keyword.members? declaredMembers
  cases node.get? "properties" with
  | none => exact keeps_pure rfl
  | some found =>
    cases found with
    | object members => exact keeps_pure rfl
    | _ => exact keeps_malformed

/-- A loop each of whose rounds adds one name. -/
theorem meets_forIn {α : Type} {g : α → String} {P : List String → Session → Prop}
    {f : α → PUnit → Build (ForInStep PUnit)} (h : ∀ a names, Meets config (P names) (f a ⟨⟩)
      (fun next s => next = .yield ⟨⟩ ∧ P (names ++ [g a]) s) H) : ∀ (l : List α) (names : List String),
    Meets config (P names) (forIn l ⟨⟩ f) (fun _ => P (names ++ l.map g)) H
  | [], names => by
    rw [List.forIn_nil, List.map_nil, List.append_nil]
    exact meets_pure fun _ hs => hs
  | a :: l, names => by
    rw [List.forIn_cons, List.map_cons, List.append_cons]
    refine Meets.bind (h a names) fun next s hs => ?_
    obtain ⟨rfl, hs⟩ := hs
    exact meets_forIn h l _ s hs

/-- **What the node declares and requires is listed as it stands there.** -/
theorem meets_addProperties (hb : Reliable config build) : Meets config (Lists type root [] populated)
    (addProperties build scope type node) (fun _ => Lists type root (ownNames node) populated) fun _ => True := by
  unfold addProperties
  have hlist : ∀ names (site : Site) (inner : Json), Meets config (Lists type root names populated) (do
      let id ← build site inner
      Build.addTypeProperty type id
      pure (ForInStep.yield PUnit.unit))
      (fun next s => next = .yield ⟨⟩ ∧ Lists type root (names ++ [site.name]) populated s) fun _ => True := by
    intro names site inner
    rw [← bind_assoc]
    refine Meets.bind (meets_declare hb) fun _ => ?_
    exact meets_pure fun _ hs => ⟨rfl, hs⟩
  refine Meets.bind (Meets.weaken keeps_requiredNames fun _ _ => trivial) fun required s hs => ?_
  obtain ⟨hs, rfl⟩ := hs
  refine Meets.bind (Meets.weaken keeps_declaredMembers fun _ _ => trivial) (fun found s hs => ?_) s hs
  obtain ⟨hs, hfound⟩ := hs
  simp only [hfound]
  refine Meets.bind (Q := fun _ => Lists type root (declaredNames node) populated) ?_ (fun _ => ?_) s hs
  · refine meets_forIn (g := Prod.fst) (P := fun names => Lists type root names populated) (fun member names => ?_) _ []
    exact hlist names _ _
  · refine Meets.bind (Q := fun _ => Lists type root (ownNames node) populated) ?_ fun _ => ?_
    · have hown : ownNames node = declaredNames node ++ (undeclaredNames node).map fun name => name := by
        rw [List.map_id']
        rfl
      rw [hown]
      refine meets_forIn (P := fun names => Lists type root names populated) (fun name names => ?_) _ _
      exact hlist names ⟨scope, name, true, false⟩ _
    · exact meets_pure fun _ hs => hs

/-! ## Lifting -/

/-- A name that is listed stays so, whoever answers it; any other is listed and answered. -/
theorem lift_cases {source : PropertyId} {found : Option String}
    (h : (lift type combinator source).Runs config s found s') :
    (s' = s ∧ (s.graph.property source).name ∈ s.graph.names type ∧
      ∀ name ∈ found, name = (s.graph.property source).name) ∨
    (s' = s.enlisting type (lifted (s.graph.property source) combinator) ∧
      (s.graph.property source).name ∉ s.graph.names type ∧ found = some (s.graph.property source).name) := by
  unfold lift at h
  rw [runs_graph_bind] at h
  simp only at h
  rw [Graph.names_eq]
  split at h
  · rename_i existing hexisting
    obtain ⟨rfl, rfl⟩ := runs_pure.1 h
    have hname : existing.name = (s'.graph.property source).name := by simpa using List.find?_some hexisting
    obtain ⟨id, hid, rfl⟩ := List.mem_map.1 (List.mem_of_find?_eq_some hexisting)
    refine Or.inl ⟨rfl, hname ▸ List.mem_map_of_mem hid, fun name hfound => ?_⟩
    split at hfound
    · exact (Option.some.inj hfound).symm
    · cases hfound
  · rename_i hnone
    obtain ⟨id, m, hadd, hrest⟩ := runs_bind.1 h
    obtain ⟨_, m', hlist, hreturn⟩ := runs_bind.1 hrest
    obtain ⟨rfl, rfl⟩ := runs_pure.1 hreturn
    obtain ⟨rfl, rfl⟩ := runs_addProperty.1 hadd
    unfold Build.addTypeProperty Build.modifyType at hlist
    refine Or.inr ⟨runs_modifyGraph.1 hlist, fun hmem => ?_, rfl⟩
    obtain ⟨id, hid, hname⟩ := List.mem_map.1 hmem
    exact List.find?_eq_none.1 hnone _ (List.mem_map_of_mem hid) (by simpa using hname)

/-- Lifting leaves what is there, and lists the name of the property. -/
theorem runs_lift_stocked {source : PropertyId} {found : Option String} (hs : Stocked type s)
    (h : (lift type combinator source).Runs config s found s') :
    Stocked type s' ∧ s.graph.names type ⊆ s'.graph.names type ∧
      (∀ id, s.graph.HasProperty id → s'.graph.HasProperty id ∧ s'.graph.property id = s.graph.property id) ∧
      (s.graph.property source).name ∈ s'.graph.names type ∧ ∀ name ∈ found, name = (s.graph.property source).name := by
  obtain ⟨rfl, hlisted, hfound⟩ | ⟨rfl, _, rfl⟩ := lift_cases h
  · exact ⟨hs, List.Subset.refl _, fun id hid => ⟨hid, rfl⟩, hlisted, hfound⟩
  · obtain ⟨hstocked, hnames, hsame⟩ := hs.enlist (lifted (s.graph.property source) combinator)
    rw [hnames]
    refine ⟨hstocked, List.subset_append_left _ _, hsame, ?_, fun name hname => (Option.some.inj hname).symm⟩
    rw [congrArg Prod.fst (mark_lifted (s.graph.property source) combinator)]
    exact List.mem_append_right _ List.mem_cons_self

/-- Lifting lists the name that it answers, unless it is there. -/
theorem meets_lift {source : PropertyId} :
    Meets config (Lists type root (own ++ liftedNames own reached) populated) (lift type combinator source)
      (fun found => Lists type root (own ++ liftedNames own (reached ++ found.toList)) populated) fun _ => True := by
  refine fun s hs => ⟨fun found s' hrun => ?_, fun _ _ _ => trivial⟩
  obtain ⟨rfl, hlisted, hfound⟩ | ⟨rfl, hnew, rfl⟩ := lift_cases hrun
  · rw [hs.names] at hlisted
    cases found with
    | none =>
      rw [Option.toList_none, List.append_nil]
      exact hs
    | some name =>
      obtain rfl := hfound name rfl
      rw [Option.toList_some, liftedNames_concat, if_pos hlisted]
      exact hs
  · rw [hs.names] at hnew
    rw [Option.toList_some, liftedNames_concat, if_neg hnew, ← List.append_assoc]
    exact hs.enlist (congrArg Prod.fst (mark_lifted _ combinator))

/-- Lifting one property after the other lists all of their names, and answers no others. -/
theorem runs_lifts {sources : List PropertyId} {found : List (Option String)} (hs : Stocked type s)
    (hthere : ∀ source ∈ sources, s.graph.HasProperty source)
    (h : (sources.mapM (lift type combinator)).Runs config s found s') :
    s.graph.names type ⊆ s'.graph.names type ∧
      (∀ source ∈ sources, (s.graph.property source).name ∈ s'.graph.names type) ∧
      ∀ name, some name ∈ found → ∃ source ∈ sources, name = (s.graph.property source).name := by
  induction sources generalizing s found with
  | nil =>
    rw [List.mapM_nil] at h
    obtain ⟨rfl, rfl⟩ := runs_pure.1 h
    exact ⟨List.Subset.refl _, fun _ hsource => absurd hsource List.not_mem_nil,
      fun _ hname => absurd hname List.not_mem_nil⟩
  | cons source sources ih =>
    rw [List.mapM_cons] at h
    obtain ⟨first, m, hfirst, hrest⟩ := runs_bind.1 h
    obtain ⟨others, m', hothers, hreturn⟩ := runs_bind.1 hrest
    obtain ⟨rfl, rfl⟩ := runs_pure.1 hreturn
    obtain ⟨hsource, hsources⟩ := List.forall_mem_cons.1 hthere
    obtain ⟨hm, hkept, hsame, hlisted, hanswer⟩ := runs_lift_stocked hs hfirst
    obtain ⟨hgrown, hnames, hfound⟩ := ih hm (fun other hother => (hsame other (hsources other hother)).1) hothers
    refine ⟨List.Subset.trans hkept hgrown, List.forall_mem_cons.2 ⟨hgrown hlisted, fun other hother => ?_⟩,
      fun name hname => ?_⟩
    · rw [← (hsame other (hsources other hother)).2]
      exact hnames other hother
    · rcases List.mem_cons.1 hname with rfl | hname
      · exact ⟨source, List.mem_cons_self, hanswer name rfl⟩
      · obtain ⟨other, hother, rfl⟩ := hfound name hname
        exact ⟨other, List.mem_cons_of_mem _ hother,
          congrArg Property.name (hsame other (hsources other hother)).2⟩

/-- A list of computations each of which adds to what has been reached. -/
theorem meets_mapM {α β : Type} {f : α → Build β} {g : β → List String} {P : List String → Session → Prop}
    (h : ∀ a reached, Meets config (P reached) (f a) (fun b => P (reached ++ g b)) H) :
    ∀ (l : List α) (reached : List String),
      Meets config (P reached) (l.mapM f) (fun bs => P (reached ++ bs.flatMap g)) H
  | [], reached => by
    rw [List.mapM_nil]
    refine meets_pure fun s hs => ?_
    rw [List.flatMap_nil, List.append_nil]
    exact hs
  | a :: l, reached => by
    rw [List.mapM_cons]
    refine Meets.bind (h a reached) fun b => Meets.bind (meets_mapM h l _) fun bs => ?_
    refine meets_pure fun s hs => ?_
    rw [List.flatMap_cons, ← List.append_assoc]
    exact hs

theorem meets_liftBranch : Meets config (Lists type root (own ++ liftedNames own reached) populated)
    (liftBranch type id combinator)
    (fun affected => Lists type root (own ++ liftedNames own (reached ++ affected)) populated) fun _ => True := by
  have hnone : ∀ s, Lists type root (own ++ liftedNames own reached) populated s →
      Lists type root (own ++ liftedNames own (reached ++ [])) populated s := fun s hs => by
    rw [List.append_nil]
    exact hs
  unfold liftBranch
  refine Meets.bind keeps_graph.meets fun graph => ?_
  split
  · exact meets_pure hnone
  · refine Meets.bind (meets_mapM (g := Option.toList)
      (P := fun reached => Lists type root (own ++ liftedNames own reached) populated)
      (fun _ _ => meets_lift) _ reached) fun found => ?_
    refine meets_pure fun s hs => ?_
    rw [List.filterMap_eq_flatMap_toList]
    exact hs

/-- **What the type of a branch lists is listed after lifting**, and the branch populates nothing else. -/
theorem runs_liftBranch {branch : PropertyId} {nested : TypeId} {affected : List String} (hs : s.Closed)
    (htype : s.graph.HasType type) (hnested : (s.graph.property branch).nested = some nested)
    (h : (liftBranch type branch combinator).Runs config s affected s') :
    (∀ name ∈ s.graph.names (s.graph.canonical nested), name ∈ s'.graph.names type) ∧
      ∀ name ∈ affected, name ∈ s.graph.names (s.graph.canonical nested) := by
  unfold liftBranch at h
  rw [runs_graph_bind] at h
  simp only [hnested] at h
  obtain ⟨found, m, hlifts, hreturn⟩ := runs_bind.1 h
  obtain ⟨rfl, rfl⟩ := runs_pure.1 hreturn
  rw [Graph.names_eq s.graph]
  obtain ⟨_, hnames, hfound⟩ := runs_lifts ⟨htype, (hs.types type).properties⟩ (hs.types _).properties hlifts
  refine ⟨fun name hname => ?_, fun name hname => ?_⟩
  · obtain ⟨source, hsource, rfl⟩ := List.mem_map.1 hname
    exact hnames source hsource
  · obtain ⟨answer, hanswer, rfl⟩ := List.mem_filterMap.1 hname
    obtain ⟨source, hsource, rfl⟩ := hfound name hanswer
    exact List.mem_map_of_mem hsource

/-! ## Compositions -/

theorem meets_objectBranch (hb : Reliable config build) :
    Meets config (Lists type root (own ++ liftedNames own reached) populated)
      (objectBranch build scope type combinator node)
      (fun branch => Lists type root (own ++ liftedNames own (reached ++ branch.affected)) populated)
      fun _ => True := by
  unfold objectBranch
  refine Meets.bind ((abides_lists hb.confined).node _ _).meets fun property => ?_
  simp only
  split
  · refine meets_pure fun s hs => ?_
    rw [List.append_nil]
    exact hs
  · exact Meets.bind meets_liftBranch fun affected => meets_pure fun s hs => hs

/-- What is lifted from the branches of a composition is recorded in its check. -/
theorem meets_addObjectComposition (hb : Reliable config build) : Meets config (Tallies type root own)
    (addObjectComposition build scope type node combinator) (fun _ => Tallies type root own) fun _ => True := by
  rintro s ⟨populated, hs⟩
  revert s
  change Meets config (Lists type root (own ++ liftedNames own populated) populated) _ _ _
  have habides : Abides config (Lists type root (own ++ liftedNames own populated) populated) build type :=
    abides_lists hb.confined
  unfold addObjectComposition
  refine Meets.bind Keyword.detached_branches?.keeps.meets fun found => ?_
  split
  · exact meets_pure fun s hs => ⟨populated, hs⟩
  · refine Meets.bind (keeps_noteIfEmpty habides.notify).meets fun _ => ?_
    refine Meets.bind (meets_mapM (P := fun reached => Lists type root (own ++ liftedNames own reached) populated)
      (fun _ _ => meets_objectBranch hb) _ populated) fun branches => ?_
    exact Meets.imp (meets_addTypeCheck rfl) fun _ s hs => ⟨_, hs⟩

theorem meets_forM {α : Type} {f : α → Build Unit} {P : Session → Prop}
    (h : ∀ a, Meets config P (f a) (fun _ => P) H) : ∀ l : List α, Meets config P (l.forM f) (fun _ => P) H
  | [] => meets_pure fun _ hs => hs
  | a :: l => Meets.bind (h a) fun _ => meets_forM h l

theorem meets_applyObjectCompositions (hb : Reliable config build) : Meets config (Tallies type root own)
    (applyObjectCompositions build scope type node) (fun _ => Tallies type root own) fun _ => True := by
  unfold applyObjectCompositions
  refine Meets.bind (meets_forM (fun _ => meets_addObjectComposition hb) _) fun _ s hs => ?_
  obtain ⟨populated, hs⟩ := hs
  exact Meets.imp ((abides_lists hb.confined).addConditional _).meets (fun _ _ hs => ⟨populated, hs⟩) s hs

/-- **A type that is filled in lists its node's own names and behind them what its compositions populate.** -/
theorem meets_fill (hb : Reliable config build) : Meets config (Lists type root [] [])
    (fill build scope type node) (fun _ => Tallies type root (ownNames node)) fun _ => True := by
  have habides : Abides config (Lists type root (ownNames node) []) build type := abides_lists hb.confined
  unfold fill
  have hrest : Meets config (Lists type root [] []) (do
      addProperties build scope type node
      addOpenProperties build scope type node
      addPropertyNames build scope type node
      addPropertyCounts scope type node
      dependencyWords.forM (addDependencies build scope type node)
      applyObjectCompositions build scope type node) (fun _ => Tallies type root (ownNames node))
      fun _ => True := by
    refine Meets.bind (meets_addProperties hb) fun _ => Meets.bind habides.addOpenProperties.meets fun _ => ?_
    refine Meets.bind habides.addPropertyNames.meets fun _ => Meets.bind habides.addPropertyCounts.meets fun _ => ?_
    refine Meets.bind (keeps_forM fun _ _ => habides.addDependencies).meets fun _ s hs => ?_
    refine meets_applyObjectCompositions hb s ⟨[], ?_⟩
    rw [liftedNames, List.filter_nil, List.eraseDups_nil, List.append_nil]
    exact hs
  simp only
  split
  · refine Meets.bind (meets_modifyType fun s hs => ?_) fun _ => hrest
    exact hs.amend (fun _ => rfl) (fun _ => rfl) fun _ => rfl
  · exact hrest

end Building
end SchemaTypes

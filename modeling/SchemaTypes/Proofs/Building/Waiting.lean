import SchemaTypes.Proofs.Building.Collapse
import SchemaTypes.Proofs.Building.TrailNodes
import SchemaTypes.Proofs.Types.Amendments
/-!
# What becomes of placeholders

A reference to a definition that is being built gets a placeholder.  From then on it is only amended
(`Session.Deed.amends`), and only what is required gets relaxed (`Session.Deed.owes`), until the definition is complete.
Then all placeholders that wait for it are filled in, one after the other; that the definition may be one of them, as
the alias of itself, makes no difference (`Session.matches_foldl_bindOne`).

What waits for a definition has been made for a reference that met it in progress (`Session.Deeds.waits_made`).
-/
namespace SchemaTypes

/-- Whether a value is owed: the property is required, or has been relaxed as only what is required is. -/
def Property.owes (property : Property) : Bool := property.required || property.relaxed

namespace Session

open Building Property

variable {config : Config} {traced : Prop} {allowed : Bool} {s s' : Session} {id definition : PropertyId}
  {key other : DefinitionKey} {type : TypeId}

/-! ## What becomes of a placeholder -/

/-- What a deed does to a property that is there: it amends it, or completes the definition that it waits for. -/
theorem Deed.amends (h : Deed config traced s s') (hid : s.graph.HasProperty id) :
    (∃ key, s.Waits key id ∧ ∃ definition, s'.definition? key = some (.built definition)) ∨
      ∃ amendments, s'.graph.property id = (s.graph.property id).amended amendments := by
  have hsame : ∀ {later : Property}, later = s.graph.property id →
      ∃ amendments, later = (s.graph.property id).amended amendments := fun heq => ⟨[], heq⟩
  have hadd : ∀ property, (s.graph.addProperty property).2.property id = s.graph.property id := fun property => by
    rw [property_addProperty_eq, if_neg (Nat.ne_of_lt hid)]
  have hamend : ∀ (changed : PropertyId) (amendment : Amendment),
      ∃ amendments, (s.graph.modifyProperty changed fun property => property.amend amendment).property id =
        (s.graph.property id).amended amendments := by
    intro changed amendment
    rw [property_modifyProperty_eq]
    split
    · exact ⟨[amendment], rfl⟩
    · exact ⟨[], rfl⟩
  cases h with
  | notify | reserve | describe | enlist | demand | begin => exact Or.inr (hsame rfl)
  | finish _ hrun =>
    obtain ⟨_, _, _, _, hgraph⟩ := runs_finish hrun
    rw [hgraph]
    exact Or.inr (hsame rfl)
  | draft | copy | lift | recur | wait => exact Or.inr (hsame (hadd _))
  | relax changed => exact Or.inr (hamend changed .relax)
  | caption changed text => exact Or.inr (hamend changed (.describe text))
  | @complete key _ waiting definition _ hpending =>
    by_cases hmem : id ∈ waiting
    · refine Or.inl ⟨key, ⟨_, _, hpending, hmem⟩, definition, ?_⟩
      rw [definition?_completed, if_pos rfl]
    · exact Or.inr (hsame (property_completed_of_not_mem hmem))

/-- A property made for a reference to the definition.  It waits for no other one, and as long as the definition is not
built, it has only been amended. -/
structure Outstanding (s : Session) (key : DefinitionKey) (placeholder : Property) (id : PropertyId) : Prop where
  there : s.graph.HasProperty id
  only : ∀ other, s.Waits other id → other = key
  amended : (∃ definition, s.definition? key = some (.built definition)) ∨
    ∃ amendments, s.graph.property id = placeholder.amended amendments

theorem Outstanding.amended_of_inProgress {placeholder : Property} {known : Option TypeId}
    (hs : s.Outstanding key placeholder id) (hpending : s.InProgress key known) :
    ∃ amendments, s.graph.property id = placeholder.amended amendments := by
  obtain ⟨waiting, hpending⟩ := hpending
  refine hs.amended.resolve_left fun ⟨definition, hbuilt⟩ => ?_
  exact absurd (hpending.symm.trans hbuilt) nofun

theorem Outstanding.deed {placeholder : Property} (hs : s.Outstanding key placeholder id)
    (h : Deed config traced s s') : s'.Outstanding key placeholder id := by
  refine ⟨hs.there.grows h.precedes.recalls.grows, fun other hother => hs.only other (h.waits_there hs.there hother), ?_⟩
  rcases hs.amended with ⟨definition, hbuilt⟩ | ⟨amendments, hamended⟩
  · exact Or.inl ⟨definition, h.built_on hbuilt⟩
  · rcases h.amends hs.there with ⟨other, hwaits, hbuilt⟩ | ⟨more, hmore⟩
    · exact Or.inl (hs.only other hwaits ▸ hbuilt)
    · refine Or.inr ⟨amendments ++ more, ?_⟩
      rw [hmore, hamended]
      simp only [Property.amended, List.foldl_append]

theorem Outstanding.deeds {placeholder : Property} (hs : s.Outstanding key placeholder id)
    (h : Deeds config traced s s') : s'.Outstanding key placeholder id :=
  h.keeps (P := fun m => m.Outstanding key placeholder id) (fun _ _ hdeed hm => hm.deed hdeed) hs

/-! ### What is owed -/

theorem owes_foldl_bindOne (allowed : Bool) (definition id : PropertyId) : ∀ (waiting : List PropertyId) (s : Session),
    ((waiting.foldl (bindOne allowed definition) s).graph.property id).owes = (s.graph.property id).owes
  | [], _ => rfl
  | first :: rest, s => by
    refine (owes_foldl_bindOne allowed definition id rest (bindOne allowed definition s first)).trans ?_
    rw [property_bindOne]
    split
    · rfl
    · rfl

/-- A property that is there stays required, unless it is relaxed for that. -/
theorem Deed.owes (h : Deed config traced s s') (hid : s.graph.HasProperty id) :
    (s'.graph.property id).owes = (s.graph.property id).owes := by
  cases h.fate id with
  | kept hsame => rw [hsame]
  | added hnew => exact absurd hid hnew
  | relaxed hrequired hrelaxed =>
    rw [hrelaxed]
    unfold Property.owes
    rw [hrequired]
    rfl
  | captioned _ hcaptioned =>
    rw [hcaptioned]
    rfl
  | filled _ _ _ hfilled =>
    rw [hfilled]
    exact owes_foldl_bindOne _ _ _ _ _

theorem Deeds.owes (h : Deeds config traced s s') (hid : s.graph.HasProperty id) :
    (s'.graph.property id).owes = (s.graph.property id).owes :=
  (h.keeps (P := fun m => m.graph.HasProperty id ∧ (m.graph.property id).owes = (s.graph.property id).owes)
    (fun _ _ hdeed hm => ⟨hm.1.grows hdeed.precedes.recalls.grows, (hdeed.owes hm.1).trans hm.2⟩) ⟨hid, rfl⟩).2

/-! ### What waits -/

/-- What waits is there. -/
theorem Deed.waits_hasProperty (h : Deed config traced s s')
    (hs : ∀ key id, s.Waits key id → s.graph.HasProperty id) (key : DefinitionKey) (id : PropertyId)
    (hwaits : s'.Waits key id) : s'.graph.HasProperty id := by
  rcases h.waits_made hwaits with hwaits | ⟨_, property, _, _, rfl, rfl⟩
  · exact (hs key id hwaits).grows h.precedes.recalls.grows
  · exact hasProperty_addProperty s.graph property

theorem Deeds.waits_hasProperty (h : Deeds config traced s s')
    (hs : ∀ key id, s.Waits key id → s.graph.HasProperty id) :
    ∀ key id, s'.Waits key id → s'.graph.HasProperty id :=
  h.keeps (P := fun m => ∀ key id, m.Waits key id → m.graph.HasProperty id)
    (fun _ _ hdeed hm => hdeed.waits_hasProperty hm) hs

/-- **What waits has been made for a reference on the way**, unless it has waited all along. -/
theorem Deeds.waits_made (h : Deeds config traced s s') (hwaits : s'.Waits key id) : s.Waits key id ∨
    ∃ m waiting property, Deeds config traced s m ∧ m.definition? key = some (.inProgress none waiting) ∧
      Building.Holds config m key waiting property ∧ id = ⟨m.graph.properties.size⟩ ∧
      Deeds config traced (m.awaiting key waiting property) s' := by
  induction h with
  | refl => exact Or.inl hwaits
  | tail hbefore hlast ih =>
    rcases hlast.waits_made hwaits with hwaits | ⟨waiting, property, hpending, hholds, rfl, rfl⟩
    · refine (ih hwaits).imp_right ?_
      rintro ⟨m, waiting, property, hm, hpending, hholds, hid, hafter⟩
      exact ⟨m, waiting, property, hm, hpending, hholds, hid, hafter.tail hlast⟩
    · exact Or.inr ⟨_, waiting, property, hbefore, hpending, hholds, rfl, .refl⟩

/-! ## What writes keep -/

/-- A type keeps its name, and a root keeps standing for itself or not. -/
structure SameRoot (a b : ObjectType) : Prop where
  name : a.name = b.name
  isRoot : a.isRoot = b.isRoot
  redirect : b.isRoot = true → a.redirect = b.redirect

theorem sameRoot_modifyType {graph : Graph} {changed : TypeId} {f : ObjectType → ObjectType} (type : TypeId)
    (hf : SameRoot (f (graph.entry changed)) (graph.entry changed)) :
    SameRoot ((graph.modifyType changed f).entry type) (graph.entry type) := by
  rw [entry_modifyType_eq]
  split
  · rename_i h
    obtain rfl : type = changed := by cases type; cases changed; exact congrArg _ h.1
    exact hf
  · exact ⟨rfl, rfl, fun _ => rfl⟩

/-- A write reserves a type or leaves it the root that it is. -/
theorem Write.sameRoot (h : Write allowed s s') (type : TypeId) :
    SameRoot (s'.graph.entry type) (s.graph.entry type) ∨
      ¬ s.graph.HasType type ∧ (s'.graph.entry type).redirect = none := by
  have hsign : ∀ (finished : TypeId) (text : String),
      SameRoot ((signing s.graph finished text).entry type) (s.graph.entry type) := fun finished text =>
    sameRoot_modifyType type ⟨rfl, rfl, fun _ => rfl⟩
  cases h with
  | reserve namespaceName className isRoot =>
    by_cases hid : s.graph.HasType type
    · have hentry := entry_reserve_of_lt s.graph namespaceName className isRoot hid
      refine Or.inl ?_
      change SameRoot ((s.graph.reserve namespaceName className isRoot).2.entry type) _
      rw [hentry]
      exact ⟨rfl, rfl, fun _ => rfl⟩
    · refine Or.inr ⟨hid, ?_⟩
      change ((s.graph.reserve namespaceName className isRoot).2.entry type).redirect = none
      rw [entry_reserve_eq]
      split
      · rfl
      · rw [entry_of_le (Nat.le_of_not_lt hid)]
        rfl
  | describe | enlist | demand => exact Or.inl (sameRoot_modifyType type ⟨rfl, rfl, fun _ => rfl⟩)
  | finish _ hrun =>
    cases concludes_finish hrun with
    | kept => exact Or.inl (hsign _ _)
    | first => exact Or.inl (hsign _ _)
    | duplicate _ hroot =>
      refine Or.inl (sameRoot_modifyType type ⟨rfl, rfl, fun hisRoot => ?_⟩)
      exact absurd (hroot.symm.trans hisRoot) Bool.false_ne_true
  | _ => exact Or.inl ⟨rfl, rfl, fun _ => rfl⟩

/-- Roots stand for themselves. -/
def Upright (s : Session) : Prop := ∀ type, (s.graph.entry type).isRoot = true → (s.graph.entry type).redirect = none

theorem Writes.upright (h : Writes allowed s s') (hs : s.Upright) : s'.Upright := by
  refine h.keeps (P := Upright) (fun m m' hwrite hm type hroot => ?_) hs
  rcases hwrite.sameRoot type with hsame | ⟨_, hnone⟩
  · have hroot' := hsame.isRoot.symm.trans hroot
    exact (hsame.redirect hroot').trans (hm type hroot')
  · exact hnone

theorem upright_performAll (config : Config) (calls : List Call) : (performAll config calls).Upright := by
  refine (keeps_performs (P := fun s => s.Orderly config ∧ s.Upright) (fun s call hs => ?_) calls {}
    ⟨⟨closed_initial, fun _ => Property.inStep_default⟩, fun _ hroot => absurd hroot Bool.false_ne_true⟩).2
  refine ⟨hs.1.perform call, ?_⟩
  cases call with
  | register source value => exact hs.2
  | process source value => exact (hs.1.writes_process source value).upright hs.2

/-- A root keeps its name. -/
theorem Writes.sameRoot (h : Writes allowed s s') (htype : s.graph.HasType type) :
    SameRoot (s'.graph.entry type) (s.graph.entry type) := by
  refine (h.keeps (P := fun m => m.graph.HasType type ∧ SameRoot (m.graph.entry type) (s.graph.entry type))
    (fun m m' hwrite hm => ⟨hm.1.grows hwrite.grows, ?_⟩) ⟨htype, rfl, rfl, fun _ => rfl⟩).2
  have hsame := (hwrite.sameRoot type).resolve_right fun hnew => hnew.1 hm.1
  refine ⟨hsame.name.trans hm.2.name, hsame.isRoot.trans hm.2.isRoot, fun hroot => ?_⟩
  exact (hsame.redirect (hm.2.isRoot.trans hroot)).trans (hm.2.redirect hroot)

theorem Upright.className (hs : s.Upright) (hroot : (s.graph.entry type).isRoot = true) :
    s.graph.className type = (s.graph.entry type).name.className := by
  unfold Graph.className Graph.type Graph.canonical
  rw [Graph.follow_eq_self (hs type hroot)]

theorem Upright.className_writes (hs : s.Upright) (h : Writes allowed s s') (htype : s.graph.HasType type)
    (hroot : (s.graph.entry type).isRoot = true) : s'.graph.className type = s.graph.className type := by
  have hsame := h.sameRoot htype
  rw [(h.upright hs).className (hsame.isRoot.trans hroot), hs.className hroot, hsame.name]

/-! ## Filling in -/

/-- **All placeholders are filled in with the definition as it was**, though it may be one of them. -/
theorem matches_foldl_bindOne : ∀ (waiting : List PropertyId) (s : Session),
    (s.graph.property definition).InStep allowed →
    SameSource allowed ((waiting.foldl (bindOne allowed definition) s).graph.property definition)
      (s.graph.property definition) ∧
    ∀ id ∈ waiting, s.graph.HasProperty id →
      ((waiting.foldl (bindOne allowed definition) s).graph.property id).Matches
        (bound (s.graph.property id) (s.graph.property definition) allowed)
  | [], _, hstep => ⟨.refl hstep, fun _ hid => absurd hid List.not_mem_nil⟩
  | first :: rest, s, hstep => by
    have hsource : SameSource allowed ((bindOne allowed definition s first).graph.property definition)
        (s.graph.property definition) := by
      rw [property_bindOne]
      split
      · exact sameSource_bound hstep
      · exact .refl hstep
    obtain ⟨hrest, hfilled⟩ := matches_foldl_bindOne rest (bindOne allowed definition s first) hsource.inStep
    refine ⟨hrest.trans hsource, fun id hid hthere => ?_⟩
    have hthere' : (bindOne allowed definition s first).graph.HasProperty id :=
      hthere.grows (grows_modifyProperty _ _ _)
    by_cases hfirst : id = first
    · -- It is filled in at once, and what may come later changes nothing.
      have hbound : (bindOne allowed definition s first).graph.property id =
          bound (s.graph.property id) (s.graph.property definition) allowed := by
        rw [property_bindOne, if_pos ⟨congrArg _ hfirst, hthere⟩]
      by_cases hmem : id ∈ rest
      · exact (hfilled id hmem hthere').trans (bound_bound (hbound ▸ .refl _) hsource hstep)
      · rw [List.foldl_cons, property_foldl_bindOne_of_not_mem hmem, hbound]
        exact .refl _
    · have hkept : (bindOne allowed definition s first).graph.property id = s.graph.property id := by
        rw [property_bindOne, if_neg fun h => hfirst (by cases id; cases first; exact congrArg _ h.1)]
      have hmatches := hfilled id ((List.mem_cons.1 hid).resolve_left hfirst) hthere'
      rw [hkept] at hmatches
      exact hmatches.trans (bound_of_sameSource _ hsource hstep)

end Session

namespace Building

open Property

variable {config : Config} {build : Builder} {site : Site} {reference name : String} {target : Target}
  {s m t s' : Session} {id definition : PropertyId} {key : DefinitionKey} {type : TypeId} {required : Bool}
  {property : Property}

/-! ## What references make -/

theorem bears_addCheck {identifier : String} (h : Bears name identifier required property) (check : Check) :
    Bears name identifier required (property.addCheck check) := ⟨h.name, h.identifier, h.required, h.relaxed⟩

/-- A property that is made for a name bears it. -/
theorem bears_newProperty (h : (Build.newProperty name required).Runs config s property s') : s' = s ∧
    ∃ identifier, Naming.identifier? name = some identifier ∧ property = { name, identifier, required } := by
  unfold Build.newProperty at h
  split at h
  · rename_i identifier hsome
    obtain ⟨rfl, rfl⟩ := Build.runs_pure.1 h
    exact ⟨rfl, identifier, hsome, rfl⟩
  · exact absurd h Build.not_runs_refuse

/-- The property of an instance, field by field. -/
structure Instantiates (allowed : Bool) (type : TypeId) (className : String) (property : Property) : Prop where
  label : property.label = some (.single className)
  default : property.default = none
  description : property.description = none
  decorators : property.decorators = [.instantiates type]
  nested : property.nested = some type
  strict : property.strict = false
  demands : property.demands = instanceDemands type
  inStep : property.InStep allowed

theorem Instantiates.sameContent {allowed : Bool} {className : String} {a b : Property}
    (ha : Instantiates allowed type className a) (hb : Instantiates allowed type className b) : a.SameContent b :=
  ⟨ha.label.trans hb.label.symm, ha.default.trans hb.default.symm, ha.decorators.trans hb.decorators.symm,
    ha.nested.trans hb.nested.symm, ha.strict.trans hb.strict.symm, ha.demands.trans hb.demands.symm⟩

theorem instantiates_instanceProperty (h : (instanceProperty name type required).Runs config s property s') :
    s' = s ∧ Instantiates config.settings.implicitNull type (s.graph.className type) property ∧
      ∃ identifier, Naming.identifier? name = some identifier ∧ Bears name identifier required property := by
  obtain ⟨rfl, _, hdemands⟩ := Env.runs_instanceProperty h
  unfold instanceProperty at h
  rw [Build.runs_graph_bind] at h
  obtain ⟨fresh, m, hnew, hrest⟩ := Build.runs_bind.1 h
  obtain ⟨rfl, identifier, hsome, rfl⟩ := bears_newProperty hnew
  rw [Build.runs_bind_of_iff fun _ _ => Build.runs_allowsNull] at hrest
  obtain ⟨rfl, -⟩ := Build.runs_pure.1 hrest
  generalize hbase : Property.mk name identifier (some (.single (m.graph.className type))) required none none {}
    [.instantiates type] (some type) false false = base
  have hdraft : (if base.needsPresence then base.addCheck .required else base).InStep config.settings.implicitNull :=
    inStep_of_regular fun v hv => by
      rw [← hbase] at hv
      cases hv
  have hnull : (Check.type [.object] (config.settings.implicitNull && !required)).withNull
      (base.settlesNull config.settings.implicitNull) = .type [.object] (config.settings.implicitNull && !required) := by
    rw [← hbase]
    simp [Check.withNull, settlesNull]
  cases required with
  | true =>
    subst hbase
    have htyped := hdraft.addCheck rfl hnull
    have hinstance : (Check.instanceOf type).isRequired = false := rfl
    exact ⟨rfl, ⟨rfl, rfl, rfl, rfl, rfl, rfl, hdemands, htyped.addCheck hinstance rfl⟩, identifier, hsome,
      rfl, rfl, rfl, rfl⟩
  | false =>
    subst hbase
    have htyped := hdraft.addCheck rfl hnull
    have hinstance : (Check.instanceOf type).isRequired = false := rfl
    exact ⟨rfl, ⟨rfl, rfl, rfl, rfl, rfl, rfl, hdemands, htyped.addCheck hinstance rfl⟩, identifier, hsome,
      rfl, rfl, rfl, rfl⟩

/-- A placeholder of what has no type yet is new, and waits. -/
theorem runs_placeholder_waiting {waiting : List PropertyId}
    (h : (placeholder key site reference none waiting).Runs config s id s') : ∃ identifier property,
    Naming.identifier? site.name = some identifier ∧ Bears site.name identifier site.required property ∧
      property.description = none ∧ id = ⟨s.graph.properties.size⟩ ∧ s' = s.awaiting key waiting property := by
  unfold placeholder at h
  obtain ⟨property, m, hpresent, hrest⟩ := Build.runs_bind.1 h
  unfold Build.presentProperty at hpresent
  obtain ⟨fresh, m', hnew, hreturn⟩ := Build.runs_bind.1 hpresent
  obtain ⟨rfl, identifier, hsome, rfl⟩ := bears_newProperty hnew
  obtain ⟨rfl, rfl⟩ := Build.runs_pure.1 hreturn
  obtain ⟨id', m', hadd, hrest'⟩ := Build.runs_bind.1 hrest
  obtain ⟨rfl, rfl⟩ := Build.runs_addProperty.1 hadd
  rw [Build.runs_modify_bind] at hrest'
  obtain ⟨rfl, rfl⟩ := Build.runs_pure.1 hrest'
  have hbears : Bears site.name identifier site.required
      ({ name := site.name, identifier, required := site.required } : Property) := ⟨rfl, rfl, rfl, rfl⟩
  refine ⟨identifier, _, hsome, bears_addCheck ?_ _, ?_, rfl, rfl⟩
  · split
    · exact bears_addCheck hbears _
    · exact hbears
  · split
    · rfl
    · rfl

/-- A reference to a definition that is built adds a copy. -/
theorem runs_refer_built {identifier : String}
    (htarget : targetIn? s.documents site.scope.document reference = some target)
    (hbuilt : s.definition? target.key = some (.built definition))
    (hidentifier : Naming.identifier? site.name = some identifier) :
    (refer build site reference).Runs config s
      (s.graph.addProperty (copied (s.graph.property definition) site.name identifier site.required
        config.settings.implicitNull)).1
      (s.withGraph (s.graph.addProperty (copied (s.graph.property definition) site.name identifier site.required
        config.settings.implicitNull)).2) := by
  unfold refer
  refine Build.runs_bind.2 ⟨target, s, runs_locate.2 ⟨htarget, rfl⟩, ?_⟩
  rw [Build.runs_get_bind, hbuilt]
  unfold copy
  rw [Build.runs_bind_of_iff fun _ _ => Build.runs_getProperty, hidentifier]
  simp only
  rw [Build.runs_read_bind]
  exact Build.runs_addProperty.2 ⟨rfl, rfl⟩

/-- A reference to a definition in progress makes a placeholder. -/
theorem runs_refer_pending {known : Option TypeId} {waiting : List PropertyId}
    (htarget : targetIn? s.documents site.scope.document reference = some target)
    (hpending : s.definition? target.key = some (.inProgress known waiting)) :
    (refer build site reference).Runs config s id s' ↔
      (placeholder target.key site reference known waiting).Runs config s id s' := by
  unfold refer
  constructor
  · intro h
    obtain ⟨found, m, hlocate, hrest⟩ := Build.runs_bind.1 h
    obtain ⟨hfound, rfl⟩ := runs_locate.1 hlocate
    obtain rfl : target = found := Option.some.inj (htarget.symm.trans hfound)
    rw [Build.runs_get_bind, hpending] at hrest
    exact hrest
  · intro h
    refine Build.runs_bind.2 ⟨target, s, runs_locate.2 ⟨htarget, rfl⟩, ?_⟩
    rw [Build.runs_get_bind, hpending]
    exact h

end Building
end SchemaTypes

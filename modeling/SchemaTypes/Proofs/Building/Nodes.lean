import SchemaTypes.Building.Nodes
import SchemaTypes.Proofs.Building.Objects
/-!
# Contracts of references and nodes

A reference to a definition nobody has built begins it, builds its node in the definition's own document, and
completes it.  On the way its key is in progress, and everything the node refers to is led to from there.  An
alias could be completed by a placeholder only if what it stands for were in progress, and then that would lead
back to the alias (`Guards.settled`).

`accepts_property` closes the recursion: every bound keeps the contract, in every environment.
-/
namespace SchemaTypes.Building

/-- A reference is located in the document it stands in. -/
theorem runs_locate {config : Config} {scope : Scope} {reference : String} {target : Target} {s s' : Session} :
    (locate scope reference).Runs config s target s' ↔
      targetIn? s.documents scope.document reference = some target ∧ s' = s := by
  unfold locate
  rw [Build.runs_get_bind, target?_eq]
  split
  · rename_i found hfound
    rw [Build.runs_pure, hfound, Option.some.injEq]
    exact and_congr_left fun _ => eq_comm
  · rename_i hnone
    rw [hnone]
    constructor
    · exact fun h => absurd h Build.not_runs_refuse
    · exact fun h => nomatch h.1

namespace Env

variable {env : Env} {node : Json} {build : Builder} {site : Site} {s m s' : Session} {target : Target}
  {reference : String} {id definition : PropertyId}

/-! ## Runs of the parts -/

theorem runs_bind_one {placeholder : PropertyId} {u : Unit} :
    (bind definition placeholder).Runs env.config s u s' ↔
      s' = s.bindOne env.allowed definition placeholder := by
  unfold bind
  rw [Build.runs_bind_of_iff fun _ _ => Build.runs_getProperty]
  simp only
  rw [Build.runs_read_bind]
  exact Build.runs_modifyGraph

theorem runs_bind_all {u : Unit} (waiting : List PropertyId) :
    (waiting.forM (bind definition)).Runs env.config s u s' ↔
      s' = waiting.foldl (Session.bindOne env.allowed definition) s := by
  induction waiting generalizing s with
  | nil =>
    change (pure () : Build Unit).Runs env.config s u s' ↔ _
    rw [Build.runs_pure]
    exact ⟨fun h => h.2, fun h => ⟨rfl, h⟩⟩
  | cons first rest ih =>
    change (bind definition first >>= fun _ => rest.forM (bind definition)).Runs env.config s u s' ↔ _
    rw [Build.runs_bind]
    constructor
    · rintro ⟨_, m, hfirst, hrest⟩
      obtain rfl := runs_bind_one.1 hfirst
      exact ih.1 hrest
    · intro h
      exact ⟨(), _, runs_bind_one.2 rfl, ih.2 h⟩

theorem runs_complete {key : DefinitionKey} {type : Option TypeId} {waiting : List PropertyId} {u : Unit}
    (hpending : s.definition? key = some (.inProgress type waiting)) :
    (complete key definition).Runs env.config s u s' ↔
      s' = s.completed env.allowed key definition waiting := by
  unfold complete
  rw [Build.runs_get_bind]
  simp only
  rw [Build.runs_modify_bind, hpending]
  exact runs_bind_all waiting

/-! ## Copies and placeholders -/

/-- What a reference leaves: a property that waits for nothing, or one that waits for its target. -/
def LeavesTarget (env : Env) (reference : String) (id : PropertyId) (s : Session) : Prop :=
  env.tidy → s.Settled id ∨ ∃ target,
    targetIn? s.documents env.document reference = some target ∧ s.InProgress target.key none

theorem runs_copy (hs : env.Holds s) {key : DefinitionKey}
    (hbuilt : s.definition? key = some (.built definition))
    (h : (copy definition site).Runs env.config s id s') :
    env.After s s' ∧ (env.tidy → s'.Settled id) := by
  unfold copy at h
  rw [Build.runs_bind_of_iff fun _ _ => Build.runs_getProperty] at h
  split at h
  · exact absurd h Build.not_runs_refuse
  · rename_i identifier _
    simp only at h
    rw [Build.runs_read_bind] at h
    obtain ⟨rfl, rfl⟩ := Build.runs_addProperty.1 h
    refine ⟨.of_step (.copy site.name identifier site.required hbuilt) (fun _ => rfl) fun _ _ => rfl, fun htidy => ?_⟩
    refine ⟨by simp [Graph.addProperty], ?_⟩
    refine (congrArg Property.defers (Graph.property_addProperty _ _)).trans ?_
    exact (defers_copied _ _ _ _ _).trans ((hs.guards htidy).sound.built key definition hbuilt).defers

/-- A placeholder of a type that is known is its instance. -/
theorem runs_placeholder_some {config : Config} {key : DefinitionKey} {type : TypeId}
    {waiting : List PropertyId}
    (h : (placeholder key site reference (some type) waiting).Runs config s id s') :
    ∃ property : Property, property.defers = false ∧ property.demands = instanceDemands type ∧
      id = (s.graph.addProperty property).1 ∧ s' = s.withGraph (s.graph.addProperty property).2 := by
  unfold placeholder at h
  obtain ⟨property, m, hinstance, hadd⟩ := Build.runs_bind.1 h
  obtain ⟨rfl, hclean, hdemands⟩ := runs_instanceProperty hinstance
  obtain ⟨rfl, rfl⟩ := Build.runs_addProperty.1 hadd
  exact ⟨property, hclean, hdemands, rfl, rfl⟩

/-- Any other placeholder waits. -/
theorem runs_placeholder_none {config : Config} {key : DefinitionKey} {waiting : List PropertyId}
    (h : (placeholder key site reference none waiting).Runs config s id s') :
    ∃ property : Property, property.defers = true ∧ id = ⟨s.graph.properties.size⟩ ∧
      s' = s.awaiting key waiting property := by
  unfold placeholder at h
  obtain ⟨property, m, hpresent, hrest⟩ := Build.runs_bind.1 h
  obtain rfl : m = s := by
    unfold Build.presentProperty at hpresent
    obtain ⟨fresh, m', hnew, hreturn⟩ := Build.runs_bind.1 hpresent
    obtain ⟨rfl, _⟩ := runs_newProperty hnew
    exact (Build.runs_pure.1 hreturn).2
  obtain ⟨id', m', hadd, hrest'⟩ := Build.runs_bind.1 hrest
  obtain ⟨rfl, rfl⟩ := Build.runs_addProperty.1 hadd
  rw [Build.runs_modify_bind] at hrest'
  obtain ⟨rfl, rfl⟩ := Build.runs_pure.1 hrest'
  exact ⟨property.addCheck (.deferred reference), Property.defers_addCheck _ _, rfl, rfl⟩

theorem inProgress_awaiting {key : DefinitionKey} {waiting : List PropertyId} (property : Property)
    (hpending : s.definition? key = some (.inProgress none waiting)) (other : DefinitionKey)
    (type : Option TypeId) :
    (s.awaiting key waiting property).InProgress other type ↔ s.InProgress other type := by
  unfold Session.InProgress
  rw [Session.definition?_awaiting]
  split
  · rename_i heq
    subst heq
    rw [hpending]
    constructor
    · rintro ⟨_, hsome⟩
      cases hsome
      exact ⟨_, rfl⟩
    · rintro ⟨_, hsome⟩
      cases hsome
      exact ⟨_, rfl⟩
  · rfl

/-- A placeholder is one step, and is settled or waits for its target. -/
theorem runs_placeholder {type : Option TypeId} {waiting : List PropertyId}
    (htarget : targetIn? s.documents env.document reference = some target)
    (hpending : s.definition? target.key = some (.inProgress type waiting))
    (h : (placeholder target.key site reference type waiting).Runs env.config s id s') :
    env.After s s' ∧ env.LeavesTarget reference id s' := by
  cases type with
  | some type =>
    obtain ⟨property, hclean, _, rfl, rfl⟩ := runs_placeholder_some h
    refine ⟨.of_step (.add hclean) (fun _ => rfl) fun _ _ => rfl, fun _ => Or.inl ⟨?_, ?_⟩⟩
    · simp [Graph.addProperty, Session.withGraph]
    · exact (congrArg Property.defers (Graph.property_addProperty _ _)).trans hclean
  | none =>
    obtain ⟨property, hdefers, rfl, rfl⟩ := runs_placeholder_none h
    have hinProgress := inProgress_awaiting property hpending
    refine ⟨⟨.single (.wait hpending hdefers), hinProgress, fun _ _ => rfl⟩, fun _ => Or.inr ⟨target, htarget, ?_⟩⟩
    exact (hinProgress target.key none).2 ⟨waiting, hpending⟩

/-! ## Definitions -/

/-- The environment in which a definition's node is built. -/
def inside (env : Env) (target : Target) : Env :=
  { env with document := target.key.document, spelled := references target.node }

theorem inProgress_begin {key : DefinitionKey} (hnone : s.definition? key = none) (type : Option TypeId)
    (other : DefinitionKey) (found : Option TypeId) :
    (s.setDefinition key (.inProgress type [])).InProgress other found ↔
      s.InProgress other found ∨ (other = key ∧ found = type) := by
  unfold Session.InProgress
  rw [Session.definition?_setDefinition]
  split
  · rename_i heq
    subst heq
    rw [hnone]
    constructor
    · rintro ⟨_, hsome⟩
      cases hsome
      exact Or.inr ⟨rfl, rfl⟩
    · rintro (⟨_, hsome⟩ | ⟨_, rfl⟩)
      · cases hsome
      · exact ⟨[], rfl⟩
  · rename_i hne
    constructor
    · exact Or.inl
    · rintro (h | ⟨heq, _⟩)
      · exact h
      · exact absurd heq hne

/-- A definition that is met is led to by everything in progress, and leads to what its node refers to. -/
theorem Guards.begin (h : env.Guards s) (hmem : reference ∈ env.spelled)
    (htarget : targetIn? s.documents env.document reference = some target)
    (hnone : s.definition? target.key = none) {type : Option TypeId}
    (htype : type = none → Keyword.isObject target.node = false) :
    (env.inside target).Guards (s.setDefinition target.key (.inProgress type [])) := by
  have hnode := nodeAt?_target h.distinct htarget
  refine ⟨h.sound.begin hnone type, h.distinct, h.noAliasCycle, fun key hkey => ?_,
    fun key hkey other hother found hfound => ?_⟩
  · rcases (inProgress_begin hnone type key none).1 hkey with hkey | ⟨rfl, hplain⟩
    · exact h.plain key hkey
    · exact ⟨target.node, hnode, htype hplain.symm⟩
  · have hrefers : Refers s.documents target.key found.key :=
      ⟨target.node, hnode, other, hother, found, hfound, rfl⟩
    rcases (inProgress_begin hnone type key none).1 hkey with hkey | ⟨rfl, _⟩
    · exact (h.leads key hkey reference hmem target htarget).tail hrefers
    · exact .single hrefers

/-- **An alias is not completed by a placeholder**: what it stands for would be in progress and lead back to
it. -/
theorem Guards.settled (h : env.Guards s) (hmem : reference ∈ env.spelled)
    (htarget : targetIn? s.documents env.document reference = some target)
    (hnone : s.definition? target.key = none) (hplain : Keyword.isObject target.node = false)
    (hdocuments : s'.documents = s.documents)
    (hinProgress : ∀ key type, s'.InProgress key type ↔
      (s.setDefinition target.key (.inProgress none [])).InProgress key type)
    (hleaves : s'.Settled id ∨ ∃ own found, target.node.get? "$ref" = some (.string own) ∧
      targetIn? s'.documents target.key.document own = some found ∧ s'.InProgress found.key none) :
    s'.Settled id := by
  rcases hleaves with hsettled | ⟨own, found, hown, hfound, hpending⟩
  · exact hsettled
  · exfalso
    rw [hdocuments] at hfound
    have hnode := nodeAt?_target h.distinct htarget
    have halias : IsAlias s.documents target.key found.key :=
      ⟨target.node, hnode, hplain, own, found, hown, hfound, rfl⟩
    rcases (inProgress_begin hnone none found.key none).1 ((hinProgress _ _).1 hpending) with hkey | ⟨hkey, _⟩
    · exact h.noAliasCycle _ _ halias (h.plain found.key hkey) (h.leads found.key hkey reference hmem target htarget)
    · refine h.noAliasCycle _ _ halias ?_ ?_
      · rw [hkey]
        exact ⟨target.node, hnode, hplain⟩
      · rw [hkey]
        exact .single ⟨target.node, hnode, own, mem_references_of_get hown, found, hfound, hkey⟩

/-- Completing a definition after its node has been built from where it was begun. -/
theorem runs_complete_begun {key : DefinitionKey} {type : Option TypeId} {u : Unit}
    (hnone : s.definition? key = none)
    (hsteps : Session.Steps env.tidy env.allowed env.floor (s.setDefinition key (.inProgress type [])) m)
    (hinProgress : ∀ other found, m.InProgress other found ↔
      (s.setDefinition key (.inProgress type [])).InProgress other found)
    (hcompletes : env.tidy → m.Completes key type definition)
    (h : (complete key definition).Runs env.config m u s') :
    Session.Steps env.tidy env.allowed env.floor s s' ∧
      (∀ other found, s'.InProgress other found ↔ s.InProgress other found) ∧
      (∀ id, s'.graph.entry id = m.graph.entry id) ∧ s'.definition? key = some (.built definition) := by
  obtain ⟨waiting, hpending⟩ := (hinProgress key type).2 ((inProgress_begin hnone type key type).2 (Or.inr ⟨rfl, rfl⟩))
  obtain rfl := (runs_complete hpending).1 h
  refine ⟨?_, fun other found => ?_, fun id => ?_, ?_⟩
  · exact (Relation.ReflTransGen.single (.begin type hnone)).trans (hsteps.tail (.complete hpending hcompletes))
  · unfold Session.InProgress
    rw [Session.definition?_completed]
    split
    · rename_i heq
      subst heq
      rw [hnone]
      constructor
      · rintro ⟨_, hsome⟩
        cases hsome
      · rintro ⟨_, hsome⟩
        cases hsome
    · rename_i hne
      have hother := hinProgress other found
      rw [inProgress_begin hnone] at hother
      exact hother.trans ⟨fun h => h.resolve_right fun h => hne h.1, Or.inl⟩
  · unfold Session.completed Graph.entry
    rw [Session.types_foldl_bindOne]
    rfl
  · rw [Session.definition?_completed, if_pos rfl]

/-- **A definition is built once and for good**: it is begun where nothing was known of it, and built at the
end. -/
theorem runs_define (hb : (env.inside target).Accepts build) (hs : env.Holds s) (hmem : reference ∈ env.spelled)
    (htarget : targetIn? s.documents env.document reference = some target)
    (hnone : s.definition? target.key = none)
    (h : (define build target).Runs env.config s definition s') :
    env.After s s' ∧ s'.definition? target.key = some (.built definition) := by
  unfold define at h
  simp only at h
  split at h
  · obtain ⟨found, m, hreserve, hrest⟩ := Build.runs_bind.1 h
    obtain ⟨type, hreserved, rfl⟩ := Build.runs_map.1 hreserve
    obtain ⟨hafter, hdefinitions, hnew, hu⟩ := runs_reserveFor hs hreserved
    rw [Build.runs_modify_bind] at hrest
    obtain ⟨built, m', hobject, hrest⟩ := Build.runs_bind.1 hrest
    obtain ⟨_, m'', hcomplete, hreturn⟩ := Build.runs_bind.1 hrest
    obtain ⟨rfl, rfl⟩ := Build.runs_pure.1 hreturn
    have hnone' : m.definition? target.key = none := by
      unfold Session.definition?
      rw [hdefinitions]
      exact hnone
    have htarget' : targetIn? m.documents env.document reference = some target :=
      hafter.steps.documents ▸ htarget
    have hholds := hs.after hafter
    have hinside : (env.inside target).Holds (m.setDefinition target.key (.inProgress (some type) [])) :=
      ⟨hholds.floor, fun htidy => (hholds.guards htidy).begin hmem htarget' hnone' fun hsome => nomatch hsome⟩
    have hu' : (env.inside target).Unfinished (m.setDefinition target.key (.inProgress (some type) [])) type :=
      ⟨hu.floor, hu.lt, hu.signature⟩
    obtain ⟨hfinished, hsettled, hrepresents⟩ := runs_objectInto hb rfl (List.Subset.refl _) hinside hu' hobject
    have hcompletes : env.tidy → m'.Completes target.key (some type) definition := by
      refine fun htidy => ⟨hsettled, fun known heq hbare => ?_⟩
      cases heq
      rw [hfinished.steps.documents] at hbare
      exact hrepresents (hbare target.node (nodeAt?_target (hholds.guards htidy).distinct htarget'))
    obtain ⟨hsteps, hinProgress, hentry, hbuilt⟩ := runs_complete_begun hnone' hfinished.steps
      hfinished.inProgress hcompletes hcomplete
    have hfinished' : env.AfterFinishing type m s' :=
      ⟨hsteps, hinProgress, fun id hid hne => by rw [hentry]; exact hfinished.signature id hid hne⟩
    exact ⟨hafter.finishing hnew hfinished', hbuilt⟩
  · rename_i hplain
    have hplain : Keyword.isObject target.node = false := Bool.eq_false_iff.2 hplain
    rw [Build.runs_pure_bind, Build.runs_modify_bind] at h
    obtain ⟨built, m, hnode, hrest⟩ := Build.runs_bind.1 h
    obtain ⟨_, m', hcomplete, hreturn⟩ := Build.runs_bind.1 hrest
    obtain ⟨rfl, rfl⟩ := Build.runs_pure.1 hreturn
    have hinside : (env.inside target).Holds (s.setDefinition target.key (.inProgress none [])) :=
      ⟨hs.floor, fun htidy => (hs.guards htidy).begin hmem htarget hnone fun _ => hplain⟩
    obtain ⟨hafter, hleaves⟩ := hb _ target.node rfl (List.Subset.refl _) hinside hnode
    have hcompletes : env.tidy → m.Completes target.key none definition := fun htidy =>
      ⟨(hs.guards htidy).settled hmem htarget hnone hplain hafter.steps.documents hafter.inProgress (hleaves htidy),
        fun known hsome => nomatch hsome⟩
    obtain ⟨hsteps, hinProgress, hentry, hbuilt⟩ := runs_complete_begun hnone hafter.steps hafter.inProgress
      hcompletes hcomplete
    exact ⟨⟨hsteps, hinProgress, fun id hid => by rw [hentry]; exact hafter.signature id hid⟩, hbuilt⟩

/-! ## Nodes -/

theorem ensures_refer (hb : ∀ target : Target, (env.inside target).Accepts build)
    (hd : site.scope.document = env.document) (hmem : reference ∈ env.spelled) :
    env.Ensures (refer build site reference) (env.LeavesTarget reference) := by
  intro s id s' hs hrun
  unfold refer at hrun
  obtain ⟨target, m, hlocate, hrest⟩ := Build.runs_bind.1 hrun
  obtain ⟨htarget, rfl⟩ := runs_locate.1 hlocate
  rw [hd] at htarget
  rw [Build.runs_get_bind] at hrest
  split at hrest
  · rename_i definition hbuilt
    obtain ⟨hafter, hsettled⟩ := runs_copy hs hbuilt hrest
    exact ⟨hafter, fun htidy => Or.inl (hsettled htidy)⟩
  · rename_i type waiting hpending
    exact runs_placeholder htarget hpending hrest
  · rename_i hnone
    obtain ⟨definition, m', hdefine, hcopy⟩ := Build.runs_bind.1 hrest
    obtain ⟨hdefined, hbuilt⟩ := runs_define (hb target) hs hmem htarget hnone hdefine
    obtain ⟨hcopied, hsettled⟩ := runs_copy (hs.after hdefined) hbuilt hcopy
    exact ⟨hdefined.trans hcopied, fun htidy => Or.inl (hsettled htidy)⟩

theorem ensures_complement (hb : env.Accepts build) (hd : site.scope.document = env.document)
    (hr : references node ⊆ env.spelled) {property : Property} (hclean : property.defers = false) :
    env.Ensures (complement build site node property) fun id s => s.Settled id := by
  unfold complement
  refine (ensures_applyValueKeywords hclean).bind fun property hproperty => ?_
  exact (ensures_applyCompositions hb hd hr hproperty).bind fun property hproperty =>
    ensures_addProperty hproperty

theorem defers_inferEnumeration {property : Property} (hclean : property.defers = false) (values : List Json) :
    (inferEnumeration property values).defers = false := by
  unfold inferEnumeration
  simp only
  split
  · exact hclean
  · exact (property.defers_addDecorator _).trans hclean

theorem ensures_untypedEnumeration (hb : env.Accepts build) (hd : site.scope.document = env.document)
    (hr : references node ⊆ env.spelled) :
    env.Ensures (untypedEnumeration build site node) fun id s => s.Settled id := by
  unfold untypedEnumeration
  refine ensures_presentProperty.bind fun property hproperty => ?_
  refine ensures_enumeration?.andThen fun found => ensures_complement hb hd hr ?_
  cases found with
  | none => exact hproperty
  | some values => exact defers_inferEnumeration hproperty values

theorem ensures_untypedConstant (hb : env.Accepts build) (hd : site.scope.document = env.document)
    (hr : references node ⊆ env.spelled) (value : Json) :
    env.Ensures (untypedConstant build site node value) fun id s => s.Settled id := by
  unfold untypedConstant
  exact ensures_presentProperty.bind fun property hproperty => ensures_complement hb hd hr hproperty

theorem ensures_untyped (hb : env.Accepts build) (hd : site.scope.document = env.document)
    (hr : references node ⊆ env.spelled) :
    env.Ensures (untyped build site node) fun id s => s.Settled id := by
  unfold untyped
  exact ensures_presentProperty.bind fun property hproperty => ensures_complement hb hd hr hproperty

theorem ensures_typed (hb : env.Accepts build) (hd : site.scope.document = env.document)
    (hr : references node ⊆ env.spelled) (word : String) :
    env.Ensures (typed build site node word) fun id s => s.Settled id := by
  unfold typed
  split
  · exact ensures_refuse
  · exact ensures_object hb hd hr
  · exact (ensures_ofKind hb hd hr _).bind fun property hproperty => ensures_complement hb hd hr hproperty

/-- The description beside a reference changes nothing that matters here. -/
theorem ensures_referred (hb : ∀ target : Target, (env.inside target).Accepts build)
    (hd : site.scope.document = env.document) {value : Json}
    (hmem : ∀ text, value = .string text → text ∈ env.spelled) :
    env.Ensures (referred build site node value) fun id s =>
      ∃ text, value = .string text ∧ env.LeavesTarget text id s := by
  unfold referred
  split
  · rename_i text
    intro s id s' hs hrun
    obtain ⟨found, m, hrefer, hrest⟩ := Build.runs_bind.1 hrun
    obtain ⟨hafter, hleaves⟩ := ensures_refer hb (by exact hd) (hmem text rfl) hs hrefer
    simp only at hrest
    split at hrest
    · rename_i description _
      have hkeeps : ∀ property : Property,
          ({ property with description := some description }).defers = property.defers ∧
            ({ property with description := some description }).demands = property.demands :=
        fun property => ⟨rfl, rfl⟩
      obtain ⟨_, m', hdescribe, hreturn⟩ := Build.runs_bind.1 hrest
      obtain ⟨rfl, rfl⟩ := Build.runs_pure.1 hreturn
      obtain ⟨hdescribed, _⟩ := ensures_amend hkeeps (hs.after hafter) hdescribe
      refine ⟨hafter.trans hdescribed, text, rfl, fun htidy => ?_⟩
      obtain rfl := Build.runs_modifyGraph.1 hdescribe
      rcases hleaves htidy with hsettled | hpending
      · refine Or.inl ⟨Nat.lt_of_lt_of_eq hsettled.lt (Session.size_modifyProperty _ _ _).symm, ?_⟩
        change ((m.graph.modifyProperty id _).property id).defers = false
        rw [Session.property_modifyProperty_eq]
        split
        · exact hsettled.defers
        · exact hsettled.defers
      · exact Or.inr hpending
    · obtain ⟨rfl, rfl⟩ := Build.runs_pure.1 hrest
      exact ⟨hafter, text, rfl, hleaves⟩
  · exact ensures_malformed

theorem ensures_nodeProperty (hb : env.Accepts build) (hi : ∀ target : Target, (env.inside target).Accepts build)
    (hd : site.scope.document = env.document) (hr : references node ⊆ env.spelled) :
    env.Ensures (nodeProperty build site node) (env.Leaves node) := by
  unfold nodeProperty
  refine ensures_normalize.bind fun normal hnormal => ?_
  obtain ⟨hsubset, hsame⟩ := hnormal
  have hr : references normal ⊆ env.spelled := List.Subset.trans hsubset hr
  have hsettles : ∀ {x : Build PropertyId}, env.Ensures x (fun id s => s.Settled id) →
      env.Ensures x (env.Leaves node) := fun h => h.imp fun _ _ hsettled _ => Or.inl hsettled
  split
  · rename_i value hget
    refine (ensures_referred hi hd fun text htext => ?_).imp fun id s hreferred htidy => ?_
    · subst htext
      exact hr (mem_references_of_get hget)
    · obtain ⟨text, rfl, hleaves⟩ := hreferred
      rcases hleaves htidy with hsettled | ⟨target, htarget, hpending⟩
      · exact Or.inl hsettled
      · exact Or.inr ⟨text, target, hsame _ hget ▸ hget, htarget, hpending⟩
  · split
    · exact hsettles (ensures_typed hb hd hr _)
    · exact hsettles (ensures_union hb hd hr)
    · exact ensures_malformed
    · split
      · exact hsettles (ensures_object hb hd hr)
      · split
        · exact hsettles (ensures_untypedConstant hb hd hr _)
        · split
          · exact hsettles (ensures_untypedEnumeration hb hd hr)
          · exact hsettles (ensures_untyped hb hd hr)

/-- **Every bound keeps the contract in every environment.** -/
theorem accepts_property : ∀ (bound : Nat) (env : Env), env.Accepts (property bound)
  | 0, _ => fun _ _ _ _ _ _ _ _ hrun => absurd hrun Build.not_runs_throw
  | bound + 1, env => fun _ _ hd hr =>
    ensures_nodeProperty (accepts_property bound env) (fun target => accepts_property bound (env.inside target)) hd hr

end Env
end SchemaTypes.Building

import SchemaTypes.Proofs.Building.Trails
/-!
# Filling a type in, deed by deed

While a type is filled in, it comes to list what its node declares and requires, and behind that what is lifted from its
branches.  The name of a lifted property is looked up in the list as it is by then, and listing anything else later
changes nothing about the names that are there.  So when a composition is added to the type, each of its branches knows
all names that it populates (`Trail.runs_objectBranch`).

A branch that refers back to a definition which is still being built is the exception: the list of a type that is not
finished says nothing yet about what it will be.
-/
namespace SchemaTypes.Building
namespace Trail

variable {trail : Trail} {build : Builder} {scope : Scope} {name keyword : String} {node : Json} {type nested : TypeId}
  {id source : PropertyId} {combinator : Combinator} {s m s' : Session}

/-! ## Declared properties -/

/-- A property is built and listed. -/
theorem does_declare {α : Type} {a : α} (hmem : type ∈ trail.filling) (hb : trail.Accepts build) {site : Site}
    (hd : site.scope.document = trail.document) (hr : references node ⊆ trail.spelled) :
    trail.Does (do
      let id ← build site node
      Build.addTypeProperty type id
      pure a) fun _ => True := by
  intro s _ s' hs hrun
  obtain ⟨id, m, hbuild, hrest⟩ := Build.runs_bind.1 hrun
  obtain ⟨_, m', hadd, hreturn⟩ := Build.runs_bind.1 hrest
  obtain ⟨rfl, rfl⟩ := Build.runs_pure.1 hreturn
  obtain ⟨hafter, hown⟩ := hb.makes site node hd hr hs hbuild
  exact ⟨hafter.trans (after_addTypeProperty hmem (hs.after hafter) (fun htraced => (hown htraced).hasProperty) hadd),
    trivial⟩

theorem does_addProperties (hmem : type ∈ trail.filling) (hb : trail.Accepts build)
    (hd : scope.document = trail.document) (hr : references node ⊆ trail.spelled) :
    trail.Does (addProperties build scope type node) fun _ => True := by
  unfold addProperties
  refine does_of_detached Keyword.detached_requiredNames fun required => ?_
  refine does_members?.bind fun found hfound => ?_
  simp only
  refine Does.andThen (q := fun _ => True) (does_forIn fun member hmember _ => ?_) fun _ => ?_
  · exact does_declare hmem hb hd (List.Subset.trans (hfound member hmember) hr)
  · refine Does.andThen (q := fun _ => True) (does_forIn fun name _ _ => ?_) fun _ => does_pure trivial
    exact does_declare hmem hb hd (List.nil_subset _)

/-! ## Checks -/

theorem does_addPatternProperty (hmem : type ∈ trail.filling) (hb : trail.Accepts build)
    (hd : scope.document = trail.document) {before : List (Pattern × String)} {member : String × Json}
    (hr : references member.2 ⊆ trail.spelled) :
    trail.Does (addPatternProperty build scope type before member) fun _ => True := by
  obtain ⟨source, inner⟩ := member
  unfold addPatternProperty
  simp only
  refine does_of_detached Keyword.detached_pattern fun pattern => ?_
  have hadd : trail.Does (do
      let property ← Build.nested build scope ("pattern property " ++ source) inner
      Build.addTypeCheck type
        (.patternProperty scope.className pattern ((inner.stringAt? "key").getD source) property)
      pure (before ++ [(pattern, (inner.stringAt? "key").getD source)])) fun _ => True := by
    refine (does_nested hb hd hr).andThen fun property => ?_
    exact Does.andThen (does_addTypeCheck hmem (fun _ _ => nofun)) fun _ => does_pure trivial
  split
  · exact Does.andThen (q := fun _ => True) does_refuse fun _ => hadd
  · exact hadd

theorem does_addOpenProperties (hmem : type ∈ trail.filling) (hb : trail.Accepts build)
    (hd : scope.document = trail.document) (hr : references node ⊆ trail.spelled) :
    trail.Does (addOpenProperties build scope type node) fun _ => True := by
  unfold addOpenProperties
  refine does_graph.andThen fun graph => ?_
  refine does_members?.bind fun found hfound => ?_
  simp only
  refine Does.andThen (does_foldlM (q := fun _ => True) trivial fun member hmember before _ =>
    does_addPatternProperty hmem hb hd (List.Subset.trans (hfound member hmember) hr)) fun patterns => ?_
  split
  · exact does_pure trivial
  · exact does_pure trivial
  · exact does_addTypeCheck hmem nofun
  · rename_i members hget
    refine (does_nested hb hd (List.Subset.trans (references_subset_get hget) hr)).andThen fun property => ?_
    exact does_addTypeCheck hmem nofun
  · exact does_malformed

theorem does_addPropertyNames (hmem : type ∈ trail.filling) (hb : trail.Accepts build)
    (hd : scope.document = trail.document) (hr : references node ⊆ trail.spelled) :
    trail.Does (addPropertyNames build scope type node) fun _ => True := by
  unfold addPropertyNames
  split
  · exact does_pure trivial
  · rename_i names hget
    refine (does_nested hb hd (List.Subset.trans (references_subset_get hget) hr)).andThen fun property => ?_
    exact does_addTypeCheck hmem nofun

theorem does_addPropertyCounts (hmem : type ∈ trail.filling) :
    trail.Does (addPropertyCounts scope type node) fun _ => True := by
  unfold addPropertyCounts
  refine does_of_detached Keyword.detached_count? fun least => ?_
  split
  · refine Does.andThen (does_addTypeCheck hmem (fun _ _ => nofun)) fun _ => ?_
    refine does_of_detached Keyword.detached_count? fun most => ?_
    split
    · exact does_addTypeCheck hmem nofun
    · exact does_pure trivial
  · refine does_of_detached Keyword.detached_count? fun most => ?_
    split
    · exact does_addTypeCheck hmem nofun
    · exact does_pure trivial

theorem does_addDependency (hmem : type ∈ trail.filling) (hb : trail.Accepts build)
    (hd : scope.document = trail.document) {member : String × Json} (hr : references member.2 ⊆ trail.spelled) :
    trail.Does (addDependency build scope type member) fun _ => True := by
  obtain ⟨trigger, dependency⟩ := member
  unfold addDependency
  have hschema : trail.Does (do
      let property ← Build.nested build scope ("dependency of " ++ trigger) (Keyword.withObjectType dependency)
      Build.addTypeCheck type (.schemaDependency trigger property)) fun _ => True := by
    refine (does_nested hb hd
      (List.Subset.trans (references_withObjectType dependency) hr)).andThen fun property => ?_
    exact does_addTypeCheck hmem nofun
  simp only
  split
  · exact does_of_detached Keyword.detached_strings fun dependants => does_addTypeCheck hmem nofun
  · exact does_pure trivial
  · exact hschema
  · exact hschema
  · exact does_malformed

theorem does_addDependencies (hmem : type ∈ trail.filling) (hb : trail.Accepts build)
    (hd : scope.document = trail.document) (hr : references node ⊆ trail.spelled) :
    trail.Does (addDependencies build scope type node keyword) fun _ => True := by
  unfold addDependencies
  refine does_members?.bind fun found hfound => ?_
  split
  · rename_i dependencies
    exact does_forM fun member hmember =>
      does_addDependency hmem hb hd (List.Subset.trans (hfound member hmember) hr)
  · exact does_pure trivial

/-! ## Lifting -/

theorem find?_marks (graph : Graph) (type : TypeId) (name : String) : (graph.marks type).find? (·.1 = name) =
    (((graph.entry type).properties.map graph.property).find? (·.name = name)).map Property.mark := by
  have hmarks : graph.marks type = ((graph.entry type).properties.map graph.property).map Property.mark := by
    rw [List.map_map]
    rfl
  rw [hmarks, List.find?_map]
  rfl

/-- The list of a type that has got one more property. -/
theorem marks_enlist (htype : s.graph.HasType type) {property : Property}
    (hlisted : ∀ id ∈ (s.graph.entry type).properties, s.graph.HasProperty id) :
    ((s.graph.addProperty property).2.modifyType type fun entry =>
      { entry with properties := entry.properties ++ [(s.graph.addProperty property).1] }).marks type =
        s.graph.marks type ++ [property.mark] := by
  have hkept : ∀ id ∈ (s.graph.entry type).properties,
      ((s.graph.addProperty property).2.property id).mark = (s.graph.property id).mark := fun id hid => by
    rw [Session.property_addProperty_eq, if_neg (Nat.ne_of_lt (hlisted id hid))]
  unfold Graph.marks
  rw [Session.entry_modifyType _ _ (by exact htype)]
  change ((s.graph.entry type).properties ++ [_]).map
    (fun id => ((s.graph.addProperty property).2.property id).mark) = _
  rw [List.map_append, List.map_congr_left hkept, List.map_singleton, Graph.property_addProperty]

/-- Lifting lists the name unless it is listed already, and answers it unless the type declares it. -/
theorem runs_lift (hmem : type ∈ trail.filling) (hs : trail.Ready s) {found : Option String}
    (h : (lift type combinator source).Runs trail.config s found s') :
    trail.After s s' ∧ (trail.traced → (s.graph.property source).name ∈ s'.graph.names type ∧
      found = Option.guard (!s'.graph.declares type ·) (s.graph.property source).name) := by
  unfold lift at h
  rw [Build.runs_graph_bind] at h
  simp only at h
  have hfind := find?_marks s.graph type (s.graph.property source).name
  split at h
  · rename_i existing hexisting
    obtain ⟨rfl, rfl⟩ := Build.runs_pure.1 h
    rw [hexisting, Option.map_some] at hfind
    have hname : existing.name = (s'.graph.property source).name := by simpa using List.find?_some hexisting
    refine ⟨.refl trail s', fun _ => ⟨Graph.mem_names.2 ⟨existing.isLifted, ?_⟩, ?_⟩⟩
    · rw [← hname]
      exact List.mem_of_find?_eq_some hfind
    · have hdeclares : s'.graph.declares type (s'.graph.property source).name = !existing.isLifted := by
        unfold Graph.declares
        rw [hfind]
        rfl
      simp only [Option.guard, hdeclares, Bool.not_not]
      rfl
  · rename_i hnone
    rw [hnone, Option.map_none] at hfind
    obtain ⟨id, m, hadd, hrest⟩ := Build.runs_bind.1 h
    obtain ⟨rfl, rfl⟩ := Build.runs_addProperty.1 hadd
    obtain ⟨_, m', hlist, hreturn⟩ := Build.runs_bind.1 hrest
    obtain ⟨rfl, rfl⟩ := Build.runs_pure.1 hreturn
    have hlifted : trail.After s (s.withGraph
        (s.graph.addProperty (lifted (s.graph.property source) combinator)).2) :=
      .of_deed (.lift source combinator) (fun _ => rfl) (Scene.asFinished_of_types rfl)
    have hafter := after_addTypeProperty hmem (hs.after hlifted) (fun _ => Session.hasProperty_addProperty _ _) hlist
    refine ⟨hlifted.trans hafter, fun htraced => ?_⟩
    have hmarks : s'.graph.marks type = s.graph.marks type ++ [((s.graph.property source).name, true)] := by
      unfold Build.addTypeProperty Build.modifyType at hlist
      obtain rfl := Build.runs_modifyGraph.1 hlist
      rw [← mark_lifted _ combinator]
      exact marks_enlist (hs.filling type hmem).hasType ((hs.marked htraced).listed type)
    refine ⟨Graph.mem_names.2 ⟨true, ?_⟩, ?_⟩
    · rw [hmarks]
      exact List.mem_append_right _ List.mem_cons_self
    · have hdeclares : s'.graph.declares type (s.graph.property source).name = false := by
        unfold Graph.declares
        rw [hmarks, List.find?_append, hfind]
        simp
      simp [Option.guard, hdeclares]

/-- **Lifting one property after the other** leaves all names listed, and answers those that the type does not
declare. -/
theorem runs_lifts (hmem : type ∈ trail.filling) : ∀ {sources : List PropertyId} {s : Session}
    {found : List (Option String)}, trail.Ready s →
    (sources.mapM (lift type combinator)).Runs trail.config s found s' →
    trail.After s s' ∧ (trail.traced → (∀ source ∈ sources, s.graph.HasProperty source) →
      (∀ source ∈ sources, (s.graph.property source).name ∈ s'.graph.names type) ∧
        found = sources.map fun source => Option.guard (!s'.graph.declares type ·) (s.graph.property source).name)
  | [], s, found, _, h => by
    rw [List.mapM_nil] at h
    obtain ⟨rfl, rfl⟩ := Build.runs_pure.1 h
    exact ⟨.refl trail s', fun _ _ => ⟨fun _ hsource => absurd hsource List.not_mem_nil, rfl⟩⟩
  | source :: sources, s, found, hs, h => by
    rw [List.mapM_cons] at h
    obtain ⟨first, m, hfirst, hrest⟩ := Build.runs_bind.1 h
    obtain ⟨others, m', hothers, hreturn⟩ := Build.runs_bind.1 hrest
    obtain ⟨rfl, rfl⟩ := Build.runs_pure.1 hreturn
    obtain ⟨hafter, hlifted⟩ := runs_lift hmem hs hfirst
    obtain ⟨hafter', hlater⟩ := runs_lifts hmem (hs.after hafter) hothers
    refine ⟨hafter.trans hafter', fun htraced hthere => ?_⟩
    obtain ⟨hsource, hsources⟩ := List.forall_mem_cons.1 hthere
    have hmarked := hs.marked htraced
    obtain ⟨hname, rfl⟩ := hlifted htraced
    obtain ⟨hnames, rfl⟩ := hlater htraced fun other hother =>
      (hsources other hother).grows hafter.deeds.precedes.recalls.grows
    -- The first lift has renamed nothing, and the later ones do not change what it has answered.
    have hsame : ∀ other ∈ sources, (m.graph.property other).name = (s.graph.property other).name :=
      fun other hother => congrArg Prod.fst (hafter.deeds.mark htraced hmarked (hsources other hother))
    have hprefix := hafter'.deeds.marks htraced (hafter.deeds.marked htraced hmarked) type
    refine ⟨List.forall_mem_cons.2 ⟨Graph.mem_names_grow hprefix hname, fun other hother => ?_⟩, ?_⟩
    · rw [← hsame other hother]
      exact hnames other hother
    · rw [List.map_cons]
      refine congrArg₂ List.cons ?_ (List.map_congr_left fun other hother => ?_)
      · simp only [Option.guard, Graph.declares_grow hprefix hname]
      · rw [hsame other hother]

/-- **What is lifted from a branch** feeds the type. -/
theorem runs_liftBranch (hmem : type ∈ trail.filling) (hs : trail.Ready s) (hid : trail.traced → s.Own id)
    {affected : List String} (h : (liftBranch type id combinator).Runs trail.config s affected s') :
    trail.After s s' ∧ (trail.traced → s'.Feeds s'.Returns type ⟨id, affected⟩) := by
  unfold liftBranch at h
  rw [Build.runs_graph_bind] at h
  split at h
  · rename_i hnone
    obtain ⟨rfl, rfl⟩ := Build.runs_pure.1 h
    refine ⟨.refl trail s', fun htraced => ⟨(hid htraced).hasProperty, fun _ hname => absurd hname List.not_mem_nil,
      fun nested hnested => nomatch hnone.symm.trans hnested⟩⟩
  · rename_i held hheld
    obtain ⟨found, m, hlifts, hreturn⟩ := Build.runs_bind.1 h
    obtain ⟨rfl, rfl⟩ := Build.runs_pure.1 hreturn
    obtain ⟨hafter, hlifted⟩ := runs_lifts hmem hs hlifts
    refine ⟨hafter, fun htraced => ?_⟩
    have hmarked := hs.marked htraced
    have hthere := hmarked.listed (s.graph.canonical held)
    obtain ⟨hnames, rfl⟩ := hlifted htraced hthere
    refine ⟨(hid htraced).hasProperty.grows hafter.deeds.precedes.recalls.grows, fun name hname => ?_,
      fun nested hnested => ?_⟩
    · obtain ⟨answer, hanswer, heq⟩ := List.mem_filterMap.1 hname
      obtain ⟨source, hsource, rfl⟩ := List.mem_map.1 hanswer
      obtain ⟨rfl, hnot⟩ := Option.guard_eq_some_iff.1 heq
      exact ⟨hnames source hsource, by simpa using hnot⟩
    · have hreturns := hafter.returns htraced hmarked (hid htraced).hasProperty
      refine (hafter.deeds.held htraced hmarked (hid htraced).hasProperty).elim (fun hsame => ?_) fun hlingers =>
        Or.inr (hreturns (Or.inl hlingers))
      obtain rfl : held = nested := Option.some.inj ((hsame.trans hheld).symm.trans hnested)
      refine (hmarked.held id held hheld).2.imp (fun hsignature => ?_) fun hrecurring =>
        hreturns (Or.inr ⟨held, hheld, hrecurring⟩)
      have hlasts := hs.collapsed.lasts_canonical hsignature
      have hkept : s'.graph.names (s.graph.canonical held) = s.graph.names (s.graph.canonical held) :=
        congrArg (List.map Prod.fst) (hafter.deeds.marks_eq htraced hmarked hlasts.signature)
      have hlist : s.graph.names (s.graph.canonical held) = (s.graph.type held).properties.map fun source =>
          (s.graph.property source).name := List.map_map
      rw [hafter.deeds.entry hsignature, hafter.deeds.canonical hs.collapsed hsignature]
      refine ⟨hsignature, fun name hname => ?_, ?_⟩
      · rw [hkept, hlist] at hname
        obtain ⟨source, hsource, rfl⟩ := List.mem_map.1 hname
        exact hnames source hsource
      · rw [hkept, hlist, ← List.filterMap_eq_filter, List.filterMap_map, List.filterMap_map]
        rfl

/-! ## Compositions on a type -/

/-- **A branch knows all names that it populates** when it has been built. -/
theorem runs_objectBranch (hmem : type ∈ trail.filling) (hb : trail.Accepts build)
    (hd : scope.document = trail.document) (hr : references node ⊆ trail.spelled) {branch : Branch} (hs : trail.Ready s)
    (h : (objectBranch build scope type combinator node).Runs trail.config s branch s') :
    trail.After s s' ∧ (trail.traced → combinator ≠ .not → s'.Feeds s'.Returns type branch) := by
  unfold objectBranch at h
  obtain ⟨id, m, hbuild, hrest⟩ := Build.runs_bind.1 h
  obtain ⟨hafter, hown⟩ := hb.makes ⟨scope, scope.className, true, true⟩ _ hd
    (List.Subset.trans (references_withObjectType node) hr) hs hbuild
  simp only at hrest
  split at hrest
  · rename_i hnot
    rw [Build.runs_pure_bind] at hrest
    obtain ⟨rfl, rfl⟩ := Build.runs_pure.1 hrest
    exact ⟨hafter, fun _ hne => absurd hnot hne⟩
  · obtain ⟨affected, m', hlift, hreturn⟩ := Build.runs_bind.1 hrest
    obtain ⟨rfl, rfl⟩ := Build.runs_pure.1 hreturn
    obtain ⟨hafter', hfeeds⟩ := runs_liftBranch hmem (hs.after hafter) hown hlift
    exact ⟨hafter.trans hafter', fun htraced _ => hfeeds htraced⟩

/-- What one branch populates stays so while the others are built. -/
theorem runs_objectBranches (hmem : type ∈ trail.filling) (hb : trail.Accepts build)
    (hd : scope.document = trail.document) : ∀ {nodes : List Json} {s : Session} {branches : List Branch},
    (∀ inner ∈ nodes, references inner ⊆ trail.spelled) → trail.Ready s →
    (nodes.mapM (objectBranch build scope type combinator)).Runs trail.config s branches s' →
    trail.After s s' ∧ (trail.traced → combinator ≠ .not → ∀ branch ∈ branches, s'.Feeds s'.Returns type branch)
  | [], s, branches, _, _, h => by
    rw [List.mapM_nil] at h
    obtain ⟨rfl, rfl⟩ := Build.runs_pure.1 h
    exact ⟨.refl trail s', fun _ _ _ hbranch => absurd hbranch List.not_mem_nil⟩
  | inner :: nodes, s, branches, hr, hs, h => by
    rw [List.mapM_cons] at h
    obtain ⟨first, m, hfirst, hrest⟩ := Build.runs_bind.1 h
    obtain ⟨others, m', hothers, hreturn⟩ := Build.runs_bind.1 hrest
    obtain ⟨rfl, rfl⟩ := Build.runs_pure.1 hreturn
    obtain ⟨hinner, hnodes⟩ := List.forall_mem_cons.1 hr
    obtain ⟨hafter, hfeeds⟩ := runs_objectBranch hmem hb hd hinner hs hfirst
    have hready := hs.after hafter
    obtain ⟨hafter', hlater⟩ := runs_objectBranches hmem hb hd hnodes hready hothers
    refine ⟨hafter.trans hafter', fun htraced hne => List.forall_mem_cons.2 ⟨?_, hlater htraced hne⟩⟩
    have hfed := hfeeds htraced hne
    have hmarked := hready.marked htraced
    have hreturns := hafter'.returns htraced hmarked hfed.hasProperty
    exact (hfed.imp hreturns).deeds hafter'.deeds htraced hmarked hready.collapsed fun hlingers =>
      hreturns (Or.inl hlingers)

theorem does_addObjectComposition (hmem : type ∈ trail.filling) (hb : trail.Accepts build)
    (hd : scope.document = trail.document) (hr : references node ⊆ trail.spelled) :
    trail.Does (addObjectComposition build scope type node combinator) fun _ => True := by
  unfold addObjectComposition
  refine does_branches?.bind fun found hfound => ?_
  split
  · exact does_pure trivial
  · rename_i nodes
    refine does_noteIfEmpty.andThen fun _ => ?_
    intro s _ s' hs hrun
    obtain ⟨branches, m, hbranches, hadd⟩ := Build.runs_bind.1 hrun
    obtain ⟨hafter, hfeeds⟩ := runs_objectBranches hmem hb hd
      (fun inner hinner => List.Subset.trans (hfound nodes rfl inner hinner) hr) hs hbranches
    refine ⟨hafter.trans (after_addTypeCheck hmem (hs.after hafter) (fun htraced other list heq hne => ?_) hadd),
      trivial⟩
    obtain ⟨rfl, rfl, _⟩ := Check.composition.inj heq
    exact hfeeds htraced hne

theorem does_applyObjectCompositions (hmem : type ∈ trail.filling) (hb : trail.Accepts build)
    (hd : scope.document = trail.document) (hr : references node ⊆ trail.spelled) :
    trail.Does (applyObjectCompositions build scope type node) fun _ => True := by
  unfold applyObjectCompositions
  refine Does.andThen (does_forM fun combinator _ => does_addObjectComposition hmem hb hd hr) fun _ => ?_
  refine (does_conditional? fun inner hinner => ?_).bind fun conditional hconditional => ?_
  · exact (hb.makes ⟨scope, scope.className, true, false⟩ _ hd
      (List.Subset.trans (references_withObjectType inner) (List.Subset.trans hinner hr))).does
  · split
    · rename_i check
      obtain ⟨_, _, _, rfl⟩ := hconditional check rfl
      exact does_addTypeCheck hmem nofun
    · exact does_pure trivial

/-! ## The whole type -/

theorem does_fill (hmem : type ∈ trail.filling) (hb : trail.Accepts build)
    (hd : scope.document = trail.document) (hr : references node ⊆ trail.spelled) :
    trail.Does (fill build scope type node) fun _ => True := by
  unfold fill
  have hrest : trail.Does (do
      addProperties build scope type node
      addOpenProperties build scope type node
      addPropertyNames build scope type node
      addPropertyCounts scope type node
      dependencyWords.forM (addDependencies build scope type node)
      applyObjectCompositions build scope type node) fun _ => True := by
    refine (does_addProperties hmem hb hd hr).andThen fun _ => ?_
    refine (does_addOpenProperties hmem hb hd hr).andThen fun _ => ?_
    refine (does_addPropertyNames hmem hb hd hr).andThen fun _ => ?_
    refine (does_addPropertyCounts hmem).andThen fun _ => ?_
    refine Does.andThen (does_forM fun word _ => does_addDependencies hmem hb hd hr) fun _ => ?_
    exact does_applyObjectCompositions hmem hb hd hr
  simp only
  split
  · exact (does_describe hmem _).andThen fun _ => hrest
  · exact hrest

/-- A type that is not finished may be filled in. -/
theorem after_fill (hb : trail.Accepts build) (hd : scope.document = trail.document)
    (hr : references node ⊆ trail.spelled) (hs : trail.Ready s) (hu : s.Unfinished type) {u : Unit}
    (h : (fill build scope type node).Runs trail.config s u s') : trail.After s s' := by
  have hdoes : (trail.opening type).Does (fill build scope type node) fun _ => True :=
    does_fill List.mem_cons_self (hb.opening type) hd hr
  exact (hdoes (hs.opening hu) h).1.opened

end Trail
end SchemaTypes.Building

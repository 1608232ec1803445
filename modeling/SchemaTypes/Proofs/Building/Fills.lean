import SchemaTypes.Building.Unions
import SchemaTypes.Proofs.Building.Drafts
/-!
# Filling types in, whatever comes of it

Between reserving a type and finishing it anything may go wrong, and then the type stays as it is.  What succeeds has
finished it, so the same types are unfinished as before it was reserved (`yields_bracket`).
-/
namespace SchemaTypes

namespace Session

/-- A type nobody had before is there, and not finished. -/
structure Reserved (s : Session) (type : TypeId) (s' : Session) : Prop where
  new : ¬ s.graph.HasType type
  hasType : s'.graph.HasType type
  unfinished : ∀ id, s'.Unfinished id ↔ s.Unfinished id ∨ id = type

/-- The type is no longer unfinished, and the others are as they were. -/
def FinishedOne (s : Session) (type : TypeId) (s' : Session) : Prop :=
  ∀ id, s'.Unfinished id ↔ s.Unfinished id ∧ id ≠ type

theorem FinishedOne.trans {s m s' : Session} {type : TypeId} (h : s.FinishedOne type m) (h' : m.AsFinished s') :
    s.FinishedOne type s' := fun id => (h' id).trans (h id)

theorem AsFinished.finishedOne {s m s' : Session} {type : TypeId} (h : s.AsFinished m) (h' : m.FinishedOne type s') :
    s.FinishedOne type s' := fun id => (h' id).trans (and_congr_left fun _ => h id)

/-- What has been reserved and finished leaves the same types unfinished. -/
theorem Reserved.asFinished {s m s' : Session} {type : TypeId} (h : s.Reserved type m) (h' : m.FinishedOne type s') :
    s.AsFinished s' := by
  intro id
  rw [h' id, h.unfinished id]
  constructor
  · rintro ⟨hu | heq, hne⟩
    · exact hu
    · exact absurd heq hne
  · intro hu
    refine ⟨Or.inl hu, fun heq => ?_⟩
    subst heq
    exact h.new hu.hasType

end Session

namespace Building
namespace Scene

variable {scene : Scene} {s s' : Session} {name keyword : String} {node : Json} {property : Property}
  {required strict : Bool} {build : Builder} {scope : Scope} {site : Site} {type : TypeId}

/-! ## Instances -/

theorem Raw.hold (h : scene.Raw s required property) (htype : s.graph.HasType type) (label : Option TypeLabel) :
    scene.Raw s required ({ property with label, nested := some type }.addDecorator (.instantiates type)) := by
  obtain ⟨hrequired, hstrict, hrelaxed, hvalidators⟩ :=
    addDecorator_marks { property with label, nested := some type } (.instantiates type)
  refine ⟨?_, hrequired.trans h.required, hstrict.trans h.strict, hrelaxed.trans h.relaxed, ?_⟩
  · rw [hvalidators]
    exact h.regular
  · have hholds : s.graph.Knows { property with label, nested := some type } := by
      refine ⟨h.knows.checks, fun id heq => ?_, h.knows.decorators⟩
      cases heq
      exact htype
    refine hholds.addDecorator fun id heq => ?_
    cases heq
    exact htype

theorem reads_instanceProperty (htype : s.graph.HasType type) :
    scene.Reads s (instanceProperty name type required) (scene.Draft s required false) := by
  unfold instanceProperty
  refine Reads.after (Build.runs_graph.2 ⟨rfl, rfl⟩) ?_
  refine reads_newProperty.bind fun property hraw => ?_
  refine reads_allowsNull.bind fun allowed hallowed => reads_pure ?_
  subst hallowed
  have hdraft := (hraw.hold htype (some (.single (s.graph.className type)))).present
  have hnull : (Check.type [.object] (scene.allowed && !required)).withNull (scene.allowed && !required && !false) =
      .type [.object] (scene.allowed && !required) := by
    simp [Check.withNull]
  refine (hdraft.addCheck rfl hnull (Graph.knowsCheck_of_nil rfl rfl)).addCheck rfl rfl
    ⟨fun _ hid => absurd hid List.not_mem_nil, fun id hid => ?_⟩
  exact List.mem_singleton.1 hid ▸ htype

/-! ## Filling a type in -/

theorem yields_addProperties (hb : scene.Accepts build) (hd : scope.document = scene.document)
    (hr : references node ⊆ scene.spelled) :
    scene.Yields s (addProperties build scope type node) fun _ _ => True := by
  unfold addProperties
  refine reads_requiredNames.yieldsThen fun required _ => ?_
  refine reads_members?.yieldsThen fun found hfound => ?_
  simp only
  refine (yields_forIn fun member hmember _ m _ => ?_).bind fun _ m _ _ => ?_
  · refine (hb m ⟨scope, member.1, required.contains member.1, false⟩ member.2 hd
      (List.Subset.trans (hfound member hmember) hr)).bind fun id t _ hid => ?_
    exact (yields_addTypeProperty hid.1).bind fun _ _ _ _ => yields_pure trivial
  · refine (yields_forIn fun name _ _ m _ => ?_).bind fun _ _ _ _ => yields_pure trivial
    refine (hb m ⟨scope, name, true, false⟩ (.object []) hd (List.nil_subset _)).bind fun id t _ hid => ?_
    exact (yields_addTypeProperty hid.1).bind fun _ _ _ _ => yields_pure trivial

theorem yields_addPatternProperty (hb : scene.Accepts build) (hd : scope.document = scene.document)
    {before : List (Pattern × String)} {member : String × Json} (hr : references member.2 ⊆ scene.spelled) :
    scene.Yields s (addPatternProperty build scope type before member) fun _ _ => True := by
  obtain ⟨source, inner⟩ := member
  unfold addPatternProperty
  simp only
  refine reads_pattern.yieldsThen fun pattern _ => ?_
  have hadd : scene.Yields s (do
      let property ← Build.nested build scope ("pattern property " ++ source) inner
      Build.addTypeCheck type
        (.patternProperty scope.className pattern ((inner.stringAt? "key").getD source) property)
      pure (before ++ [(pattern, (inner.stringAt? "key").getD source)])) fun _ _ => True := by
    refine (yields_nested hb hd hr).bind fun property m _ hid => ?_
    refine (yields_addTypeCheck ?_).bind fun _ _ _ _ => yields_pure trivial
    exact Graph.knowsCheck_of_children (List.forall_mem_singleton.2 hid) rfl
  split
  · refine Reads.yieldsThen (q := fun _ => False) (reads_refuse ?_) fun _ hfalse => hfalse.elim
    exact trivial
  · exact hadd

theorem yields_addOpenProperties (hb : scene.Accepts build) (hd : scope.document = scene.document)
    (hr : references node ⊆ scene.spelled) :
    scene.Yields s (addOpenProperties build scope type node) fun _ _ => True := by
  unfold addOpenProperties
  refine Yields.after (Build.runs_graph.2 ⟨rfl, rfl⟩) ?_
  refine reads_members?.yieldsThen fun found hfound => ?_
  simp only
  refine (yields_foldlM (P := fun _ _ => True) trivial fun member hmember before m _ _ =>
    yields_addPatternProperty hb hd (List.Subset.trans (hfound member hmember) hr)).bind fun patterns m _ _ => ?_
  split
  · exact yields_pure trivial
  · exact yields_pure trivial
  · exact yields_addTypeCheck (Graph.knowsCheck_of_nil rfl rfl)
  · rename_i members hget
    refine (yields_nested hb hd (List.Subset.trans (references_subset_get hget) hr)).bind fun property t _ hid => ?_
    exact yields_addTypeCheck (Graph.knowsCheck_of_children (List.forall_mem_singleton.2 hid) rfl)
  · exact yields_malformed

theorem yields_addPropertyNames (hb : scene.Accepts build) (hd : scope.document = scene.document)
    (hr : references node ⊆ scene.spelled) :
    scene.Yields s (addPropertyNames build scope type node) fun _ _ => True := by
  unfold addPropertyNames
  split
  · exact yields_pure trivial
  · rename_i names hget
    refine (yields_nested hb hd (List.Subset.trans (references_subset_get hget) hr)).bind fun property m _ hid => ?_
    exact yields_addTypeCheck (Graph.knowsCheck_of_children (List.forall_mem_singleton.2 hid) rfl)

theorem yields_addPropertyCounts : scene.Yields s (addPropertyCounts scope type node) fun _ _ => True := by
  unfold addPropertyCounts
  have hadd : ∀ {m : Session} (check : Check), check.children = [] → check.types = [] →
      scene.Yields m (Build.addTypeCheck type check) fun _ _ => True :=
    fun _ hchildren htypes => yields_addTypeCheck (Graph.knowsCheck_of_nil hchildren htypes)
  refine reads_count?.yieldsThen fun least _ => ?_
  split
  · refine (hadd _ rfl rfl).bind fun _ m _ _ => reads_count?.yieldsThen fun most _ => ?_
    split
    · exact hadd _ rfl rfl
    · exact yields_pure trivial
  · refine reads_count?.yieldsThen fun most _ => ?_
    split
    · exact hadd _ rfl rfl
    · exact yields_pure trivial

theorem yields_addDependency (hb : scene.Accepts build) (hd : scope.document = scene.document)
    {member : String × Json} (hr : references member.2 ⊆ scene.spelled) :
    scene.Yields s (addDependency build scope type member) fun _ _ => True := by
  obtain ⟨trigger, dependency⟩ := member
  unfold addDependency
  have hschema : scene.Yields s (do
      let property ← Build.nested build scope ("dependency of " ++ trigger) (Keyword.withObjectType dependency)
      Build.addTypeCheck type (.schemaDependency trigger property)) fun _ _ => True := by
    refine (yields_nested hb hd
      (List.Subset.trans (references_withObjectType dependency) hr)).bind fun property m _ hid => ?_
    exact yields_addTypeCheck (Graph.knowsCheck_of_children (List.forall_mem_singleton.2 hid) rfl)
  simp only
  split
  · exact reads_strings.yieldsThen fun dependants _ => yields_addTypeCheck (Graph.knowsCheck_of_nil rfl rfl)
  · exact yields_pure trivial
  · exact hschema
  · exact hschema
  · exact yields_malformed

theorem yields_addDependencies (hb : scene.Accepts build) (hd : scope.document = scene.document)
    (hr : references node ⊆ scene.spelled) :
    scene.Yields s (addDependencies build scope type node keyword) fun _ _ => True := by
  unfold addDependencies
  refine reads_members?.yieldsThen fun found hfound => ?_
  split
  · exact yields_forM fun member hmember m _ =>
      yields_addDependency hb hd (List.Subset.trans (hfound member hmember) hr)
  · exact yields_pure trivial

/-! ## Compositions on a type -/

theorem yields_lift {combinator : Combinator} {source : PropertyId} :
    scene.Yields s (lift type combinator source) fun _ _ => True := by
  unfold lift
  refine Yields.after (Build.runs_graph.2 ⟨rfl, rfl⟩) ?_
  simp only
  split
  · exact yields_pure trivial
  · refine yields_of_stands fun hs => ?_
    refine (yields_addProperty ((hs.closed.properties source).lifted combinator)
      (inStep_lifted _ combinator)).bind fun id m _ hid => ?_
    exact (yields_addTypeProperty hid.1).bind fun _ _ _ _ => yields_pure trivial

theorem yields_liftBranch {combinator : Combinator} {branch : PropertyId} :
    scene.Yields s (liftBranch type branch combinator) fun _ _ => True := by
  unfold liftBranch
  refine Yields.after (Build.runs_graph.2 ⟨rfl, rfl⟩) ?_
  split
  · exact yields_pure trivial
  · exact (yields_mapM (P := fun _ _ => True) (fun _ _ _ _ _ => trivial) fun source _ m _ => yields_lift).bind
      fun _ _ _ _ => yields_pure trivial

theorem yields_objectBranch (hb : scene.Accepts build) (hd : scope.document = scene.document)
    (hr : references node ⊆ scene.spelled) {combinator : Combinator} :
    scene.Yields s (objectBranch build scope type combinator node) fun branch s' =>
      s'.graph.HasProperty branch.property := by
  unfold objectBranch
  refine (hb s ⟨scope, scope.className, true, true⟩ _ hd
    (List.Subset.trans (references_withObjectType node) hr)).bind fun property m _ hid => ?_
  simp only
  split
  · exact yields_pure hid.1
  · exact yields_liftBranch.bind fun affected t ht _ => yields_pure (hid.1.grows ht.grows)

theorem yields_addObjectComposition (hb : scene.Accepts build) (hd : scope.document = scene.document)
    (hr : references node ⊆ scene.spelled) {combinator : Combinator} :
    scene.Yields s (addObjectComposition build scope type node combinator) fun _ _ => True := by
  unfold addObjectComposition
  refine reads_branches?.yieldsThen fun found hfound => ?_
  split
  · exact yields_pure trivial
  · rename_i nodes
    refine yields_noteIfEmpty.bind fun _ m _ _ => ?_
    have hbranches : scene.Yields m (nodes.mapM (objectBranch build scope type combinator)) fun branches s' =>
        ∀ branch ∈ branches, s'.graph.HasProperty branch.property :=
      yields_mapM (fun _ _ _ hm hid => hid.grows hm.grows) fun inner hinner _ _ =>
        yields_objectBranch hb hd (List.Subset.trans (hfound nodes rfl inner hinner) hr)
    refine hbranches.bind fun branches t _ hbranches => ?_
    refine yields_addTypeCheck (Graph.knowsCheck_of_children (fun id hid => ?_) rfl)
    obtain ⟨branch, hbranch, rfl⟩ := List.mem_map.1 hid
    exact hbranches branch hbranch

theorem yields_applyObjectCompositions (hb : scene.Accepts build) (hd : scope.document = scene.document)
    (hr : references node ⊆ scene.spelled) :
    scene.Yields s (applyObjectCompositions build scope type node) fun _ _ => True := by
  unfold applyObjectCompositions
  refine (yields_forM fun combinator _ m _ => yields_addObjectComposition hb hd hr).bind fun _ m _ _ => ?_
  refine (yields_conditional? fun t inner hinner => ?_).bind fun conditional t _ hconditional => ?_
  · refine (hb t ⟨scope, scope.className, true, false⟩ _ hd ?_).imp fun _ _ hid => hid.1
    exact List.Subset.trans (references_withObjectType inner) (List.Subset.trans hinner hr)
  · split
    · rename_i check
      exact yields_addTypeCheck (hconditional check rfl).2.2
    · exact yields_pure trivial

theorem yields_fill (hb : scene.Accepts build) (hd : scope.document = scene.document)
    (hr : references node ⊆ scene.spelled) :
    scene.Yields s (fill build scope type node) fun _ _ => True := by
  unfold fill
  have hrest : ∀ {m : Session}, scene.Yields m (do
      addProperties build scope type node
      addOpenProperties build scope type node
      addPropertyNames build scope type node
      addPropertyCounts scope type node
      dependencyWords.forM (addDependencies build scope type node)
      applyObjectCompositions build scope type node) fun _ _ => True := by
    refine (yields_addProperties hb hd hr).bind fun _ _ _ _ => ?_
    refine (yields_addOpenProperties hb hd hr).bind fun _ _ _ _ => ?_
    refine (yields_addPropertyNames hb hd hr).bind fun _ _ _ _ => ?_
    refine yields_addPropertyCounts.bind fun _ _ _ _ => ?_
    refine (yields_forM fun word _ m _ => yields_addDependencies hb hd hr).bind fun _ _ _ _ => ?_
    exact yields_applyObjectCompositions hb hd hr
  simp only
  split
  · exact yields_describeType.bind fun _ _ _ _ => hrest
  · exact hrest

/-! ## From reserving to finishing -/

theorem ends_reserve {namespaceName className : String} {isRoot : Bool} :
    scene.Ends s (Build.reserve namespaceName className isRoot) fun type s' => s.Reserved type s' := by
  refine ends_of_runs (Build.runs_reserve.2 ⟨rfl, rfl⟩) (.single (.reserve namespaceName className isRoot)) ?_
  refine ⟨Nat.lt_irrefl _, by simp [Graph.reserve, Graph.HasType], fun id => ?_⟩
  have hsize : (s.graph.reserve namespaceName className isRoot).2.types.size = s.graph.types.size + 1 := by
    simp [Graph.reserve]
  have hentry := Session.entry_reserve_eq s.graph namespaceName className isRoot id
  -- The one new entry is the last, and it has no signature.
  constructor
  · rintro ⟨hlt, hsignature⟩
    rw [hentry] at hsignature
    split at hsignature
    · rename_i heq
      exact Or.inr (by cases id; exact congrArg _ heq)
    · rename_i hne
      exact Or.inl ⟨Nat.lt_of_le_of_ne (Nat.le_of_lt_succ (Nat.lt_of_lt_of_eq hlt hsize)) hne, hsignature⟩
  · rintro (hu | rfl)
    · refine ⟨Nat.lt_of_lt_of_eq (Nat.lt_succ_of_lt hu.hasType) hsize.symm, ?_⟩
      rw [hentry, if_neg (Nat.ne_of_lt hu.hasType)]
      exact hu.signature
    · refine ⟨Nat.lt_of_lt_of_eq (Nat.lt_succ_self _) hsize.symm, ?_⟩
      rw [hentry]
      simp [Graph.reserve]

theorem ends_reserveFor : scene.Ends s (reserveFor site node) fun type s' => s.Reserved type s' := by
  unfold reserveFor
  exact (reads_of_runs (q := (· = scene.config)) (Build.runs_read.2 ⟨rfl, rfl⟩) rfl).endsThen fun _ _ => ends_reserve

/-- Finishing a type never halts. -/
theorem not_halts_finish {config : Config} {halt : Halt} : ¬ (finish type).Halts config s halt s' := by
  intro h
  unfold finish Build.modifyType Build.modifyGraph Build.notify at h
  simp only at h
  rw [Build.halts_get_bind, Build.halts_modify_bind] at h
  split at h
  · split at h
    · exact Build.not_halts_pure h
    · rw [Build.halts_modify_bind, Build.halts_modify_bind] at h
      exact Build.not_halts_pure h
  · rw [Build.halts_modify_bind] at h
    exact Build.not_halts_pure h

theorem ends_finish (htype : s.graph.HasType type) : scene.Ends s (finish type) fun target s' =>
    s'.graph.HasType target ∧ s.FinishedOne type s' := by
  refine fun hs => ⟨fun target s' hrun => ?_, fun halt s' hhalts => absurd hhalts not_halts_finish⟩
  obtain ⟨redirect, hfinishes, _, _, hgraph⟩ := Session.runs_finish hrun
  have hsize : s'.graph.types.size = s.graph.types.size := hgraph ▸ Session.size_modifyType _ _ _
  refine ⟨.single (.finish htype hrun), ?_, fun id => ?_⟩
  · refine Nat.lt_of_lt_of_eq ?_ hsize.symm
    generalize s'.signatures = signatures at hfinishes
    cases hfinishes with
    | kept => exact htype
    | first => exact htype
    | duplicate hexisting => exact hs.closed.canonical (hs.closed.signatures _ _ (mem_of_lookup hexisting))
  · have hentry : s'.graph.entry id = _ := congrArg (Graph.entry · id) hgraph
    rw [Session.entry_modifyType_eq] at hentry
    constructor
    · rintro ⟨hlt, hsignature⟩
      have hlt : id.index < s.graph.types.size := Nat.lt_of_lt_of_eq hlt hsize
      rw [hentry] at hsignature
      split at hsignature
      · cases hsignature
      · rename_i hother
        exact ⟨⟨hlt, hsignature⟩, fun heq => hother ⟨congrArg _ heq, hlt⟩⟩
    · rintro ⟨hu, hne⟩
      refine ⟨Nat.lt_of_lt_of_eq hu.hasType hsize.symm, ?_⟩
      rw [hentry, if_neg]
      · exact hu.signature
      · rintro ⟨heq, _⟩
        exact hne (by cases id; cases type; exact congrArg _ heq)

/-- **What reserves a type and finishes it** leaves the same types unfinished. -/
theorem yields_bracket {β : Type} {x : Build TypeId} {f : TypeId → Build β} {Q : β → Session → Prop}
    (hx : scene.Ends s x fun type m => s.Reserved type m)
    (hf : ∀ type m, m.graph.HasType type → scene.Ends m (f type) fun b s' => m.FinishedOne type s' ∧ Q b s') :
    scene.Yields s (x >>= f) Q := by
  refine Ends.bind hx fun type m _ hreserved => ?_
  refine (hf type m hreserved.hasType).imp fun b s' hb => ?_
  exact ⟨hreserved.asFinished hb.1, hb.2⟩

theorem ends_materialize (hb : scene.Accepts build) (hd : site.scope.document = scene.document)
    (hr : references node ⊆ scene.spelled) (htype : s.graph.HasType type) :
    scene.Ends s (materialize build site node type) fun property s' =>
      s.FinishedOne type s' ∧ scene.Draft s' site.required false property := by
  unfold materialize
  refine Reads.endsThen (q := (· = s.graph)) (reads_of_runs (Build.runs_graph.2 ⟨rfl, rfl⟩) rfl) fun _ _ => ?_
  refine Ends.bind (yields_fill hb (by exact hd) hr) fun _ m hm hfilled => ?_
  refine Ends.bind (ends_finish (htype.grows hm.grows)) fun target t ht hfinished => ?_
  refine (reads_instanceProperty hfinished.1).ends.imp fun property u hproperty => ?_
  obtain ⟨rfl, hdraft⟩ := hproperty
  exact ⟨hfilled.1.finishedOne hfinished.2, hdraft⟩

theorem ends_objectInto (hb : scene.Accepts build) (hd : site.scope.document = scene.document)
    (hr : references node ⊆ scene.spelled) (htype : s.graph.HasType type) :
    scene.Ends s (objectInto build site node type) fun id s' => s.FinishedOne type s' ∧
      s'.Delivers site.required id := by
  unfold objectInto
  refine Ends.bind (ends_materialize hb hd hr htype) fun property m _ hmaterialized => ?_
  refine (reads_applyValueKeywords hmaterialized.2).endsThen fun result hresult => ?_
  obtain ⟨strict, hdraft⟩ := hresult
  exact Ends.imp (yields_deliver hdraft.knows hdraft.inStep hdraft.required) fun id s' hadded =>
    ⟨hmaterialized.1.trans hadded.1, hadded.2⟩

theorem yields_object (hb : scene.Accepts build) (hd : site.scope.document = scene.document)
    (hr : references node ⊆ scene.spelled) :
    scene.Yields s (object build site node) fun id s' => s'.Delivers site.required id :=
  yields_bracket ends_reserveFor fun _ _ htype => ends_objectInto hb hd hr htype

/-! ## Unions -/

theorem yields_member (hb : scene.Accepts build) (hd : site.scope.document = scene.document)
    (hr : references node ⊆ scene.spelled) (kind : Kind) :
    scene.Yields s (member build site node kind) fun property s' => scene.Draft s' site.required false property := by
  unfold member
  split
  · refine yields_bracket ends_reserveFor fun type m htype => ?_
    exact ends_materialize hb (by exact hd) (List.Subset.trans (references_withoutCompositions node) hr) htype
  · exact yields_ofKind hb hd hr kind

theorem reads_unionKinds {types : List Json} : scene.Reads s (unionKinds name types) fun _ => True := by
  unfold unionKinds
  refine (reads_foldlM (q := fun _ => True) trivial fun type _ kinds _ => ?_).bind fun kinds _ => ?_
  · split
    · split
      · exact reads_pure trivial
      · exact reads_refuse trivial
    · exact reads_malformed
  · split
    · exact reads_malformed
    · exact reads_pure trivial

/-- The checks of a draft are regular, presence apart. -/
theorem Draft.regular (h : scene.Draft s required false property) :
    ∀ v ∈ property.validators.toList, v.check.isRequired = false → v.IsRegular (scene.allowed && !required) := by
  intro v hv hrequired
  obtain ⟨rest, htoList, hrest⟩ := h.inStep
  rw [htoList, List.mem_append, Property.presence] at hv
  have hsettles := h.settlesNull
  rw [Bool.not_false, Bool.and_true] at hsettles
  rcases hv with hv | hv
  · split at hv
    · rw [List.mem_singleton.1 hv] at hrequired
      cases hrequired
    · cases hv
  · exact hsettles ▸ hrest v hv

theorem Raw.addValidator (h : scene.Raw s required property) {validator : Validator}
    (hregular : validator.IsRegular (scene.allowed && !required)) (hknown : s.graph.KnowsCheck validator.check) :
    scene.Raw s required { property with validators := property.validators.add validator } := by
  refine ⟨fun v hv => ?_, h.required, h.strict, h.relaxed, fun v hv => ?_, h.knows.nested, h.knows.decorators⟩
  · rcases Validators.mem_toList_add.1 hv with rfl | hv
    · exact hregular
    · exact h.regular v hv
  · rcases Validators.mem_toList_add.1 hv with rfl | hv
    · exact hknown
    · exact h.knows.checks v hv

/-- A member brings checks other than presence. -/
theorem raw_mergeChecks (h : scene.Raw s required property) {member : Property}
    (hmember : scene.Draft s required false member) : scene.Raw s required (mergeChecks property member) := by
  unfold mergeChecks
  have hregular := hmember.regular
  have hknown := hmember.knows.checks
  generalize member.validators.toList = validators at hregular hknown
  -- On the member's validators.  They are regular for the union too, whose marks are the same.
  induction validators generalizing property with
  | nil => exact h
  | cons validator rest ih =>
    rw [List.foldl_cons]
    refine ih ?_ (fun v hv => hregular v (List.mem_cons_of_mem _ hv)) fun v hv => hknown v (List.mem_cons_of_mem _ hv)
    split
    · exact h
    · rename_i hkept
      simp only [Bool.or_eq_true, not_or, Bool.not_eq_true] at hkept
      exact h.addValidator (hregular validator List.mem_cons_self hkept.1.1) (hknown validator List.mem_cons_self)

theorem raw_addMember (h : scene.Raw s required property) {member : Property}
    (hmember : scene.Draft s required false member) : scene.Raw s required (addMember property member) := by
  unfold addMember
  refine raw_mergeChecks ?_ hmember
  split
  · refine ⟨h.regular, h.required, h.strict, h.relaxed, h.knows.checks, hmember.knows.nested, fun id hid => ?_⟩
    rcases List.mem_append.1 hid with hid | hid
    · exact h.knows.decorators id hid
    · exact hmember.knows.decorators id hid
  · exact ⟨h.regular, h.required, h.strict, h.relaxed, h.knows.checks, h.knows.nested, h.knows.decorators⟩

/-- The keywords every property has, then compositions, and the property is added. -/
theorem yields_addCompleted (hb : scene.Accepts build) (hd : site.scope.document = scene.document)
    (hr : references node ⊆ scene.spelled) (h : scene.Draft s site.required false property) :
    scene.Yields s (do
      let property ← applyValueKeywords property node site.required
      Build.addProperty (← applyCompositions build site node property)) fun id s' =>
        s'.Delivers site.required id := by
  refine (reads_applyValueKeywords h).yieldsThen fun property hproperty => ?_
  obtain ⟨strict, hproperty⟩ := hproperty
  refine (yields_applyCompositions hb hd hr hproperty).bind fun property m _ hproperty => ?_
  exact yields_deliver hproperty.knows hproperty.inStep hproperty.required

theorem yields_union (hb : scene.Accepts build) (hd : site.scope.document = scene.document)
    (hr : references node ⊆ scene.spelled) {types : List Json} :
    scene.Yields s (union build site node types) fun id s' => s'.Delivers site.required id := by
  unfold union
  refine reads_unionKinds.yieldsThen fun kinds _ => ?_
  refine reads_newProperty.yieldsThen fun property hraw => ?_
  refine (yields_foldlM (P := fun property m => scene.Raw m site.required property) hraw
    fun kind _ property m _ hproperty => ?_).bind fun property m _ hproperty => ?_
  · exact (yields_member hb hd hr kind).bind fun member t ht hmember =>
      yields_pure (raw_addMember (hproperty.writes ht) hmember)
  · simp only
    refine reads_allowsNull.yieldsThen fun allowed hallowed => ?_
    subst hallowed
    refine yields_addCompleted hb hd hr ?_
    have hlabelled : ∀ label : Option TypeLabel, scene.Raw m site.required { property with label } := fun label =>
      ⟨hproperty.regular, hproperty.required, hproperty.strict, hproperty.relaxed, hproperty.knows.checks,
        hproperty.knows.nested, hproperty.knows.decorators⟩
    refine (hlabelled _).present.addCheck rfl ?_ (Graph.knowsCheck_of_nil rfl rfl)
    simp [Check.withNull, Bool.and_assoc]

end Scene
end Building
end SchemaTypes

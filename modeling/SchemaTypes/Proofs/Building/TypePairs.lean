import SchemaTypes.Proofs.Building.Counterparts
import SchemaTypes.Proofs.Building.ObjectNodes
/-!
# Types that are filled in alike

The type of a plain object node is filled in alike in both runs, so both come to refer to one type
(`Pairing.twins_typeOf`).  With that every kind of node is built alike, and so are all nodes by induction on the bounds
(`parallel_property`).
-/
namespace SchemaTypes
namespace Building
namespace Pairing

open Build

variable {p : Pairing} {known : List TypeId} {build build' : Builder} {site site' : Site} {scope scope' : Scope}
  {node : Json} {a b : Property} {name name' keyword : String} {pair : TypeId × TypeId}

/-! ## Filling a type in -/

theorem twins_members? : p.Twins known (Keyword.members? name node keyword) (Keyword.members? name' node keyword)
    fun _ found found' => found = found' ∧
      ∀ members, found = some members → node.get? keyword = some (.object members) := by
  unfold Keyword.members?
  split
  · exact twins_pure ⟨rfl, nofun⟩
  · rename_i members hget
    exact twins_pure ⟨rfl, fun others heq => Option.some.inj heq ▸ hget⟩
  · exact twins_malformed

theorem twins_strings {reason : String} {values : List Json} :
    p.Twins known (Keyword.strings name reason values) (Keyword.strings name' reason values) fun _ => Eq := by
  unfold Keyword.strings
  refine Twins.imp (twins_mapM (r := Eq) fun value _ => ?_) fun _ values values' _ h => ?_
  · split
    · exact twins_pure rfl
    · exact twins_malformed
  · rwa [List.forall₂_eq_eq_eq] at h

theorem twins_requiredNames :
    p.Twins known (Keyword.requiredNames name node) (Keyword.requiredNames name' node) fun _ => Eq := by
  unfold Keyword.requiredNames
  split
  · exact twins_pure rfl
  · exact twins_strings
  · exact twins_malformed

theorem twins_pattern {source : String} :
    p.Twins known (Keyword.pattern name source) (Keyword.pattern name' source) fun _ => Eq := by
  unfold Keyword.pattern
  split
  · exact twins_pure rfl
  · exact twins_refuse

theorem twins_count? :
    p.Twins known (Keyword.count? name node keyword) (Keyword.count? name' node keyword) fun _ => Eq := by
  unfold Keyword.count?
  split
  · exact twins_pure rfl
  · split
    · exact twins_pure rfl
    · exact twins_malformed

/-- What a plain node declares is plain. -/
theorem plain_members (hplain : Plain node) (hkeyword : keyword ∈ ["properties", "patternProperties"])
    {found : Option Members} (h : ∀ members, found = some members → node.get? keyword = some (.object members)) :
    ∀ member ∈ found.getD [], Plain member.2 := by
  cases found with
  | none => exact fun member hmember => absurd hmember List.not_mem_nil
  | some members => exact fun member hmember => hplain.hands (.member hkeyword (h members rfl) hmember)

theorem twins_addProperties (hb : Parallel build build') (hpair : pair ∈ p.filling) (hplain : Plain node) :
    p.Twins known (addProperties build scope pair.1 node) (addProperties build' scope' pair.2 node)
      fun _ _ _ => True := by
  unfold addProperties
  refine Twins.read twins_requiredNames fun required => ?_
  refine twins_members?.bind fun found found' hfound => ?_
  obtain ⟨rfl, hmembers⟩ := hfound
  have hdeclared := plain_members hplain (by decide) hmembers
  have hadd : ∀ (name : String) (required : Bool) (inner : Json), Plain inner →
      p.Twins known
        (build ⟨scope, name, required, false⟩ inner >>= fun id => addTypeProperty pair.1 id >>= fun _ =>
          pure (ForInStep.yield PUnit.unit))
        (build' ⟨scope', name, required, false⟩ inner >>= fun id => addTypeProperty pair.2 id >>= fun _ =>
          pure (ForInStep.yield PUnit.unit))
        fun _ a b => a = .yield ⟨⟩ ∧ b = .yield ⟨⟩ := by
    intro name required inner hinner
    refine (hb.twins p known ⟨scope, name, required, false⟩ ⟨scope', name, required, false⟩ inner rfl rfl hinner).bind
      fun id id' hids => ?_
    exact (twins_addTypeProperty hpair hids).andThen fun _ _ => twins_pure ⟨rfl, rfl⟩
  simp only
  refine Twins.andThen (twins_forIn fun member hmember => hadd _ _ _ (hdeclared member hmember)) fun _ _ => ?_
  refine Twins.andThen (twins_forIn fun name _ => hadd _ _ _ plain_empty) fun _ _ => twins_pure trivial

/-- A check of one property, under whatever class name. -/
theorem checks_child {check check' : PropertyId → Check} {id id' : PropertyId} (hids : p.Ids id id')
    (heq : (check' (id.shifted p.offset)).anonymous = ((check id).shifted p.offset).anonymous)
    (hchildren : (check id).children = [id]) (htypes : (check id).types = []) : p.Checks (check id) (check' id') := by
  refine ⟨hids.1 ▸ heq, fun child hchild => ?_, htypes⟩
  rw [hchildren] at hchild
  exact List.mem_singleton.1 hchild ▸ hids.2

theorem checks_leaf {check check' : Check} (heq : check'.anonymous = check.anonymous) (hchildren : check.children = [])
    (htypes : check.types = []) : p.Checks check check' := by
  refine ⟨?_, fun child hchild => absurd hchild (hchildren ▸ List.not_mem_nil), htypes⟩
  rw [heq, Check.shifted_of_children _ _ hchildren]

theorem twins_addPatternProperty (hb : Parallel build build') (hpair : pair ∈ p.filling)
    {before : List (Pattern × String)} {member : String × Json} (hplain : Plain member.2) :
    p.Twins known (addPatternProperty build scope pair.1 before member)
      (addPatternProperty build' scope' pair.2 before member) fun _ => Eq := by
  obtain ⟨source, inner⟩ := member
  unfold addPatternProperty
  simp only
  refine Twins.read twins_pattern fun pattern => ?_
  have hadd : p.Twins known
      (Build.nested build scope ("pattern property " ++ source) inner >>= fun id =>
        addTypeCheck pair.1 (.patternProperty scope.className pattern ((inner.stringAt? "key").getD source) id) >>=
          fun _ => pure (before ++ [(pattern, (inner.stringAt? "key").getD source)]))
      (Build.nested build' scope' ("pattern property " ++ source) inner >>= fun id =>
        addTypeCheck pair.2 (.patternProperty scope'.className pattern ((inner.stringAt? "key").getD source) id) >>=
          fun _ => pure (before ++ [(pattern, (inner.stringAt? "key").getD source)])) fun _ => Eq := by
    refine (twins_nested hb hplain).bind fun id id' hids => ?_
    exact (twins_addTypeCheck hpair (checks_child hids rfl rfl rfl)).andThen fun _ _ => twins_pure rfl
  split
  · exact Twins.andThen (Q := fun _ _ _ => True) twins_refuse fun _ _ => hadd
  · exact hadd

/-- Both types declare properties of the same names. -/
theorem Pictures.names_eq {graph graph' : Graph} (h : p.Pictures known graph graph') (hpair : pair ∈ p.filling) :
    ((graph'.entry pair.2).properties.map fun id => (graph'.property id).name) =
      (graph.entry pair.1).properties.map fun id => (graph.property id).name := by
  have hrepeats := h.filling pair hpair
  rw [hrepeats.properties, List.map_map]
  refine List.map_congr_left fun id hid => ?_
  exact (congrArg Property.name (h.property id _ ⟨rfl, hrepeats.inner id hid⟩)).trans (Property.shifted_name _ _)

theorem twins_addOpenProperties (hb : Parallel build build') (hpair : pair ∈ p.filling) (hplain : Plain node) :
    p.Twins known (addOpenProperties build scope pair.1 node) (addOpenProperties build' scope' pair.2 node)
      fun _ _ _ => True := by
  unfold addOpenProperties
  refine twins_graph_bind (fun start => ?_) (fun start => ?_) fun graph graph' hpictures => ?_
  · exact keeps_alone (Course.abides_passes hb.confined (mem_first hpair start)).addOpenProperties
  · exact keeps_alone (Course.abides_passes hb.confined' (mem_second hpair start)).addOpenProperties
  · rw [hpictures.names_eq hpair]
    generalize ((graph.entry pair.1).properties.map fun id => (graph.property id).name) = declared
    refine twins_members?.bind fun found found' hfound => ?_
    obtain ⟨rfl, hmembers⟩ := hfound
    have hinner : ∀ member ∈ found.getD [], Plain member.2 := plain_members hplain (by decide) hmembers
    simp only
    refine Twins.read (twins_foldlM rfl fun member hmember before before' heq =>
      heq ▸ twins_addPatternProperty hb hpair (hinner member hmember)) fun patterns => ?_
    split
    · exact twins_pure trivial
    · exact twins_pure trivial
    · exact twins_addTypeCheck hpair (checks_leaf rfl rfl rfl)
    · rename_i members hget
      refine (twins_nested hb (hplain.hands (.value (by decide) hget))).bind fun id id' hids => ?_
      exact twins_addTypeCheck hpair (checks_child hids rfl rfl rfl)
    · exact twins_malformed

theorem twins_addPropertyNames (hb : Parallel build build') (hpair : pair ∈ p.filling) (hplain : Plain node) :
    p.Twins known (addPropertyNames build scope pair.1 node) (addPropertyNames build' scope' pair.2 node)
      fun _ _ _ => True := by
  unfold addPropertyNames
  split
  · exact twins_pure trivial
  · rename_i names hget
    refine (twins_nested hb (hplain.hands (.value (by decide) hget))).bind fun id id' hids => ?_
    exact twins_addTypeCheck hpair (checks_child hids rfl rfl rfl)

theorem twins_addPropertyCounts (hpair : pair ∈ p.filling) :
    p.Twins known (addPropertyCounts scope pair.1 node) (addPropertyCounts scope' pair.2 node) fun _ _ _ => True := by
  have hadd : ∀ check : Check, check.children = [] → check.types = [] →
      p.Twins known (addTypeCheck pair.1 check) (addTypeCheck pair.2 check) fun _ _ _ => True :=
    fun check hchildren htypes => twins_addTypeCheck hpair (checks_leaf rfl hchildren htypes)
  unfold addPropertyCounts
  refine Twins.read twins_count? fun least => ?_
  simp only
  split
  · refine (hadd _ rfl rfl).andThen fun _ _ => Twins.read twins_count? fun most => ?_
    split
    · exact hadd _ rfl rfl
    · exact twins_pure trivial
  · refine Twins.read twins_count? fun most => ?_
    split
    · exact hadd _ rfl rfl
    · exact twins_pure trivial

theorem twins_addDependency (hb : Parallel build build') (hpair : pair ∈ p.filling) {member : String × Json}
    (hplain : Plain (Keyword.withObjectType member.2)) :
    p.Twins known (addDependency build scope pair.1 member) (addDependency build' scope' pair.2 member)
      fun _ _ _ => True := by
  obtain ⟨trigger, dependency⟩ := member
  have hnested : p.Twins known
      (Build.nested build scope ("dependency of " ++ trigger) (Keyword.withObjectType dependency) >>= fun id =>
        addTypeCheck pair.1 (.schemaDependency trigger id))
      (Build.nested build' scope' ("dependency of " ++ trigger) (Keyword.withObjectType dependency) >>= fun id =>
        addTypeCheck pair.2 (.schemaDependency trigger id)) fun _ _ _ => True :=
    (twins_nested hb hplain).bind fun id id' hids => twins_addTypeCheck hpair (checks_child hids rfl rfl rfl)
  unfold addDependency
  simp only
  split
  · exact Twins.read twins_strings fun dependants => twins_addTypeCheck hpair (checks_leaf rfl rfl rfl)
  · exact twins_pure trivial
  · exact hnested
  · exact hnested
  · exact twins_malformed

theorem twins_addDependencies (hb : Parallel build build') (hpair : pair ∈ p.filling) (hplain : Plain node)
    (hkeyword : keyword ∈ dependencyWords) :
    p.Twins known (addDependencies build scope pair.1 node keyword) (addDependencies build' scope' pair.2 node keyword)
      fun _ _ _ => True := by
  unfold addDependencies
  refine twins_members?.bind fun found found' hfound => ?_
  obtain ⟨rfl, hmembers⟩ := hfound
  cases found with
  | none => exact twins_pure trivial
  | some members =>
    exact twins_forM fun member hmember =>
      twins_addDependency hb hpair (hplain.hands (.dependency hkeyword (hmembers members rfl) hmember))

/-- An object that combines no schemas gets no such checks. -/
theorem applyObjectCompositions_eq_pure {type : TypeId} (h : ∀ word ∈ Keyword.compositionWords, node.get? word = none) :
    applyObjectCompositions build scope type node = pure ⟨⟩ := by
  have hnone : ∀ combinator : Combinator, addObjectComposition build scope type node combinator = pure ⟨⟩ := by
    intro combinator
    have hword : node.get? combinator.keyword = none := h _ (by cases combinator <;> decide)
    unfold addObjectComposition Keyword.branches?
    rw [hword]
    rfl
  have hif : node.get? "if" = none := h _ (by decide)
  unfold applyObjectCompositions conditional?
  rw [funext hnone, hif]
  rfl

theorem twins_fill (hb : Parallel build build') (hpair : pair ∈ p.filling) (hplain : Plain node)
    (hbare : ∀ word ∈ Keyword.compositionWords, node.get? word = none) :
    p.Twins known (fill build scope pair.1 node) (fill build' scope' pair.2 node) fun _ _ _ => True := by
  unfold fill
  simp only [applyObjectCompositions_eq_pure hbare]
  have hrest : p.Twins known
      (do
        addProperties build scope pair.1 node
        addOpenProperties build scope pair.1 node
        addPropertyNames build scope pair.1 node
        addPropertyCounts scope pair.1 node
        dependencyWords.forM (addDependencies build scope pair.1 node)
        (pure ⟨⟩ : Build Unit))
      (do
        addProperties build' scope' pair.2 node
        addOpenProperties build' scope' pair.2 node
        addPropertyNames build' scope' pair.2 node
        addPropertyCounts scope' pair.2 node
        dependencyWords.forM (addDependencies build' scope' pair.2 node)
        (pure ⟨⟩ : Build Unit)) fun _ _ _ => True := by
    refine (twins_addProperties hb hpair hplain).andThen fun _ _ => ?_
    refine (twins_addOpenProperties hb hpair hplain).andThen fun _ _ => ?_
    refine (twins_addPropertyNames hb hpair hplain).andThen fun _ _ => ?_
    refine (twins_addPropertyCounts hpair).andThen fun _ _ => ?_
    refine Twins.andThen (twins_forM fun keyword hkeyword => ?_) fun _ _ => twins_pure trivial
    exact twins_addDependencies hb hpair hplain hkeyword
  split
  · rename_i text _
    refine Twins.andThen (twins_modifyType hpair ?_ ?_ fun type type' hrepeats => ?_) fun _ _ => hrest
    · exact ⟨⟨fun _ => rfl, fun _ => rfl, fun _ => rfl⟩, fun _ => rfl⟩
    · exact ⟨⟨fun _ => rfl, fun _ => rfl, fun _ => rfl⟩, fun _ => rfl⟩
    · exact ⟨hrepeats.properties, hrepeats.validators, hrepeats.inner, hrepeats.children, hrepeats.types⟩
  · exact hrest

/-! ## Objects -/

/-- A property comes to hold a type that both runs refer to. -/
theorem Drafts.hold (h : p.Drafts known a b) {type : TypeId} (htype : type ∈ known) (label : Option TypeLabel) :
    p.Drafts known { a with label, nested := some type } { b with label, nested := some type } := by
  obtain rfl := h.eq
  refine ⟨rfl, h.children, fun other hother => ?_⟩
  rcases List.mem_append.1 hother with hother | hother
  · exact List.mem_singleton.1 hother ▸ htype
  · exact h.types other (List.mem_append_right _ hother)

theorem twins_instanceProperty {type : TypeId} (htype : type ∈ known) {required : Bool} :
    p.Twins known (instanceProperty name type required) (instanceProperty name type required)
      fun _ => p.Drafts known := by
  have hhold : ∀ className : String, p.Twins known
      (do
        let property ← Build.newProperty name required
        let allowed ← Build.allowsNull required
        let property := { property with label := some (.single className), nested := some type }
        let property := property.addDecorator (.instantiates type)
        let property := if required then property.addCheck .required else property
        return (property.addCheck (.type [.object] allowed)).addCheck (.instanceOf type))
      (do
        let property ← Build.newProperty name required
        let allowed ← Build.allowsNull required
        let property := { property with label := some (.single className), nested := some type }
        let property := property.addDecorator (.instantiates type)
        let property := if required then property.addCheck .required else property
        return (property.addCheck (.type [.object] allowed)).addCheck (.instanceOf type))
      fun _ => p.Drafts known := by
    intro className
    refine twins_newProperty.bind fun a b h => ?_
    refine Twins.read (twins_detached detached_allowsNull) fun allowed => twins_pure ?_
    have hheld := ((h.1.hold htype (some (.single className))).addDecorator (.instantiates type)).present required
    have htyped : p.Drafts known (Property.addCheck _ (.type [.object] allowed)) _ := hheld.addLeaf rfl rfl
    exact htyped.addCheck (fun _ hchild => absurd hchild List.not_mem_nil) fun other hother =>
      List.mem_singleton.1 hother ▸ htype
  unfold instanceProperty
  refine twins_graph_bind (fun start => keeps_graph.andThen fun graph => (hhold _).first start)
    (fun start => keeps_graph.andThen fun graph => (hhold _).second start) fun graph graph' hpictures => ?_
  rw [hpictures.classNames type htype]
  exact hhold _

end Pairing

/-! ## Objects and unions -/

namespace Pairing

open Build

variable {p : Pairing} {known : List TypeId} {build build' : Builder} {site site' : Site} {node : Json}
  {a b : Property} {name name' : String}

/-- One of the two may be a definition, or both. -/
theorem twins_announce {key key' : Option DefinitionKey} (h : Unbegun p.first key) (h' : Unbegun p.second key')
    {pair : TypeId × TypeId} :
    p.Twins known (announce key pair.1) (announce key' pair.2) fun _ _ _ => True where
  first _ := keeps_alone (keeps_announce h)
  second _ := keeps_alone (keeps_announce h')
  both s₁ s₂ u u' s₁' s₂' _ hmatches hrun hrun' _ := by
    obtain ⟨hgraph, hsignatures⟩ := runs_announce hrun
    obtain ⟨hgraph', _⟩ := runs_announce hrun'
    have hregisters : ∀ type, s₁.Registers type → s₁'.Registers type := fun type htype => by
      unfold Session.Registers
      rw [hsignatures]
      exact htype
    refine ⟨known, List.Subset.refl _, ⟨?_, ?_, fun type htype => hregisters type (hmatches.known type htype), ?_, ?_,
      hmatches.paired⟩, trivial⟩
    · rw [hgraph, hgraph']
      exact hmatches.repeats
    · rw [hgraph]
      exact fun id hid type htype => hregisters type (hmatches.types id hid type htype)
    · rw [hgraph, hgraph']
      exact hmatches.filling
    · rw [hgraph, hgraph']
      exact hmatches.nested

theorem twins_fillIn (hb : Parallel build build') {pair : TypeId × TypeId} (hpair : pair ∈ p.filling)
    (hplain : Plain node) (hbare : ∀ word ∈ Keyword.compositionWords, node.get? word = none) :
    p.Twins known (fillIn build site node pair.1) (fillIn build' site' node pair.2) fun _ _ _ => True :=
  twins_graph.andThen fun _ _ => twins_fill hb hpair hplain hbare

/-- **The types of a plain object node are one**, wherever it stands. -/
theorem twins_typeOf (hb : Parallel build build') (hplain : Plain node)
    (hbare : ∀ word ∈ Keyword.compositionWords, node.get? word = none) {key key' : Option DefinitionKey}
    (h : Unbegun p.first key) (h' : Unbegun p.second key') :
    p.Twins known (typeOf build site node key) (typeOf build' site' node key') fun known' type type' =>
      type = type' ∧ type ∈ known' := by
  unfold typeOf reserveFor
  rw [bind_assoc, bind_assoc]
  refine (twins_detached detached_read).andThen fun config config' => ?_
  simp only [← bind_assoc (announce key _), ← bind_assoc (announce key' _)]
  refine twins_bracket fun pair => ?_
  have hannounced : (p.opening pair).Twins known (announce key pair.1) (announce key' pair.2) fun _ _ _ => True :=
    twins_announce (p := p.opening pair) h h'
  exact hannounced.andThen fun _ _ => twins_fillIn hb List.mem_cons_self hplain hbare

theorem twins_held (hb : Parallel build build') (hname : site'.name = site.name)
    (hrequired : site'.required = site.required) (hplain : Plain node)
    (hbare : ∀ word ∈ Keyword.compositionWords, node.get? word = none) :
    p.Twins known (reserveFor site node >>= materialize build site node)
      (reserveFor site' node >>= materialize build' site' node) fun known' => p.Drafts known' := by
  rw [reserveFor_materialize, reserveFor_materialize, hname, hrequired]
  refine (twins_typeOf hb hplain hbare (unbegun_none _) (unbegun_none _)).learn fun known' type type' _ h => ?_
  obtain ⟨rfl, htype⟩ := h
  exact (twins_instanceProperty htype).imp fun later a b hsub h => h.mono hsub

theorem twins_object (hb : Parallel build build') (hname : site'.name = site.name)
    (hrequired : site'.required = site.required) (hplain : Plain node)
    (hbare : ∀ word ∈ Keyword.compositionWords, node.get? word = none) :
    p.Twins known (object build site node) (object build' site' node) fun _ => p.Ids := by
  rw [object_eq, object_eq, hrequired]
  refine (twins_held hb hname hrequired hplain hbare).learn fun known' a b _ h => ?_
  exact (twins_applyValueKeywords h).bind fun a b h => twins_addProperty h

theorem twins_member (hb : Parallel build build') (hname : site'.name = site.name)
    (hrequired : site'.required = site.required) (hplain : Plain node) (kind : Kind) :
    p.Twins known (member build site node kind) (member build' site' node kind) fun known' => p.Drafts known' := by
  unfold member
  split
  · exact twins_held hb hname hrequired hplain.withoutCompositions.1 hplain.withoutCompositions.2
  · exact (twins_ofKind hb hname hrequired hplain kind).imp fun known' a b hsub h => h.mono hsub

/-- Each member may refer to types of its own. -/
theorem twins_members (hb : Parallel build build') (hname : site'.name = site.name)
    (hrequired : site'.required = site.required) (hplain : Plain node) : ∀ (kinds : List Kind) (known : List TypeId)
    (a b : Property), p.Drafts known a b → p.Twins known
      (kinds.foldlM (fun property kind => return addMember property (← member build site node kind)) a)
      (kinds.foldlM (fun property kind => return addMember property (← member build' site' node kind)) b)
      fun known' => p.Drafts known'
  | [], _, _, _, h => by
    rw [List.foldlM_nil, List.foldlM_nil]
    exact twins_pure h
  | kind :: rest, known, a, b, h => by
    rw [List.foldlM_cons, List.foldlM_cons, bind_assoc, bind_assoc]
    refine (twins_member hb hname hrequired hplain kind).learn fun known' member member' hsub hmember => ?_
    rw [pure_bind, pure_bind]
    exact twins_members hb hname hrequired hplain rest known' _ _ (drafts_addMember (h.mono hsub) hmember)

theorem twins_complement (hb : Parallel build build') (hname : site'.name = site.name)
    (hrequired : site'.required = site.required) (hplain : Plain node) (h : p.Drafts known a b) :
    p.Twins known (complement build site node a) (complement build' site' node b) fun _ => p.Ids := by
  unfold complement
  rw [hrequired]
  refine (twins_applyValueKeywords h).bind fun a b h => ?_
  exact (twins_applyCompositions hb hname hrequired h hplain).bind fun a b h => twins_addProperty h

theorem twins_union (hb : Parallel build build') (hname : site'.name = site.name)
    (hrequired : site'.required = site.required) (hplain : Plain node) {types : List Json} :
    p.Twins known (union build site node types) (union build' site' node types) fun _ => p.Ids := by
  unfold union
  rw [hname, hrequired]
  refine Twins.read (twins_detached detached_unionKinds) fun kinds => ?_
  refine twins_newProperty.bind fun a b h => ?_
  refine (twins_members hb hname hrequired hplain _ known a b h.1).learn fun known' a b _ h => ?_
  refine Twins.read (twins_detached detached_allowsNull) fun allowed => ?_
  have hlabel : b.label = a.label := h.eq ▸ Property.shifted_label _ _
  rw [hlabel]
  generalize some { TypeLabel.union ((a.label.map (·.names)).getD [Kind.null.keyword]) with
    nullability := if kinds.contains .null then .nullable else .unknown } = label
  have htyped : p.Drafts known' (Property.addCheck _ (.type kinds (allowed && !kinds.contains .null))) _ :=
    ((h.relabel label).present site.required).addLeaf rfl rfl
  have hcomplement := twins_complement hb hname hrequired hplain htyped
  unfold complement at hcomplement
  rw [hrequired] at hcomplement
  exact hcomplement

/-! ## Nodes -/

theorem isObject_of_typed {word : String} (hget : node.get? "type" = some (.string word))
    (hkind : Kind.ofKeyword? word = some .object) : Keyword.isObject node = true := by
  have hfound := List.find?_some hkind
  have hword : Kind.object.keyword = word := eq_of_beq hfound
  unfold Keyword.isObject
  rw [hget, ← hword]
  rfl

theorem twins_typed (hb : Parallel build build') (hname : site'.name = site.name)
    (hrequired : site'.required = site.required) (hplain : Plain node) {word : String}
    (hget : node.get? "type" = some (.string word)) :
    p.Twins known (typed build site node word) (typed build' site' node word) fun _ => p.Ids := by
  unfold typed
  split
  · exact twins_refuse
  · rename_i hkind
    exact twins_object hb hname hrequired hplain (hplain.get?_eq_none (isObject_of_typed hget hkind))
  · exact (twins_ofKind hb hname hrequired hplain _).bind fun a b h => twins_complement hb hname hrequired hplain h

theorem twins_normalize (hplain : Plain node) :
    p.Twins known (Keyword.normalize name node) (Keyword.normalize name' node) fun _ normal normal' =>
      normal = normal' ∧ Plain normal := by
  unfold Keyword.normalize
  split
  · exact twins_pure ⟨rfl, hplain⟩
  · rename_i value
    exact twins_pure ⟨rfl, hplain.hands (.abbreviated value)⟩
  · exact twins_malformed

theorem twins_nodeProperty (hb : Parallel build build') (hname : site'.name = site.name)
    (hrequired : site'.required = site.required) (hplain : Plain node) :
    p.Twins known (nodeProperty build site node) (nodeProperty build' site' node) fun _ => p.Ids := by
  unfold nodeProperty
  refine (twins_normalize hplain).bind fun node other h => ?_
  obtain ⟨rfl, hplain⟩ := h
  have hpresent : ∀ f : Property → Property, (∀ a b, p.Drafts known a b → p.Drafts known (f a) (f b)) →
      p.Twins known (presentProperty site >>= fun property => complement build site node (f property))
        (presentProperty site' >>= fun property => complement build' site' node (f property)) fun _ => p.Ids :=
    fun f hf => (twins_presentProperty hname hrequired).bind fun a b h =>
      twins_complement hb hname hrequired hplain (hf a b h)
  split
  · rename_i reference hreference
    unfold referred
    split
    · exact absurd hreference (hplain.get?_reference _)
    · exact twins_malformed
  · split
    · rename_i hget
      exact twins_typed hb hname hrequired hplain hget
    · exact twins_union hb hname hrequired hplain
    · exact twins_malformed
    · split
      · rename_i hobject
        exact twins_object hb hname hrequired hplain (hplain.get?_eq_none hobject)
      · split
        · exact hpresent _ fun a b h => h.relabel _
        · split
          · unfold untypedEnumeration
            refine (twins_presentProperty hname hrequired).bind fun a b h => ?_
            rw [hname]
            refine Twins.read (twins_detached Keyword.detached_enumeration?) fun found => ?_
            refine twins_complement hb hname hrequired hplain ?_
            split
            · exact drafts_inferEnumeration h _
            · exact h
          · exact hpresent _ fun a b h => h

/-- If one of the two never succeeds, there is nothing to compare. -/
theorem twins_of_not_runs (hb : Confined build) (hb' : Confined build')
    (h : ∀ s₁ s₂ a b s₁' s₂', (build site node).Runs p.config s₁ a s₁' →
      ¬ (build' site' node).Runs p.config s₂ b s₂') :
    p.Twins known (build site node) (build' site' node) fun _ => p.Ids where
  first _ := (hb _ site node).imp fun _ hnew => ⟨known, List.Subset.refl _, exists_ids_of_new₁ hnew⟩
  second _ := (hb' _ site' node).imp fun _ hnew => ⟨known, List.Subset.refl _, exists_ids_of_new₂ hnew⟩
  both s₁ s₂ a b s₁' s₂' _ _ hrun hrun' _ := absurd hrun' (h s₁ s₂ a b s₁' s₂' hrun)

end Pairing

/-- **Whatever the bounds**, the builders of the recursion run side by side. -/
theorem parallel_property : ∀ bound bound' : Nat, Parallel (property bound) (property bound')
  | 0, _ => ⟨confined_property _, confined_property _, fun _ _ _ _ _ _ _ _ =>
      Pairing.twins_of_not_runs (confined_property _) (confined_property _) fun _ _ _ _ _ _ hrun =>
        absurd hrun Build.not_runs_throw⟩
  | _ + 1, 0 => ⟨confined_property _, confined_property _, fun _ _ _ _ _ _ _ _ =>
      Pairing.twins_of_not_runs (confined_property _) (confined_property _) fun _ _ _ _ _ _ _ =>
        Build.not_runs_throw⟩
  | bound + 1, bound' + 1 => ⟨confined_property _, confined_property _, fun _ _ _ _ _ hname hrequired hplain =>
      Pairing.twins_nodeProperty (parallel_property bound bound') hname hrequired hplain⟩

end Building
end SchemaTypes

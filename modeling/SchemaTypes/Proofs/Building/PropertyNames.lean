import SchemaTypes.Building.Nodes
import SchemaTypes.Proofs.Building.Courses
/-!
# A built property is for its site

Every draft begins under the name of the site it is built for, required or not as the site says, and what keywords make
of it continues it: they change neither this purpose nor the type it holds (`Property.Continues`).  So whatever a node
says, and whatever the builder of the nodes inside does, success answers a property for the site (`makes_nodeProperty`),
and one of its name in particular (`names_property`).
-/
namespace SchemaTypes

namespace Property

/-- What a property is built for: its name, and the marks that ask for its presence. -/
structure Purpose where
  name : String
  required : Bool
  relaxed : Bool := false

def purpose (property : Property) : Purpose := ⟨property.name, property.required, property.relaxed⟩

/-- The draft taken further: for the same purpose, and with the same type held. -/
structure Continues (draft result : Property) : Prop where
  purpose : result.purpose = draft.purpose
  nested : result.nested = draft.nested

variable {draft middle result : Property}

theorem Continues.name (h : draft.Continues result) : result.name = draft.name := congrArg Purpose.name h.purpose

theorem Continues.refl (draft : Property) : draft.Continues draft := ⟨rfl, rfl⟩

theorem Continues.trans (h : draft.Continues middle) (h' : middle.Continues result) : draft.Continues result :=
  ⟨h'.purpose.trans h.purpose, h'.nested.trans h.nested⟩

theorem continues_addDecorator (decorator : Decorator) : draft.Continues (draft.addDecorator decorator) := by
  unfold Property.addDecorator
  split
  · exact .refl draft
  · exact ⟨rfl, rfl⟩

end Property

namespace Build

variable {α β : Type} {config : Config} {x : Build α} {f : α → Build β} {q : α → Prop} {name : String}
  {purpose : Property.Purpose}

/-- Success answers as said, from any session. -/
abbrev Gives (config : Config) (x : Build α) (q : α → Prop) : Prop := Keeps config (fun _ => True) x q

theorem gives_any : Gives config x fun _ => True := fun _ _ => ⟨fun _ _ _ => ⟨trivial, trivial⟩, fun _ _ _ => trivial⟩

/-- A first part whose result does not matter. -/
theorem gives_after {r : β → Prop} (hf : ∀ a, Gives config (f a) r) : Gives config (x >>= f) r := gives_any.andThen hf

/-- Success answers a property for this purpose that is in the graph. -/
def Makes (config : Config) (x : Build PropertyId) (purpose : Property.Purpose) : Prop :=
  Meets config (fun _ => True) x
    (fun id s => s.graph.HasProperty id ∧ (s.graph.property id).purpose = purpose) fun _ => True

/-- Success answers a property of this name that is in the graph. -/
def Names (config : Config) (x : Build PropertyId) (name : String) : Prop :=
  Meets config (fun _ => True) x
    (fun id s => s.graph.HasProperty id ∧ (s.graph.property id).name = name) fun _ => True

theorem Makes.names {x : Build PropertyId} (h : Makes config x purpose) : Names config x purpose.name :=
  fun s hs => ⟨fun id s' hrun => ⟨((h s hs).1 id s' hrun).1, congrArg Property.Purpose.name ((h s hs).1 id s' hrun).2⟩,
    (h s hs).2⟩

theorem Gives.makes {f : α → Build PropertyId} (hx : Gives config x q) (hf : ∀ a, q a → Makes config (f a) purpose) :
    Makes config (x >>= f) purpose := Meets.bind hx fun a s hs => hf a hs.2 s trivial

theorem makes_after {f : α → Build PropertyId} (hf : ∀ a, Makes config (f a) purpose) :
    Makes config (x >>= f) purpose := gives_any.makes fun a _ => hf a

theorem makes_refuse {fault : SchemaFault} : Makes config (refuse fault) purpose :=
  fun _ _ => ⟨fun _ _ hrun => absurd hrun not_runs_refuse, fun _ _ _ => trivial⟩

theorem makes_malformed {property reason : String} : Makes config (malformed property reason) purpose := makes_refuse

theorem makes_addProperty {property : Property} (h : property.purpose = purpose) :
    Makes config (addProperty property) purpose := by
  refine fun s _ => ⟨fun id s' hrun => ?_, fun _ _ _ => trivial⟩
  obtain ⟨rfl, rfl⟩ := runs_addProperty.1 hrun
  refine ⟨Session.hasProperty_addProperty _ _, ?_⟩
  rw [Graph.property_addProperty]
  exact h

/-- A change of properties that leaves something about each as it is. -/
theorem aspect_modifyProperty {γ : Type} {graph : Graph} {id : PropertyId} (aspect : Property → γ) (other : PropertyId)
    {f : Property → Property} (h : graph.HasProperty id) (hf : ∀ property, aspect (f property) = aspect property) :
    (graph.modifyProperty other f).HasProperty id ∧
      aspect ((graph.modifyProperty other f).property id) = aspect (graph.property id) := by
  refine ⟨h.grows (Session.grows_modifyProperty _ _ _), ?_⟩
  by_cases heq : id = other
  · subst heq
    rw [Graph.property_modifyProperty _ _ h, hf]
  · rw [Graph.property_modifyProperty_of_ne _ _ heq]

theorem hasProperty_modifyProperty {graph : Graph} {id : PropertyId} (other : PropertyId) {f : Property → Property}
    (h : graph.HasProperty id) (hf : ∀ property, (f property).name = property.name) :
    (graph.modifyProperty other f).HasProperty id ∧
      ((graph.modifyProperty other f).property id).name = (graph.property id).name :=
  aspect_modifyProperty Property.name other h hf

/-- What a property is for survives a change of properties that leaves that. -/
theorem makes_modifyProperty {id other : PropertyId} {f : Property → Property}
    (hf : ∀ property, (f property).purpose = property.purpose) :
    Meets config (fun s => s.graph.HasProperty id ∧ (s.graph.property id).purpose = purpose) (modifyProperty other f)
      (fun _ s => s.graph.HasProperty id ∧ (s.graph.property id).purpose = purpose) fun _ => True := by
  refine meets_of_runs (v := ⟨⟩) (fun _ => runs_modifyGraph.2 rfl) fun s hs => ?_
  obtain ⟨hthere, hpurpose⟩ := aspect_modifyProperty Property.purpose other hs.1 hf
  exact ⟨hthere, hpurpose.trans hs.2⟩

end Build

namespace Building

open Build

variable {config : Config} {build : Builder} {site : Site} {scope : Scope} {draft member : Property} {node : Json}
  {name keyword : String} {required : Bool} {type : TypeId}

/-! ## What is made of a draft -/

theorem continues_describe : draft.Continues (describe draft node) := by
  unfold describe
  split
  · exact ⟨rfl, rfl⟩
  · exact .refl draft

theorem continues_constant : draft.Continues (constant draft node) := by
  unfold constant
  split
  · exact ⟨rfl, rfl⟩
  · exact .refl draft

theorem continues_inferLabel (labels : List (Option TypeLabel)) : draft.Continues (inferLabel draft labels) := by
  unfold inferLabel
  split
  · split
    · exact (Property.continues_addDecorator _).trans ⟨rfl, rfl⟩
    · exact .refl draft
  · exact .refl draft

theorem continues_inferEnumeration (values : List Json) : draft.Continues (inferEnumeration draft values) := by
  unfold inferEnumeration
  simp only
  split
  · exact ⟨rfl, rfl⟩
  · exact Property.continues_addDecorator _

theorem continues_mergeChecks : draft.Continues (mergeChecks draft member) := by
  unfold mergeChecks
  refine List.foldlRecOn _ _ (motive := fun property : Property => draft.Continues property) (.refl draft)
    fun property hcontinues validator _ => ?_
  split
  · exact hcontinues
  · exact hcontinues.trans ⟨rfl, rfl⟩

/-- A union may come to hold the type of its member. -/
theorem purpose_addMember : (addMember draft member).purpose = draft.purpose := by
  unfold addMember
  refine continues_mergeChecks.purpose.trans ?_
  split
  · rfl
  · rfl

/-! ## Keywords of a kind and of every property -/

/-- What is made of the draft continues it. -/
abbrev Extends (config : Config) (draft : Property) (x : Build Property) : Prop := Gives config x draft.Continues

theorem continues_addCheck (check : Check) : draft.Continues (draft.addCheck check) := ⟨rfl, rfl⟩

theorem continues_ite_addCheck (condition : Bool) (check : Check) :
    draft.Continues (if condition then draft.addCheck check else draft) := by
  split
  · exact continues_addCheck check
  · exact .refl draft

theorem gives_newProperty : Gives config (newProperty name required) (·.purpose = ⟨name, required, false⟩) := by
  unfold newProperty
  split
  · exact keeps_pure rfl
  · exact keeps_refuse

/-- A property that is required exactly if the site says so. -/
abbrev sitePurpose (site : Site) : Property.Purpose := ⟨site.name, site.required, false⟩

theorem gives_presentProperty : Gives config (presentProperty site) (·.purpose = sitePurpose site) := by
  unfold presentProperty
  exact gives_newProperty.bind fun property h => keeps_pure ((continues_ite_addCheck _ _).purpose.trans h)

/-- An enumeration without null stamps the draft once more. -/
theorem extends_enumerate (hrequired : draft.required = required) :
    Extends config draft (enumerate draft node required) := by
  unfold enumerate
  refine gives_after fun found => ?_
  split
  · exact keeps_pure (.refl draft)
  · refine gives_after fun allowed => ?_
    simp only
    split
    · exact gives_after fun _ => keeps_pure ⟨congrArg (Property.Purpose.mk _ · _) hrequired.symm, rfl⟩
    · exact keeps_pure (continues_addCheck _)

theorem extends_applyFilter {entry : Json} : Extends config draft (applyFilter draft entry) := by
  unfold applyFilter
  refine gives_after fun found => gives_after fun known => ?_
  split
  · exact keeps_refuse
  · split
    · exact keeps_pure (continues_addCheck _)
    · exact keeps_refuse

theorem extends_applyFilters : Extends config draft (applyFilters draft node) := by
  unfold applyFilters
  split
  · exact keeps_pure (.refl draft)
  · exact keeps_foldlM (fun filtered _ hfiltered => extends_applyFilter.imp fun _ h => hfiltered.trans h) (.refl draft)
  · exact extends_applyFilter

theorem extends_applyDefault : Extends config draft (applyDefault draft node) := by
  unfold applyDefault
  split
  · exact keeps_pure (.refl draft)
  · split
    · exact keeps_pure ⟨rfl, rfl⟩
    · exact keeps_refuse

theorem extends_applyValueKeywords (hrequired : draft.required = required) :
    Extends config draft (applyValueKeywords draft node required) := by
  unfold applyValueKeywords
  have hdescribed : (describe draft node).required = required :=
    (congrArg Property.Purpose.required continues_describe.purpose).trans hrequired
  refine (extends_enumerate hdescribed).bind fun valued hvalued => ?_
  refine extends_applyFilters.bind fun filtered hfiltered => ?_
  refine extends_applyDefault.imp fun result hresult => ?_
  exact ((continues_describe.trans hvalued).trans (continues_constant.trans hfiltered)).trans hresult

theorem extends_addPattern : Extends config draft (addPattern draft node) := by
  unfold addPattern
  split
  · exact keeps_pure (.refl draft)
  · exact gives_after fun _ => keeps_pure (continues_addCheck _)
  · exact keeps_malformed

theorem extends_addCount {check : Nat → Check} : Extends config draft (addCount draft node keyword check) := by
  unfold addCount
  refine gives_after fun found => ?_
  split
  · exact keeps_pure (continues_addCheck _)
  · exact keeps_pure (.refl draft)

theorem extends_addStringChecks : Extends config draft (addStringChecks draft node) := by
  unfold addStringChecks
  refine gives_after fun _ => extends_addPattern.bind fun patterned hpatterned => ?_
  refine extends_addCount.bind fun least hleast => extends_addCount.imp fun most hmost => ?_
  exact (hpatterned.trans hleast).trans hmost

theorem extends_addBound {exclusiveKeyword : String} {check : Number → Bool → Check} :
    Extends config draft (addBound draft node keyword exclusiveKeyword check) := by
  unfold addBound
  refine gives_after fun limit? => ?_
  simp only
  split
  · cases limit? <;> exact keeps_pure ⟨rfl, rfl⟩
  · cases limit? <;> exact keeps_pure ⟨rfl, rfl⟩
  · cases limit? <;> exact keeps_pure ⟨rfl, rfl⟩
  · exact keeps_malformed

theorem extends_addNumberChecks : Extends config draft (addNumberChecks draft node) := by
  unfold addNumberChecks
  refine extends_addBound.bind fun low hlow => extends_addBound.bind fun high hhigh => ?_
  refine gives_after fun divisor? => ?_
  split
  · exact keeps_pure ((hlow.trans hhigh).trans (continues_addCheck _))
  · exact keeps_pure (hlow.trans hhigh)

theorem extends_addTuple {items : List Json} :
    Extends config draft (addTuple build scope draft items node) := by
  unfold addTuple
  refine gives_after fun positions => ?_
  simp only
  split
  · exact keeps_pure (continues_addCheck _)
  · exact keeps_pure (continues_addCheck _)
  · exact keeps_pure ⟨rfl, rfl⟩
  · exact gives_after fun _ => keeps_pure ⟨rfl, rfl⟩
  · exact keeps_malformed

theorem extends_addItems : Extends config draft (addItems build scope draft node) := by
  unfold addItems
  split
  · exact keeps_pure (.refl draft)
  · exact extends_addTuple
  · exact gives_after fun _ => keeps_pure (continues_addCheck _)

theorem extends_addContains : Extends config draft (addContains build scope draft node) := by
  unfold addContains
  split
  · exact keeps_pure (.refl draft)
  · exact gives_after fun _ => keeps_pure (continues_addCheck _)

theorem extends_addArrayChecks : Extends config draft (addArrayChecks build scope draft node) := by
  unfold addArrayChecks
  refine extends_addCount.bind fun least hleast => extends_addCount.bind fun most hmost => ?_
  refine gives_after fun unique => ?_
  have hunique : most.Continues (if unique then most.addCheck .uniqueItems else most) := continues_ite_addCheck _ _
  refine extends_addItems.bind fun items hitems => extends_addContains.imp fun result hresult => ?_
  exact ((hleast.trans hmost).trans (hunique.trans hitems)).trans hresult

theorem extends_addKindChecks (kind : Kind) :
    Extends config draft (addKindChecks build scope kind draft node) := by
  unfold addKindChecks
  split
  · exact extends_addStringChecks
  · exact extends_addNumberChecks
  · exact extends_addNumberChecks
  · exact extends_addArrayChecks
  · exact keeps_pure (.refl draft)
  · exact keeps_pure (.refl draft)
  · exact keeps_pure (.refl draft)

theorem gives_ofKind (kind : Kind) : Gives config (ofKind build site node kind) (·.purpose = sitePurpose site) := by
  unfold ofKind
  refine gives_presentProperty.bind fun property h => gives_after fun allowed => ?_
  exact (extends_addKindChecks kind).imp fun result hresult => hresult.purpose.trans h

/-! ## Compositions and types -/

theorem extends_addComposition (combinator : Combinator) :
    Extends config draft (addComposition build site node draft combinator) := by
  unfold addComposition
  refine gives_after fun found => ?_
  split
  · exact keeps_pure (.refl draft)
  · refine gives_after fun _ => gives_after fun ids => gives_after fun graph => keeps_pure ?_
    refine Property.Continues.trans ?_ (continues_addCheck _)
    split
    · exact continues_inferLabel _
    · exact .refl draft

theorem extends_applyCompositions : Extends config draft (applyCompositions build site node draft) := by
  unfold applyCompositions
  refine Keeps.bind (q := draft.Continues) (keeps_foldlM (fun composed combinator hcomposed =>
    (extends_addComposition combinator).imp fun _ h => hcomposed.trans h) (.refl draft)) fun composed hcomposed => ?_
  refine gives_after fun conditional => ?_
  have hadded : draft.Continues ((conditional.map composed.addCheck).getD composed) := by
    cases conditional with
    | none => exact hcomposed
    | some check => exact hcomposed.trans (continues_addCheck _)
  simp only
  split
  · exact gives_after fun _ => keeps_pure (hadded.trans (continues_addCheck _))
  · exact keeps_pure hadded

theorem gives_instanceProperty :
    Gives config (instanceProperty name type required) (·.purpose = ⟨name, required, false⟩) := by
  unfold instanceProperty
  refine gives_after fun graph => gives_newProperty.bind fun property h => gives_after fun allowed => keeps_pure ?_
  refine (continues_ite_addCheck required .required).purpose.trans ?_
  exact (Property.continues_addDecorator _).purpose.trans h

theorem gives_materialize : Gives config (materialize build site node type) (·.purpose = sitePurpose site) := by
  unfold materialize
  exact gives_after fun _ => gives_after fun _ => gives_after fun _ => gives_instanceProperty

theorem makes_objectInto : Makes config (objectInto build site node type) (sitePurpose site) := by
  unfold objectInto
  refine gives_materialize.makes fun property h => ?_
  exact (extends_applyValueKeywords (congrArg Property.Purpose.required h)).makes fun result hresult =>
    makes_addProperty (hresult.purpose.trans h)

theorem makes_object : Makes config (object build site node) (sitePurpose site) := by
  unfold object
  exact makes_after fun _ => makes_objectInto

/-- A draft for the site gets the keywords that every property has. -/
theorem makes_complement (h : draft.purpose = sitePurpose site) :
    Makes config (complement build site node draft) (sitePurpose site) := by
  unfold complement
  refine (extends_applyValueKeywords (congrArg Property.Purpose.required h)).makes fun valued hvalued => ?_
  exact extends_applyCompositions.makes fun result hresult =>
    makes_addProperty ((hvalued.trans hresult).purpose.trans h)

theorem makes_union {types : List Json} : Makes config (union build site node types) (sitePurpose site) := by
  unfold union
  refine makes_after fun kinds => gives_newProperty.makes fun fresh hfresh => ?_
  refine Gives.makes (q := (·.purpose = sitePurpose site))
    (keeps_foldlM (r := fun joined : Property => joined.purpose = sitePurpose site)
      (fun joined kind hjoined => gives_after fun member => keeps_pure (purpose_addMember.trans hjoined)) hfresh)
    fun joined hjoined => ?_
  refine makes_after fun allowed => ?_
  exact makes_complement ((continues_ite_addCheck site.required .required).purpose.trans hjoined)

/-! ## References and nodes -/

theorem makes_copy {definition : PropertyId} : Makes config (copy definition site) (sitePurpose site) := by
  unfold copy
  refine makes_after fun source => ?_
  split
  · exact makes_refuse
  · exact makes_after fun _ => makes_addProperty rfl

theorem makes_placeholder {key : DefinitionKey} {reference : String} {begun : Option TypeId}
    {waiting : List PropertyId} :
    Makes config (placeholder key site reference begun waiting) (sitePurpose site) := by
  unfold placeholder
  cases begun with
  | some type => exact gives_instanceProperty.makes fun property h => makes_addProperty h
  | none =>
    refine gives_presentProperty.makes fun property h => ?_
    refine Meets.bind (makes_addProperty h) fun id => ?_
    refine Meets.bind (Q := fun _ s => s.graph.HasProperty id ∧ (s.graph.property id).purpose = sitePurpose site) ?_
      fun _ => ?_
    · exact meets_of_runs (v := ⟨⟩) (fun _ => runs_modify.2 rfl) fun _ hs => hs
    · exact meets_pure fun _ hs => hs

theorem makes_refer {reference : String} : Makes config (refer build site reference) (sitePurpose site) := by
  unfold refer
  refine makes_after fun target => makes_after fun session => ?_
  split
  · exact makes_copy
  · exact makes_placeholder
  · exact makes_after fun _ => makes_copy

theorem makes_referred {reference : Json} :
    Makes config (referred build site node reference) (sitePurpose site) := by
  unfold referred
  split
  · refine Meets.bind (makes_refer : Makes config (refer build { site with merged := false } _) (sitePurpose site))
      fun id => ?_
    have hanswer : Meets config
        (fun s => s.graph.HasProperty id ∧ (s.graph.property id).purpose = sitePurpose site) (pure id)
        (fun id s => s.graph.HasProperty id ∧ (s.graph.property id).purpose = sitePurpose site) fun _ => True :=
      meets_pure fun _ hs => hs
    split
    · exact Meets.bind (makes_modifyProperty fun _ => rfl) fun _ => hanswer
    · exact hanswer
  · exact makes_malformed

theorem makes_typed {word : String} : Makes config (typed build site node word) (sitePurpose site) := by
  unfold typed
  split
  · exact makes_refuse
  · exact makes_object
  · exact (gives_ofKind _).makes fun property h => makes_complement h

/-- **A built property is for its site**, whatever builds the properties of the nodes inside. -/
theorem makes_nodeProperty : Makes config (nodeProperty build site node) (sitePurpose site) := by
  unfold nodeProperty
  refine makes_after fun normal => ?_
  split
  · exact makes_referred
  · split
    · exact makes_typed
    · exact makes_union
    · exact makes_malformed
    · split
      · exact makes_object
      · split
        · exact gives_presentProperty.makes fun property h => makes_complement h
        · split
          · refine gives_presentProperty.makes fun property h => makes_after fun found => ?_
            cases found with
            | none => exact makes_complement h
            | some values => exact makes_complement ((continues_inferEnumeration values).purpose.trans h)
          · exact gives_presentProperty.makes fun property h => makes_complement h

theorem makes_property : ∀ bound : Nat, Makes config (property bound site node) (sitePurpose site)
  | 0 => fun _ _ => ⟨fun _ _ hrun => absurd hrun not_runs_throw, fun _ _ _ => trivial⟩
  | _ + 1 => makes_nodeProperty

/-- In particular it has the name of its site. -/
theorem names_property (bound : Nat) : Names config (property bound site node) site.name := (makes_property bound).names

end Building
end SchemaTypes

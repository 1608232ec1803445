import SchemaTypes.Building.Process
import SchemaTypes.Proofs.Building.TandemTypes
/-!
# Nodes in tandem

A type is filled in keyword by keyword (`goes_fill`), and reserved, filled in, finished and held as a whole
(`goes_heldAs`).  From there a node goes in tandem if what it entrusts to the builders does (`goes_nodeProperty`), and
so every node does whose references are to definitions from before, under whatever bounds that are enough for it
(`goes_property`).  What is built then judges alike (`Coupled.isLikeness`).
-/
namespace SchemaTypes
namespace Building

/-- The references that the node spells are to definitions from before. -/
def Ground.Covers (ground : Ground) (node : Json) : Prop :=
  ∀ reference ∈ references node, ∃ definition, ground.leads reference definition

theorem Ground.Covers.subset {ground : Ground} {node inner : Json} (h : ground.Covers node)
    (hsubset : references inner ⊆ references node) : ground.Covers inner :=
  fun reference hmem => h reference (hsubset hmem)

theorem Ground.covers_of_nil {ground : Ground} {node : Json} (h : references node = []) : ground.Covers node := by
  unfold Covers
  rw [h]
  exact fun _ hmem => absurd hmem List.not_mem_nil

namespace Tandem

open Build Naming

variable {t : Tandem} {C : Prop} {build build' : Builder} {site site' : Site} {scope scope' : Scope}
  {name name' keyword : String} {node inner : Json} {k l : TypeId} {combinator : Combinator} {a b : Property}
  {s₁ s₂ : Session} {required : Bool}

/-! ## Filling a type in -/

/-- A declared property goes by its own name in both types. -/
theorem goes_declare (hb : t.Shares node build build') (hclasses : t.Classes scope scope') (hkl : C → t.Types k l)
    (hinner : Entrusts node inner) :
    t.Goes C (build { scope, name, required } inner >>= addTypeProperty k)
      (build' { scope := scope', name, required } inner >>= addTypeProperty l) fun _ _ _ => True := by
  intro s₁ s₂ hserves hcoupled
  have hsites : t.Abreast { scope, name, required } { scope := scope', name, required } :=
    ⟨rfl, named_refl name, hclasses.scopes⟩
  refine (hb.goes C _ _ inner hsites hinner s₁ s₂ hserves hcoupled).bind fun C₁ i j m₁ m₂ hbetween hrun hrun' hij => ?_
  obtain ⟨hthere, hname⟩ := (hb.first _ _ s₁ trivial).1 i m₁ hrun
  obtain ⟨_, hname'⟩ := (hb.second _ _ s₂ trivial).1 j m₂ hrun'
  exact goesAt_addTypeProperty (fun hC => hkl (hbetween.implies hC)) hbetween.coupled fun hC =>
    ⟨(hij hC).links, hthere, hname.trans hname'.symm⟩

theorem goes_addProperties (hb : t.Shares node build build') (hclasses : t.Classes scope scope')
    (hkl : C → t.Types k l) :
    t.Goes C (addProperties build scope k node) (addProperties build' scope' l node) fun _ _ _ => True := by
  unfold addProperties
  refine (goes_requiredNames.told Chain.tells_requiredNames).bind fun C₁ required _ hC₁ hrequired => ?_
  obtain ⟨rfl, hrequired⟩ := hrequired
  refine (goes_members?.told Chain.tells_members?).bind fun C₂ declared _ hC₂ hdeclared => ?_
  obtain ⟨rfl, hdeclared⟩ := hdeclared
  have hentrusted : ∀ member ∈ declared.getD [], Entrusts node member.2 := by
    intro member hmember
    cases declared with
    | none => exact absurd hmember List.not_mem_nil
    | some members => exact .hands (.member (by decide) (hdeclared members rfl) hmember)
  refine (goes_forIn fun member hmember C' hC' => ?_).andThen fun C₃ _ _ hC₃ =>
    (goes_forIn fun wanted hwanted C' hC' => ?_).andThen fun _ _ _ _ => goes_pure trivial
  · simp only [← bind_assoc]
    exact (goes_declare hb hclasses (fun hC => hkl (hC₁ (hC₂ (hC' hC)))) (hentrusted member hmember)).andThen
      fun _ _ _ _ => goes_pure ⟨rfl, rfl⟩
  · obtain ⟨values, hget⟩ := hrequired wanted (List.mem_filter.1 hwanted).1
    simp only [← bind_assoc]
    exact (goes_declare hb hclasses (fun hC => hkl (hC₁ (hC₂ (hC₃ (hC' hC))))) (.wanted hget)).andThen
      fun _ _ _ _ => goes_pure ⟨rfl, rfl⟩

theorem goes_addPatternProperty (hb : t.Shares node build build') (hclasses : t.Classes scope scope')
    (hkl : C → t.Types k l) {member : String × Json} (hinner : Entrusts node member.2)
    (before : List (Pattern × String)) :
    t.Goes C (addPatternProperty build scope k before member) (addPatternProperty build' scope' l before member)
      fun _ => Eq := by
  obtain ⟨source, inner⟩ := member
  unfold addPatternProperty
  simp only
  refine Goes.read goes_pattern fun C₁ pattern hC₁ => ?_
  split
  · exact Goes.bind (Q := fun _ _ _ => False) goes_refuse fun _ _ _ _ => False.elim
  · refine (goes_nested hb hclasses.scopes (named_refl _) hinner).bind
      fun C₂ i j hC₂ hij => ?_
    refine Goes.andThen (goes_addTypeCheck (fun hC => hkl (hC₁ (hC₂ hC))) fun hC => ?_) fun _ _ _ _ => goes_pure rfl
    exact ⟨rfl, .patternProperty (hij hC).links⟩

theorem goes_addOpenProperties (hb : t.Shares node build build') (hclasses : t.Classes scope scope')
    (hkl : C → t.Types k l) :
    t.Goes C (addOpenProperties build scope k node) (addOpenProperties build' scope' l node) fun _ _ _ => True := by
  unfold addOpenProperties
  refine goes_graph_bind fun graph graph' hcoupled => ?_
  have hknown : C → ((graph.entry k).properties.map fun id => (graph.property id).name) =
      (graph'.entry l).properties.map fun id => (graph'.property id).name := by
    intro hC
    have hmembers := ((hcoupled hC).entries k l (hkl hC)).members
    generalize (graph.entry k).properties = is at hmembers
    generalize (graph'.entry l).properties = js at hmembers
    induction hmembers with
    | nil => rfl
    | cons hmember _ ih => rw [List.map_cons, List.map_cons, hmember.name, ih]
  simp only
  generalize ((graph.entry k).properties.map fun id => (graph.property id).name) = known at hknown
  generalize ((graph'.entry l).properties.map fun id => (graph'.property id).name) = known' at hknown
  refine (goes_members?.told Chain.tells_members?).bind fun C₁ found _ hC₁ hfound => ?_
  obtain ⟨rfl, hfound⟩ := hfound
  have hfold : t.Goes C₁ ((found.getD []).foldlM (addPatternProperty build scope k) [])
      ((found.getD []).foldlM (addPatternProperty build' scope' l) []) fun _ => Eq := by
    refine goes_foldlM rfl fun member hmember C' before before' hC' heq => ?_
    obtain rfl := heq
    cases found with
    | none => exact absurd hmember List.not_mem_nil
    | some members =>
      exact goes_addPatternProperty hb hclasses (fun hC => hkl (hC₁ (hC' hC)))
        (.hands (.member (by decide) (hfound members rfl) hmember)) before
  refine Goes.read hfold fun C₂ patterns hC₂ => ?_
  split
  · exact goes_pure trivial
  · exact goes_pure trivial
  · refine goes_addTypeCheck (fun hC => hkl (hC₁ (hC₂ hC))) fun hC => ?_
    rw [hknown (hC₁ (hC₂ hC))]
    exact ⟨rfl, .noAdditionalProperties⟩
  · rename_i members hget
    refine (goes_nested hb hclasses.scopes (named_refl _)
      (.hands (.value (by decide) hget))).bind fun C₃ i j hC₃ hij => ?_
    refine goes_addTypeCheck (fun hC => hkl (hC₁ (hC₂ (hC₃ hC)))) fun hC => ?_
    rw [hknown (hC₁ (hC₂ (hC₃ hC)))]
    exact ⟨rfl, .additionalProperties (hij hC).links⟩
  · exact goes_malformed

theorem goes_addPropertyNames (hb : t.Shares node build build') (hclasses : t.Classes scope scope')
    (hkl : C → t.Types k l) :
    t.Goes C (addPropertyNames build scope k node) (addPropertyNames build' scope' l node) fun _ _ _ => True := by
  unfold addPropertyNames
  split
  · exact goes_pure trivial
  · rename_i names hget
    refine (goes_nested hb hclasses.scopes (named_refl _)
      (.hands (.value (by decide) hget))).bind fun C₁ i j hC₁ hij => ?_
    exact goes_addTypeCheck (fun hC => hkl (hC₁ hC)) fun hC => ⟨rfl, .propertyNames (hij hC).links⟩

theorem goes_addPropertyCounts (hkl : C → t.Types k l) :
    t.Goes C (addPropertyCounts scope k node) (addPropertyCounts scope' l node) fun _ _ _ => True := by
  unfold addPropertyCounts
  refine Goes.read goes_count? fun C₁ least hC₁ => ?_
  split
  · refine Goes.andThen (goes_addTypeCheck (fun hC => hkl (hC₁ hC)) fun _ => same_refl rfl rfl) fun C₂ _ _ hC₂ => ?_
    refine Goes.read goes_count? fun C₃ most hC₃ => ?_
    split
    · exact goes_addTypeCheck (fun hC => hkl (hC₁ (hC₂ (hC₃ hC)))) fun _ => same_refl rfl rfl
    · exact goes_pure trivial
  · refine Goes.read goes_count? fun C₃ most hC₃ => ?_
    split
    · exact goes_addTypeCheck (fun hC => hkl (hC₁ (hC₃ hC))) fun _ => same_refl rfl rfl
    · exact goes_pure trivial

theorem goes_addDependency (hb : t.Shares node build build') (hclasses : t.Classes scope scope') (hkl : C → t.Types k l)
    {member : String × Json} (hinner : Entrusts node (Keyword.withObjectType member.2)) :
    t.Goes C (addDependency build scope k member) (addDependency build' scope' l member) fun _ _ _ => True := by
  obtain ⟨trigger, dependency⟩ := member
  have hschema : ∀ name : String, t.Goes C (do
      let property ← Build.nested build scope name (Keyword.withObjectType dependency)
      Build.addTypeCheck k (.schemaDependency trigger property)) (do
      let property ← Build.nested build' scope' name (Keyword.withObjectType dependency)
      Build.addTypeCheck l (.schemaDependency trigger property)) fun _ _ _ => True := by
    intro name
    refine (goes_nested hb hclasses.scopes (named_refl _) hinner).bind
      fun C₁ i j hC₁ hij => ?_
    exact goes_addTypeCheck (fun hC => hkl (hC₁ hC)) fun hC => ⟨rfl, .schemaDependency (hij hC).links⟩
  unfold addDependency
  simp only
  split
  · exact Goes.read goes_strings fun C₁ dependants hC₁ =>
      goes_addTypeCheck (fun hC => hkl (hC₁ hC)) fun _ => same_refl rfl rfl
  · exact goes_pure trivial
  · exact hschema _
  · exact hschema _
  · exact goes_malformed

theorem goes_addDependencies (hb : t.Shares node build build') (hclasses : t.Classes scope scope')
    (hkl : C → t.Types k l) (hkeyword : keyword ∈ dependencyWords) :
    t.Goes C (addDependencies build scope k node keyword) (addDependencies build' scope' l node keyword)
      fun _ _ _ => True := by
  unfold addDependencies
  refine (goes_members?.told Chain.tells_members?).bind fun C₁ found _ hC₁ hfound => ?_
  obtain ⟨rfl, hfound⟩ := hfound
  cases found with
  | none => exact goes_pure trivial
  | some dependencies =>
    exact goes_forM fun member hmember C' hC' => goes_addDependency hb hclasses (fun hC => hkl (hC₁ (hC' hC)))
      (.hands (.dependency hkeyword (hfound dependencies rfl) hmember))

/-- **Two types are filled in from a node in tandem.** -/
theorem goes_fill (hb : t.Shares node build build') (hclasses : t.Classes scope scope') (hkl : C → t.Types k l) :
    t.Goes C (fill build scope k node) (fill build' scope' l node) fun _ _ _ => True := by
  have hrest : ∀ C', (C' → C) → t.Goes C' (do
      addProperties build scope k node
      addOpenProperties build scope k node
      addPropertyNames build scope k node
      addPropertyCounts scope k node
      dependencyWords.forM (addDependencies build scope k node)
      applyObjectCompositions build scope k node) (do
      addProperties build' scope' l node
      addOpenProperties build' scope' l node
      addPropertyNames build' scope' l node
      addPropertyCounts scope' l node
      dependencyWords.forM (addDependencies build' scope' l node)
      applyObjectCompositions build' scope' l node) fun _ _ _ => True := by
    intro C' hC'
    replace hkl : C' → t.Types k l := fun hC => hkl (hC' hC)
    refine (goes_addProperties hb hclasses hkl).andThen fun C₁ _ _ hC₁ => ?_
    replace hkl : C₁ → t.Types k l := fun hC => hkl (hC₁ hC)
    refine (goes_addOpenProperties hb hclasses hkl).andThen fun C₂ _ _ hC₂ => ?_
    replace hkl : C₂ → t.Types k l := fun hC => hkl (hC₂ hC)
    refine (goes_addPropertyNames hb hclasses hkl).andThen fun C₃ _ _ hC₃ => ?_
    replace hkl : C₃ → t.Types k l := fun hC => hkl (hC₃ hC)
    refine (goes_addPropertyCounts hkl).andThen fun C₄ _ _ hC₄ => ?_
    replace hkl : C₄ → t.Types k l := fun hC => hkl (hC₄ hC)
    refine (goes_forM fun keyword hkeyword C'' hC'' =>
      goes_addDependencies hb hclasses (fun hC => hkl (hC'' hC)) hkeyword).andThen fun C₅ _ _ hC₅ => ?_
    exact goes_applyObjectCompositions hb hclasses fun hC => hkl (hC₅ hC)
  unfold fill
  simp only
  split
  · refine Goes.andThen (Q := fun _ _ _ => True) (fun s₁ s₂ _ hcoupled => ?_) fun C' _ _ hC' => hrest C' hC'
    exact goesAt_modifyType hkl hcoupled (fun _ h => h) (fun _ h => h) fun _ _ _ he =>
      ⟨he.members, he.validators, he.redirect⟩
  · exact hrest C id

/-! ## Objects -/

theorem goes_instanceProperty (hname : Named name name') (hkl : C → t.Types k l) :
    t.Goes C (instanceProperty name k required) (instanceProperty name' l required) t.Drafts := by
  unfold instanceProperty
  refine goes_graph_bind fun graph graph' _ => (goes_newProperty hname).bind fun C₁ a b hC₁ h => ?_
  refine Goes.read goes_allowsNull fun C₂ allowed hC₂ => goes_pure ?_
  have hlabelled : t.Drafts C₂ { a with label := some (.single (graph.className k)) }
      { b with label := some (.single (graph'.className l)) } := (h.1.mono hC₂).relabel rfl
  have hheld := hlabelled.hold fun hC => hkl (hC₁ (hC₂ hC))
  have hpresent := (hheld.addDecorator (e := .instantiates k) (f := .instantiates l) rfl rfl).present required
  have hnone : (if required = true then (Property.addDecorator
      { a with label := some (.single (graph.className k)), nested := some k } (.instantiates k)).addCheck .required
      else Property.addDecorator { a with label := some (.single (graph.className k)), nested := some k }
        (.instantiates k)).declaredKinds? = none := by
    refine declaredKinds?_present ?_ required
    unfold Property.addDecorator
    split <;> exact h.2
  exact (hpresent.addType hnone [.object] allowed).addCheck rfl rfl fun hC =>
    ⟨rfl, .instanceOf (Or.inl (hkl (hC₁ (hC₂ hC))))⟩

/-- Corresponding types that have been reserved under names with identifiers are filled in alike. -/
theorem goesAt_materialize (hb : t.Shares node build build') (hsites : t.Abreast site site') (hserves : t.Serves s₁ s₂)
    (hcoupled : C → t.Coupled s₁.graph s₂.graph) (hkl : C → t.Types k l) (hthere : s₁.graph.HasType k)
    (hown : HasIdentifier (s₁.graph.entry k).name.className) (hown' : HasIdentifier (s₂.graph.entry l).name.className) :
    t.GoesAt C s₁ s₂ (materialize build site node k) (materialize build' site' node l) t.Drafts := by
  have hfill : t.Goes C (fill build { site.scope with className := (s₁.graph.entry k).name.className } k node)
      (fill build' { site'.scope with className := (s₂.graph.entry l).name.className } l node) fun _ _ _ => True :=
    goes_fill hb ⟨hsites.scopes.placed, hown, hown'⟩ hkl
  unfold materialize
  refine goesAt_graph_bind ((hfill s₁ s₂ hserves hcoupled).bind fun C₂ _ _ m₁ m₂ hbetween _ _ _ => ?_)
  refine (goesAt_finish (fun hC => hkl (hbetween.implies hC)) hbetween.coupled
    (hthere.grows hbetween.first.grows)).bind fun C₃ i j n₁ n₂ hlater _ _ hij => ?_
  rw [hsites.required]
  exact goes_instanceProperty hsites.name hij n₁ n₂ (hlater.serves (hbetween.serves hserves)) hlater.coupled

theorem goesAt_objectInto (hb : t.Shares node build build') (hsites : t.Abreast site site') (hserves : t.Serves s₁ s₂)
    (hcoupled : C → t.Coupled s₁.graph s₂.graph) (hkl : C → t.Types k l) (hthere : s₁.graph.HasType k)
    (hown : HasIdentifier (s₁.graph.entry k).name.className) (hown' : HasIdentifier (s₂.graph.entry l).name.className) :
    t.GoesAt C s₁ s₂ (objectInto build site node k) (objectInto build' site' node l) fun C' i j => C' → t.Ids i j := by
  unfold objectInto
  rw [hsites.required]
  refine (goesAt_materialize hb hsites hserves hcoupled hkl hthere hown hown').bind
    fun C₁ a b m₁ m₂ hbetween _ _ h => ?_
  exact ((goes_applyValueKeywords h).bind fun _ a b _ h => goes_addProperty h.kin) m₁ m₂ (hbetween.serves hserves)
    hbetween.coupled

/-- **The properties that hold an object node**, from reserving its type to holding it.  The names of the types may be
given for other nodes. -/
theorem goes_heldAs (hb : t.Shares node build build') (hsites : t.Abreast site site') (named named' : Json) :
    t.Goes C (reserveFor site named >>= materialize build site node)
      (reserveFor site' named' >>= materialize build' site' node) t.Drafts := by
  have hclass : HasIdentifier (t.config.naming site.name named site.merged site.scope.className) :=
    hsites.scopes.enclosing.1 _ _ _
  have hclass' : HasIdentifier (t.config.naming site'.name named' site'.merged site'.scope.className) :=
    hsites.scopes.enclosing.2 _ _ _
  unfold reserveFor
  rw [bind_assoc, bind_assoc]
  refine Goes.bind ((goes_detached detached_read).told tells_read) fun C₁ config config' hC₁ hconfig => ?_
  obtain ⟨rfl, rfl⟩ := hconfig
  refine goes_reserve_bind fun s₁ s₂ hserves hcoupled k l hkl hthere ⟨graph, hname⟩ ⟨graph', hname'⟩ => ?_
  have hown : HasIdentifier (s₁.graph.entry k).name.className := hname ▸ hclass.freeName graph _
  have hown' : HasIdentifier (s₂.graph.entry l).name.className := hname' ▸ hclass'.freeName graph' _
  exact goesAt_materialize hb hsites hserves hcoupled hkl hthere hown hown'

theorem goes_held (hb : t.Shares node build build') (hsites : t.Abreast site site') :
    t.Goes C (reserveFor site node >>= materialize build site node)
      (reserveFor site' node >>= materialize build' site' node) t.Drafts := goes_heldAs hb hsites node node

theorem goes_object (hb : t.Shares node build build') (hsites : t.Abreast site site') :
    t.Goes C (object build site node) (object build' site' node) fun C' i j => C' → t.Ids i j := by
  rw [object_eq, object_eq, hsites.required]
  refine (goes_held hb hsites).bind fun _ a b _ h => ?_
  exact (goes_applyValueKeywords h).bind fun _ a b _ h => goes_addProperty h.kin

/-! ## Unions -/

theorem goes_unionKinds {types : List Json} :
    t.Goes C (unionKinds name types) (unionKinds name' types) fun _ => Eq := by
  unfold unionKinds
  refine Goes.read (goes_foldlM rfl fun type _ C' kinds _ _ heq => ?_) fun C' kinds _ => ?_
  · obtain rfl := heq
    split
    · split
      · exact goes_pure rfl
      · exact goes_refuse
    · exact goes_malformed
  · split
    · exact goes_malformed
    · exact goes_pure rfl

theorem traits_mergeChecks (property member : Property) : (mergeChecks property member).traits = property.traits := by
  unfold mergeChecks
  refine List.foldlRecOn _ _ (motive := fun p : Property => p.traits = property.traits) rfl
    fun p hp validator _ => ?_
  split
  · exact hp
  · rename_i hnot
    have htype : validator.check.isType = false := by
      cases h : validator.check.isType with
      | false => rfl
      | true => simp [h] at hnot
    refine Eq.trans ?_ hp
    unfold Property.traits
    rw [Property.declaredKinds?_add htype]
    rfl

theorem kin_mergeChecks {member member' : Property} (h : t.Kin a b)
    (hmember : t.Peers member.validators member'.validators) :
    t.Kin (mergeChecks a member) (mergeChecks b member') := by
  unfold mergeChecks
  have hlists := hmember.toList
  generalize member.validators.toList = vs at hlists
  generalize member'.validators.toList = ws at hlists
  induction hlists generalizing a b with
  | nil => exact h
  | @cons v w _ _ hvw _ ih =>
    rw [List.foldl_cons, List.foldl_cons]
    refine ih ?_
    have hany : a.validators.toList.any (sameDemand · v) = b.validators.toList.any (sameDemand · w) := by
      have hothers := h.validators.toList
      generalize a.validators.toList = as at hothers
      generalize b.validators.toList = bs at hothers
      induction hothers with
      | nil => rfl
      | cons hxy _ ih => rw [List.any_cons, List.any_cons, hxy.sameDemand_eq hvw, ih]
    rw [hvw.isRequired_eq, hvw.isType_eq, hany]
    split
    · exact h
    · exact ⟨h.default, h.lifted, h.nested, h.validators.add hvw⟩

theorem drafts_addMember {member member' : Property} (h : t.Drafts C a b) (hmember : t.Drafts C member member') :
    t.Drafts C (addMember a member) (addMember b member') := by
  -- With the member's label the property declares itself not nullable, and that is all that is decided by.
  have htraits : ∀ property member : Property,
      (addMember property member).traits = { property.traits with nullable := false } := by
    intro property member
    unfold addMember
    rw [traits_mergeChecks]
    split <;> rfl
  refine ⟨by rw [htraits, htraits, h.traits], fun hC => ?_⟩
  have hkin := h.kin hC
  have hkin' := hmember.kin hC
  unfold addMember
  refine kin_mergeChecks ?_ hkin'.validators
  have hnested := hkin'.nested
  have hlifted : (a.decorators ++ member.decorators).any Decorator.isTransferred =
      (b.decorators ++ member'.decorators).any Decorator.isTransferred := by
    rw [List.any_append, List.any_append, hkin.lifted, hkin'.lifted]
  cases hfirst : member.nested with
  | none =>
    rw [hfirst] at hnested
    cases hsecond : member'.nested with
    | none => exact ⟨hkin.default, hkin.lifted, hkin.nested, hkin.validators⟩
    | some type' =>
      rw [hsecond] at hnested
      cases hnested
  | some type =>
    rw [hfirst] at hnested
    cases hsecond : member'.nested with
    | none =>
      rw [hsecond] at hnested
      cases hnested
    | some type' =>
      rw [hsecond] at hnested
      exact ⟨hkin.default, hlifted, hnested, hkin.validators⟩

theorem goes_member (hb : t.Shares node build build') (hsites : t.Abreast site site') (kind : Kind) :
    t.Goes C (member build site node kind) (member build' site' node kind) t.Drafts := by
  unfold member
  split
  · have hplain : t.Shares (Keyword.withoutCompositions node) build build' :=
      ⟨fun C' site site' inner hsites hinner => hb.goes C' site site' inner hsites
        (entrusts_of_withoutCompositions hinner), hb.first, hb.second⟩
    exact goes_held hplain ⟨hsites.required, hsites.name, hsites.scopes⟩
  · exact goes_ofKind hb hsites kind

theorem goes_complement (hb : t.Shares node build build') (hsites : t.Abreast site site') (h : t.Drafts C a b) :
    t.Goes C (complement build site node a) (complement build' site' node b) fun C' i j => C' → t.Ids i j := by
  unfold complement
  rw [hsites.required]
  refine (goes_applyValueKeywords h).bind fun _ a b _ h => ?_
  exact (goes_applyCompositions hb hsites h).bind fun _ a b _ h => goes_addProperty h.kin

theorem declaredKinds?_addMember (property member : Property) :
    (addMember property member).declaredKinds? = property.declaredKinds? := by
  unfold addMember
  refine (congrArg Property.Traits.kinds (traits_mergeChecks _ _)).trans ?_
  split <;> rfl

theorem goes_union (hb : t.Shares node build build') (hsites : t.Abreast site site') {types : List Json} :
    t.Goes C (union build site node types) (union build' site' node types) fun C' i j => C' → t.Ids i j := by
  unfold union
  refine Goes.read goes_unionKinds fun C₁ kinds _ => ?_
  rw [hsites.required]
  refine (goes_newProperty hsites.name).bind fun C₂ a b _ h => ?_
  have hmembers : t.Goes C₂ ((kinds.filter (· ≠ .null)).foldlM
        (fun property kind => return addMember property (← member build site node kind)) a)
      ((kinds.filter (· ≠ .null)).foldlM
        (fun property kind => return addMember property (← member build' site' node kind)) b)
      fun C' a b => t.Drafts C' a b ∧ a.declaredKinds? = none := by
    refine goes_foldlM h fun kind _ C' a b _ h => (goes_member hb hsites kind).bind fun C'' c d hC'' hmember => ?_
    exact goes_pure ⟨drafts_addMember (h.1.mono hC'') hmember, (declaredKinds?_addMember a c).trans h.2⟩
  refine hmembers.bind fun C₃ a b _ h => Goes.read goes_allowsNull fun C₄ allowed hC₄ => ?_
  generalize hlabel : some { TypeLabel.union ((a.label.map (·.names)).getD [Kind.null.keyword]) with
    nullability := if kinds.contains .null then .nullable else .unknown } = label
  generalize hlabel' : some { TypeLabel.union ((b.label.map (·.names)).getD [Kind.null.keyword]) with
    nullability := if kinds.contains .null then .nullable else .unknown } = label'
  have hnullable : label.any (·.nullability = .nullable) = label'.any (·.nullability = .nullable) := by
    rw [← hlabel, ← hlabel']
    rfl
  have hundeclared : Property.declaredKinds? { a with label } = none := h.2
  have htyped := (((h.1.mono hC₄).relabel hnullable).present site.required).addType
    (declaredKinds?_present hundeclared site.required) kinds (allowed && !kinds.contains .null)
  have hcomplement := goes_complement hb hsites htyped
  unfold complement at hcomplement
  rw [hsites.required] at hcomplement
  exact hcomplement

/-! ## Nodes -/

theorem goes_typed (hb : t.Shares node build build') (hsites : t.Abreast site site') {word : String} :
    t.Goes C (typed build site node word) (typed build' site' node word) fun C' i j => C' → t.Ids i j := by
  unfold typed
  split
  · exact goes_refuse
  · exact goes_object hb hsites
  · exact (goes_ofKind hb hsites _).bind fun _ a b _ h => goes_complement hb hsites h

/-- Copies of a definition from before are made for both sites, or for neither. -/
theorem goes_copy {definition : PropertyId} (hthere : t.ground.graph.HasProperty definition)
    (hsites : t.Abreast site site') :
    t.Goes C (copy definition site) (copy definition site') fun C' i j => C' → t.Ids i j := by
  unfold copy Build.getProperty
  simp only [bind_assoc, pure_bind]
  refine goes_graph_bind fun graph graph' hcoupled => ?_
  have hname := hsites.name
  unfold Named HasIdentifier at hname
  cases hidentifier : identifier? site.name with
  | none =>
    rw [hidentifier] at hname
    have hnone : identifier? site'.name = none := Option.not_isSome_iff_eq_none.1 fun hsome => nomatch hname.2 hsome
    rw [hnone]
    exact goes_refuse
  | some identifier =>
    rw [hidentifier] at hname
    obtain ⟨identifier', hidentifier'⟩ := Option.isSome_iff_exists.1 (hname.1 rfl)
    rw [hidentifier', hsites.required]
    simp only
    refine Goes.read (goes_detached detached_read) fun C₁ config hC₁ => goes_addProperty fun hC => ?_
    have hc := hcoupled (hC₁ hC)
    have hkin := hc.kin_of_links (Or.inr ⟨rfl, hthere⟩ : t.Links definition definition)
    have hstrict : (graph.property definition).strict = (graph'.property definition).strict := by
      rw [hc.first.property _ hthere, hc.second.property _ hthere]
    have hrenamed : t.Kin { graph.property definition with name := site.name, identifier, relaxed := false }
        { graph'.property definition with name := site'.name, identifier := identifier', relaxed := false } :=
      ⟨hkin.default, hkin.lifted, hkin.nested, hkin.validators⟩
    exact hrenamed.stampRequired hstrict rfl _ _

/-- A reference to a definition that is built makes a copy. -/
theorem outcome_refer {config : Config} {s : Session} {reference : String} {target : Target} {definition : PropertyId}
    (site : Site) (htarget : targetIn? s.documents site.scope.document reference = some target)
    (hbuilt : s.definition? target.key = some (.built definition)) :
    (refer build site reference).outcome config s = (copy definition site).outcome config s := by
  refine Option.ext fun r => ?_
  rw [outcome_eq_some_iff, outcome_eq_some_iff]
  unfold refer
  rw [runs_bind_of_iff fun other m => runs_locate.trans (by rw [htarget, Option.some.injEq, eq_comm]), runs_get_bind,
    hbuilt]

/-- **References to a definition from before** get copies of it in both runs. -/
theorem goes_referred {reference : String} {definition : PropertyId} (hleads : t.ground.leads reference definition)
    (hsites : t.Abreast site site') :
    t.Goes C (referred build site node (.string reference)) (referred build' site' node (.string reference))
      fun C' i j => C' → t.Ids i j := by
  have hplain : t.Abreast { site with merged := false } { site' with merged := false } :=
    ⟨hsites.required, hsites.name, hsites.scopes⟩
  have hrefer : t.Goes C (refer build { site with merged := false } reference)
      (refer build' { site' with merged := false } reference) fun C' i j => C' → t.Ids i j := by
    intro s₁ s₂ hserves hcoupled
    obtain ⟨target, htarget, hbuilt⟩ := hserves.first _ _ hleads
    obtain ⟨target', htarget', hbuilt'⟩ := hserves.second _ _ hleads
    rw [← (hsites.scopes.placed hleads).1] at htarget
    rw [← (hsites.scopes.placed hleads).2] at htarget'
    have hcopy := goes_copy (t.ground.there hleads) hplain s₁ s₂ hserves hcoupled
    unfold GoesAt at hcopy ⊢
    rwa [outcome_refer { site with merged := false } htarget hbuilt,
      outcome_refer { site' with merged := false } htarget' hbuilt']
  unfold referred
  refine hrefer.bind fun C₁ i j hC₁ hij => ?_
  split
  · rename_i description _
    refine (goes_modifyProperty (F := fun property => { property with description := some description }) hij
      (fun _ => rfl) fun _ _ hkin => ?_).andThen fun C' _ _ hC' => goes_pure fun hC => hij (hC' hC)
    exact ⟨hkin.default, hkin.lifted, hkin.nested, hkin.validators⟩
  · exact goes_pure hij

/-- A node whose references are to definitions from before goes in tandem if what it entrusts to the builders does. -/
theorem goes_nodeProperty (hcovers : t.ground.Covers (writtenOut node))
    (hb : (writtenOut node).isObject = true → Mild (writtenOut node) → t.Shares (writtenOut node) build build')
    (hsites : t.Abreast site site') :
    t.Goes C (nodeProperty build site node) (nodeProperty build' site' node) fun C' i j => C' → t.Ids i j := by
  unfold nodeProperty
  refine (goes_normalize.told Chain.tells_normalize).bind fun C₁ normal _ hC₁ hnormal => ?_
  obtain ⟨rfl, rfl, hobject⟩ := hnormal
  have hpresent : t.Shares (writtenOut node) build build' → ∀ f : Property → Property,
      (∀ C' a b, t.Drafts C' a b → t.Drafts C' (f a) (f b)) →
      t.Goes C₁ (presentProperty site >>= fun property => complement build site (writtenOut node) (f property))
        (presentProperty site' >>= fun property => complement build' site' (writtenOut node) (f property))
        fun C' i j => C' → t.Ids i j :=
    fun hshares f hf => (goes_presentProperty hsites.name hsites.required).bind fun C' a b _ h =>
      goes_complement hshares hsites (hf C' a b h.1)
  split
  · rename_i reference hreference
    cases reference with
    | string text =>
      obtain ⟨definition, hleads⟩ := hcovers text (mem_references_of_get hreference)
      exact goes_referred hleads hsites
    | _ => exact goes_malformed
  · split
    · rename_i word hget
      refine goes_typed (hb hobject fun type htype => Or.inl ⟨word, ?_⟩) hsites
      exact Option.some.inj (htype.symm.trans hget)
    · rename_i types hget
      refine goes_union (hb hobject fun type htype => Or.inr ⟨types, ?_⟩) hsites
      exact Option.some.inj (htype.symm.trans hget)
    · exact goes_malformed
    · rename_i hget
      have hshares := hb hobject fun type htype => nomatch hget.symm.trans htype
      split
      · exact goes_object hshares hsites
      · split
        · exact hpresent hshares _ fun C' a b h => h.relabel rfl
        · split
          · unfold untypedEnumeration
            refine (goes_presentProperty hsites.name hsites.required).bind fun C₂ a b _ h => ?_
            refine Goes.read goes_enumeration? fun C₃ found hC₃ => goes_complement hshares hsites ?_
            split
            · exact drafts_inferEnumeration (h.1.mono hC₃) _
            · exact h.1.mono hC₃
          · exact hpresent hshares _ fun C' a b h => h

/-- Nodes whose references are to definitions from before go in tandem, if the bounds are enough for their levels. -/
def GoesWithin (t : Tandem) (bound bound' : Nat) : Prop :=
  ∀ (C : Prop) (site site' : Site) (node : Json), node.levels ≤ bound → node.levels ≤ bound' →
    t.ground.Covers node → t.Abreast site site' →
      t.Goes C (property bound site node) (property bound' site' node) fun C' i j => C' → t.Ids i j

theorem GoesWithin.shares {bound bound' : Nat} (h : t.GoesWithin bound bound') (hlevels : node.levels ≤ bound + 1)
    (hlevels' : node.levels ≤ bound' + 1) (hcovers : t.ground.Covers node) (hobject : node.isObject = true)
    (hmild : Mild node) : t.Shares node (property bound) (property bound') := by
  refine ⟨fun C site site' inner hsites hinner => ?_, fun _ _ => names_property _, fun _ _ => names_property _⟩
  have hlt := levels_of_entrusts hinner hmild hobject
  exact h C site site' inner (Nat.le_of_lt_succ (Nat.lt_of_lt_of_le hlt hlevels))
    (Nat.le_of_lt_succ (Nat.lt_of_lt_of_le hlt hlevels'))
    (hcovers.subset (references_of_entrusts hinner)) hsites

/-- **A node whose references are to definitions from before goes in tandem**, under any bounds that are enough for its
levels. -/
theorem goes_property : ∀ bound bound' : Nat, t.GoesWithin bound bound'
  | 0, _ => fun _ _ _ node h _ _ _ => absurd (one_le_levels node) (Nat.not_le_of_lt (Nat.lt_succ_of_le h))
  | _ + 1, 0 => fun _ _ _ node _ h' _ _ => absurd (one_le_levels node) (Nat.not_le_of_lt (Nat.lt_succ_of_le h'))
  | bound + 1, bound' + 1 => by
    intro C site site' node h h' hcovers hsites
    have hwritten : t.ground.Covers (writtenOut node) := hcovers.subset (references_writtenOut node)
    have hlevels := levels_writtenOut node
    exact goes_nodeProperty hwritten (fun hobject hmild => (goes_property bound bound').shares
      (Nat.le_trans hlevels h) (Nat.le_trans hlevels h') hwritten hobject hmild) hsites

/-! ## What tandem runs build

Corresponding properties and types of graphs in correspondence are a likeness: their checks lead to corresponding ones
again.  Both graphs may have grown on, as long as what they had stays as it was. -/

section Ends

variable {t : Tandem} {g h g' h' : Graph}

theorem Peers.hasRequired_eq {vs ws : Validators} (hpeers : t.Peers vs ws) : vs.hasRequired = ws.hasRequired := by
  have hlists := hpeers.toList
  unfold Validators.hasRequired
  generalize vs.toList = as at hlists
  generalize ws.toList = bs at hlists
  induction hlists with
  | nil => rfl
  | cons hvw _ ih => rw [List.any_cons, List.any_cons, hvw.isRequired_eq, ih]

/-- What checks lead to in both graphs, and is there. -/
def Related (t : Tandem) (graph : Graph) (a b : PropertyId) : Prop := t.Links a b ∧ graph.HasProperty a

def RelatedTypes (t : Tandem) (graph : Graph) (a b : TypeId) : Prop := t.TypeLinks a b ∧ graph.HasType a

/-- Checks of one graph that correspond, the first of which names only what is there. -/
theorem like_of_knows {v w : Validator} (hvw : t.Peer v w) (hknows : g.KnowsCheck v.check) :
    Check.Like (t.Related g) (t.Related g) (t.RelatedTypes g) v.check w.check :=
  hvw.like.imp (fun a ha _ _ hab => ⟨hab, hknows.children a ha⟩) fun a ha _ hab => ⟨hab, hknows.types a ha⟩

theorem forall₂_like {vs ws : List Validator} (hpeers : List.Forall₂ t.Peer vs ws)
    (hknows : ∀ v ∈ vs, g.KnowsCheck v.check) :
    Validators.Like (t.Related g) (t.Related g) (t.RelatedTypes g) vs ws := by
  induction hpeers with
  | nil => exact .nil
  | cons hvw _ ih =>
    exact .cons (like_of_knows hvw (hknows _ List.mem_cons_self)) (ih fun v hv => hknows v (List.mem_cons_of_mem _ hv))

/-- What the graphs had when the runs were in step, later graphs still have. -/
structure Keeps (t : Tandem) (g h g' h' : Graph) : Prop where
  first : t.ground.graph.EnduresIn g'
  second : t.ground.graph.EnduresIn h'
  property : ∀ a b, t.Ids a b → g.HasProperty a → g'.property a = g.property a ∧ h'.property b = h.property b
  entry : ∀ a b, t.Types a b → g.HasType a → g'.entry a = g.entry a ∧ h'.entry b = h.entry b

theorem Coupled.keeps (hc : t.Coupled g h) : t.Keeps g h g h :=
  ⟨hc.first, hc.second, fun _ _ _ _ => ⟨rfl, rfl⟩, fun _ _ _ _ => ⟨rfl, rfl⟩⟩

theorem Keeps.property_of_related (hkeeps : t.Keeps g h g' h') (hc : t.Coupled g h) {a b : PropertyId}
    (hab : t.Related g a b) : g'.property a = g.property a ∧ h'.property b = h.property b := by
  obtain ⟨hab | ⟨rfl, ha⟩, hthere⟩ := hab
  · exact hkeeps.property a b hab hthere
  · rw [hkeeps.first.property a ha, hkeeps.second.property a ha, hc.first.property a ha, hc.second.property a ha]
    exact ⟨rfl, rfl⟩

/-- **What tandem runs build judges alike.** -/
theorem Coupled.isLikeness (hc : t.Coupled g h) (hkeeps : t.Keeps g h g' h')
    (hproperties : ∀ id, g.Knows (g.property id)) (htypes : ∀ id, g.KnowsType (g.entry id)) :
    IsLikeness g' h' (t.Related g) (t.Related g) (t.RelatedTypes g) where
  presence a b hab := by
    rw [(hkeeps.property_of_related hc hab).1, (hkeeps.property_of_related hc hab).2]
    exact ⟨hab, (hc.kin_of_links hab.1).validators.hasRequired_eq⟩
  property a b hab := by
    rw [(hkeeps.property_of_related hc hab).1, (hkeeps.property_of_related hc hab).2]
    unfold Property.asks
    refine List.rel_filter (fun _ _ hcheck => by simp only [hcheck.isRequired_eq]) ?_
    exact forall₂_like (hc.kin_of_links hab.1).validators.toList (hproperties a).checks
  type a b hab := by
    obtain ⟨hab | ⟨rfl, ha⟩, hthere⟩ := hab
    · have hentries := hc.entries a b hab
      obtain ⟨hfirst, hsecond⟩ := hkeeps.entry a b hab hthere
      rw [Graph.type_eq_entry (hfirst ▸ hentries.redirect.1), Graph.type_eq_entry (hsecond ▸ hentries.redirect.2),
        hfirst, hsecond]
      refine ⟨hentries.members.imp fun i j hmember => ?_,
        forall₂_like hentries.validators.toList (htypes a).checks⟩
      have hrelated : t.Related g i j := ⟨hmember.links, hmember.hasProperty⟩
      obtain ⟨hfirst, hsecond⟩ := hkeeps.property_of_related hc hrelated
      refine ⟨?_, ?_, hrelated⟩
      · rw [hfirst, hsecond, hmember.name]
      · rw [hfirst, hsecond, (hc.kin_of_links hmember.links).default]
    · -- A type from before is the same in both graphs, whatever it is redirected to.
      have hbase := t.ground.agrees (.refl _)
      have hknows := hbase.knowsType _ (hbase.hasCanonical a ha)
      rw [← (t.ground.agrees hkeeps.first).type ha, ← (t.ground.agrees hkeeps.second).type ha]
      have hvalidators : List.Forall₂ t.Peer (t.ground.graph.type a).validators.toList
          (t.ground.graph.type a).validators.toList := (peers_ground hknows.checks).toList
      refine ⟨List.forall₂_same.2 fun id hid => ?_, forall₂_like hvalidators fun v hv => ?_⟩
      · have hid := hknows.properties id hid
        have hsame : g'.property id = h'.property id :=
          (hkeeps.first.property id hid).trans (hkeeps.second.property id hid).symm
        exact ⟨congrArg _ hsame, congrArg _ hsame, Or.inr ⟨rfl, hid⟩, hid.grows hc.first.grows⟩
      · have hcheck := hknows.checks v hv
        exact ⟨fun id hid => (hcheck.children id hid).grows hc.first.grows,
          fun id hid => (hcheck.types id hid).grows hc.first.grows⟩

end Ends

end Tandem
end Building
end SchemaTypes

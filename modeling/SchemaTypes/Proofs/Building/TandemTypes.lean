import SchemaTypes.Proofs.Building.ObjectNodes
import SchemaTypes.Proofs.Building.TandemParts
/-!
# Types in tandem

Two types are filled in from one node, each in a class of its own.  As long as the runs are in step the types have
members of the same names, and so the same members are lifted from their branches (`goesAt_lifts`).  When they are
finished, either may turn out to be a duplicate, and then the runs need no longer be in step (`goesAt_finish`).
-/
namespace SchemaTypes
namespace Building
namespace Tandem

open Build Naming

variable {t : Tandem} {C : Prop} {build build' : Builder} {site site' : Site} {scope scope' : Scope}
  {name keyword : String} {node inner : Json} {k l : TypeId} {combinator : Combinator} {s₁ s₂ m₁ m₂ : Session}

/-! ## Lifting -/

/-- Corresponding members stay such. -/
theorem Member.later {i j : PropertyId} (hm : t.Member s₁.graph s₂.graph i j) (hc : t.Coupled s₁.graph s₂.graph)
    (h₁ : s₁.Calm m₁) (h₂ : s₂.Calm m₂) : t.Member m₁.graph m₂.graph i j :=
  ⟨hm.links, hm.hasProperty.grows h₁.grows, (h₁.names i hm.hasProperty).trans
    (hm.name.trans (h₂.names j ((hc.hasProperty_iff hm.links).1 hm.hasProperty)).symm)⟩

/-- A property that has just been added becomes a member. -/
theorem goesAt_addTypeProperty (hkl : C → t.Types k l) (hcoupled : C → t.Coupled s₁.graph s₂.graph)
    {i j : PropertyId} (hmember : C → t.Member s₁.graph s₂.graph i j) :
    t.GoesAt C s₁ s₂ (addTypeProperty k i) (addTypeProperty l j) fun _ _ _ => True :=
  goesAt_modifyType hkl hcoupled (fun _ h => h) (fun _ h => h) fun hC _ _ he =>
    ⟨Check.forall₂_append he.members (.cons (hmember hC) .nil), he.validators, he.redirect⟩

/-- Lifting never fails, and redirects nothing. -/
theorem exists_runs_lift (config : Config) (s : Session) (type : TypeId) (source : PropertyId) :
    ∃ populated s', (lift type combinator source).Runs config s populated s' ∧ s.Calm s' := by
  unfold lift
  simp only [runs_graph_bind]
  split
  · exact ⟨_, s, runs_pure.2 ⟨rfl, rfl⟩, .refl s⟩
  · unfold addTypeProperty Build.modifyType
    refine ⟨_, _, runs_bind.2 ⟨_, _, runs_addProperty.2 ⟨rfl, rfl⟩, runs_bind.2 ⟨(), _, runs_modifyGraph.2 rfl,
      runs_pure.2 ⟨rfl, rfl⟩⟩⟩, ?_⟩
    exact (Session.Calm.addProperty s _).trans (.modifyType _ type fun _ h => h)

theorem exists_runs_lifts (config : Config) (type : TypeId) : ∀ (sources : List PropertyId) (s : Session),
    ∃ populated s', (sources.mapM (lift type combinator)).Runs config s populated s' ∧ s.Calm s'
  | [], s => ⟨[], s, runs_pure.2 ⟨rfl, rfl⟩, .refl s⟩
  | source :: rest, s => by
    obtain ⟨name, m, hrun, hcalm⟩ := exists_runs_lift config s type source
    obtain ⟨names, s', hrest, hcalm'⟩ := exists_runs_lifts config type rest m
    refine ⟨name :: names, s', ?_, hcalm.trans hcalm'⟩
    rw [List.mapM_cons]
    exact runs_bind.2 ⟨name, m, hrun, runs_bind.2 ⟨names, s', hrest, runs_pure.2 ⟨rfl, rfl⟩⟩⟩

theorem exists_runs_liftBranch (config : Config) (s : Session) (type : TypeId) (branch : PropertyId) :
    ∃ names s', (liftBranch type branch combinator).Runs config s names s' ∧ s.Calm s' := by
  unfold liftBranch
  simp only [runs_graph_bind]
  split
  · exact ⟨[], s, runs_pure.2 ⟨rfl, rfl⟩, .refl s⟩
  · obtain ⟨names, s', hrun, hcalm⟩ := exists_runs_lifts config type _ s
    exact ⟨_, s', runs_bind.2 ⟨names, s', hrun, runs_pure.2 ⟨rfl, rfl⟩⟩, hcalm⟩

/-- Runs that are out of step may go on as they like. -/
theorem goesAt_of_not {α β : Type} {x : Build α} {y : Build β} {Q : Prop → α → β → Prop} (hC : ¬ C)
    (hx : ∃ a m, x.Runs t.config s₁ a m ∧ s₁.Calm m) (hy : ∃ b m, y.Runs t.config s₂ b m ∧ s₂.Calm m)
    (hQ : ∀ a b, Q False a b) : t.GoesAt C s₁ s₂ x y Q := by
  obtain ⟨a, m, hxrun, hcalm⟩ := hx
  obtain ⟨b, m', hyrun, hcalm'⟩ := hy
  exact goesAt_of_runs hxrun hyrun ⟨False.elim, fun hc => absurd hc hC, False.elim, hcalm, hcalm'⟩ (hQ a b)

/-- Members of corresponding types are found under the same names. -/
theorem find?_members {g h : Graph} (hc : t.Coupled g h) {is js : List PropertyId}
    (hmembers : List.Forall₂ (t.Member g h) is js) (name : String) :
    Option.Rel t.Kin ((is.map g.property).find? (·.name = name)) ((js.map h.property).find? (·.name = name)) := by
  induction hmembers with
  | nil => exact .none
  | @cons i j _ _ hmember _ ih =>
    rw [List.map_cons, List.map_cons, List.find?_cons, List.find?_cons, hmember.name]
    split
    · exact .some (hc.kin_of_links hmember.links)
    · exact ih

/-- A copy of a member, without its checks, becomes a member too. -/
theorem goesAt_addLifted (hcoupled : C → t.Coupled s₁.graph s₂.graph) (hkl : C → t.Types k l) {a b : Property}
    (hkin : C → t.Kin a b) (hname : a.name = b.name) :
    t.GoesAt C s₁ s₂ (Build.addProperty (lifted a combinator) >>= addTypeProperty k)
      (Build.addProperty (lifted b combinator) >>= addTypeProperty l) fun _ _ _ => True := by
  have hnames : ∀ property : Property, (lifted property combinator).name = property.name := fun property =>
    (Property.continues_addDecorator _).name
  refine (goesAt_addProperty hcoupled fun hC => (hkin hC).lift combinator).bind
    fun C₁ i j m₁ m₂ hbetween hrun hrun' hij => ?_
  obtain ⟨hi, rfl⟩ := runs_addProperty.1 hrun
  obtain ⟨hj, rfl⟩ := runs_addProperty.1 hrun'
  refine goesAt_addTypeProperty (fun hC => hkl (hbetween.implies hC)) hbetween.coupled fun hC => ?_
  refine ⟨(hij hC).links, hi ▸ Session.hasProperty_addProperty _ _, ?_⟩
  rw [hi, hj, Graph.property_addProperty, Graph.property_addProperty, hnames, hnames, hname]

theorem goesAt_lift (hcoupled : C → t.Coupled s₁.graph s₂.graph) (hkl : C → t.Types k l) {i j : PropertyId}
    (hmember : C → t.Member s₁.graph s₂.graph i j) :
    t.GoesAt C s₁ s₂ (lift k combinator i) (lift l combinator j) fun C' a b => C' → a = b := by
  by_cases hC : C
  · have hc := hcoupled hC
    have hname := (hmember hC).name
    have hfound := find?_members hc (hc.entries k l (hkl hC)).members (s₁.graph.property i).name
    unfold lift
    refine goesAt_graph_bind ?_
    simp only
    rw [← hname]
    generalize (((s₁.graph.entry k).properties.map s₁.graph.property).find? _) = existing at hfound
    generalize (((s₂.graph.entry l).properties.map s₂.graph.property).find? _) = existing' at hfound
    cases hfound with
    | none =>
      simp only [← bind_assoc]
      refine (goesAt_addLifted hcoupled hkl (fun _ => hc.kin_of_links (hmember hC).links) hname).bind
        fun C₁ _ _ m₁ m₂ hbetween _ _ _ => ?_
      exact goesAt_pure hbetween.coupled fun _ => rfl
    | some hkin =>
      simp only
      rw [hkin.lifted]
      exact goesAt_pure hcoupled fun _ => rfl
  · exact goesAt_of_not hC (exists_runs_lift t.config s₁ k i) (exists_runs_lift t.config s₂ l j) fun _ _ => False.elim

/-- **What is lifted from corresponding types has the same names.**  By induction on the members; each stays what it is
while those before it are lifted. -/
theorem goesAt_lifts {is js : List PropertyId} (hlinks : List.Forall₂ t.Links is js) : ∀ {C : Prop} {s₁ s₂ : Session},
    (C → t.Coupled s₁.graph s₂.graph) → (C → t.Types k l) → (C → List.Forall₂ (t.Member s₁.graph s₂.graph) is js) →
      t.GoesAt C s₁ s₂ (is.mapM (lift k combinator)) (js.mapM (lift l combinator)) fun C' a b => C' → a = b := by
  induction hlinks with
  | nil => exact fun hcoupled _ _ => goesAt_pure hcoupled fun _ => rfl
  | @cons i j is js _ _ ih =>
    intro C s₁ s₂ hcoupled hkl hmembers
    rw [List.mapM_cons, List.mapM_cons]
    have hhead : C → t.Member s₁.graph s₂.graph i j := fun hC => (List.forall₂_cons.1 (hmembers hC)).1
    refine (goesAt_lift hcoupled hkl hhead).bind fun C₁ a b n₁ n₂ hbetween _ _ hab => ?_
    have hrest : C₁ → List.Forall₂ (t.Member n₁.graph n₂.graph) is js := fun hC₁ =>
      (List.forall₂_cons.1 (hmembers (hbetween.implies hC₁))).2.imp fun _ _ hm =>
        hm.later (hcoupled (hbetween.implies hC₁)) hbetween.first hbetween.second
    refine (ih hbetween.coupled (fun hC₁ => hkl (hbetween.implies hC₁)) hrest).bind
      fun C₂ as bs p₁ p₂ hlater _ _ habs => ?_
    refine goesAt_pure hlater.coupled fun hC₂ => ?_
    rw [hab (hlater.implies hC₂), habs hC₂]

/-- Members of a type from before are their own counterparts. -/
theorem Coupled.members_ground (hc : t.Coupled s₁.graph s₂.graph) {type : TypeId}
    (htype : t.ground.graph.HasType type) :
    List.Forall₂ (t.Member s₁.graph s₂.graph) (s₁.graph.type type).properties (s₂.graph.type type).properties := by
  have hbase := t.ground.agrees (.refl _)
  rw [← (t.ground.agrees hc.first).type htype, ← (t.ground.agrees hc.second).type htype]
  refine List.forall₂_same.2 fun id hid => ?_
  have hthere : t.ground.graph.HasProperty id := (hbase.knowsType _ (hbase.hasCanonical type htype)).properties id hid
  refine ⟨Or.inr ⟨rfl, hthere⟩, hthere.grows hc.first.grows, ?_⟩
  rw [hc.first.property id hthere, hc.second.property id hthere]

/-- Types that properties hold have corresponding members. -/
theorem Coupled.members_of_typeLinks (hc : t.Coupled s₁.graph s₂.graph) {type type' : TypeId}
    (htypes : t.TypeLinks type type') :
    List.Forall₂ (t.Member s₁.graph s₂.graph) (s₁.graph.type type).properties (s₂.graph.type type').properties := by
  rcases htypes with htypes | ⟨rfl, htype⟩
  · have hentries := hc.entries type type' htypes
    rw [Graph.type_eq_entry hentries.redirect.1, Graph.type_eq_entry hentries.redirect.2]
    exact hentries.members
  · exact hc.members_ground htype

theorem goes_liftBranch (hkl : C → t.Types k l) {i j : PropertyId} (hij : C → t.Ids i j) :
    t.Goes C (liftBranch k i combinator) (liftBranch l j combinator) fun C' a b => C' → a = b := by
  intro s₁ s₂ _ hcoupled
  by_cases hC : C
  · have hc := hcoupled hC
    unfold liftBranch
    refine goesAt_graph_bind ?_
    have hnested := (hc.kin i j (hij hC)).nested
    generalize (s₁.graph.property i).nested = nested at hnested
    generalize (s₂.graph.property j).nested = nested' at hnested
    cases hnested with
    | none => exact goesAt_pure hcoupled fun _ => rfl
    | @some type type' htypes =>
      have hmembers := hc.members_of_typeLinks htypes
      refine (goesAt_lifts (hmembers.imp fun _ _ hm => hm.links) hcoupled hkl fun _ => hmembers).bind
        fun C₂ a b p₁ p₂ hlater _ _ hab => ?_
      exact goesAt_pure hlater.coupled fun hC₂ => by rw [hab hC₂]
  · exact goesAt_of_not hC (exists_runs_liftBranch t.config s₁ k i) (exists_runs_liftBranch t.config s₂ l j)
      fun _ _ => False.elim

/-! ## Compositions on an object -/

theorem goes_objectBranch (hb : t.Shares node build build') (hclasses : t.Classes scope scope') (hkl : C → t.Types k l)
    (hinner : Entrusts node (Keyword.withObjectType inner)) :
    t.Goes C (objectBranch build scope k combinator inner) (objectBranch build' scope' l combinator inner)
      fun C' a b => C' → t.Ids a.property b.property ∧ a.affected = b.affected := by
  unfold objectBranch
  have hsites : t.Abreast { scope, name := scope.className, required := true, merged := true }
      { scope := scope', name := scope'.className, required := true, merged := true } :=
    ⟨rfl, named_of hclasses.identified.1 hclasses.identified.2, hclasses.scopes⟩
  refine (hb.goes C _ _ _ hsites hinner).bind fun C₁ i j hC₁ hij => ?_
  simp only
  split
  · rw [pure_bind, pure_bind]
    exact goes_pure fun hC => ⟨hij hC, rfl⟩
  · refine (goes_liftBranch (fun hC => hkl (hC₁ hC)) hij).bind fun C₂ a b hC₂ hab => ?_
    exact goes_pure fun hC => ⟨hij (hC₂ hC), hab hC⟩

theorem goes_addObjectComposition (hb : t.Shares node build build') (hclasses : t.Classes scope scope')
    (hkl : C → t.Types k l) :
    t.Goes C (addObjectComposition build scope k node combinator)
      (addObjectComposition build' scope' l node combinator) fun _ _ _ => True := by
  unfold addObjectComposition
  refine (goes_branches?.told Chain.tells_branches?).bind fun C₁ found _ hC₁ hfound => ?_
  obtain ⟨rfl, hfound⟩ := hfound
  split
  · exact goes_pure trivial
  · rename_i nodes
    refine goes_noteIfEmpty.andThen fun C₂ _ _ hC₂ => ?_
    have hbranches : ∀ e ∈ nodes, ∀ C', (C' → C₂) → t.Goes C' (objectBranch build scope k combinator e)
        (objectBranch build' scope' l combinator e)
        fun C'' a b => C'' → t.Ids a.property b.property ∧ a.affected = b.affected := by
      intro e he C' hC'
      refine goes_objectBranch hb hclasses (fun hC => hkl (hC₁ (hC₂ (hC' hC)))) ?_
      rcases hfound nodes rfl e he with ⟨keyword, hkeyword, hget⟩ | ⟨keyword, hkeyword, items, hget, hmem⟩
      · exact .whole hkeyword hget
      · exact .wholes hkeyword hget hmem
    refine (goes_mapM hbranches).bind fun C₃ as bs hC₃ habs => ?_
    exact goes_addTypeCheck (fun hC => hkl (hC₁ (hC₂ (hC₃ hC)))) fun hC => same_composition (habs hC)

theorem goes_applyObjectCompositions (hb : t.Shares node build build') (hclasses : t.Classes scope scope')
    (hkl : C → t.Types k l) :
    t.Goes C (applyObjectCompositions build scope k node) (applyObjectCompositions build' scope' l node)
      fun _ _ _ => True := by
  unfold applyObjectCompositions
  refine (goes_forM fun combinator _ C' hC' =>
    goes_addObjectComposition hb hclasses fun hC => hkl (hC' hC)).andThen fun C₁ _ _ hC₁ => ?_
  have hsites : t.Abreast { scope, name := scope.className, required := true }
      { scope := scope', name := scope'.className, required := true } :=
    ⟨rfl, named_of hclasses.identified.1 hclasses.identified.2, hclasses.scopes⟩
  refine (goes_conditional? (C := C₁) fun C' keyword hkeyword inner hget =>
    hb.goes C' _ _ _ hsites (.whole hkeyword hget)).bind fun C₂ c d hC₂ hcd => ?_
  cases hcd with
  | none => exact goes_pure trivial
  | some hsame => exact goes_addTypeCheck (fun hC => hkl (hC₁ (hC₂ hC))) hsame

end Tandem
end Building
end SchemaTypes

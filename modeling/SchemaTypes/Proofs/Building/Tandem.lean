import SchemaTypes.Proofs.Building.Moves
import SchemaTypes.Proofs.Building.PropertyNames
import SchemaTypes.Proofs.Naming.Identifiers
import SchemaTypes.Proofs.Types.Redirects
import SchemaTypes.Proofs.Types.Shifts
/-!
# Graphs that grow in step

Two runs build the same node, each in a session of its own and in a class of its own.  What they add corresponds id by
id, counted from where each began (`Tandem.Ids`): corresponding properties ask for the same (`Tandem.Kin`), and
corresponding types have members of the same names (`Tandem.Entries`).  Class names differ, and so does whatever is
called after a class.

Both may have been given the same graph to build on (`Ground`).  It stays as it is, and what they add may lead to it.

That holds as long as neither run redirects a type (`Tandem.Coupled`).  What decides whether building succeeds is less
than that, and the same in any case (`Property.traits`).
-/
namespace SchemaTypes
namespace Building

/-- What two runs have from before: a graph that leads to nothing else, and the definitions in it that references are
to. -/
structure Ground where
  graph : Graph
  agrees : ∀ {later : Graph}, graph.EnduresIn later → graph.AgreeOn graph later
  leads : String → PropertyId → Prop
  there : ∀ {reference : String} {definition : PropertyId}, leads reference definition → graph.HasProperty definition

/-- Nothing at all. -/
def Ground.empty : Ground where
  graph := {}
  agrees _ := ⟨nofun, nofun, nofun, nofun, nofun, nofun⟩
  leads _ _ := False
  there := False.elim

theorem Ground.empty_enduresIn (graph : Graph) : Ground.empty.graph.EnduresIn graph :=
  ⟨⟨Nat.zero_le _, Nat.zero_le _⟩, nofun, nofun⟩

/-- What is fixed for two runs side by side: the configuration, which documents the nodes are in, what they have from
before, and which ids each hands out next as they begin. -/
structure Tandem where
  config : Config
  carries : config.naming.Carries
  places : String × String
  ground : Ground
  properties : Nat × Nat
  types : Nat × Nat
  aboveProperties : ground.graph.properties.size ≤ properties.1 ∧ ground.graph.properties.size ≤ properties.2
  aboveTypes : ground.graph.types.size ≤ types.1 ∧ ground.graph.types.size ≤ types.2

namespace Tandem

/-- Two runs that have nothing from before. -/
def afresh (config : Config) (carries : config.naming.Carries) (properties types : Nat × Nat) : Tandem where
  config
  carries
  places := ("", "")
  ground := .empty
  properties
  types
  aboveProperties := ⟨Nat.zero_le _, Nat.zero_le _⟩
  aboveTypes := ⟨Nat.zero_le _, Nat.zero_le _⟩

/-- Two runs on the same ground, from where they have these graphs. -/
def starting (config : Config) (carries : config.naming.Carries) (places : String × String) {ground : Ground}
    {g h : Graph} (hfirst : ground.graph.EnduresIn g) (hsecond : ground.graph.EnduresIn h) : Tandem where
  config
  carries
  places
  ground
  properties := (g.properties.size, h.properties.size)
  types := (g.types.size, h.types.size)
  aboveProperties := ⟨hfirst.grows.properties, hsecond.grows.properties⟩
  aboveTypes := ⟨hfirst.grows.types, hsecond.grows.types⟩

variable {t : Tandem}

/-! ## Ids -/

/-- The one id is as far from where its run began as the other. -/
def Ids (t : Tandem) (a b : PropertyId) : Prop := ∃ k, a.index = t.properties.1 + k ∧ b.index = t.properties.2 + k

def Types (t : Tandem) (a b : TypeId) : Prop := ∃ k, a.index = t.types.1 + k ∧ b.index = t.types.2 + k

theorem Ids.eq_iff {a b c d : PropertyId} (h : t.Ids a b) (h' : t.Ids c d) : a = c ↔ b = d := by
  obtain ⟨k, ha, hb⟩ := h
  obtain ⟨l, hc, hd⟩ := h'
  cases a; cases b; cases c; cases d
  simp only [PropertyId.mk.injEq] at *
  omega

theorem Types.eq_iff {a b c d : TypeId} (h : t.Types a b) (h' : t.Types c d) : a = c ↔ b = d := by
  obtain ⟨k, ha, hb⟩ := h
  obtain ⟨l, hc, hd⟩ := h'
  cases a; cases b; cases c; cases d
  simp only [TypeId.mk.injEq] at *
  omega

/-- What has been added is not from before. -/
theorem Ids.added {a b : PropertyId} (h : t.Ids a b) :
    ¬ t.ground.graph.HasProperty a ∧ ¬ t.ground.graph.HasProperty b := by
  obtain ⟨k, ha, hb⟩ := h
  have habove := t.aboveProperties
  unfold Graph.HasProperty
  omega

theorem Types.added {a b : TypeId} (h : t.Types a b) : ¬ t.ground.graph.HasType a ∧ ¬ t.ground.graph.HasType b := by
  obtain ⟨k, ha, hb⟩ := h
  have habove := t.aboveTypes
  unfold Graph.HasType
  omega

/-- What corresponding checks lead to: what has been added side by side, or the same from before. -/
def Links (t : Tandem) (a b : PropertyId) : Prop := t.Ids a b ∨ a = b ∧ t.ground.graph.HasProperty a

def TypeLinks (t : Tandem) (a b : TypeId) : Prop := t.Types a b ∨ a = b ∧ t.ground.graph.HasType a

theorem Ids.links {a b : PropertyId} (h : t.Ids a b) : t.Links a b := Or.inl h

theorem Links.eq_iff {a b c d : PropertyId} (h : t.Links a b) (h' : t.Links c d) : a = c ↔ b = d := by
  rcases h with h | ⟨rfl, ha⟩ <;> rcases h' with h' | ⟨rfl, hc⟩
  · exact h.eq_iff h'
  · exact iff_of_false (fun heq => h.added.1 (heq ▸ hc)) fun heq => h.added.2 (heq ▸ hc)
  · exact iff_of_false (fun heq => h'.added.1 (heq ▸ ha)) fun heq => h'.added.2 (heq ▸ ha)
  · exact Iff.rfl

theorem forall₂_links {as bs : List PropertyId} (h : List.Forall₂ t.Ids as bs) : List.Forall₂ t.Links as bs :=
  h.imp fun _ _ => Ids.links

theorem forall₂_links_eq_iff {as bs cs ds : List PropertyId} (h : List.Forall₂ t.Links as bs)
    (h' : List.Forall₂ t.Links cs ds) : as = cs ↔ bs = ds := by
  induction h generalizing cs ds with
  | nil => cases h' <;> simp
  | cons hab _ ih =>
    cases h' with
    | nil => simp
    | cons hcd hrest => rw [List.cons.injEq, List.cons.injEq, hab.eq_iff hcd, ih hrest]

end Tandem
end Building

/-! ## Checks -/

namespace Check

variable {R P : PropertyId → PropertyId → Prop} {T : TypeId → TypeId → Prop} {c d : Check}

theorem Like.defaultPriority_eq (h : Like R P T c d) : c.defaultPriority = d.defaultPriority := by
  cases h <;> rfl

theorem Like.isType_eq (h : Like R P T c d) : c.isType = d.isType := by
  cases h <;> rfl

theorem Like.withNull (h : Like R P T c d) (settles : Bool) : Like R P T (c.withNull settles) (d.withNull settles) := by
  cases h with
  | same hchildren htypes =>
    exact .same ((children_withNull c settles).trans hchildren) ((types_withNull c settles).trans htypes)
  | items h => exact .items h
  | tuple h => exact .tuple h
  | additionalItems h => exact .additionalItems h
  | contains h => exact .contains h
  | instanceOf h => exact .instanceOf h
  | noAdditionalProperties => exact .noAdditionalProperties
  | additionalProperties h => exact .additionalProperties h
  | patternProperty h => exact .patternProperty h
  | propertyNames h => exact .propertyNames h
  | schemaDependency h => exact .schemaDependency h
  | composition h => exact .composition h
  | conditional h hthen helse => exact .conditional h hthen helse

/-- A flag makes a difference to checks that lead nowhere, and these are alike only if they are the same. -/
theorem Like.fingerprint_withNull (h : Like R P T c d) (hfingerprint : c.fingerprint = d.fingerprint)
    (settles : Bool) : (c.withNull settles).fingerprint = (d.withNull settles).fingerprint := by
  cases h with
  | same => rfl
  | _ => exact hfingerprint

end Check

/-! ## Which types a draft declares -/

namespace Validators

variable {validators : Validators} {validator : Validator} {p : Check → Bool}

theorem find?_place_of_not (arrival : Arrival) (h : p arrival.validator.check = false) : ∀ arrivals : List Arrival,
    (((place arrival arrivals).map (·.validator)).map (·.check)).find? p =
      ((arrivals.map (·.validator)).map (·.check)).find? p
  | [] => by simp [place, h]
  | first :: rest => by
    rw [place]
    split
    · simp only [List.map_cons, List.find?_cons]
      split
      · rfl
      · exact find?_place_of_not arrival h rest
    · simp [h]

theorem find?_add_of_not (h : p validator.check = false) :
    (validators.add validator).find? p = validators.find? p :=
  find?_place_of_not ⟨validators.next, validator⟩ h validators.arrivals

/-- The only check of its sort is found. -/
theorem find?_add_of_none (validator : Validator) (h : p validator.check = true) (hnone : validators.find? p = none) :
    (validators.add validator).find? p = some validator.check := by
  have hothers : ∀ v ∈ validators.toList, ¬ p v.check = true := by
    unfold find? at hnone
    rw [List.find?_eq_none] at hnone
    exact fun v hv => hnone _ (List.mem_map_of_mem hv)
  cases hfound : (validators.add validator).find? p with
  | none =>
    unfold find? at hfound
    rw [List.find?_eq_none] at hfound
    exact absurd h (hfound _ (List.mem_map_of_mem (mem_toList_add.2 (Or.inl rfl))))
  | some check =>
    have hp := List.find?_some hfound
    obtain ⟨v, hv, rfl⟩ := List.mem_map.1 (List.mem_of_find?_eq_some hfound)
    rcases mem_toList_add.1 hv with rfl | hv
    · rfl
    · exact absurd hp (hothers v hv)

theorem find?_removeRequired (h : p .required = false) : validators.removeRequired.find? p = validators.find? p := by
  have hskip : ∀ checks : List Check, (checks.filter (!·.isRequired)).find? p = checks.find? p := by
    intro checks
    rw [List.find?_filter]
    refine congrArg (List.find? · checks) (funext fun check => ?_)
    cases check with
    | required => simp [Check.isRequired, h]
    | _ => simp [Check.isRequired]
  unfold find?
  rw [toList_removeRequired, ← hskip (validators.toList.map (·.check)), List.filter_map]
  rfl

end Validators

namespace Property

variable {property : Property} {check : Check}

/-- What building decides by, of a draft: the kinds it declares, whether null belongs to them, and the marks. -/
structure Traits where
  kinds : Option (List Kind)
  nullable : Bool
  strict : Bool
  relaxed : Bool

def traits (property : Property) : Traits :=
  ⟨property.declaredKinds?, Building.isNullable property, property.strict, property.relaxed⟩

theorem declaredKinds?_add {validator : Validator} (h : validator.check.isType = false) :
    { property with validators := property.validators.add validator }.declaredKinds? = property.declaredKinds? :=
  congrArg (Option.bind · Check.kinds?) (Validators.find?_add_of_not h)

theorem traits_addCheck (h : check.isType = false) : (property.addCheck check).traits = property.traits := by
  unfold traits
  rw [show (property.addCheck check).declaredKinds? = property.declaredKinds? from declaredKinds?_add h]
  rfl

theorem traits_addType (h : property.declaredKinds? = none) (kinds : List Kind) (settles : Bool) :
    (property.addCheck (.type kinds settles)).traits = { property.traits with kinds := some kinds } := by
  have hnone : property.validators.find? Check.isType = none := by
    cases hfound : property.validators.find? Check.isType with
    | none => rfl
    | some check =>
      have htype : check.isType = true := List.find?_some hfound
      unfold declaredKinds? at h
      rw [hfound] at h
      cases check <;> simp [Check.isType, Check.kinds?] at htype h
  have hkinds : (property.addCheck (.type kinds settles)).declaredKinds? = some kinds :=
    congrArg (Option.bind · Check.kinds?)
      (Validators.find?_add_of_none (Check.type kinds settles).toValidator rfl hnone)
  unfold traits
  rw [hkinds]
  rfl

theorem traits_stampRequired (required allowed : Bool) :
    (property.stampRequired required allowed).traits = property.traits := by
  have hnull : ∀ (settles : Bool) (c : Check), (c.withNull settles).isType = c.isType := by
    intro settles c
    cases c <;> rfl
  have hkinds : ∀ (settles : Bool) (c : Check), (c.withNull settles).kinds? = c.kinds? := by
    intro settles c
    cases c <;> rfl
  have hdeclared : (property.stampRequired required allowed).declaredKinds? = property.declaredKinds? := by
    unfold declaredKinds? stampRequired
    simp only
    rw [Validators.find?_mapChecks _ _ (hnull _)]
    have hstamped : ∀ needed : Bool, (if needed = true then property.validators.removeRequired.addCheck .required
        else property.validators.removeRequired).find? Check.isType = property.validators.find? Check.isType := by
      intro needed
      split
      · exact (Validators.find?_add_of_not rfl).trans (Validators.find?_removeRequired rfl)
      · exact Validators.find?_removeRequired rfl
    rw [hstamped]
    cases property.validators.find? Check.isType with
    | none => rfl
    | some c => exact hkinds _ c
  unfold traits
  rw [hdeclared]
  rfl

theorem any_isTransferred_addDecorator (decorator : Decorator) :
    (property.addDecorator decorator).decorators.any Decorator.isTransferred =
      (property.decorators.any Decorator.isTransferred || decorator.isTransferred) := by
  unfold addDecorator
  split
  · rename_i hmem
    cases htransferred : decorator.isTransferred with
    | false => rw [Bool.or_false]
    | true =>
      rw [Bool.or_true, List.any_eq_true]
      exact ⟨decorator, List.contains_iff_mem.1 hmem, htransferred⟩
  · rw [List.any_append, List.any_cons, List.any_nil, Bool.or_false]

end Property

namespace Building
namespace Tandem

variable {t : Tandem} {C C' : Prop}

/-! ## Properties -/

/-- Validators that ask for the same, at the same place. -/
structure Peer (t : Tandem) (v w : Validator) : Prop where
  priority : v.priority = w.priority
  fingerprint : v.check.fingerprint = w.check.fingerprint
  like : Check.Like t.Links t.Links t.TypeLinks v.check w.check

/-- Checks that make such validators. -/
structure Same (t : Tandem) (c d : Check) : Prop where
  fingerprint : c.fingerprint = d.fingerprint
  like : Check.Like t.Links t.Links t.TypeLinks c d

def Peers (t : Tandem) (vs ws : Validators) : Prop :=
  List.Forall₂ (fun a b : Arrival => t.Peer a.validator b.validator) vs.arrivals ws.arrivals

/-- Properties that ask for the same. -/
structure Kin (t : Tandem) (a b : Property) : Prop where
  default : a.default = b.default
  lifted : a.decorators.any Decorator.isTransferred = b.decorators.any Decorator.isTransferred
  nested : Option.Rel t.TypeLinks a.nested b.nested
  validators : t.Peers a.validators b.validators

variable {a b : Property} {c d : Check} {v w : Validator} {vs ws : Validators}

theorem same_refl (hchildren : c.children = []) (htypes : c.types = []) : t.Same c c := ⟨rfl, .same hchildren htypes⟩

theorem Same.peer (h : t.Same c d) : t.Peer c.toValidator d.toValidator :=
  ⟨h.like.defaultPriority_eq, h.fingerprint, h.like⟩

theorem Peer.isRequired_eq (h : t.Peer v w) : v.check.isRequired = w.check.isRequired := h.like.isRequired_eq

theorem Peer.isType_eq (h : t.Peer v w) : v.check.isType = w.check.isType := h.like.isType_eq

/-- Whether two validators ask for the same is the same question in both runs. -/
theorem Peer.sameDemand_eq {v' w' : Validator} (h : t.Peer v w) (h' : t.Peer v' w') :
    sameDemand v v' = sameDemand w w' := by
  have hchildren : (v.check.children == v'.check.children) = (w.check.children == w'.check.children) := by
    rw [Bool.eq_iff_iff, beq_iff_eq, beq_iff_eq]
    exact forall₂_links_eq_iff h.like.children h'.like.children
  unfold sameDemand
  rw [h.priority, h'.priority, h.fingerprint, h'.fingerprint, hchildren]

theorem peers_empty : t.Peers {} {} := .nil

/-! ## What is from before -/

/-- A check that leads to what is from before is its own counterpart. -/
theorem like_ground (h : t.ground.graph.KnowsCheck c) : Check.Like t.Links t.Links t.TypeLinks c c := by
  have hself : Check.Like Eq Eq Eq c c := .refl (fun _ => rfl) (fun _ => rfl) c
  exact hself.imp (fun a ha b _ hab => Or.inr ⟨hab, h.children a ha⟩) fun a ha b hab => Or.inr ⟨hab, h.types a ha⟩

theorem peers_ground (h : ∀ v ∈ vs.toList, t.ground.graph.KnowsCheck v.check) : t.Peers vs vs :=
  List.forall₂_same.2 fun _ ha => ⟨rfl, rfl, like_ground (h _ (List.mem_map_of_mem ha))⟩

theorem kin_ground (h : t.ground.graph.Knows a) : t.Kin a a := by
  refine ⟨rfl, rfl, ?_, peers_ground h.checks⟩
  cases hnested : a.nested with
  | none => exact .none
  | some type => exact .some (Or.inr ⟨rfl, h.nested type hnested⟩)

theorem Peers.toList (h : t.Peers vs ws) : List.Forall₂ t.Peer vs.toList ws.toList := by
  unfold Validators.toList
  rw [List.forall₂_map_left_iff, List.forall₂_map_right_iff]
  exact h

theorem forall₂_place {x y : Arrival} (hxy : t.Peer x.validator y.validator) {as bs : List Arrival}
    (h : List.Forall₂ (fun a b : Arrival => t.Peer a.validator b.validator) as bs) :
    List.Forall₂ (fun a b : Arrival => t.Peer a.validator b.validator) (Validators.place x as)
      (Validators.place y bs) := by
  induction h with
  | nil => exact .cons hxy .nil
  | cons hab hrest ih =>
    rw [Validators.place, Validators.place, hab.priority, hxy.priority]
    split
    · exact .cons hab ih
    · exact .cons hxy (.cons hab hrest)

theorem Peers.add (h : t.Peers vs ws) (hvw : t.Peer v w) : t.Peers (vs.add v) (ws.add w) :=
  forall₂_place (x := ⟨vs.next, v⟩) (y := ⟨ws.next, w⟩) hvw h

theorem Peers.removeRequired (h : t.Peers vs ws) : t.Peers vs.removeRequired ws.removeRequired :=
  List.rel_filter (fun _ _ hab => by simp only [hab.isRequired_eq]) h

theorem Peers.withNull (h : t.Peers vs ws) (settles : Bool) :
    t.Peers (vs.mapChecks (Check.withNull settles)) (ws.mapChecks (Check.withNull settles)) := by
  change List.Forall₂ _ (List.map _ _) (List.map _ _)
  rw [List.forall₂_map_left_iff, List.forall₂_map_right_iff]
  exact List.Forall₂.imp (fun _ _ hab =>
    ⟨hab.priority, hab.like.fingerprint_withNull hab.fingerprint settles, hab.like.withNull settles⟩) h

theorem Kin.addCheck (h : t.Kin a b) (hcheck : t.Same c d) : t.Kin (a.addCheck c) (b.addCheck d) :=
  ⟨h.default, h.lifted, h.nested, h.validators.add hcheck.peer⟩

/-- The property as it is, but for its label and for hints about types. -/
structure Recast (a b : Property) : Prop where
  default : b.default = a.default
  lifted : b.decorators.any Decorator.isTransferred = a.decorators.any Decorator.isTransferred
  nested : b.nested = a.nested
  validators : b.validators = a.validators
  strict : b.strict = a.strict

theorem Kin.recast (h : t.Kin a b) {a' b' : Property} (ha : Recast a a') (hb : Recast b b') : t.Kin a' b' where
  default := ha.default.trans (h.default.trans hb.default.symm)
  lifted := ha.lifted.trans (h.lifted.trans hb.lifted.symm)
  nested := by
    rw [ha.nested, hb.nested]
    exact h.nested
  validators := by
    rw [ha.validators, hb.validators]
    exact h.validators

theorem recast_addDecorator (a : Property) {decorator : Decorator} (h : decorator.isTransferred = false) :
    Recast a (a.addDecorator decorator) := by
  have hlifted := a.any_isTransferred_addDecorator decorator
  rw [h, Bool.or_false] at hlifted
  unfold Property.addDecorator at hlifted ⊢
  split
  · exact ⟨rfl, rfl, rfl, rfl, rfl⟩
  · rename_i hnew
    rw [if_neg hnew] at hlifted
    exact ⟨rfl, hlifted, rfl, rfl, rfl⟩

theorem Kin.relax (h : t.Kin a b) : t.Kin a.relax b.relax :=
  ⟨h.default, h.lifted, h.nested, h.validators.removeRequired⟩

theorem Kin.stampRequired (h : t.Kin a b) (hstrict : a.strict = b.strict) (hrelaxed : a.relaxed = b.relaxed)
    (required allowed : Bool) : t.Kin (a.stampRequired required allowed) (b.stampRequired required allowed) := by
  refine ⟨h.default, h.lifted, h.nested, ?_⟩
  unfold Property.stampRequired Property.needsPresence Property.settlesNull
  simp only
  rw [hstrict, hrelaxed]
  refine Peers.withNull ?_ _
  split
  · exact h.validators.removeRequired.add (Same.peer (same_refl rfl rfl))
  · exact h.validators.removeRequired

/-- What is lifted from corresponding properties corresponds. -/
theorem Kin.lift (h : t.Kin a b) (combinator : Combinator) :
    t.Kin (Building.lifted a combinator) (Building.lifted b combinator) := by
  have hlifted : ∀ property : Property, (Building.lifted property combinator).default = property.default ∧
      (Building.lifted property combinator).nested = property.nested ∧
        (Building.lifted property combinator).validators = {} ∧
          (Building.lifted property combinator).decorators.any Decorator.isTransferred = true := by
    intro property
    refine ⟨?_, ?_, ?_, (Property.any_isTransferred_addDecorator _).trans (Bool.or_true _)⟩
    all_goals
      unfold Building.lifted Property.addDecorator
      split <;> rfl
  obtain ⟨hdefault, hnested, hvalidators, htransferred⟩ := hlifted a
  obtain ⟨hdefault', hnested', hvalidators', htransferred'⟩ := hlifted b
  refine ⟨?_, htransferred.trans htransferred'.symm, ?_, ?_⟩
  · rw [hdefault, hdefault', h.default]
  · rw [hnested, hnested']
    exact h.nested
  · rw [hvalidators, hvalidators']
    exact peers_empty

/-! ## Drafts -/

/-- Drafts that building decides alike about, and which correspond as long as the runs do. -/
structure Drafts (t : Tandem) (C : Prop) (a b : Property) : Prop where
  traits : a.traits = b.traits
  kin : C → t.Kin a b

theorem Drafts.mono (h : t.Drafts C a b) (hC : C' → C) : t.Drafts C' a b := ⟨h.traits, fun hc => h.kin (hC hc)⟩

theorem Drafts.declaredKinds?_eq (h : t.Drafts C a b) : a.declaredKinds? = b.declaredKinds? :=
  congrArg Property.Traits.kinds h.traits

theorem Drafts.isNullable_eq (h : t.Drafts C a b) : isNullable a = isNullable b :=
  congrArg Property.Traits.nullable h.traits

theorem Drafts.strict_eq (h : t.Drafts C a b) : a.strict = b.strict := congrArg Property.Traits.strict h.traits

theorem Drafts.relaxed_eq (h : t.Drafts C a b) : a.relaxed = b.relaxed := congrArg Property.Traits.relaxed h.traits

theorem drafts_new (name identifier name' identifier' : String) (required : Bool) :
    t.Drafts C { name, identifier, required } { name := name', identifier := identifier', required } :=
  ⟨rfl, fun _ => ⟨rfl, rfl, .none, peers_empty⟩⟩

theorem Drafts.addCheck (h : t.Drafts C a b) (htype : c.isType = false) (htype' : d.isType = false)
    (hcheck : C → t.Same c d) : t.Drafts C (a.addCheck c) (b.addCheck d) := by
  refine ⟨?_, fun hC => (h.kin hC).addCheck (hcheck hC)⟩
  rw [Property.traits_addCheck htype, Property.traits_addCheck htype', h.traits]

/-- A check that leads nowhere is added to both as it is. -/
theorem Drafts.addLeaf (h : t.Drafts C a b) (htype : c.isType = false) (hchildren : c.children = [])
    (htypes : c.types = []) : t.Drafts C (a.addCheck c) (b.addCheck c) :=
  h.addCheck htype htype fun _ => same_refl hchildren htypes

/-- The type check of both, which have had none. -/
theorem Drafts.addType (h : t.Drafts C a b) (hnone : a.declaredKinds? = none) (kinds : List Kind) (settles : Bool) :
    t.Drafts C (a.addCheck (.type kinds settles)) (b.addCheck (.type kinds settles)) := by
  refine ⟨?_, fun hC => (h.kin hC).addCheck (same_refl rfl rfl)⟩
  rw [Property.traits_addType hnone, Property.traits_addType (h.declaredKinds?_eq ▸ hnone), h.traits]

theorem Drafts.present (h : t.Drafts C a b) (required : Bool) :
    t.Drafts C (if required then a.addCheck .required else a) (if required then b.addCheck .required else b) := by
  split
  · exact h.addLeaf rfl rfl rfl
  · exact h

/-- Whatever else a property says about itself. -/
theorem Drafts.revise (h : t.Drafts C a b) {a' b' : Property} (htraits : a'.traits = a.traits)
    (htraits' : b'.traits = b.traits) (hkin : t.Kin a b → t.Kin a' b') : t.Drafts C a' b' :=
  ⟨htraits.trans (h.traits.trans htraits'.symm), fun hC => hkin (h.kin hC)⟩

theorem Drafts.relabel (h : t.Drafts C a b) {label label' : Option TypeLabel}
    (hnullable : label.any (·.nullability = .nullable) = label'.any (·.nullability = .nullable)) :
    t.Drafts C { a with label } { b with label := label' } := by
  refine ⟨?_, fun hC => ⟨(h.kin hC).default, (h.kin hC).lifted, (h.kin hC).nested, (h.kin hC).validators⟩⟩
  change Property.Traits.mk a.declaredKinds? _ a.strict a.relaxed = ⟨b.declaredKinds?, _, b.strict, b.relaxed⟩
  rw [h.declaredKinds?_eq, h.strict_eq, h.relaxed_eq]
  exact congrArg (Property.Traits.mk _ · _ _) hnullable

theorem Drafts.addDecorator (h : t.Drafts C a b) {e f : Decorator} (he : e.isTransferred = false)
    (hf : f.isTransferred = false) : t.Drafts C (a.addDecorator e) (b.addDecorator f) := by
  have htraits : ∀ (property : Property) (decorator : Decorator),
      (property.addDecorator decorator).traits = property.traits := by
    intro property decorator
    unfold Property.addDecorator
    split <;> rfl
  exact h.revise (htraits a e) (htraits b f) fun hkin =>
    hkin.recast (recast_addDecorator a he) (recast_addDecorator b hf)

theorem Drafts.stampRequired (h : t.Drafts C a b) (required allowed : Bool) :
    t.Drafts C (a.stampRequired required allowed) (b.stampRequired required allowed) :=
  h.revise (Property.traits_stampRequired _ _) (Property.traits_stampRequired _ _) fun hkin =>
    hkin.stampRequired h.strict_eq h.relaxed_eq required allowed

theorem Drafts.strictly (h : t.Drafts C a b) :
    t.Drafts C { a with strict := true } { b with strict := true } := by
  refine ⟨?_, fun hC => ⟨(h.kin hC).default, (h.kin hC).lifted, (h.kin hC).nested, (h.kin hC).validators⟩⟩
  change Property.Traits.mk a.declaredKinds? (isNullable a) true a.relaxed =
    ⟨b.declaredKinds?, isNullable b, true, b.relaxed⟩
  rw [h.declaredKinds?_eq, h.isNullable_eq, h.relaxed_eq]

/-- A property comes to hold an object of one of two corresponding types. -/
theorem Drafts.hold (h : t.Drafts C a b) {type type' : TypeId} (htype : C → t.Types type type') :
    t.Drafts C { a with nested := some type } { b with nested := some type' } :=
  ⟨h.traits, fun hC => ⟨(h.kin hC).default, (h.kin hC).lifted, .some (Or.inl (htype hC)), (h.kin hC).validators⟩⟩

/-! ## Types and graphs -/

/-- Corresponding members of two types, which go by one name. -/
structure Member (t : Tandem) (g h : Graph) (a b : PropertyId) : Prop where
  links : t.Links a b
  hasProperty : g.HasProperty a
  name : (g.property a).name = (h.property b).name

/-- Types that ask for the same, neither of which is redirected. -/
structure Entries (t : Tandem) (g h : Graph) (a b : ObjectType) : Prop where
  members : List.Forall₂ (t.Member g h) a.properties b.properties
  validators : t.Peers a.validators b.validators
  redirect : a.redirect = none ∧ b.redirect = none

/-- The graphs have grown in step since the runs began, and what is from before is as it was. -/
structure Coupled (t : Tandem) (g h : Graph) : Prop where
  first : t.ground.graph.EnduresIn g
  second : t.ground.graph.EnduresIn h
  properties : t.Ids ⟨g.properties.size⟩ ⟨h.properties.size⟩
  types : t.Types ⟨g.types.size⟩ ⟨h.types.size⟩
  kin : ∀ a b, t.Ids a b → t.Kin (g.property a) (h.property b)
  entries : ∀ a b, t.Types a b → t.Entries g h (g.entry a) (h.entry b)

variable {g h g' h' : Graph} {i j : PropertyId} {k l : TypeId}

theorem kin_default : t.Kin default default := ⟨rfl, rfl, .none, peers_empty⟩

theorem entries_default : t.Entries g h default default := ⟨.nil, peers_empty, rfl, rfl⟩

/-- Where both runs begin, neither has added anything. -/
theorem coupled_start (hproperties : t.properties = (g.properties.size, h.properties.size))
    (htypes : t.types = (g.types.size, h.types.size)) (hfirst : t.ground.graph.EnduresIn g)
    (hsecond : t.ground.graph.EnduresIn h) : t.Coupled g h := by
  refine ⟨hfirst, hsecond, ⟨0, ?_, ?_⟩, ⟨0, ?_, ?_⟩, fun a b ⟨k, ha, hb⟩ => ?_, fun a b ⟨k, ha, hb⟩ => ?_⟩
  · rw [hproperties, Nat.add_zero]
  · rw [hproperties, Nat.add_zero]
  · rw [htypes, Nat.add_zero]
  · rw [htypes, Nat.add_zero]
  · rw [hproperties] at ha hb
    rw [Session.property_of_le (ha ▸ Nat.le_add_right _ _), Session.property_of_le (hb ▸ Nat.le_add_right _ _)]
    exact kin_default
  · rw [htypes] at ha hb
    rw [Session.entry_of_le (ha ▸ Nat.le_add_right _ _), Session.entry_of_le (hb ▸ Nat.le_add_right _ _)]
    exact entries_default

theorem Coupled.hasProperty_iff (hc : t.Coupled g h) (hij : t.Links i j) : g.HasProperty i ↔ h.HasProperty j := by
  rcases hij with ⟨k, hi, hj⟩ | ⟨rfl, hi⟩
  · obtain ⟨n, hg, hh⟩ := hc.properties
    unfold Graph.HasProperty
    simp only at hg hh
    omega
  · exact iff_of_true (hi.grows hc.first.grows) (hi.grows hc.second.grows)

theorem Coupled.hasType_iff (hc : t.Coupled g h) (hkl : t.TypeLinks k l) : g.HasType k ↔ h.HasType l := by
  rcases hkl with ⟨m, hk, hl⟩ | ⟨rfl, hk⟩
  · obtain ⟨n, hg, hh⟩ := hc.types
    unfold Graph.HasType
    simp only at hg hh
    omega
  · exact iff_of_true (hk.grows hc.first.grows) (hk.grows hc.second.grows)

/-- What checks lead to corresponds. -/
theorem Coupled.kin_of_links (hc : t.Coupled g h) (hij : t.Links i j) : t.Kin (g.property i) (h.property j) := by
  rcases hij with hij | ⟨rfl, hi⟩
  · exact hc.kin i j hij
  · rw [hc.first.property i hi, hc.second.property i hi]
    exact kin_ground ((t.ground.agrees (.refl _)).knows i hi)

/-- Members stay what they are as long as properties keep their names. -/
theorem Entries.mono {a b : ObjectType} (he : t.Entries g h a b) (hc : t.Coupled g h) (hgrows : g.Grows g')
    (hname : ∀ id, g.HasProperty id → (g'.property id).name = (g.property id).name)
    (hname' : ∀ id, h.HasProperty id → (h'.property id).name = (h.property id).name) : t.Entries g' h' a b :=
  ⟨he.members.imp fun i j hm => ⟨hm.links, hm.hasProperty.grows hgrows,
    (hname i hm.hasProperty).trans (hm.name.trans (hname' j ((hc.hasProperty_iff hm.links).1 hm.hasProperty)).symm)⟩,
    he.validators, he.redirect⟩

theorem Coupled.addProperty (hc : t.Coupled g h) (hkin : t.Kin a b) :
    t.Coupled (g.addProperty a).2 (h.addProperty b).2 := by
  have hsize : ∀ (graph : Graph) (p : Property), (graph.addProperty p).2.properties.size = graph.properties.size + 1 :=
    fun graph p => Array.size_push _
  have hname : ∀ (graph : Graph) (p : Property) (id : PropertyId), graph.HasProperty id →
      ((graph.addProperty p).2.property id).name = (graph.property id).name :=
    fun graph p id hid => congrArg Property.name (Graph.property_addProperty_of_lt graph p hid)
  obtain ⟨n, hg, hh⟩ := hc.properties
  simp only at hg hh
  refine ⟨Session.enduresIn_addProperty hc.first a, Session.enduresIn_addProperty hc.second b, ⟨n + 1, ?_, ?_⟩,
    hc.types, fun i j hij => ?_, fun k l hkl => ?_⟩
  · rw [hsize, hg, Nat.add_assoc]
  · rw [hsize, hh, Nat.add_assoc]
  · rcases Nat.lt_trichotomy i.index g.properties.size with hlt | heq | hgt
    · rw [Graph.property_addProperty_of_lt g a hlt,
        Graph.property_addProperty_of_lt h b ((hc.hasProperty_iff hij.links).1 hlt)]
      exact hc.kin i j hij
    · obtain rfl : i = (g.addProperty a).1 := by cases i; exact congrArg _ heq
      obtain rfl : j = (h.addProperty b).1 := (hij.eq_iff ⟨n, hg, hh⟩).1 rfl
      rw [Graph.property_addProperty, Graph.property_addProperty]
      exact hkin
    · have hle : (g.addProperty a).2.properties.size ≤ i.index := by
        rw [hsize]
        exact hgt
      have hle' : (h.addProperty b).2.properties.size ≤ j.index := by
        obtain ⟨k, hi, hj⟩ := hij
        rw [hsize]
        omega
      rw [Session.property_of_le hle, Session.property_of_le hle']
      exact kin_default
  · exact (hc.entries k l hkl).mono hc (Session.grows_addProperty g a) (hname g a) (hname h b)

theorem Coupled.modifyProperty (hc : t.Coupled g h) (hij : t.Ids i j) {f : Property → Property}
    (hname : ∀ property, (f property).name = property.name) (hkin : ∀ a b, t.Kin a b → t.Kin (f a) (f b)) :
    t.Coupled (g.modifyProperty i f) (h.modifyProperty j f) := by
  have hnames : ∀ (graph : Graph) (other id : PropertyId), graph.HasProperty id →
      ((graph.modifyProperty other f).property id).name = (graph.property id).name :=
    fun graph other id hid => (Build.hasProperty_modifyProperty other hid hname).2
  refine ⟨Session.enduresIn_modifyProperty hc.first hij.added.1 f,
    Session.enduresIn_modifyProperty hc.second hij.added.2 f, ?_, hc.types, fun i' j' hij' => ?_, fun k l hkl => ?_⟩
  · rw [Session.size_modifyProperty, Session.size_modifyProperty]
    exact hc.properties
  · by_cases heq : i' = i
    · obtain rfl := heq
      obtain rfl := (hij'.eq_iff hij).1 rfl
      by_cases hlt : g.HasProperty i'
      · rw [Graph.property_modifyProperty g f hlt,
          Graph.property_modifyProperty h f ((hc.hasProperty_iff hij.links).1 hlt)]
        exact hkin _ _ (hc.kin i' j' hij)
      · have hlt' : ¬ h.HasProperty j' := fun hh => hlt ((hc.hasProperty_iff hij.links).2 hh)
        rw [Session.property_of_le, Session.property_of_le]
        · exact kin_default
        · rw [Session.size_modifyProperty]
          exact Nat.le_of_not_lt hlt'
        · rw [Session.size_modifyProperty]
          exact Nat.le_of_not_lt hlt
    · rw [Graph.property_modifyProperty_of_ne g f heq,
        Graph.property_modifyProperty_of_ne h f fun heq' => heq ((hij'.eq_iff hij).2 heq')]
      exact hc.kin i' j' hij'
  · exact (hc.entries k l hkl).mono hc (Session.grows_modifyProperty g i f) (hnames g i) (hnames h j)

theorem Coupled.modifyType (hc : t.Coupled g h) (hkl : t.Types k l) {f f' : ObjectType → ObjectType}
    (hentries : t.Entries g h (g.entry k) (h.entry l) → t.Entries g h (f (g.entry k)) (f' (h.entry l))) :
    t.Coupled (g.modifyType k f) (h.modifyType l f') := by
  have hkept : ∀ a b, t.Entries g h a b → t.Entries (g.modifyType k f) (h.modifyType l f') a b :=
    fun a b he => ⟨he.members.imp fun _ _ hm => ⟨hm.links, hm.hasProperty, hm.name⟩, he.validators, he.redirect⟩
  refine ⟨Session.enduresIn_modifyType hc.first hkl.added.1 f, Session.enduresIn_modifyType hc.second hkl.added.2 f',
    hc.properties, ?_, hc.kin, fun k' l' hkl' => hkept _ _ ?_⟩
  · rw [Session.size_modifyType, Session.size_modifyType]
    exact hc.types
  · rw [Session.entry_modifyType_eq, Session.entry_modifyType_eq]
    have hhas := hc.hasType_iff (Or.inl hkl')
    unfold Graph.HasType at hhas
    by_cases heq : k' = k
    · obtain rfl := heq
      obtain rfl := (hkl'.eq_iff hkl).1 rfl
      by_cases hlt : k'.index < g.types.size
      · rw [if_pos ⟨rfl, hlt⟩, if_pos ⟨rfl, hhas.1 hlt⟩]
        exact hentries (hc.entries k' l' hkl)
      · rw [if_neg fun hn => hlt hn.2, if_neg fun hn => hlt (hhas.2 hn.2)]
        exact hc.entries k' l' hkl
    · have hne : ¬ k'.index = k.index := fun hindex => heq (by cases k'; cases k; exact congrArg _ hindex)
      have hne' : ¬ l'.index = l.index := fun hindex =>
        heq ((hkl'.eq_iff hkl).2 (by cases l'; cases l; exact congrArg _ hindex))
      rw [if_neg fun hn => hne hn.1, if_neg fun hn => hne' hn.1]
      exact hc.entries k' l' hkl'

theorem Coupled.reserve (hc : t.Coupled g h) (namespaceName className : String) (isRoot : Bool)
    (namespaceName' className' : String) (isRoot' : Bool) :
    t.Coupled (g.reserve namespaceName className isRoot).2 (h.reserve namespaceName' className' isRoot').2 := by
  obtain ⟨n, hg, hh⟩ := hc.types
  simp only at hg hh
  have hsize : ∀ (graph : Graph) (u v : String) (w : Bool),
      (graph.reserve u v w).2.types.size = graph.types.size + 1 := fun _ _ _ _ => Array.size_push _
  have hkept : ∀ a b, t.Entries g h a b →
      t.Entries (g.reserve namespaceName className isRoot).2 (h.reserve namespaceName' className' isRoot').2 a b :=
    fun a b he => ⟨he.members.imp fun _ _ hm => ⟨hm.links, hm.hasProperty, hm.name⟩, he.validators, he.redirect⟩
  refine ⟨Session.enduresIn_reserve hc.first _ _ _, Session.enduresIn_reserve hc.second _ _ _, hc.properties,
    ⟨n + 1, ?_, ?_⟩, hc.kin, fun k l hkl => hkept _ _ ?_⟩
  · rw [hsize, hg, Nat.add_assoc]
  · rw [hsize, hh, Nat.add_assoc]
  · rw [Session.entry_reserve_eq, Session.entry_reserve_eq]
    by_cases heq : k.index = g.types.size
    · have heq' : l.index = h.types.size := by
        obtain ⟨m, hk, hl⟩ := hkl
        omega
      rw [if_pos heq, if_pos heq']
      exact ⟨.nil, peers_empty, rfl, rfl⟩
    · have hne : ¬ l.index = h.types.size := by
        obtain ⟨m, hk, hl⟩ := hkl
        omega
      rw [if_neg heq, if_neg hne]
      exact hc.entries k l hkl

end Tandem
end Building
end SchemaTypes

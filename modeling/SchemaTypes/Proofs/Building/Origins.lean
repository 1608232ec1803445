import SchemaTypes.Proofs.Building.Refining
/-!
# Where properties come from

What a deed does to a property is one case analysis (`Session.Deed.fate`): most deeds keep it, and otherwise it is new,
has been written to, or has waited and is filled in.  So after a deed, every property takes over from one that was there
before, or it is new and has been drafted, or it stands for an object that is still being built
(`Session.Deed.property`).  A placeholder that waits holds no type and waits
for one definition only (`Session.Placed`), so a property never loses the type it holds (`Session.Deeds.nested`).

A definition is begun once, and what it has been completed by stays (`Session.Turn`).  So what waits goes on waiting until
its definition is built, and what is there never comes to wait.
-/
namespace SchemaTypes.Session

open Building

variable {config : Config} {traced : Prop} {allowed : Bool} {s m s' : Session} {id definition : PropertyId}
  {key : DefinitionKey} {waiting : List PropertyId} {type : TypeId} {type? : Option TypeId}

/-! ## Filling placeholders in -/

theorem property_bindOne (placeholder : PropertyId) : (bindOne allowed definition s placeholder).graph.property id =
    if id.index = placeholder.index ∧ id.index < s.graph.properties.size
    then bound (s.graph.property id) (s.graph.property definition) allowed else s.graph.property id :=
  property_modifyProperty_eq _ _ _ _

/-- What does not wait stays. -/
theorem property_foldl_bindOne_of_not_mem : ∀ {waiting : List PropertyId} {s : Session}, id ∉ waiting →
    (waiting.foldl (bindOne allowed definition) s).graph.property id = s.graph.property id
  | [], _, _ => rfl
  | first :: rest, s, h => by
    obtain ⟨hne, hrest⟩ := not_or.1 (mt List.mem_cons.2 h)
    have hindex : id.index ≠ first.index := fun heq => hne (by cases id; cases first; exact congrArg _ heq)
    rw [List.foldl_cons, property_foldl_bindOne_of_not_mem hrest, property_bindOne, if_neg fun h => hindex h.1]

/-- What waits takes over from the definition, or stays if it is not there. -/
theorem passesTo_foldl_bindOne (config : Config) : ∀ (waiting : List PropertyId) (s : Session) (id : PropertyId),
    ∃ source, (source = id ∨ source = definition) ∧ (s.graph.property source).PassesTo config
      ((waiting.foldl (bindOne allowed definition) s).graph.property id)
  | [], s, id => ⟨id, Or.inl rfl, .refl config _⟩
  | first :: rest, s, id => by
    have hfirst : ∀ other, ∃ source, (source = other ∨ source = definition) ∧
        (s.graph.property source).PassesTo config ((bindOne allowed definition s first).graph.property other) := by
      intro other
      rw [property_bindOne]
      split
      · exact ⟨definition, Or.inr rfl, passesTo_bound _ _ _⟩
      · exact ⟨other, Or.inl rfl, .refl config _⟩
    obtain ⟨middle, hmiddle, hpasses⟩ := passesTo_foldl_bindOne config rest (bindOne allowed definition s first) id
    obtain ⟨source, hsource, hpasses'⟩ := hfirst middle
    refine ⟨source, ?_, hpasses'.trans hpasses⟩
    rcases hsource with rfl | rfl
    · exact hmiddle
    · exact Or.inr rfl

theorem property_completed_of_not_mem (h : id ∉ waiting) :
    (s.completed allowed key definition waiting).graph.property id = s.graph.property id :=
  property_foldl_bindOne_of_not_mem h

theorem passesTo_completed (config : Config) (allowed : Bool) (key : DefinitionKey) (definition : PropertyId)
    (waiting : List PropertyId) (s : Session) (id : PropertyId) :
    ∃ source, (source = id ∨ source = definition) ∧ (s.graph.property source).PassesTo config
      ((s.completed allowed key definition waiting).graph.property id) :=
  passesTo_foldl_bindOne config waiting (s.setDefinition key (.built definition)) id

/-! ## Fates -/

/-- A property that stands for an object which is being built. -/
structure StandsFor (traced : Prop) (s : Session) (key : DefinitionKey) (type : TypeId) (property : Property) :
    Prop where
  nested : property.nested = some type
  label : property.label = some (.single (s.graph.className type))
  inProgress : s.InProgress key (some type)
  recurs : traced → s.Unfinished type ∧ Recurs s.documents key

/-- What is added to the graph. -/
inductive New (config : Config) (traced : Prop) (s : Session) (property : Property) : Prop
  | drafted : s.Fits config property → New config traced s property
  | copied {key : DefinitionKey} {definition : PropertyId} (name identifier : String) (required : Bool) :
    s.definition? key = some (.built definition) →
    property = copied (s.graph.property definition) name identifier required config.settings.implicitNull →
    New config traced s property
  | lifted (source : PropertyId) (combinator : Combinator) :
    property = Building.lifted (s.graph.property source) combinator → New config traced s property
  | recurring {key : DefinitionKey} {type : TypeId} : property.Admitted config → property.isLifted = false →
    s.StandsFor traced key type property → New config traced s property

/-- What becomes of a property in a deed. -/
inductive Fate (config : Config) (traced : Prop) (s : Session) (id : PropertyId) (property : Property) : Prop
  | kept : property = s.graph.property id → Fate config traced s id property
  | added : ¬ s.graph.HasProperty id → New config traced s property → Fate config traced s id property
  | relaxed : (s.graph.property id).required = true → property = (s.graph.property id).relax →
    Fate config traced s id property
  | captioned (text : String) : property = { s.graph.property id with description := some text } →
    Fate config traced s id property
  | filled {key : DefinitionKey} {type : Option TypeId} {waiting : List PropertyId} {definition : PropertyId} :
    s.definition? key = some (.inProgress type waiting) → id ∈ waiting → (traced → s.Own definition) →
    property = (s.completed config.settings.implicitNull key definition waiting).graph.property id →
    Fate config traced s id property

/-- **A deed leaves a property alone, adds it, writes to it or fills it in.** -/
theorem Deed.fate (h : Deed config traced s s') (id : PropertyId) :
    Fate config traced s id (s'.graph.property id) := by
  have hadd : ∀ property, New config traced s property →
      Fate config traced s id ((s.graph.addProperty property).2.property id) := by
    intro property hproperty
    rw [property_addProperty_eq]
    split
    · rename_i heq
      exact .added (fun hlt => Nat.ne_of_lt hlt heq) hproperty
    · exact .kept rfl
  have hamend : ∀ (other : PropertyId) (f : Property → Property),
      (id = other → Fate config traced s id (f (s.graph.property id))) →
        Fate config traced s id ((s.graph.modifyProperty other f).property id) := by
    intro other f hf
    rw [property_modifyProperty_eq]
    split
    · rename_i h
      exact hf (by cases id; cases other; exact congrArg _ h.1)
    · exact .kept rfl
  cases h with
  | notify | reserve | describe | enlist | demand | begin => exact .kept rfl
  | finish _ hrun =>
    obtain ⟨_, _, _, _, hgraph⟩ := runs_finish hrun
    rw [hgraph]
    exact .kept rfl
  | draft hfits => exact hadd _ (.drafted hfits)
  | copy name identifier required hbuilt => exact hadd _ (.copied name identifier required hbuilt rfl)
  | lift source combinator => exact hadd _ (.lifted source combinator rfl)
  | recur hpending hrecurs hrun =>
    obtain ⟨_, hadmitted, hnested, hlabel, hown⟩ := runs_instanceProperty hrun
    exact hadd _ (.recurring hadmitted hown ⟨hnested, hlabel, ⟨_, hpending⟩, hrecurs⟩)
  | relax other hrequired => exact hamend other _ fun heq => .relaxed (heq ▸ hrequired) rfl
  | caption other text => exact hamend other _ fun _ => .captioned text rfl
  | wait _ _ hflat => exact hadd _ (.drafted (fits_of_flat hflat))
  | @complete key _ waiting _ _ hpending _ _ _ hown =>
    by_cases hmem : id ∈ waiting
    · exact .filled hpending hmem hown rfl
    · exact .kept (property_completed_of_not_mem hmem)

/-! ## Origins -/

/-- Where a property comes from that is there after a deed. -/
inductive Origin (config : Config) (traced : Prop) (s : Session) (property : Property) : Prop
  | taken (source : PropertyId) : (s.graph.property source).PassesTo config property →
    Origin config traced s property
  | drafted : s.Fits config property → Origin config traced s property
  | recurring {key : DefinitionKey} {type : TypeId} : property.Admitted config →
    s.StandsFor traced key type property → Origin config traced s property

/-- **A deed leaves every property with an origin.** -/
theorem Deed.property (h : Deed config traced s s') (id : PropertyId) :
    Origin config traced s (s'.graph.property id) := by
  cases h.fate id with
  | kept hsame => exact hsame ▸ .taken id (.refl config _)
  | added _ hnew =>
    cases hnew with
    | drafted hfits => exact .drafted hfits
    | @copied _ definition _ _ _ _ hcopied => exact .taken definition (hcopied ▸ passesTo_copied _ _ _ _ _)
    | lifted source _ hlifted => exact .taken source (hlifted ▸ passesTo_lifted _ _)
    | recurring hadmitted _ hstands => exact .recurring hadmitted hstands
  | relaxed _ hrelaxed => exact .taken id (hrelaxed ▸ Property.passesTo_relax _)
  | captioned text hcaptioned => exact .taken id (hcaptioned ▸ ⟨rfl, rfl, fun h => h⟩)
  | @filled key _ waiting definition _ _ _ hfilled =>
    obtain ⟨source, _, hpasses⟩ := passesTo_completed config config.settings.implicitNull key definition waiting s id
    exact .taken source (hfilled ▸ hpasses)

/-- The filters that properties run are filters of the configuration. -/
theorem Deed.admitted (h : Deed config traced s s') (hs : ∀ id, (s.graph.property id).Admitted config)
    (id : PropertyId) : (s'.graph.property id).Admitted config := by
  cases h.property id with
  | taken source hpasses => exact hpasses.admitted (hs source)
  | drafted hfits => exact hfits.admitted
  | recurring hadmitted => exact hadmitted

/-! ## What waits -/

/-- What waits for a definition is there, holds no type, and waits for no other definition. -/
structure Placed (s : Session) : Prop where
  there : ∀ key id, s.Waits key id → s.graph.HasProperty id
  free : ∀ key id, s.Waits key id → (s.graph.property id).nested = none
  apart : ∀ key other id, s.Waits key id → s.Waits other id → key = other

/-- What waits may become less, and the types that properties hold may stay. -/
theorem Placed.shrink (h : s.Placed) (hwaits : ∀ key id, s'.Waits key id → s.Waits key id)
    (hsize : s.graph.properties.size ≤ s'.graph.properties.size)
    (hnested : ∀ key id, s'.Waits key id → (s'.graph.property id).nested = (s.graph.property id).nested) :
    s'.Placed where
  there key id hid := Nat.lt_of_lt_of_le (h.there key id (hwaits key id hid)) hsize
  free key id hid := (hnested key id hid).trans (h.free key id (hwaits key id hid))
  apart key other id hid hid' := h.apart key other id (hwaits key id hid) (hwaits other id hid')

/-- What is added does not wait yet. -/
theorem Placed.add (h : s.Placed) (property : Property) :
    (s.withGraph (s.graph.addProperty property).2).Placed := by
  refine h.shrink (fun _ _ hid => hid) (size_le_addProperty _ _) fun key id hid => ?_
  change ((s.graph.addProperty property).2.property id).nested = _
  rw [property_addProperty_eq, if_neg (Nat.ne_of_lt (h.there key id hid))]

theorem Placed.amend (h : s.Placed) (id : PropertyId) {f : Property → Property}
    (hf : ∀ property, (f property).nested = property.nested) :
    (s.withGraph (s.graph.modifyProperty id f)).Placed := by
  refine h.shrink (fun _ _ hid => hid) (Nat.le_of_eq (size_modifyProperty _ _ _).symm) fun key other hid => ?_
  change ((s.graph.modifyProperty id f).property other).nested = _
  rw [property_modifyProperty_eq]
  split
  · exact hf _
  · rfl

/-- Of a definition that is set anew, nothing waits that did not wait before. -/
theorem Placed.setDefinition (h : s.Placed) (key : DefinitionKey) {definition : Definition}
    (hwaits : ∀ type waiting, definition = .inProgress type waiting → waiting = []) :
    (s.setDefinition key definition).Placed := by
  refine h.shrink (fun other id hid => ?_) (Nat.le_refl _) fun _ _ _ => rfl
  obtain ⟨type, waiting, hpending, hmem⟩ := hid
  rw [definition?_setDefinition] at hpending
  split at hpending
  · rw [hwaits type waiting (Option.some.inj hpending)] at hmem
    cases hmem
  · exact ⟨type, waiting, hpending, hmem⟩

theorem Placed.await (h : s.Placed) (hpending : s.definition? key = some (.inProgress none waiting))
    {property : Property} (hnested : property.nested = none) : (s.awaiting key waiting property).Placed := by
  have hwaits := waits_awaiting property hpending
  have hold : ∀ other id, s.Waits other id → id.index ≠ s.graph.properties.size := fun other id hid =>
    Nat.ne_of_lt (h.there other id hid)
  refine ⟨fun other id hid => ?_, fun other id hid => ?_, fun a b id ha hb => ?_⟩
  · rcases (hwaits other id).1 hid with hid | ⟨_, rfl⟩
    · exact Nat.lt_of_lt_of_le (h.there other id hid) (size_le_addProperty _ _)
    · simp [awaiting, Graph.HasProperty, Graph.addProperty, Session.setDefinition, withGraph]
  · rw [property_awaiting]
    rcases (hwaits other id).1 hid with hid | ⟨_, rfl⟩
    · rw [if_neg (hold other id hid)]
      exact h.free other id hid
    · rw [if_pos rfl]
      exact hnested
  · rcases (hwaits a id).1 ha with ha | ⟨hakey, haid⟩ <;> rcases (hwaits b id).1 hb with hb | ⟨hbkey, hbid⟩
    · exact h.apart a b id ha hb
    · exact absurd (congrArg PropertyId.index hbid) (hold a id ha)
    · exact absurd (congrArg PropertyId.index haid) (hold b id hb)
    · rw [hakey, hbkey]

/-- What is filled in waits for nothing else. -/
theorem Placed.complete (h : s.Placed) (hpending : s.definition? key = some (.inProgress type? waiting)) :
    (s.completed allowed key definition waiting).Placed := by
  refine h.shrink (fun other id hid => ((waits_completed other id).1 hid).2)
    (Nat.le_of_eq (size_completed (s := s) key definition waiting).symm) fun other id hid => ?_
  obtain ⟨hne, hid⟩ := (waits_completed other id).1 hid
  rw [property_completed_of_not_mem fun hmem => hne (h.apart other key id hid ⟨_, _, hpending, hmem⟩)]

theorem Deed.placed (h : Deed config traced s s') (hs : s.Placed) : s'.Placed := by
  have hsame : ∀ {s' : Session}, s'.definitions = s.definitions → s'.graph.properties = s.graph.properties →
      s'.Placed := by
    intro s' hdefinitions hproperties
    refine hs.shrink (fun key id hid => ?_) (Nat.le_of_eq (congrArg Array.size hproperties).symm) fun _ id _ => ?_
    · unfold Waits Session.definition? at hid ⊢
      exact hdefinitions ▸ hid
    · unfold Graph.property
      rw [hproperties]
  cases h with
  | notify | reserve | describe | enlist | demand => exact hsame rfl rfl
  | finish _ hrun =>
    obtain ⟨_, _, _, hdefinitions, hgraph⟩ := runs_finish hrun
    exact hsame hdefinitions (hgraph ▸ rfl)
  | draft => exact hs.add _
  | copy => exact hs.add _
  | lift => exact hs.add _
  | recur => exact hs.add _
  | relax other => exact hs.amend other fun _ => rfl
  | caption other => exact hs.amend other fun _ => rfl
  | begin => exact hs.setDefinition _ fun _ _ heq => by cases heq; rfl
  | wait hpending _ hflat => exact hs.await hpending hflat.nested
  | complete hpending => exact hs.complete hpending

/-- **A property keeps the type it holds.** -/
theorem Deed.nested (h : Deed config traced s s') (hs : s.Placed) (hid : (s.graph.property id).nested = some type) :
    (s'.graph.property id).nested = some type := by
  have hlt : s.graph.HasProperty id := by
    by_contra hge
    rw [property_of_le (Nat.le_of_not_lt hge)] at hid
    cases hid
  cases h.fate id with
  | kept hsame => exact hsame.symm ▸ hid
  | added hnew => exact absurd hlt hnew
  | relaxed _ hrelaxed => exact hrelaxed.symm ▸ hid
  | captioned text hcaptioned => exact hcaptioned.symm ▸ hid
  | filled hpending hmem => exact nomatch hid.symm.trans (hs.free _ id ⟨_, _, hpending, hmem⟩)

theorem Deeds.placed (h : Deeds config traced s s') (hs : s.Placed) : s'.Placed :=
  h.keeps (P := Placed) (fun _ _ hdeed hm => hdeed.placed hm) hs

theorem Deeds.nested (h : Deeds config traced s s') (hs : s.Placed) (hid : (s.graph.property id).nested = some type) :
    (s'.graph.property id).nested = some type :=
  (h.keeps (P := fun m => m.Placed ∧ (m.graph.property id).nested = some type)
    (fun _ _ hdeed hm => ⟨hdeed.placed hm.1, hdeed.nested hm.1 hm.2⟩) ⟨hs, hid⟩).2

/-! ## Definitions -/

/-- What a deed does to a definition. -/
inductive Turn (config : Config) (s s' : Session) (key : DefinitionKey) : Prop
  | same : s'.definition? key = s.definition? key → Turn config s s' key
  | begun {type : Option TypeId} {node : Json} : s.definition? key = none →
    Building.nodeAt? s.documents key = some node → type.isSome = Keyword.isObject node →
    s'.definition? key = some (.inProgress type []) → Turn config s s' key
  | awaited {waiting waiting' : List PropertyId} : s.definition? key = some (.inProgress none waiting) →
    s'.definition? key = some (.inProgress none waiting') → Turn config s s' key
  | completed {type : Option TypeId} {waiting : List PropertyId} {definition : PropertyId} {node : Json} :
    s.definition? key = some (.inProgress type waiting) → Building.nodeAt? s.documents key = some node →
    Building.Made config node type definition s → (∀ known, type = some known → s.Embodies definition known) →
    s'.definition? key = some (.built definition) → Turn config s s' key

/-- **A definition is begun, waited for and completed, in this order**, and otherwise left alone. -/
theorem Deed.turn (h : Deed config traced s s') (key : DefinitionKey) : Turn config s s' key := by
  cases h with
  | finish _ hrun =>
    obtain ⟨_, _, _, hdefinitions, _⟩ := runs_finish hrun
    refine .same ?_
    unfold Session.definition?
    rw [hdefinitions]
  | @begin other type node hnone hnode htype _ =>
    have hset := definition?_setDefinition s other key (.inProgress type [])
    split at hset
    · rename_i heq
      subst heq
      exact .begun hnone hnode htype hset
    · exact .same hset
  | @wait other waiting property hpending _ _ =>
    have hset := definition?_awaiting (s := s) other key waiting property
    split at hset
    · rename_i heq
      subst heq
      exact .awaited hpending hset
    · exact .same hset
  | @complete other type waiting definition node hpending hnode hmade hembodies =>
    have hset : (s.completed config.settings.implicitNull other definition waiting).definition? key =
        if key = other then some (.built definition) else s.definition? key :=
      definition?_completed other key definition waiting s
    split at hset
    · rename_i heq
      subst heq
      exact .completed hpending hnode hmade hembodies hset
    · exact .same hset
  | _ => exact .same rfl

theorem Deed.built_on (h : Deed config traced s s') (hbuilt : s.definition? key = some (.built definition)) :
    s'.definition? key = some (.built definition) := by
  cases h.turn key with
  | same hsame => exact hsame.trans hbuilt
  | begun hnone => exact absurd (hnone.symm.trans hbuilt) nofun
  | awaited hpending => exact absurd (hpending.symm.trans hbuilt) nofun
  | completed hpending => exact absurd (hpending.symm.trans hbuilt) nofun

/-- What comes to wait has just been made for a reference to the definition. -/
theorem Deed.waits_made (h : Deed config traced s s') (hwaits : s'.Waits key id) : s.Waits key id ∨
    ∃ waiting property, s.definition? key = some (.inProgress none waiting) ∧
      Building.Holds config s key waiting property ∧ id = ⟨s.graph.properties.size⟩ ∧
      s' = s.awaiting key waiting property := by
  cases h with
  | finish _ hrun =>
    obtain ⟨_, _, _, hdefinitions, _⟩ := runs_finish hrun
    unfold Waits definition? at hwaits ⊢
    rw [hdefinitions] at hwaits
    exact Or.inl hwaits
  | begin hnone => exact Or.inl ((waits_setDefinition_begin hnone _ key id).1 hwaits)
  | wait hpending _ _ hholds =>
    refine ((waits_awaiting _ hpending key id).1 hwaits).imp_right ?_
    rintro ⟨rfl, rfl⟩
    exact ⟨_, _, hpending, hholds, rfl, rfl⟩
  | complete => exact Or.inl ((waits_completed key id).1 hwaits).2
  | _ => exact Or.inl hwaits

/-- What is there does not come to wait. -/
theorem Deed.waits_there (h : Deed config traced s s') (hid : s.graph.HasProperty id) (hwaits : s'.Waits key id) :
    s.Waits key id := by
  refine (h.waits_made hwaits).resolve_right ?_
  rintro ⟨_, _, _, _, rfl, _⟩
  exact Nat.lt_irrefl _ hid

/-- What waits goes on waiting until the definition is built. -/
theorem Deed.waits_on (h : Deed config traced s s') (hwaits : s.Waits key id) :
    s'.Waits key id ∨ ∃ definition, s'.definition? key = some (.built definition) := by
  cases h with
  | finish _ hrun =>
    obtain ⟨_, _, _, hdefinitions, _⟩ := runs_finish hrun
    unfold Waits definition? at hwaits ⊢
    rw [hdefinitions]
    exact Or.inl hwaits
  | begin hnone => exact Or.inl ((waits_setDefinition_begin hnone _ key id).2 hwaits)
  | wait hpending => exact Or.inl ((waits_awaiting _ hpending key id).2 (Or.inl hwaits))
  | @complete done _ waiting definition _ hpending =>
    by_cases heq : key = done
    · refine Or.inr ⟨definition, ?_⟩
      rw [definition?_completed, if_pos heq]
    · exact Or.inl ((waits_completed key id).2 ⟨heq, hwaits⟩)
  | _ => exact Or.inl hwaits

theorem Deeds.waits_on (h : Deeds config traced s s') (hwaits : s.Waits key id) :
    s'.Waits key id ∨ ∃ definition, s'.definition? key = some (.built definition) := by
  refine h.keeps (P := fun m => m.Waits key id ∨ ∃ definition, m.definition? key = some (.built definition))
    (fun _ _ hdeed hm => ?_) (Or.inl hwaits)
  rcases hm with hm | ⟨definition, hbuilt⟩
  · exact hdeed.waits_on hm
  · exact Or.inr ⟨definition, hdeed.built_on hbuilt⟩

/-- What is there does not come to wait in the course of deeds. -/
theorem Deeds.waits_there (h : Deeds config traced s s') (hid : s.graph.HasProperty id) (hwaits : s'.Waits key id) :
    s.Waits key id := by
  refine (h.keeps (P := fun m => m.graph.HasProperty id ∧ (m.Waits key id → s.Waits key id)) (fun _ _ hdeed hm => ?_)
    ⟨hid, fun h => h⟩).2 hwaits
  exact ⟨hm.1.grows hdeed.precedes.recalls.grows, fun hwaits => hm.2 (hdeed.waits_there hm.1 hwaits)⟩

end SchemaTypes.Session

import SchemaTypes.Proofs.Building.Steps
/-!
# Placeholders

A property that defers waits for exactly one definition, and definitions that are built defer no more
(`Session.Sound`).  Tidy steps keep this, and they keep what it is for: a property that waits either waits still
or has what its definition demands (`Steps.enforces`).  So once no definition is in progress, nothing defers.
-/
namespace SchemaTypes
namespace Session

/-- Everything that defers waits, for one definition; what is built waits for nothing. -/
structure Sound (session : Session) : Prop where
  waits : ∀ id, (session.graph.property id).defers = true → ∃ key, session.Waits key id
  defers : ∀ key id, session.Waits key id → (session.graph.property id).defers = true
  apart : ∀ key other id, session.Waits key id → session.Waits other id → key = other
  built : ∀ key definition, session.definition? key = some (.built definition) → session.Settled definition

/-- The definition is built, and the property demands what it demands. -/
def Enforces (session : Session) (key : DefinitionKey) (id : PropertyId) : Prop :=
  ∃ definition, session.definition? key = some (.built definition) ∧ session.Settled id ∧
    (session.graph.property id).demands = (session.graph.property definition).demands

variable {tidy : Prop} {allowed : Bool} {floor : Nat} {s s' : Session}

/-! ## Lookups after a step -/

theorem property_of_le {graph : Graph} {id : PropertyId} (h : graph.properties.size ≤ id.index) :
    graph.property id = default := by
  unfold Graph.property
  rw [Array.getD_eq_getD_getElem?, Array.getElem?_eq_none h]
  rfl

theorem lt_of_defers {graph : Graph} {id : PropertyId} (h : (graph.property id).defers = true) :
    id.index < graph.properties.size := by
  rcases Nat.lt_or_ge id.index graph.properties.size with hlt | hge
  · exact hlt
  · rw [property_of_le hge] at h
    cases h

theorem property_addProperty_eq (graph : Graph) (property : Property) (id : PropertyId) :
    (graph.addProperty property).2.property id =
      if id.index = graph.properties.size then property else graph.property id := by
  simp only [Graph.addProperty, Graph.property, Array.getD_eq_getD_getElem?, Array.getElem?_push]
  split
  · rfl
  · rfl

theorem property_modifyProperty_eq (graph : Graph) (id other : PropertyId) (f : Property → Property) :
    (graph.modifyProperty id f).property other =
      if other.index = id.index ∧ other.index < graph.properties.size then f (graph.property other)
      else graph.property other := by
  simp only [Graph.modifyProperty, Graph.property, Array.getD_eq_getD_getElem?, Array.getElem?_modify]
  split
  · rename_i heq
    by_cases hlt : other.index < graph.properties.size
    · rw [if_pos ⟨heq.symm, hlt⟩, Array.getElem?_eq_getElem hlt]
      rfl
    · rw [if_neg fun h => hlt h.2, Array.getElem?_eq_none (Nat.le_of_not_lt hlt)]
      rfl
  · rename_i hne
    rw [if_neg fun h => hne h.1.symm]

/-- What binding leaves of each property. -/
theorem property_foldl_bindOne (definition : PropertyId) : ∀ (waiting : List PropertyId) (session : Session),
    session.Settled definition → ∀ id : PropertyId,
      (id ∉ waiting → ((waiting.foldl (bindOne allowed definition) session).graph.property id).demands =
          (session.graph.property id).demands ∧
        ((waiting.foldl (bindOne allowed definition) session).graph.property id).defers =
          (session.graph.property id).defers) ∧
      (id ∈ waiting → id.index < session.graph.properties.size →
        ((waiting.foldl (bindOne allowed definition) session).graph.property id).demands =
          (session.graph.property definition).demands ∧
        ((waiting.foldl (bindOne allowed definition) session).graph.property id).defers = false)
  | [], _, _, _ => ⟨fun _ => ⟨rfl, rfl⟩, fun h => absurd h List.not_mem_nil⟩
  | first :: rest, session, hsettled, id => by
    have hone : ∀ other : PropertyId, (bindOne allowed definition session first).graph.property other =
        if other.index = first.index ∧ other.index < session.graph.properties.size
        then Building.bound (session.graph.property other) (session.graph.property definition) allowed
        else session.graph.property other := fun other => property_modifyProperty_eq _ _ _ _
    have hsize : (bindOne allowed definition session first).graph.properties.size =
        session.graph.properties.size := size_modifyProperty _ _ _
    have hsame : ((bindOne allowed definition session first).graph.property definition).demands =
          (session.graph.property definition).demands ∧
        ((bindOne allowed definition session first).graph.property definition).defers = false := by
      rw [hone]
      split
      · exact ⟨Building.demands_bound _ _ _, (Building.defers_bound _ _ _).trans hsettled.defers⟩
      · exact ⟨rfl, hsettled.defers⟩
    have ih := property_foldl_bindOne definition rest (bindOne allowed definition session first)
      ⟨hsize ▸ hsettled.lt, hsame.2⟩ id
    rw [List.foldl_cons]
    constructor
    · intro hnot
      rw [List.mem_cons, not_or] at hnot
      obtain ⟨hdemands, hdefers⟩ := ih.1 hnot.2
      have hne : id.index ≠ first.index := fun heq => hnot.1 (by cases id; cases first; exact congrArg _ heq)
      rw [hdemands, hdefers, hone, if_neg fun h => hne h.1]
      exact ⟨rfl, rfl⟩
    · intro hmem hlt
      by_cases hrest : id ∈ rest
      · obtain ⟨hdemands, hdefers⟩ := ih.2 hrest (hsize ▸ hlt)
        exact ⟨hdemands.trans hsame.1, hdefers⟩
      · obtain rfl : id = first := (List.mem_cons.1 hmem).resolve_right hrest
        obtain ⟨hdemands, hdefers⟩ := ih.1 hrest
        rw [hdemands, hdefers, hone, if_pos ⟨rfl, hlt⟩]
        exact ⟨Building.demands_bound _ _ _, (Building.defers_bound _ _ _).trans hsettled.defers⟩

/-! ## Sound sessions stay sound -/

theorem Waits.inProgress {key : DefinitionKey} {id : PropertyId} (h : s.Waits key id) :
    ∃ type, s.InProgress key type := by
  obtain ⟨type, waiting, hdefinition, _⟩ := h
  exact ⟨type, waiting, hdefinition⟩

theorem Sound.lt_of_waits (h : s.Sound) {key : DefinitionKey} {id : PropertyId} (hid : s.Waits key id) :
    id.index < s.graph.properties.size := lt_of_defers (h.defers key id hid)

/-- Soundness is about what each property defers to and about the definitions. -/
theorem Sound.congr (h : s.Sound) (hdefinitions : ∀ key, s'.definition? key = s.definition? key)
    (hsize : s.graph.properties.size ≤ s'.graph.properties.size)
    (hdefers : ∀ id, (s'.graph.property id).defers = (s.graph.property id).defers) : s'.Sound := by
  have hwaits : ∀ key id, s'.Waits key id ↔ s.Waits key id := by
    intro key id
    unfold Waits
    rw [hdefinitions]
  refine ⟨fun id hid => ?_, fun key id hid => ?_, fun key other id hkey hother => ?_, fun key definition hbuilt => ?_⟩
  · rw [hdefers] at hid
    obtain ⟨key, hkey⟩ := h.waits id hid
    exact ⟨key, (hwaits key id).2 hkey⟩
  · rw [hdefers]
    exact h.defers key id ((hwaits key id).1 hid)
  · exact h.apart key other id ((hwaits key id).1 hkey) ((hwaits other id).1 hother)
  · rw [hdefinitions] at hbuilt
    have hsettled := h.built key definition hbuilt
    exact ⟨Nat.lt_of_lt_of_le hsettled.lt hsize, (hdefers definition).trans hsettled.defers⟩

theorem size_le_addProperty (graph : Graph) (property : Property) :
    graph.properties.size ≤ (graph.addProperty property).2.properties.size := by
  simp [Graph.addProperty]

theorem Sound.add (h : s.Sound) {property : Property} (hclean : property.defers = false) :
    (s.withGraph (s.graph.addProperty property).2).Sound := by
  refine h.congr (fun _ => rfl) (size_le_addProperty _ _) fun id => ?_
  change ((s.graph.addProperty property).2.property id).defers = _
  rw [property_addProperty_eq]
  split
  · rename_i heq
    rw [property_of_le (Nat.le_of_eq heq.symm), hclean]
    rfl
  · rfl

theorem Sound.amend (h : s.Sound) {id : PropertyId} {f : Property → Property}
    (hf : ∀ property, (f property).defers = property.defers) :
    (s.withGraph (s.graph.modifyProperty id f)).Sound := by
  refine h.congr (fun _ => rfl) (Nat.le_of_eq (size_modifyProperty _ _ _).symm) fun other => ?_
  change ((s.graph.modifyProperty id f).property other).defers = _
  rw [property_modifyProperty_eq]
  split
  · exact hf _
  · rfl

theorem waits_setDefinition_begin {key : DefinitionKey} (hnone : s.definition? key = none)
    (type : Option TypeId) (other : DefinitionKey) (id : PropertyId) :
    (s.setDefinition key (.inProgress type [])).Waits other id ↔ s.Waits other id := by
  unfold Waits
  rw [definition?_setDefinition]
  split
  · rename_i heq
    subst heq
    rw [hnone]
    constructor
    · rintro ⟨_, _, hdefinition, hmem⟩
      cases hdefinition
      exact absurd hmem List.not_mem_nil
    · rintro ⟨_, _, hdefinition, _⟩
      cases hdefinition
  · rfl

theorem Sound.begin (h : s.Sound) {key : DefinitionKey} (hnone : s.definition? key = none)
    (type : Option TypeId) : (s.setDefinition key (.inProgress type [])).Sound := by
  have hwaits := waits_setDefinition_begin hnone type
  refine ⟨fun id hid => ?_, fun other id hid => ?_, fun a b id ha hb => ?_, fun other definition hbuilt => ?_⟩
  · obtain ⟨other, hother⟩ := h.waits id hid
    exact ⟨other, (hwaits other id).2 hother⟩
  · exact h.defers other id ((hwaits other id).1 hid)
  · exact h.apart a b id ((hwaits a id).1 ha) ((hwaits b id).1 hb)
  · rw [definition?_setDefinition] at hbuilt
    split at hbuilt
    · cases hbuilt
    · have hsettled := h.built other definition hbuilt
      exact ⟨hsettled.lt, hsettled.defers⟩

theorem definition?_awaiting (key other : DefinitionKey) (waiting : List PropertyId) (property : Property) :
    (s.awaiting key waiting property).definition? other =
      if other = key then some (.inProgress none (waiting ++ [⟨s.graph.properties.size⟩])) else s.definition? other :=
  definition?_setDefinition _ key other _

theorem waits_awaiting {key : DefinitionKey} {waiting : List PropertyId} (property : Property)
    (hpending : s.definition? key = some (.inProgress none waiting)) (other : DefinitionKey) (id : PropertyId) :
    (s.awaiting key waiting property).Waits other id ↔
      s.Waits other id ∨ (other = key ∧ id = ⟨s.graph.properties.size⟩) := by
  unfold Waits
  rw [definition?_awaiting]
  split
  · rename_i heq
    subst heq
    rw [hpending]
    constructor
    · rintro ⟨type, others, hdefinition, hmem⟩
      cases hdefinition
      rcases List.mem_append.1 hmem with hmem | hmem
      · exact Or.inl ⟨none, waiting, rfl, hmem⟩
      · exact Or.inr ⟨rfl, List.mem_singleton.1 hmem⟩
    · rintro (⟨type, others, hdefinition, hmem⟩ | ⟨_, rfl⟩)
      · cases hdefinition
        exact ⟨none, _, rfl, List.mem_append_left _ hmem⟩
      · exact ⟨none, _, rfl, List.mem_append_right _ List.mem_cons_self⟩
  · rename_i hne
    constructor
    · exact Or.inl
    · rintro (h | ⟨heq, _⟩)
      · exact h
      · exact absurd heq hne

theorem property_awaiting (key : DefinitionKey) (waiting : List PropertyId) (property : Property)
    (id : PropertyId) : (s.awaiting key waiting property).graph.property id =
      if id.index = s.graph.properties.size then property else s.graph.property id :=
  property_addProperty_eq s.graph property id

theorem Sound.wait (h : s.Sound) {key : DefinitionKey} {waiting : List PropertyId} {property : Property}
    (hpending : s.definition? key = some (.inProgress none waiting)) (hdefers : property.defers = true) :
    (s.awaiting key waiting property).Sound := by
  have hwaits := waits_awaiting property hpending
  have hold : ∀ other id, s.Waits other id → id.index ≠ s.graph.properties.size := fun other id hid =>
    Nat.ne_of_lt (h.lt_of_waits hid)
  refine ⟨fun id hid => ?_, fun other id hid => ?_, fun a b id ha hb => ?_, fun other definition hbuilt => ?_⟩
  · rw [property_awaiting] at hid
    split at hid
    · rename_i heq
      exact ⟨key, (hwaits key id).2 (Or.inr ⟨rfl, by cases id; exact congrArg _ heq⟩)⟩
    · obtain ⟨other, hother⟩ := h.waits id hid
      exact ⟨other, (hwaits other id).2 (Or.inl hother)⟩
  · rw [property_awaiting]
    rcases (hwaits other id).1 hid with hid | ⟨_, rfl⟩
    · rw [if_neg (hold other id hid)]
      exact h.defers other id hid
    · rw [if_pos rfl]
      exact hdefers
  · rcases (hwaits a id).1 ha with ha | ⟨hakey, haid⟩ <;> rcases (hwaits b id).1 hb with hb | ⟨hbkey, hbid⟩
    · exact h.apart a b id ha hb
    · exact absurd (congrArg PropertyId.index hbid) (hold a id ha)
    · exact absurd (congrArg PropertyId.index haid) (hold b id hb)
    · rw [hakey, hbkey]
  · rw [definition?_awaiting] at hbuilt
    split at hbuilt
    · cases hbuilt
    · have hsettled := h.built other definition hbuilt
      refine ⟨Nat.lt_of_lt_of_le hsettled.lt (size_le_addProperty _ _), ?_⟩
      rw [property_awaiting, if_neg (Nat.ne_of_lt hsettled.lt)]
      exact hsettled.defers

/-- What waits after a definition is complete waits for another one. -/
theorem waits_completed {key : DefinitionKey} {definition : PropertyId} {waiting : List PropertyId}
    (other : DefinitionKey) (id : PropertyId) :
    (s.completed allowed key definition waiting).Waits other id ↔ other ≠ key ∧ s.Waits other id := by
  unfold Waits
  rw [definition?_completed]
  split
  · rename_i heq
    constructor
    · rintro ⟨_, _, hdefinition, _⟩
      cases hdefinition
    · exact fun h => absurd heq h.1
  · rename_i hne
    exact ⟨fun h => ⟨hne, h⟩, fun h => h.2⟩

/-- Each property after a definition is complete: the ones that waited demand what it demands. -/
theorem property_completed (allowed : Bool) (key : DefinitionKey) {definition : PropertyId} (waiting : List PropertyId)
    (hsettled : s.Settled definition) (id : PropertyId) :
    (id ∉ waiting → ((s.completed allowed key definition waiting).graph.property id).demands =
        (s.graph.property id).demands ∧
      ((s.completed allowed key definition waiting).graph.property id).defers = (s.graph.property id).defers) ∧
    (id ∈ waiting → id.index < s.graph.properties.size →
      ((s.completed allowed key definition waiting).graph.property id).demands =
        (s.graph.property definition).demands ∧
      ((s.completed allowed key definition waiting).graph.property id).defers = false) :=
  property_foldl_bindOne definition waiting (s.setDefinition key (.built definition))
    ⟨hsettled.lt, hsettled.defers⟩ id

theorem size_completed (key : DefinitionKey) (definition : PropertyId) (waiting : List PropertyId) :
    (s.completed allowed key definition waiting).graph.properties.size = s.graph.properties.size :=
  size_foldl_bindOne definition waiting _

theorem Sound.complete (h : s.Sound) {key : DefinitionKey} {type : Option TypeId} {waiting : List PropertyId}
    {definition : PropertyId} (hpending : s.definition? key = some (.inProgress type waiting))
    (hsettled : s.Settled definition) : (s.completed allowed key definition waiting).Sound := by
  have hproperty := property_completed allowed key waiting hsettled
  have hkeeps : ∀ id, (s.graph.property id).defers = false →
      ((s.completed allowed key definition waiting).graph.property id).defers = false := by
    intro id hid
    have hnot : id ∉ waiting := fun hmem => by
      rw [h.defers key id ⟨type, waiting, hpending, hmem⟩] at hid
      cases hid
    exact ((hproperty id).1 hnot).2.trans hid
  refine ⟨fun id hid => ?_, fun other id hid => ?_, fun a b id ha hb => ?_, fun other built hbuilt => ?_⟩
  · by_cases hmem : id ∈ waiting
    · have hlt := h.lt_of_waits ⟨type, waiting, hpending, hmem⟩
      rw [((hproperty id).2 hmem hlt).2] at hid
      cases hid
    · rw [((hproperty id).1 hmem).2] at hid
      obtain ⟨other, hother⟩ := h.waits id hid
      refine ⟨other, (waits_completed other id).2 ⟨?_, hother⟩⟩
      rintro rfl
      obtain ⟨_, _, hdefinition, hmem'⟩ := hother
      rw [hpending] at hdefinition
      cases hdefinition
      exact hmem hmem'
  · obtain ⟨hne, hwaits⟩ := (waits_completed other id).1 hid
    have hnot : id ∉ waiting := fun hmem => hne (h.apart other key id hwaits ⟨type, waiting, hpending, hmem⟩)
    exact ((hproperty id).1 hnot).2.trans (h.defers other id hwaits)
  · exact h.apart a b id ((waits_completed a id).1 ha).2 ((waits_completed b id).1 hb).2
  · rw [definition?_completed] at hbuilt
    split at hbuilt
    · cases hbuilt
      exact ⟨size_completed (s := s) key _ waiting ▸ hsettled.lt, hkeeps _ hsettled.defers⟩
    · have hold := h.built other built hbuilt
      exact ⟨size_completed (s := s) key _ waiting ▸ hold.lt, hkeeps _ hold.defers⟩

/-- **Tidy steps keep sessions sound.** -/
theorem Step.sound (htidy : tidy) (h : Step tidy allowed floor s s') (hs : s.Sound) : s'.Sound := by
  cases h with
  | notify => exact hs.congr (fun _ => rfl) (Nat.le_refl _) fun _ => rfl
  | reserve => exact hs.congr (fun _ => rfl) (Nat.le_refl _) fun _ => rfl
  | change => exact hs.congr (fun _ => rfl) (Nat.le_refl _) fun _ => rfl
  | finish _ _ _ hrun =>
    obtain ⟨_, _, _, hdefinitions, hgraph⟩ := runs_finish hrun
    refine hs.congr (fun key => ?_) ?_ fun id => ?_
    · unfold definition?
      rw [hdefinitions]
    · rw [hgraph]
      exact Nat.le_refl _
    · rw [hgraph]
      rfl
  | add hclean => exact hs.add hclean
  | copy name identifier required hbuilt =>
    exact hs.add ((Building.defers_copied _ _ _ _ _).trans (hs.built _ _ hbuilt).defers)
  | amend hf => exact hs.amend fun property => (hf property).1
  | begin type hnone => exact hs.begin hnone type
  | wait hpending hdefers => exact hs.wait hpending hdefers
  | complete hpending hcompletes => exact hs.complete hpending (hcompletes htidy).settled

theorem Steps.sound (htidy : tidy) (h : Steps tidy allowed floor s s') (hs : s.Sound) : s'.Sound :=
  h.keeps (P := Sound) (fun _ _ hstep hm => hstep.sound htidy hm) hs

/-! ## What waits gets what it waits for -/

/-- **A settled property stays settled**, with the same demands. -/
theorem Step.settled (htidy : tidy) (hs : s.Sound) (h : Step tidy allowed floor s s') {id : PropertyId}
    (hid : s.Settled id) :
    s'.Settled id ∧ (s'.graph.property id).demands = (s.graph.property id).demands := by
  have hlt : id.index < s'.graph.properties.size := Nat.lt_of_lt_of_le hid.lt h.size_properties_le
  cases h with
  | finish _ _ _ hrun =>
    obtain ⟨_, _, _, _, hgraph⟩ := runs_finish hrun
    have hproperty : s'.graph.property id = s.graph.property id := by
      rw [hgraph]
      rfl
    exact ⟨⟨hlt, hproperty ▸ hid.defers⟩, congrArg Property.demands hproperty⟩
  | @add property =>
    have hproperty := Graph.property_addProperty_of_lt s.graph property hid.lt
    exact ⟨⟨hlt, (congrArg Property.defers hproperty).trans hid.defers⟩, congrArg Property.demands hproperty⟩
  | @copy _ definition name identifier required =>
    have hproperty := Graph.property_addProperty_of_lt s.graph
      (Building.copied (s.graph.property definition) name identifier required allowed) hid.lt
    exact ⟨⟨hlt, (congrArg Property.defers hproperty).trans hid.defers⟩, congrArg Property.demands hproperty⟩
  | @wait _ _ property =>
    have hproperty := Graph.property_addProperty_of_lt s.graph property hid.lt
    exact ⟨⟨hlt, (congrArg Property.defers hproperty).trans hid.defers⟩, congrArg Property.demands hproperty⟩
  | @amend changed f hf =>
    have hproperty := property_modifyProperty_eq s.graph changed id f
    by_cases heq : id.index = changed.index ∧ id.index < s.graph.properties.size
    · rw [if_pos heq] at hproperty
      exact ⟨⟨hlt, (congrArg Property.defers hproperty).trans ((hf _).1.trans hid.defers)⟩,
        (congrArg Property.demands hproperty).trans (hf _).2⟩
    · rw [if_neg heq] at hproperty
      exact ⟨⟨hlt, (congrArg Property.defers hproperty).trans hid.defers⟩, congrArg Property.demands hproperty⟩
  | @complete begun type waiting definition hpending hcompletes =>
    have hnot : id ∉ waiting := fun hmem => by
      have hdefers := hs.defers begun id ⟨type, waiting, hpending, hmem⟩
      rw [hid.defers] at hdefers
      cases hdefers
    obtain ⟨hdemands, hdefers⟩ :=
      (property_completed allowed begun waiting (hcompletes htidy).settled id).1 hnot
    exact ⟨⟨hlt, hdefers.trans hid.defers⟩, hdemands⟩
  | _ => exact ⟨⟨hlt, hid.defers⟩, rfl⟩

/-- **A built definition stays built.** -/
theorem Step.built (h : Step tidy allowed floor s s') {key : DefinitionKey} {definition : PropertyId}
    (hbuilt : s.definition? key = some (.built definition)) :
    s'.definition? key = some (.built definition) := by
  have hother : ∀ {other : DefinitionKey} {found : Option Definition},
      s.definition? other = found → found ≠ some (.built definition) → key ≠ other := by
    rintro other found hfound hne rfl
    exact hne (hfound ▸ hbuilt)
  cases h with
  | finish _ _ _ hrun =>
    obtain ⟨_, _, _, hdefinitions, _⟩ := runs_finish hrun
    unfold definition? at hbuilt ⊢
    rw [hdefinitions]
    exact hbuilt
  | begin type hnone => rw [definition?_setDefinition, if_neg (hother hnone nofun), hbuilt]
  | wait hpending => rw [definition?_awaiting, if_neg (hother hpending nofun), hbuilt]
  | complete hpending => rw [definition?_completed, if_neg (hother hpending nofun), hbuilt]
  | _ => exact hbuilt

theorem Enforces.step (htidy : tidy) (hs : s.Sound) (hstep : Step tidy allowed floor s s') {key : DefinitionKey}
    {id : PropertyId} (h : s.Enforces key id) : s'.Enforces key id := by
  obtain ⟨definition, hbuilt, hsettled, hdemands⟩ := h
  obtain ⟨hsettled', hsame⟩ := hstep.settled htidy hs hsettled
  obtain ⟨_, hsame'⟩ := hstep.settled htidy hs (hs.built key definition hbuilt)
  exact ⟨definition, hstep.built hbuilt, hsettled', by rw [hsame, hdemands, hsame']⟩

/-- One step later what waits still waits, or has what it waited for. -/
theorem Waits.step (htidy : tidy) (hs : s.Sound) (hstep : Step tidy allowed floor s s') {key : DefinitionKey}
    {id : PropertyId} (h : s.Waits key id) : s'.Waits key id ∨ s'.Enforces key id := by
  cases hstep with
  | finish _ _ _ hrun =>
    obtain ⟨_, _, _, hdefinitions, _⟩ := runs_finish hrun
    obtain ⟨type, waiting, hdefinition, hmem⟩ := h
    refine Or.inl ⟨type, waiting, ?_, hmem⟩
    unfold definition? at hdefinition ⊢
    rw [hdefinitions]
    exact hdefinition
  | begin type hnone => exact Or.inl ((waits_setDefinition_begin hnone type key id).2 h)
  | wait hpending => exact Or.inl ((waits_awaiting _ hpending key id).2 (Or.inl h))
  | @complete begun type waiting definition hpending hcompletes =>
    by_cases heq : key = begun
    · subst heq
      obtain ⟨_, _, hdefinition, hmem⟩ := h
      rw [hpending] at hdefinition
      cases hdefinition
      have hsettled := (hcompletes htidy).settled
      have hlt := hs.lt_of_waits ⟨type, waiting, hpending, hmem⟩
      have hproperty := property_completed allowed key waiting hsettled
      have hsame : ((s.completed allowed key definition waiting).graph.property definition).demands =
          (s.graph.property definition).demands := by
        by_cases hin : definition ∈ waiting
        · exact ((hproperty definition).2 hin hsettled.lt).1
        · exact ((hproperty definition).1 hin).1
      obtain ⟨hdemands, hdefers⟩ := (hproperty id).2 hmem hlt
      refine Or.inr ⟨definition, ?_, ⟨?_, hdefers⟩, hdemands.trans hsame.symm⟩
      · rw [definition?_completed, if_pos rfl]
      · rw [size_completed]
        exact hlt
    · exact Or.inl ((waits_completed key id).2 ⟨heq, h⟩)
  | _ => exact Or.inl h

/-- **What waits gets what it waits for.**  At the end of tidy steps it still waits, or its definition is built
and it demands what the definition demands. -/
theorem Steps.enforces (htidy : tidy) (hs : s.Sound) (h : Steps tidy allowed floor s s') {key : DefinitionKey}
    {id : PropertyId} (hwaits : s.Waits key id) : s'.Waits key id ∨ s'.Enforces key id := by
  have hkeeps := h.keeps (P := fun m => m.Sound ∧ (m.Waits key id ∨ m.Enforces key id))
    (fun m m' hstep hm => ⟨hstep.sound htidy hm.1, hm.2.elim (Waits.step htidy hm.1 hstep)
      fun henforces => Or.inr (henforces.step htidy hm.1 hstep)⟩) ⟨hs, Or.inl hwaits⟩
  exact hkeeps.2

/-! ## Definitions with a type -/

/-- The definition is in progress with this type, or built as its instance. -/
def Holds (session : Session) (key : DefinitionKey) (type : TypeId) : Prop :=
  session.InProgress key (some type) ∨
    ∃ definition, session.definition? key = some (.built definition) ∧ session.Represents definition type

theorem Represents.step (htidy : tidy) (hs : s.Sound) (hstep : Step tidy allowed floor s s')
    {definition : PropertyId} {type : TypeId} (hsettled : s.Settled definition)
    (h : s.Represents definition type) : s'.Represents definition type := by
  obtain ⟨hfinished, target, htarget, hdemands⟩ := h
  obtain ⟨hsignature, hredirect⟩ := hstep.finished hfinished
  refine ⟨hsignature ▸ hfinished, target, htarget.imp_right fun h => hredirect.trans h, ?_⟩
  rw [(hstep.settled htidy hs hsettled).2, hdemands]

theorem Holds.step (htidy : tidy) (hs : s.Sound) (hstep : Step tidy allowed floor s s') {key : DefinitionKey}
    {type : TypeId} (hbare : Building.BareAt s.documents key) (h : s.Holds key type) : s'.Holds key type := by
  rcases h with ⟨waiting, hpending⟩ | ⟨definition, hbuilt, hrepresents⟩
  · cases hstep with
    | finish _ _ _ hrun =>
      obtain ⟨_, _, _, hdefinitions, _⟩ := runs_finish hrun
      refine Or.inl ⟨waiting, ?_⟩
      unfold definition? at hpending ⊢
      rw [hdefinitions]
      exact hpending
    | @begin begun _ hnone =>
      have hne : key ≠ begun := by
        rintro rfl
        rw [hnone] at hpending
        cases hpending
      exact Or.inl ⟨waiting, by rw [definition?_setDefinition, if_neg hne, hpending]⟩
    | @wait begun _ _ hother =>
      have hne : key ≠ begun := by
        rintro rfl
        rw [hother] at hpending
        cases hpending
      exact Or.inl ⟨waiting, by rw [definition?_awaiting, if_neg hne, hpending]⟩
    | @complete begun found others definition hother hcompletes =>
      by_cases heq : key = begun
      · subst heq
        rw [hpending] at hother
        cases hother
        have hstep : Step tidy allowed floor s (s.completed allowed key definition waiting) :=
          .complete hpending hcompletes
        obtain ⟨hsettled, hrepresents⟩ := hcompletes htidy
        refine Or.inr ⟨definition, ?_, (hrepresents type rfl hbare).step htidy hs hstep hsettled⟩
        rw [definition?_completed, if_pos rfl]
      · exact Or.inl ⟨waiting, by rw [definition?_completed, if_neg heq, hpending]⟩
    | _ => exact Or.inl ⟨waiting, hpending⟩
  · exact Or.inr ⟨definition, hstep.built hbuilt, hrepresents.step htidy hs hstep (hs.built key definition hbuilt)⟩

/-- **A definition begun with a type becomes its instance**, if its node asks nothing more of a value. -/
theorem Steps.holds (htidy : tidy) (hs : s.Sound) (h : Steps tidy allowed floor s s') {key : DefinitionKey}
    {type : TypeId} (hbare : Building.BareAt s.documents key) (hholds : s.Holds key type) : s'.Holds key type := by
  have hkeeps := h.keeps (P := fun m => m.Sound ∧ m.documents = s.documents ∧ m.Holds key type)
    (fun m m' hstep hm => ⟨hstep.sound htidy hm.1, hstep.documents.trans hm.2.1,
      hm.2.2.step htidy hm.1 hstep (hm.2.1 ▸ hbare)⟩) ⟨hs, rfl, hholds⟩
  exact hkeeps.2.2

/-- Steps keep settled properties settled, with the same demands. -/
theorem Steps.settled (htidy : tidy) (hs : s.Sound) (h : Steps tidy allowed floor s s') {id : PropertyId}
    (hid : s.Settled id) :
    s'.Settled id ∧ (s'.graph.property id).demands = (s.graph.property id).demands := by
  have hkeeps := h.keeps (P := fun m => m.Sound ∧ m.Settled id ∧
      (m.graph.property id).demands = (s.graph.property id).demands)
    (fun m m' hstep hm => by
      obtain ⟨hsettled, hdemands⟩ := hstep.settled htidy hm.1 hm.2.1
      exact ⟨hstep.sound htidy hm.1, hsettled, hdemands.trans hm.2.2⟩) ⟨hs, hid, rfl⟩
  exact hkeeps.2

end Session
end SchemaTypes

import SchemaTypes.Proofs.Evaluation.Endurance
import SchemaTypes.Rendering.Format
/-!
# Rendering reads what a graph knows

Every walk over a graph starts with all properties unvisited, or unopened, so it seems to depend on how many there
are.  But a walk that comes upon known properties only asks which of the known ones are left (`Remaining`), and
graphs that agree on what is known answer that alike.  So a type is written the same from both, in every format
(`Graph.AgreeOn.render_eq`).
-/
namespace SchemaTypes

theorem flatMap_congr_left {α β : Type} {l : List α} {f g : α → List β} (h : ∀ a ∈ l, f a = g a) :
    l.flatMap f = l.flatMap g := by
  rw [List.flatMap_def, List.flatMap_def, List.map_congr_left h]

namespace Graph

/-- The same known properties are left to two walks. -/
structure Remaining (base : Graph) (ids ids' : List PropertyId) : Prop where
  nodup : ids.Nodup
  nodup' : ids'.Nodup
  mem_iff : ∀ id, base.HasProperty id → (id ∈ ids ↔ id ∈ ids')

variable {base graph other : Graph} {ids ids' : List PropertyId}

theorem Remaining.erase (h : base.Remaining ids ids') (id : PropertyId) :
    base.Remaining (ids.erase id) (ids'.erase id) := by
  refine ⟨h.nodup.erase id, h.nodup'.erase id, fun x hx => ?_⟩
  rw [h.nodup.mem_erase_iff, h.nodup'.mem_erase_iff, h.mem_iff x hx]

theorem mem_propertyIds {id : PropertyId} : id ∈ graph.propertyIds ↔ graph.HasProperty id := by
  unfold propertyIds HasProperty
  rw [List.mem_map]
  constructor
  · rintro ⟨index, hindex, rfl⟩
    exact List.mem_range.1 hindex
  · exact fun hlt => ⟨id.index, List.mem_range.2 hlt, rfl⟩

theorem nodup_propertyIds (graph : Graph) : graph.propertyIds.Nodup :=
  List.Pairwise.map _ (fun _ _ hne heq => hne (PropertyId.mk.inj heq)) List.nodup_range

theorem remaining_propertyIds (hgraph : base.Grows graph) (hother : base.Grows other) :
    base.Remaining graph.propertyIds other.propertyIds := by
  refine ⟨graph.nodup_propertyIds, other.nodup_propertyIds, fun id hid => ?_⟩
  rw [mem_propertyIds, mem_propertyIds]
  exact ⟨fun _ => hid.grows hother, fun _ => hid.grows hgraph⟩

/-- The types named by a type's own checks and by the properties it reaches. -/
def namedBy (graph : Graph) (type : ObjectType) : List TypeId :=
  type.validators.types ++ (graph.reachableFrom type).flatMap fun id => typesOf (graph.property id)

theorem referencedTypes_eq_namedBy (graph : Graph) (id : TypeId) : graph.referencedTypes id =
    ascending (((graph.namedBy (graph.type id)).map graph.canonical).filter (· ≠ graph.canonical id)) := rfl

theorem mem_ascending {types : List TypeId} {id : TypeId} : id ∈ ascending types ↔ id ∈ types := by
  unfold ascending
  simp only [List.mem_map, List.mem_eraseDups, List.mem_mergeSort]
  constructor
  · rintro ⟨_, ⟨type, htype, rfl⟩, rfl⟩
    exact htype
  · exact fun hid => ⟨_, ⟨id, hid, rfl⟩, rfl⟩

namespace AgreeOn

theorem children (h : base.AgreeOn graph other) {id : PropertyId} (hid : base.HasProperty id) :
    graph.children id = other.children id := congrArg (·.validators.children) (h.property id hid)

theorem hasProperty_children (h : base.AgreeOn graph other) {id child : PropertyId} (hid : base.HasProperty id)
    (hchild : child ∈ graph.children id) : base.HasProperty child := by
  obtain ⟨v, hv, hmem⟩ := List.mem_flatMap.1 hchild
  exact ((h.knows id hid).checks v hv).children child hmem

/-! ## What a type refers to -/

theorem visit_eq (h : base.AgreeOn graph other) (pending : List PropertyId) (hremaining : base.Remaining ids ids')
    (hpending : ∀ id ∈ pending, base.HasProperty id) : graph.visit ids pending = other.visit ids' pending := by
  induction ids, pending using Graph.visit.induct graph generalizing ids' with
  | case1 ids => rw [visit, visit]
  | case2 ids id pending hmem ih =>
    have hid := hpending id List.mem_cons_self
    rw [visit, dif_pos hmem, visit, dif_pos ((hremaining.mem_iff id hid).1 hmem), ← h.children hid]
    rw [ih (hremaining.erase id)]
    intro child hchild
    rcases List.mem_append.1 hchild with hchild | hchild
    · exact h.hasProperty_children hid hchild
    · exact hpending child (List.mem_cons_of_mem _ hchild)
  | case3 ids id pending hnot ih =>
    have hid := hpending id List.mem_cons_self
    rw [visit, dif_neg hnot, visit, dif_neg fun hmem => hnot ((hremaining.mem_iff id hid).2 hmem)]
    exact ih hremaining fun x hx => hpending x (List.mem_cons_of_mem _ hx)

/-- A walk from known properties comes upon known ones only. -/
theorem hasProperty_visit (h : base.AgreeOn graph other) (ids pending : List PropertyId)
    (hpending : ∀ id ∈ pending, base.HasProperty id) : ∀ id ∈ graph.visit ids pending, base.HasProperty id := by
  induction ids, pending using Graph.visit.induct graph with
  | case1 ids =>
    rw [visit]
    exact fun _ hid => absurd hid List.not_mem_nil
  | case2 ids id pending hmem ih =>
    have hid := hpending id List.mem_cons_self
    rw [visit, dif_pos hmem]
    refine List.forall_mem_cons.2 ⟨hid, ih fun child hchild => ?_⟩
    rcases List.mem_append.1 hchild with hchild | hchild
    · exact h.hasProperty_children hid hchild
    · exact hpending child (List.mem_cons_of_mem _ hchild)
  | case3 ids id pending hnot ih =>
    rw [visit, dif_neg hnot]
    exact ih fun x hx => hpending x (List.mem_cons_of_mem _ hx)

theorem hasProperty_start {type : ObjectType} (htype : base.KnowsType type) :
    ∀ id ∈ type.properties ++ type.validators.children, base.HasProperty id := by
  intro id hid
  rcases List.mem_append.1 hid with hid | hid
  · exact htype.properties id hid
  · obtain ⟨v, hv, hmem⟩ := List.mem_flatMap.1 hid
    exact (htype.checks v hv).children id hmem

theorem hasProperty_reachableFrom (h : base.AgreeOn graph other) {type : ObjectType} (htype : base.KnowsType type) :
    ∀ id ∈ graph.reachableFrom type, base.HasProperty id := h.hasProperty_visit _ _ (hasProperty_start htype)

theorem hasType_typesOf (h : base.AgreeOn graph other) {id : PropertyId} (hid : base.HasProperty id) :
    ∀ type ∈ typesOf (graph.property id), base.HasType type := by
  intro type htype
  rcases List.mem_append.1 htype with hnested | hchecks
  · exact (h.knows id hid).nested type (Option.mem_toList.1 hnested)
  · obtain ⟨v, hv, hmem⟩ := List.mem_flatMap.1 hchecks
    exact ((h.knows id hid).checks v hv).types type hmem

theorem knowsType_type (h : base.AgreeOn graph other) {id : TypeId} (hid : base.HasType id) :
    base.KnowsType (graph.type id) := h.knowsType _ (h.hasCanonical id hid)

theorem hasType_namedBy (h : base.AgreeOn graph other) {type : ObjectType} (htype : base.KnowsType type) :
    ∀ id ∈ graph.namedBy type, base.HasType id := by
  intro id hid
  rcases List.mem_append.1 hid with hid | hid
  · obtain ⟨v, hv, hmem⟩ := List.mem_flatMap.1 hid
    exact (htype.checks v hv).types id hmem
  · obtain ⟨property, hproperty, hmem⟩ := List.mem_flatMap.1 hid
    exact h.hasType_typesOf (h.hasProperty_reachableFrom htype property hproperty) id hmem

theorem hasType_referencedTypes (h : base.AgreeOn graph other) {id : TypeId} (hid : base.HasType id) :
    ∀ type ∈ graph.referencedTypes id, base.HasType type := by
  intro type htype
  rw [referencedTypes_eq_namedBy] at htype
  obtain ⟨hmem, _⟩ := List.mem_filter.1 (mem_ascending.1 htype)
  obtain ⟨named, hnamed, rfl⟩ := List.mem_map.1 hmem
  exact h.hasCanonical named (h.hasType_namedBy (h.knowsType_type hid) named hnamed)

variable (hgraph : base.Grows graph) (hother : base.Grows other)
include hgraph hother

theorem reachableFrom_eq (h : base.AgreeOn graph other) {type : ObjectType} (htype : base.KnowsType type) :
    graph.reachableFrom type = other.reachableFrom type :=
  h.visit_eq _ (remaining_propertyIds hgraph hother) (hasProperty_start htype)

theorem namedBy_eq (h : base.AgreeOn graph other) {type : ObjectType} (htype : base.KnowsType type) :
    graph.namedBy type = other.namedBy type := by
  unfold namedBy
  rw [← h.reachableFrom_eq hgraph hother htype]
  refine congrArg _ (flatMap_congr_left fun id hid => ?_)
  rw [h.property id (h.hasProperty_reachableFrom htype id hid)]

theorem referencedTypes_eq (h : base.AgreeOn graph other) {id : TypeId} (hid : base.HasType id) :
    graph.referencedTypes id = other.referencedTypes id := by
  have htype := h.knowsType_type hid
  have hcanonical := List.map_congr_left fun type hmem => h.canonical type (h.hasType_namedBy htype type hmem)
  rw [referencedTypes_eq_namedBy, referencedTypes_eq_namedBy, hcanonical, h.namedBy_eq hgraph hother htype, h.type hid,
    h.canonical id hid]

theorem usedTypes_eq (h : base.AgreeOn graph other) {id : TypeId} (hid : base.HasType id) :
    graph.usedTypes id = other.usedTypes id := by
  have hnames := List.map_congr_left fun type htype =>
    congrArg ObjectType.name (h.type (h.hasType_referencedTypes hid type htype))
  unfold usedTypes
  simp only
  rw [hnames, h.referencedTypes_eq hgraph hother hid, h.type hid]

omit hgraph hother

/-! ## Outlines -/

theorem checkLabel_eq (h : base.AgreeOn graph other) {check : Check} (hcheck : base.KnowsCheck check) :
    Outline.checkLabel graph check = Outline.checkLabel other check := by
  cases check with
  | instanceOf id => exact congrArg ("instance of " ++ ·) (h.className (hcheck.types id List.mem_cons_self))
  | _ => rfl

theorem validatorLines_eq (h : base.AgreeOn graph other) {validator : Validator}
    (hcheck : base.KnowsCheck validator.check) (depth : Nat) {lines lines' : PropertyId → List String}
    (hlines : ∀ id, base.HasProperty id → lines id = lines' id) :
    Outline.validatorLines graph depth lines validator = Outline.validatorLines other depth lines' validator := by
  unfold Outline.validatorLines
  rw [h.checkLabel_eq hcheck, flatMap_congr_left fun id hid => hlines id (hcheck.children id hid)]

theorem decoratorLabel_eq (h : base.AgreeOn graph other) {decorator : Decorator}
    (hknown : ∀ id, decorator = .instantiates id → base.HasType id) :
    Outline.decoratorLabel graph decorator = Outline.decoratorLabel other decorator := by
  cases decorator with
  | instantiates id => exact congrArg ("instantiates " ++ ·) (h.className (hknown id rfl))
  | _ => rfl

theorem propertyLines_eq (h : base.AgreeOn graph other) (depth : Nat) {id : PropertyId} (hid : base.HasProperty id)
    (hremaining : base.Remaining ids ids') :
    Outline.propertyLines graph ids depth id = Outline.propertyLines other ids' depth id := by
  induction ids, depth, id using Outline.propertyLines.induct graph generalizing ids' with
  | case1 ids depth id ih =>
    have hknows := h.knows id hid
    rw [Outline.propertyLines, Outline.propertyLines, ← h.property id hid]
    refine congrArg _ ?_
    by_cases hmem : id ∈ ids
    · rw [dif_pos hmem, dif_pos ((hremaining.mem_iff id hid).1 hmem)]
      rw [List.map_congr_left fun decorator hdecorator => congrArg (Outline.indent depth ++ "  @" ++ ·)
        (h.decoratorLabel_eq fun type heq => hknows.decorators type (heq ▸ hdecorator))]
      refine congrArg _ (flatMap_congr_left fun v hv => ?_)
      exact h.validatorLines_eq (hknows.checks v hv) _ fun child hchild => ih hmem child hchild (hremaining.erase id)
    · rw [dif_neg hmem, dif_neg fun hmem' => hmem ((hremaining.mem_iff id hid).2 hmem')]

include hgraph hother

theorem outline_eq (h : base.AgreeOn graph other) {id : TypeId} (hid : base.HasType id) :
    Outline.render graph id = Outline.render other id := by
  have htype := h.knowsType_type hid
  have hremaining := remaining_propertyIds hgraph hother
  have hlines : ∀ depth property, base.HasProperty property →
      Outline.propertyLines graph graph.propertyIds depth property =
        Outline.propertyLines other other.propertyIds depth property := fun depth property hproperty =>
    h.propertyLines_eq depth hproperty hremaining
  unfold Outline.render Outline.typeLines
  simp only
  rw [← h.type hid, ← h.usedTypes_eq hgraph hother hid,
    flatMap_congr_left fun property hproperty => hlines 1 property (htype.properties property hproperty),
    flatMap_congr_left fun v hv => h.validatorLines_eq (htype.checks v hv) 2 (hlines 3)]

/-! ## Listings -/

omit hgraph hother in
theorem ofProperty_eq (h : base.AgreeOn graph other) {id : PropertyId} (hid : base.HasProperty id) :
    Listing.ofProperty graph id = Listing.ofProperty other id := by
  unfold Listing.ofProperty
  rw [h.property id hid, h.children hid]

theorem nestedProperties_eq (h : base.AgreeOn graph other) {type : ObjectType} (htype : base.KnowsType type) :
    Listing.nestedProperties graph type = Listing.nestedProperties other type := by
  unfold Listing.nestedProperties
  rw [h.reachableFrom_eq hgraph hother htype]

omit hgraph hother in
theorem hasProperty_nestedProperties (h : base.AgreeOn graph other) {type : ObjectType} (htype : base.KnowsType type) :
    ∀ id ∈ Listing.nestedProperties graph type, base.HasProperty id := by
  intro id hid
  obtain ⟨_, hmem, rfl⟩ := List.mem_map.1 hid
  obtain ⟨nested, hnested, rfl⟩ := List.mem_map.1 (List.mem_mergeSort.1 hmem)
  exact h.hasProperty_reachableFrom htype nested (List.mem_filter.1 hnested).1

theorem listing_eq (h : base.AgreeOn graph other) {id : TypeId} (hid : base.HasType id) :
    Listing.render graph id = Listing.render other id := by
  have htype := h.knowsType_type hid
  unfold Listing.render Listing.ofType
  simp only
  rw [← h.type hid, ← h.usedTypes_eq hgraph hother hid, ← h.nestedProperties_eq hgraph hother htype,
    List.map_congr_left fun property hproperty => h.ofProperty_eq (htype.properties property hproperty),
    List.map_congr_left fun property hproperty =>
      h.ofProperty_eq (h.hasProperty_nestedProperties htype property hproperty)]

/-- **Graphs that agree on what is known write a known type alike**, in every format. -/
theorem render_eq (h : base.AgreeOn graph other) {id : TypeId} (hid : base.HasType id) (format : Format) :
    format.render graph id = format.render other id := by
  cases format with
  | outline => exact h.outline_eq hgraph hother hid
  | json => exact h.listing_eq hgraph hother hid

end AgreeOn
end Graph
end SchemaTypes

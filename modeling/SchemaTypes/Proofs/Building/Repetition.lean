import SchemaTypes.Proofs.Building.Parallels
/-!
# Writes that repeat each other

The writes that builders make, side by side.  A property is added to both graphs under ids by the offset apart, and what
is changed later is changed in both.  Reserving a type opens a pair, which is filled in alike.  Finishing closes it
(`Pairing.twins_bracket`): both types are written alike, so the second one is redirected to what the first one is
generated as, and both runs refer to that from then on.
-/
namespace SchemaTypes
namespace Building
namespace Pairing

open Build

variable {p : Pairing} {known : List TypeId} {s₁ s₂ s₁' s₂' : Session} {a b : Property} {id id' : PropertyId}
  {pair : TypeId × TypeId}

theorem floor_add_offset (p : Pairing) : p.floor + p.offset = p.second.graph.properties.size :=
  Nat.add_sub_cancel' p.grows.properties

theorem Ids.new₁ (h : p.Ids id id') (start : Session) : (p.firstCourse start).New id := Nat.not_lt.2 h.2

theorem Ids.new₂ (h : p.Ids id id') (start : Session) : (p.secondCourse start).New id' := by
  refine Nat.not_lt.2 (p.floor_add_offset ▸ ?_)
  rw [h.1]
  exact Nat.add_le_add_right h.2 _

/-- Whatever the first run has added has a repetition. -/
theorem exists_ids_of_new₁ {start : Session} (h : (p.firstCourse start).New id) : ∃ id', p.Ids id id' :=
  ⟨_, rfl, Nat.le_of_not_lt h⟩

/-- Whatever the second run has added is a repetition. -/
theorem exists_ids_of_new₂ {start : Session} (h : (p.secondCourse start).New id') : ∃ id, p.Ids id id' := by
  have hle : p.floor + p.offset ≤ id'.index := p.floor_add_offset ▸ Nat.le_of_not_lt h
  have hoffset : p.offset ≤ id'.index := Nat.le_trans (Nat.le_add_left _ _) hle
  refine ⟨⟨id'.index - p.offset⟩, ?_, Nat.le_sub_of_add_le hle⟩
  exact congrArg PropertyId.mk (Nat.sub_add_cancel hoffset).symm

/-! ## Properties -/

theorem twins_addProperty (h : p.Drafts known a b) :
    p.Twins known (addProperty a) (addProperty b) fun _ => p.Ids where
  first _ := Course.keeps_addProperty.imp fun _ hnew => ⟨known, List.Subset.refl _, exists_ids_of_new₁ hnew⟩
  second _ := Course.keeps_addProperty.imp fun _ hnew => ⟨known, List.Subset.refl _, exists_ids_of_new₂ hnew⟩
  both s₁ s₂ id id' s₁' s₂' hstands hmatches hrun hrun' _ := by
    obtain ⟨rfl, rfl⟩ := runs_addProperty.1 hrun
    obtain ⟨rfl, rfl⟩ := runs_addProperty.1 hrun'
    have hids : p.Ids (s₁.graph.addProperty a).1 (s₂.graph.addProperty b).1 :=
      ⟨congrArg PropertyId.mk hmatches.repeats.size, hstands.first.since.endures.grows.properties⟩
    refine ⟨known, List.Subset.refl _, ⟨⟨?_, fun other hother => ?_, fun other hother child => ?_⟩,
      fun other hother type => ?_, hmatches.known, hmatches.filling, hmatches.nested, hmatches.paired⟩, hids⟩
    · change (s₂.graph.properties.push b).size = (s₁.graph.properties.push a).size + p.offset
      rw [Array.size_push, Array.size_push, hmatches.repeats.size, Nat.add_right_comm]
    · rw [Session.property_addProperty_eq, Session.property_addProperty_eq, hmatches.repeats.size, h.eq,
        hmatches.repeats.property other hother]
      simp only [PropertyId.shifted, Nat.add_right_cancel_iff]
      split <;> rfl
    · rw [Session.property_addProperty_eq]
      split
      · exact h.children child
      · exact hmatches.repeats.children other hother child
    · rw [Session.property_addProperty_eq]
      split
      · exact fun htype => hmatches.known type (h.types type htype)
      · exact hmatches.types other hother type

theorem twins_relax (h : p.Ids id id') :
    p.Twins known (modifyProperty id Property.relax) (modifyProperty id' Property.relax) fun _ _ _ => True where
  first start := keeps_alone (Course.keeps_modifyProperty (h.new₁ start))
  second start := keeps_alone (Course.keeps_modifyProperty (h.new₂ start))
  both s₁ s₂ u u' s₁' s₂' _ hmatches hrun hrun' _ := by
    cases runs_modifyGraph.1 hrun
    cases runs_modifyGraph.1 hrun'
    have htypes : ∀ property : Property, property.relax.types ⊆ property.types := fun property type htype =>
      (List.mem_append.1 htype).elim (List.mem_append_left _) fun hmem =>
        List.mem_append_right _ (property.validators.types_removeRequired_subset hmem)
    refine ⟨known, List.Subset.refl _, ⟨⟨?_, fun other hother => ?_, fun other hother child => ?_⟩,
      fun other hother type => ?_, hmatches.known, hmatches.filling, hmatches.nested, hmatches.paired⟩, trivial⟩
    · change (s₂.graph.modifyProperty id' _).properties.size = (s₁.graph.modifyProperty id _).properties.size + p.offset
      rw [Session.size_modifyProperty, Session.size_modifyProperty, hmatches.repeats.size]
    · rw [Session.property_modifyProperty_eq, Session.property_modifyProperty_eq, hmatches.repeats.size, h.1,
        hmatches.repeats.property other hother]
      simp only [PropertyId.shifted, Nat.add_right_cancel_iff, Nat.add_lt_add_iff_right]
      split
      · exact (Property.shifted_relax _ _).symm
      · rfl
    · rw [Session.property_modifyProperty_eq]
      split
      · exact fun hmem => hmatches.repeats.children other hother child
          ((s₁.graph.property other).validators.children_removeRequired_subset hmem)
      · exact hmatches.repeats.children other hother child
    · rw [Session.property_modifyProperty_eq]
      split
      · exact fun htype => hmatches.types other hother type (htypes _ htype)
      · exact hmatches.types other hother type

theorem twins_notify {notice notice' : Notice} (h : notice.isWarning = true) (h' : notice'.isWarning = true) :
    p.Twins known (notify notice) (notify notice') fun _ _ _ => True where
  first _ := keeps_alone (Course.keeps_notify h)
  second _ := keeps_alone (Course.keeps_notify h')
  both s₁ s₂ u u' s₁' s₂' _ hmatches hrun hrun' _ := by
    cases runs_modify.1 hrun
    cases runs_modify.1 hrun'
    exact ⟨known, List.Subset.refl _, ⟨hmatches.repeats, hmatches.types, hmatches.known, hmatches.filling,
      hmatches.nested, hmatches.paired⟩, trivial⟩

/-! ## Types that are being filled in -/

theorem mem_first (hpair : pair ∈ p.filling) (start : Session) : pair.1 ∈ (p.firstCourse start).filling :=
  List.mem_map_of_mem hpair

theorem mem_second (hpair : pair ∈ p.filling) (start : Session) : pair.2 ∈ (p.secondCourse start).filling :=
  List.mem_map_of_mem hpair

/-- Both types of a pair are changed alike. -/
theorem twins_modifyType (hpair : pair ∈ p.filling) {f f' : ObjectType → ObjectType} (hf : Session.KeepsStanding f)
    (hf' : Session.KeepsStanding f') (h : ∀ type type' : ObjectType, type.Repeats p.floor p.offset type' →
      (f type).Repeats p.floor p.offset (f' type')) :
    p.Twins known (modifyType pair.1 f) (modifyType pair.2 f') fun _ _ _ => True where
  first start := keeps_alone (Course.keeps_modifyType (mem_first hpair start) hf)
  second start := keeps_alone (Course.keeps_modifyType (mem_second hpair start) hf')
  both s₁ s₂ u u' s₁' s₂' hstands hmatches hrun hrun' _ := by
    cases runs_modifyGraph.1 hrun
    cases runs_modifyGraph.1 hrun'
    have htype₁ : s₁.graph.HasType pair.1 := (hstands.first.filling _ (mem_first hpair s₁)).2.hasType
    have htype₂ : s₂.graph.HasType pair.2 := (hstands.second.filling _ (mem_second hpair s₂)).2.hasType
    refine ⟨known, List.Subset.refl _, ⟨⟨hmatches.repeats.size, hmatches.repeats.property, hmatches.repeats.children⟩,
      hmatches.types, hmatches.known, fun other hother => ?_, fun other hother => ?_, hmatches.paired⟩, trivial⟩
    · by_cases heq : other.1 = pair.1
      · have heq' := (hmatches.paired other hother pair hpair).1 heq
        rw [heq, heq', Session.entry_modifyType _ _ htype₁, Session.entry_modifyType _ _ htype₂]
        exact h _ _ (hmatches.filling pair hpair)
      · have hne := mt (hmatches.paired other hother pair hpair).2 heq
        rw [Session.entry_modifyType_of_other _ _ heq, Session.entry_modifyType_of_other _ _ hne]
        exact hmatches.filling other hother
    · rw [Session.entry_modifyType_eq, Session.entry_modifyType_eq]
      refine ⟨?_, ?_⟩
      · split
        · exact (hf.isRoot _).trans (hmatches.nested other hother).1
        · exact (hmatches.nested other hother).1
      · split
        · exact (hf'.isRoot _).trans (hmatches.nested other hother).2
        · exact (hmatches.nested other hother).2

theorem twins_addTypeProperty (hpair : pair ∈ p.filling) (h : p.Ids id id') :
    p.Twins known (addTypeProperty pair.1 id) (addTypeProperty pair.2 id') fun _ _ _ => True := by
  refine twins_modifyType hpair ⟨⟨fun _ => rfl, fun _ => rfl, fun _ => rfl⟩, fun _ => rfl⟩
    ⟨⟨fun _ => rfl, fun _ => rfl, fun _ => rfl⟩, fun _ => rfl⟩ fun type type' hrepeats => ?_
  refine ⟨?_, hrepeats.validators, fun other hother => ?_, hrepeats.children, hrepeats.types⟩
  · simp only [hrepeats.properties, h.1, List.map_append, List.map_cons, List.map_nil]
  · rcases List.mem_append.1 hother with hother | hother
    · exact hrepeats.inner other hother
    · exact List.mem_singleton.1 hother ▸ h.2

/-- Checks on objects that repeat each other, up to the class they report. -/
structure Checks (p : Pairing) (check check' : Check) : Prop where
  eq : check'.anonymous = (check.shifted p.offset).anonymous
  children : ∀ child ∈ check.children, p.floor ≤ child.index
  types : check.types = []

theorem twins_addTypeCheck (hpair : pair ∈ p.filling) {check check' : Check} (h : p.Checks check check') :
    p.Twins known (addTypeCheck pair.1 check) (addTypeCheck pair.2 check') fun _ _ _ => True := by
  refine twins_modifyType hpair ⟨⟨fun _ => rfl, fun _ => rfl, fun _ => rfl⟩, fun _ => rfl⟩
    ⟨⟨fun _ => rfl, fun _ => rfl, fun _ => rfl⟩, fun _ => rfl⟩ fun type type' hrepeats => ?_
  refine ⟨hrepeats.properties, ?_, hrepeats.inner, fun child hchild => ?_, ?_⟩
  · change (type'.validators.addCheck check').mapChecks _ = (type.validators.addCheck check).mapChecks _
    rw [Validators.mapChecks_addCheck _ _ check'.defaultPriority_anonymous, Validators.mapChecks_addCheck,
      hrepeats.validators, h.eq]
    rw [Check.defaultPriority_anonymous, Check.defaultPriority_shifted]
  · rcases (Validators.mem_children_add _).1 hchild with hchild | hchild
    · exact h.children child hchild
    · exact hrepeats.children child hchild
  · refine List.eq_nil_iff_forall_not_mem.2 fun other hother => ?_
    rcases (Validators.mem_types_add _).1 hother with hother | hother
    · exact List.not_mem_nil (h.types ▸ hother)
    · exact List.not_mem_nil (hrepeats.types ▸ hother)

/-! ## Looking at the graph -/

/-- What the two graphs have in common for whoever looks at them. -/
structure Pictures (p : Pairing) (known : List TypeId) (graph graph' : Graph) : Prop where
  property : ∀ id id', p.Ids id id' → graph'.property id' = (graph.property id).shifted p.offset
  filling : ∀ pair ∈ p.filling, (graph.entry pair.1).Repeats p.floor p.offset (graph'.entry pair.2)
  classNames : ∀ type ∈ known, graph'.className type = graph.className type

theorem twins_graph : p.Twins known Build.graph Build.graph fun _ _ _ => True where
  first _ := keeps_alone keeps_graph
  second _ := keeps_alone keeps_graph
  both s₁ s₂ g g' s₁' s₂' _ hmatches hrun hrun' _ := by
    obtain ⟨_, rfl⟩ := runs_graph.1 hrun
    obtain ⟨_, rfl⟩ := runs_graph.1 hrun'
    exact ⟨known, List.Subset.refl _, hmatches, trivial⟩

/-- What comes after a look at the graph is about graphs that have this in common.  That each part keeps to its course
is given, since graphs by themselves do not tell of their repetition. -/
theorem twins_graph_bind {α β : Type} {f : Graph → Build α} {g : Graph → Build β} {R : List TypeId → α → β → Prop}
    (hfirst : ∀ start, (p.firstCourse start).Keeps (Build.graph >>= f) fun a =>
      ∃ known', known ⊆ known' ∧ ∃ b, R known' a b)
    (hsecond : ∀ start, (p.secondCourse start).Keeps (Build.graph >>= g) fun b =>
      ∃ known', known ⊆ known' ∧ ∃ a, R known' a b)
    (h : ∀ graph graph', p.Pictures known graph graph' → p.Twins known (f graph) (g graph') R) :
    p.Twins known (Build.graph >>= f) (Build.graph >>= g) R where
  first := hfirst
  second := hsecond
  both s₁ s₂ a b s₁' s₂' hstands hmatches hrun hrun' hrecalls := by
    have hlater := (hstands.passes₁ hfirst hrun).1.moves.recalls.trans (hrecalls.trans hstands.recalls)
    have hpictures : p.Pictures known s₁.graph s₂.graph := by
      refine ⟨fun id id' hids => ?_, hmatches.filling, fun type htype => ?_⟩
      · rw [hids.1]
        exact hmatches.repeats.property id hids.2
      · exact hlater.className_eq hstands.collapsed₁.toRegistered hstands.collapsed₂.toRegistered
          (hmatches.known type htype)
    exact (h _ _ hpictures).both s₁ s₂ a b s₁' s₂' hstands hmatches (runs_graph_bind.1 hrun) (runs_graph_bind.1 hrun')
      hrecalls

/-! ## From reserving to finishing -/

/-- Two types are reserved, which are filled in from now on. -/
theorem Matches.reserve (hstands : p.Stands s₁ s₂) (h : p.Matches known s₁ s₂)
    (name name' className className' : String) :
    (p.opening (⟨s₁.graph.types.size⟩, ⟨s₂.graph.types.size⟩)).Matches known
      (s₁.withGraph (s₁.graph.reserve name className false).2)
      (s₂.withGraph (s₂.graph.reserve name' className' false).2) := by
  have hfirst := (hstands.first.reserve name className false).1
  have hsecond := (hstands.second.reserve name' className' false).1
  have hentry : ∀ (graph : Graph) (name className : String) (type : TypeId), graph.HasType type →
      (graph.reserve name className false).2.entry type = graph.entry type := fun _ _ _ _ htype =>
    Session.entry_reserve_of_lt _ _ _ _ htype
  have hnew : ∀ (graph : Graph) (name className : String),
      (graph.reserve name className false).2.entry ⟨graph.types.size⟩ =
        { name := graph.freeName name className, isRoot := false } := fun _ _ _ =>
    (Session.entry_reserve_eq _ _ _ _ _).trans (if_pos rfl)
  have hold : ∀ pair ∈ p.filling, s₁.graph.HasType pair.1 ∧ s₂.graph.HasType pair.2 := fun pair hpair =>
    ⟨(hstands.first.filling _ (mem_first hpair s₁)).2.hasType,
      (hstands.second.filling _ (mem_second hpair s₂)).2.hasType⟩
  refine ⟨⟨h.repeats.size, h.repeats.property, h.repeats.children⟩, h.types, h.known, fun pair hpair => ?_,
    fun pair hpair => ?_, fun x hx y hy => ?_⟩
  · rcases List.mem_cons.1 hpair with rfl | hpair
    · rw [Session.withGraph, Session.withGraph, hnew, hnew]
      exact ⟨rfl, rfl, fun _ hid => absurd hid List.not_mem_nil, fun _ hid => absurd hid List.not_mem_nil, rfl⟩
    · rw [Session.withGraph, Session.withGraph, hentry _ _ _ _ (hold pair hpair).1, hentry _ _ _ _ (hold pair hpair).2]
      exact h.filling pair hpair
  · rcases List.mem_cons.1 hpair with rfl | hpair
    · rw [Session.withGraph, Session.withGraph, hnew, hnew]
      exact ⟨rfl, rfl⟩
    · rw [Session.withGraph, Session.withGraph, hentry _ _ _ _ (hold pair hpair).1, hentry _ _ _ _ (hold pair hpair).2]
      exact h.nested pair hpair
  · have hfresh : ∀ pair ∈ p.filling, pair.1 ≠ ⟨s₁.graph.types.size⟩ ∧ pair.2 ≠ ⟨s₂.graph.types.size⟩ :=
      fun pair hpair => ⟨fun heq => hfirst (heq ▸ mem_first hpair s₁), fun heq => hsecond (heq ▸ mem_second hpair s₂)⟩
    rcases List.mem_cons.1 hx with rfl | hx
    · rcases List.mem_cons.1 hy with rfl | hy
      · exact iff_of_true rfl rfl
      · exact iff_of_false (hfresh y hy).1.symm (hfresh y hy).2.symm
    · rcases List.mem_cons.1 hy with rfl | hy
      · exact iff_of_false (hfresh x hx).1 (hfresh x hx).2
      · exact h.paired x hx y hy

/-- A type that is being filled in is written as itself, and one that is known by its id. -/
theorem typeText_of_registers {s : Session} (hs : s.Registered) {type current : TypeId} (htype : s.Registers type)
    (hcurrent : s.Unfinished current) :
    s.graph.typeText (s.graph.canonical current) type = "schema:" ++ toString type.index := by
  have hself : s.graph.canonical current = current := Graph.follow_eq_self (hs.unredirected hcurrent) _
  unfold Graph.typeText
  rw [hself, hs.canonical_of_registers htype]
  exact if_neg (hs.ne_of_unfinished htype hcurrent)

/-- **Types that are filled in alike are written alike.** -/
theorem signature_eq (hstands : p.Stands s₁ s₂) (h : p.Matches known s₁ s₂) (hpair : pair ∈ p.filling)
    (hlater : s₁.Recalls s₂) : s₂.graph.signature pair.2 = s₁.graph.signature pair.1 := by
  have hunfinished₁ := (hstands.first.filling _ (mem_first hpair s₁)).2
  have hunfinished₂ := (hstands.second.filling _ (mem_second hpair s₂)).2
  unfold Graph.signature
  rw [h.repeats.canonicalText_eq (h.filling pair hpair)]
  intro id hid type htype
  have hregisters := h.types id hid type htype
  rw [typeText_of_registers hstands.collapsed₁.toRegistered hregisters hunfinished₁,
    typeText_of_registers hstands.collapsed₂.toRegistered (hlater.registers hregisters) hunfinished₂]

/-- A type other than a root is known under its signature once it is finished, as what it is generated as. -/
theorem lookup_of_concludes {s s' : Session} {type target : TypeId} {text : String} (hs : s.Registered)
    (hunfinished : s.Unfinished type) (hnested : (s.graph.entry type).isRoot = false)
    (h : s.Concludes type text target s') : s'.signatures.lookup text = some target := by
  cases h with
  | kept hexisting hkept =>
    exact nomatch hnested.symm.trans (hs.isRoot_of_kept hunfinished hexisting hkept)
  | first hnone =>
    rw [List.lookup_append, hnone]
    simp
  | @duplicate existing hexisting =>
    have hmem := mem_of_lookup hexisting
    rw [hs.canonical_of_registers ⟨text, hmem⟩]
    exact hexisting

/-- **The second type of a pair is taken for the first**, since it is written alike and the first is known by then. -/
theorem Matches.finish (hstands : (p.opening pair).Stands s₁ s₂) (h : (p.opening pair).Matches known s₁ s₂)
    {target target' : TypeId} (hrun : (finish pair.1).Runs p.config s₁ target s₁')
    (hrun' : (finish pair.2).Runs p.config s₂ target' s₂') (hrecalls : s₁'.Recalls p.past) :
    target = target' ∧ p.Matches (target :: known) s₁' s₂' := by
  have hpair : pair ∈ (p.opening pair).filling := List.mem_cons_self
  have hconcludes := Session.concludes_finish hrun
  have hconcludes' := Session.concludes_finish hrun'
  have hlater : s₁.Recalls s₂ := hconcludes.recalls.trans (hrecalls.trans hstands.recalls)
  have hlookup := lookup_of_concludes hstands.collapsed₁.toRegistered
    (hstands.first.filling _ (mem_first hpair s₁)).2 (h.nested pair hpair).1 hconcludes
  have hlookup' := lookup_of_concludes hstands.collapsed₂.toRegistered
    (hstands.second.filling _ (mem_second hpair s₂)).2 (h.nested pair hpair).2 hconcludes'
  have hfound := (hrecalls.trans (hstands.recalls.trans hconcludes'.recalls)).lookup hlookup
  rw [signature_eq hstands h hpair hlater, hfound] at hlookup'
  obtain ⟨_, _, _, _, hgraph⟩ := Session.runs_finish hrun
  obtain ⟨_, _, _, _, hgraph'⟩ := Session.runs_finish hrun'
  refine ⟨Option.some.inj hlookup', ⟨?_, ?_, ?_⟩, ?_, ?_, ?_, ?_, fun x hx y hy => ?_⟩
  · rw [hgraph, hgraph']
    exact h.repeats.size
  · rw [hgraph, hgraph']
    exact h.repeats.property
  · rw [hgraph]
    exact h.repeats.children
  · intro id hid type htype
    rw [hgraph] at htype
    exact hconcludes.recalls.registers (h.types id hid type htype)
  · intro type htype
    rcases List.mem_cons.1 htype with rfl | htype
    · exact ⟨_, mem_of_lookup hlookup⟩
    · exact hconcludes.recalls.registers (h.known type htype)
  -- Finishing touches neither what a type has nor whether it is a root.
  · intro other hother
    have hrepeats := h.filling other (List.mem_cons_of_mem _ hother)
    rw [hgraph, hgraph', Session.entry_modifyType_eq, Session.entry_modifyType_eq]
    split <;> split <;>
      exact ⟨hrepeats.properties, hrepeats.validators, hrepeats.inner, hrepeats.children, hrepeats.types⟩
  · intro other hother
    have hnested := h.nested other (List.mem_cons_of_mem _ hother)
    rw [hgraph, hgraph', Session.entry_modifyType_eq, Session.entry_modifyType_eq]
    split <;> split <;> exact hnested
  · exact h.paired x (List.mem_cons_of_mem _ hx) y (List.mem_cons_of_mem _ hy)

/-- **What reserves types, fills them in alike and finishes them** comes to refer to one type. -/
theorem twins_bracket {name name' className className' : String} {F F' : TypeId → Build Unit}
    (hfill : ∀ pair, (p.opening pair).Twins known (F pair.1) (F' pair.2) fun _ _ _ => True) :
    p.Twins known (reserve name className false >>= fun type => F type >>= fun _ => finish type)
      (reserve name' className' false >>= fun type => F' type >>= fun _ => finish type)
      fun known' type type' => type = type' ∧ type ∈ known' where
  first start := by
    refine Keeps.imp (q := fun _ => True) (Course.keeps_bracket Course.opens_reserve fun type hnot => ?_)
      fun target _ => ⟨target :: known, List.subset_cons_self _ _, target, rfl, List.mem_cons_self⟩
    exact Course.Closes.after ((hfill (type, type)).first start) fun _ => Course.closes_finish hnot
  second start := by
    refine Keeps.imp (q := fun _ => True) (Course.keeps_bracket Course.opens_reserve fun type hnot => ?_)
      fun target _ => ⟨target :: known, List.subset_cons_self _ _, target, rfl, List.mem_cons_self⟩
    exact Course.Closes.after ((hfill (type, type)).second start) fun _ => Course.closes_finish hnot
  both s₁ s₂ target target' s₁' s₂' hstands hmatches hrun hrun' hrecalls := by
    obtain ⟨type, m₁, hreserve, hrun⟩ := runs_bind.1 hrun
    obtain ⟨type', m₂, hreserve', hrun'⟩ := runs_bind.1 hrun'
    obtain ⟨u, n₁, hfilled, hfinish⟩ := runs_bind.1 hrun
    obtain ⟨u', n₂, hfilled', hfinish'⟩ := runs_bind.1 hrun'
    obtain ⟨rfl, rfl⟩ := runs_reserve.1 hreserve
    obtain ⟨rfl, rfl⟩ := runs_reserve.1 hreserve'
    have hreserved : ∀ name className : String, s₂.Recalls (s₂.withGraph (s₂.graph.reserve name className false).2) :=
      fun name className => (Session.Move.reserve name className false : Session.Move p.second s₂ _).recalls
    have hopened : (p.opening (⟨s₁.graph.types.size⟩, ⟨s₂.graph.types.size⟩)).Stands _ _ :=
      ⟨restart (hstands.first.reserve name className false).2,
        restart (hstands.second.reserve name' className' false).2,
        hstands.collapsed₁.reserve name className false, hstands.collapsed₂.reserve name' className' false,
        hstands.recalls.trans (hreserved name' className')⟩
    have hfilling := hfill (⟨s₁.graph.types.size⟩, ⟨s₂.graph.types.size⟩)
    obtain ⟨known', hsub, hmatches', _⟩ := hfilling.both _ _ u u' n₁ n₂ hopened (hmatches.reserve hstands _ _ _ _)
      hfilled hfilled' ((Session.concludes_finish hfinish).recalls.trans hrecalls)
    obtain ⟨rfl, hfinished⟩ :=
      Matches.finish (hfilling.stands hopened hfilled hfilled') hmatches' hfinish hfinish' hrecalls
    exact ⟨target :: known', List.Subset.trans hsub (List.subset_cons_self _ _), hfinished, rfl, List.mem_cons_self⟩

end Pairing
end Building
end SchemaTypes

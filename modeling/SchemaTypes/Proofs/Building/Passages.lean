import SchemaTypes.Proofs.Building.Process
import SchemaTypes.Proofs.Building.TrailNodes
/-!
# What runs of successful calls are made of

A successful call stores its document, opens the definition of the root if there is one, and from there on does deeds
(`Building.runs_document_deeds`).  So a run of such calls is made of deeds, of documents that are stored, and of roots
that are opened (`Session.Passage`).  The latter two say of which definitions and documents that may be.
-/
namespace SchemaTypes

namespace Session

variable {config : Config} {traced : Prop} {s m s' : Session} {key : DefinitionKey} {id : PropertyId} {type : TypeId}
  {source : Source} {value : Json}

/-! ## Passages -/

/-- What a run of successful calls does next: a deed, storing a document, or opening the definition of a root. -/
inductive Passage (config : Config) (opens : DefinitionKey → Prop) (stores : Session → Source → Json → Prop) :
    Session → Session → Prop
  | deed {s s' : Session} : Deed config False s s' → Passage config opens stores s s'
  | store {s : Session} {source : Source} {value : Json} : stores s source value →
    Passage config opens stores s (s.register source value)
  | root {s : Session} {key : DefinitionKey} {type : TypeId} {node : Json} : opens key →
    Building.nodeAt? s.documents key = some node → s.Unfinished type →
    Passage config opens stores s (s.setDefinition key (.inProgress (some type) []))

abbrev Passages (config : Config) (opens : DefinitionKey → Prop) (stores : Session → Source → Json → Prop) :
    Session → Session → Prop := Relation.ReflTransGen (Passage config opens stores)

variable {opens : DefinitionKey → Prop} {stores : Session → Source → Json → Prop}

/-- What every passage keeps, passages keep. -/
theorem Passages.keeps {P : Session → Prop} (hpassage : ∀ m m', Passage config opens stores m m' → P m → P m')
    (h : Passages config opens stores s s') (hs : P s) : P s' := by
  induction h with
  | refl => exact hs
  | tail _ hlast ih => exact hpassage _ _ hlast ih

theorem Deeds.passages (h : Deeds config False s s') : Passages config opens stores s s' :=
  Relation.ReflTransGen.mono (fun _ _ => .deed) _ _ h

theorem Passage.precedes (h : Passage config opens stores s s') : Precedes s s' := by
  cases h with
  | deed hdeed => exact hdeed.precedes
  | store => exact .single (.store _ _)
  | root => exact precedes_setDefinition s _ _

theorem Passages.precedes (h : Passages config opens stores s s') : Precedes s s' :=
  h.keeps (P := Precedes s) (fun _ _ hpassage hm => hm.trans hpassage.precedes) .refl

theorem Passages.collapsed (h : Passages config opens stores {} s) : s.Collapsed :=
  h.precedes.collapsed collapsed_initial

theorem Passage.distinct (h : Passage config opens stores s s') (hs : Building.Distinct s.documents) :
    Building.Distinct s'.documents := by
  cases h with
  | deed hdeed => exact hdeed.documents ▸ hs
  | store => exact hs.insert _
  | root => exact hs

theorem Passages.distinct (h : Passages config opens stores {} s) : Building.Distinct s.documents :=
  h.keeps (P := fun m => Building.Distinct m.documents) (fun _ _ hpassage hm => hpassage.distinct hm) .nil

theorem placed_initial : Placed {} := by
  have hnone : ∀ key id, ¬ Waits {} key id := by
    rintro key id ⟨_, _, hpending, _⟩
    cases hpending
  exact ⟨fun key id hid => absurd hid (hnone key id), fun key id hid => absurd hid (hnone key id),
    fun key _ id hid => absurd hid (hnone key id)⟩

theorem Passage.placed (h : Passage config opens stores s s') (hs : s.Placed) : s'.Placed := by
  cases h with
  | deed hdeed => exact hdeed.placed hs
  | store => exact hs.shrink (fun _ _ hid => hid) (Nat.le_refl _) fun _ _ _ => rfl
  | root => exact hs.setDefinition _ fun _ _ heq => by cases heq; rfl

theorem Passages.placed (h : Passages config opens stores {} s) : s.Placed :=
  h.keeps (P := Placed) (fun _ _ hpassage hm => hpassage.placed hm) placed_initial

theorem Passage.nested (h : Passage config opens stores s s') (hs : s.Placed)
    (hid : (s.graph.property id).nested = some type) : (s'.graph.property id).nested = some type := by
  cases h with
  | deed hdeed => exact hdeed.nested hs hid
  | store => exact hid
  | root => exact hid

theorem Passage.entry (h : Passage config opens stores s s') (hfinished : (s.graph.entry type).signature ≠ none) :
    s'.graph.entry type = s.graph.entry type := by
  cases h with
  | deed hdeed => exact hdeed.entry hfinished
  | store => rfl
  | root => rfl

end Session

namespace Building

variable {config : Config} {traced : Prop} {s m s' stored start : Session} {source : Source} {value node : Json}
  {key : DefinitionKey} {type : TypeId} {scope : Scope}

/-! ## Documents -/

/-- The definition that a document's root is, if it is one of this document: the target of its own reference, or the
top. -/
def rootKey? (documents : Reference.Documents) (source : Source) (value : Json) : Option DefinitionKey :=
  match value.stringAt? "$ref" with
  | some reference => (targetIn? documents source.key reference).bind fun target =>
    if target.key.document = source.key then some target.key else none
  | none => some ⟨source.key, ""⟩

/-- The root is found under its key, and its node describes the type. -/
theorem runs_rootOf_key {key? : Option DefinitionKey} (hd : scope.document = source.key)
    (hdistinct : Distinct s.documents) (hstored : nodeAt? s.documents ⟨source.key, ""⟩ = some value)
    (h : (rootOf source scope value).Runs config s (node, key?) s') :
    rootKey? s.documents source value = key? ∧ ∀ key, key? = some key →
      key.document = source.key ∧ nodeAt? s.documents key = some node ∧ DescribesObject s.documents key := by
  unfold rootOf at h
  split at h
  · rename_i reference hown
    obtain ⟨target, m, hlocate, hrest⟩ := Build.runs_bind.1 h
    obtain ⟨htarget, rfl⟩ := runs_locate.1 hlocate
    split at hrest
    · rename_i hobject
      obtain ⟨heq, rfl⟩ := Build.runs_pure.1 hrest
      obtain ⟨rfl, rfl⟩ := Prod.mk.inj heq
      rw [hd] at htarget
      have hroot : rootKey? s'.documents source value =
          if target.key.document = source.key then some target.key else none := by
        unfold rootKey?
        rw [hown]
        exact congrArg (Option.bind · _) htarget
      refine ⟨hroot, fun key hkey => ?_⟩
      split at hkey
      · rename_i hdocument
        cases hkey
        have hnode := nodeAt?_target hdistinct htarget
        exact ⟨hdocument, hnode, target.node, hnode, Or.inl hobject⟩
      · cases hkey
    · exact absurd hrest Build.not_runs_refuse
  · rename_i hnone
    split at h
    · rename_i hroot
      obtain ⟨heq, rfl⟩ := Build.runs_pure.1 h
      obtain ⟨rfl, rfl⟩ := Prod.mk.inj heq
      have htop : rootKey? s'.documents source node = some ⟨source.key, ""⟩ := by
        unfold rootKey?
        rw [hnone]
      refine ⟨htop, fun key hkey => ?_⟩
      cases hkey
      refine ⟨rfl, hstored, node, hstored, ?_⟩
      rw [Bool.or_eq_true, Bool.and_eq_true, Bool.not_eq_true'] at hroot
      exact hroot.imp_right And.right
    · exact absurd h Build.not_runs_refuse

/-- Where the deeds of a call start: the root's type has been reserved, and its definition opened if it has one. -/
inductive Starts (stored : Session) (source : Source) (value : Json) : Session → Prop
  | bare (namespaceName className : String) :
    Starts stored source value (stored.withGraph (stored.graph.reserve namespaceName className true).2)
  | root (namespaceName className : String) {key : DefinitionKey} {node : Json} :
    rootKey? stored.documents source value = some key → nodeAt? stored.documents key = some node →
    Starts stored source value ((stored.withGraph
      (stored.graph.reserve namespaceName className true).2).setDefinition key
        (.inProgress (some ⟨stored.graph.types.size⟩) []))

theorem unfinished_start (h : Starts stored source value start) : start.Unfinished ⟨stored.graph.types.size⟩ := by
  cases h with
  | bare namespaceName className =>
    exact (Course.unfinished_reserve stored namespaceName className true _).2 (Or.inr rfl)
  | root namespaceName className =>
    have hu := (Course.unfinished_reserve stored namespaceName className true _).2 (Or.inr rfl)
    exact ⟨hu.hasType, hu.signature⟩

theorem Starts.documents (h : Starts stored source value start) : start.documents = stored.documents := by
  cases h with
  | bare => rfl
  | root => rfl

theorem Starts.collapsed (h : Starts stored source value start) (hs : stored.Collapsed) : start.Collapsed := by
  cases h with
  | bare => exact hs.reserve _ _ _
  | root => exact (hs.reserve _ _ _).congr rfl rfl rfl fun _ => ⟨rfl, rfl, rfl, rfl⟩

theorem Starts.marked (h : Starts stored source value start) (hrest : stored.Resting) (hs : stored.Marked) :
    start.Marked := by
  have hreserve : ∀ namespaceName className, (stored.withGraph
      (stored.graph.reserve namespaceName className true).2).Marked := fun _ _ =>
    have hdeed : Session.Deed {} True stored _ := .reserve _ _ _
    hdeed.marked trivial hs
  cases h with
  | bare namespaceName className => exact hreserve namespaceName className
  | @root namespaceName className key _ _ _ => exact (hreserve namespaceName className).progress (hrest key) _

/-- Filling a root in and finishing it does deeds. -/
theorem Trail.deeds_root {trail : Trail} {bound : Nat} {target : TypeId} {u : Unit} (hs : trail.Ready start)
    (hu : start.Unfinished type) (hd : scope.document = trail.document) (hr : references node ⊆ trail.spelled)
    (hfill : (fill (property bound) scope type node).Runs trail.config start u m)
    (hfinish : (finish type).Runs trail.config m target s') :
    trail.AfterFinishing type start s' ∧ (s'.graph.entry type).signature ≠ none ∧ s'.Lasts target ∧
      s'.graph.canonical type = target := by
  have hfilled := after_fill (accepts_property bound trail) hd hr hs hu hfill
  obtain ⟨hfinished, hsignature, hlasts, hcanonical⟩ :=
    runs_finish (hs.after hfilled).collapsed ((hfilled.asFinished type).2 hu) hfinish
  have hone := hfilled.asFinished.finishedOne hfinished.finishedOne
  refine ⟨⟨hfilled.deeds.trans hfinished.deeds, fun key found => ?_, hone⟩, hsignature, hlasts, hcanonical⟩
  exact (hfinished.inProgress key found).trans (hfilled.inProgress key found)

/-- The definition of a root is completed by an instance of its type, as the last deeds of the call. -/
theorem deeds_completeRoot (traced : Prop) {bound : Nat} {target target' : TypeId} {className : String} {u : Unit}
    (hcollapsed : m.Collapsed) (hpending : m.InProgress key (some type)) (hnode : nodeAt? m.documents key = some node)
    (hsignature : (m.graph.entry type).signature ≠ none) (hlasts : m.Lasts target)
    (hcanonical : m.graph.canonical type = target)
    (hfill : (fill (property bound) scope type node).Runs config start u stored)
    (hfinish : (finish type).Runs config stored target m)
    (h : (do
      let definition ← Build.addProperty (← instanceProperty className target true)
      complete key definition
      return target : Build TypeId).Runs config m target' s') :
    Session.Deeds config traced m s' ∧
      ∀ other found, s'.InProgress other found ↔ other ≠ key ∧ m.InProgress other found := by
  obtain ⟨waiting, hpending⟩ := hpending
  obtain ⟨property, m₁, hinstance, hrest⟩ := Build.runs_bind.1 h
  obtain ⟨definition, m₂, hadd, hrest'⟩ := Build.runs_bind.1 hrest
  obtain ⟨_, m₃, hcomplete, hreturn⟩ := Build.runs_bind.1 hrest'
  obtain ⟨_, rfl⟩ := Build.runs_pure.1 hreturn
  have hmade : (rootInto (Building.property bound) scope node className type).Runs config start definition m₂ :=
    Build.runs_bind.2 ⟨u, stored, hfill, Build.runs_bind.2 ⟨target, m, hfinish,
      Build.runs_bind.2 ⟨property, m₁, hinstance, hadd⟩⟩⟩
  obtain ⟨rfl, hfits, hnested, _⟩ := Trail.fits_instanceProperty hlasts hinstance
  obtain ⟨rfl, rfl⟩ := Build.runs_addProperty.1 hadd
  have hdraft : Session.Deed config traced m₁ (m₁.withGraph (m₁.graph.addProperty property).2) := .draft hfits
  have hembodies : (m₁.withGraph (m₁.graph.addProperty property).2).Embodies
      (m₁.graph.addProperty property).1 type := by
    refine ⟨hsignature, (congrArg Property.nested (Graph.property_addProperty _ _)).trans ?_⟩
    rw [hnested, Session.Deeds.canonical (.single hdraft) hcollapsed hsignature, hcanonical]
  have hpending' : (m₁.withGraph (m₁.graph.addProperty property).2).definition? key =
    some (.inProgress (some type) waiting) := hpending
  obtain rfl := (runs_complete hpending').1 hcomplete
  refine ⟨(Relation.ReflTransGen.single hdraft).tail (.complete hpending' hnode (.root hmade) ?_ ?_),
    fun other found => ?_⟩
  · rintro known ⟨⟩
    exact hembodies
  · exact fun _ => Session.own_addProperty m₁ hfits.own
  · unfold Session.InProgress
    rw [Session.definition?_completed]
    split
    · rename_i heq
      constructor
      · rintro ⟨_, hsome⟩
        cases hsome
      · exact fun h => absurd heq h.1
    · rename_i hne
      exact ⟨fun h => ⟨hne, h⟩, fun h => h.2⟩

/-- **A call that succeeds does deeds** from where it starts, and leaves nothing in progress. -/
theorem runs_document_deeds (traced : Prop) (hrest : s.Resting) (hdistinct : Distinct s.documents)
    (hcollapsed : s.Collapsed) (hmarked : traced → (s.register source value).Marked)
    (h : (document source value).Runs config s type s') :
    ∃ start, Starts (s.register source value) source value start ∧ Session.Deeds config traced start s' ∧
      s'.Resting := by
  unfold document at h
  rw [Build.runs_modify_bind, Build.runs_get_bind] at h
  simp only at h
  obtain ⟨⟨root, key⟩, m, hroot, hrun⟩ := Build.runs_bind.1 h
  obtain rfl := runs_rootOf hroot
  simp only at hrun
  obtain ⟨id, m, hreserve, hrun'⟩ := Build.runs_bind.1 hrun
  obtain ⟨rfl, rfl⟩ := Build.runs_reserve.1 hreserve
  rw [Build.runs_graph_bind] at hrun'
  have hstored : (s.register source value).Collapsed := hcollapsed.congr rfl rfl rfl fun _ => ⟨rfl, rfl, rfl, rfl⟩
  have htop : nodeAt? (s.register source value).documents ⟨source.key, ""⟩ = some value :=
    (congrArg (Option.bind · _) (Reference.Documents.get?_insert_self s.documents _)).trans rfl
  obtain ⟨hrootKey, hkey⟩ := runs_rootOf_key rfl (hdistinct.insert _) htop hroot
  clear h hrun hreserve hroot
  have hnone : ∀ key type, ¬ (s.register source value).InProgress key type := hrest
  -- What holds where the deeds start, whether or not the root is a definition.
  have hready : ∀ start, Starts (s.register source value) source value start →
      (∀ other found, start.InProgress other found → key = some other ∧ found = some ⟨s.graph.types.size⟩) →
      (Trail.mk config traced source.key (references root) []).Ready start := by
    intro start hstart honly
    have hdocuments := hstart.documents
    refine ⟨hdocuments ▸ hdistinct.insert _, hstart.collapsed hstored, fun _ other found hother => ?_,
      fun _ other found hother => ?_, fun _ other found hother reference hmem target htarget => ?_,
      fun htraced => hstart.marked hnone (hmarked htraced),
      fun _ hfilling => absurd hfilling List.not_mem_nil⟩
    · obtain ⟨_, heq⟩ := honly other _ hother
      cases heq
      have hu := unfinished_start hstart
      exact hu
    · obtain ⟨heq, _⟩ := honly other _ hother
      rw [hdocuments]
      exact (hkey other heq).2.2
    · obtain ⟨heq, _⟩ := honly other _ hother
      obtain ⟨hdocument, hnode, _⟩ := hkey other heq
      rw [hdocuments] at htarget ⊢
      exact .single ⟨root, hnode, reference, hmem, target, hdocument ▸ htarget, rfl⟩
  cases key with
  | none =>
    simp only at hrun'
    obtain ⟨_, m, hfill, hrest'⟩ := Build.runs_bind.1 hrun'
    obtain ⟨target, m', hfinish, hreturn⟩ := Build.runs_bind.1 hrest'
    obtain ⟨rfl, rfl⟩ := Build.runs_pure.1 hreturn
    have hstart : Starts (s.register source value) source value _ := .bare source.namespaceName source.className
    have hu := unfinished_start hstart
    have hholds := hready _ hstart fun other found hother => absurd hother (hnone other found)
    obtain ⟨hafter, _⟩ := Trail.deeds_root hholds hu rfl (List.Subset.refl _) hfill hfinish
    exact ⟨_, hstart, hafter.deeds,
      fun other found hother => hrest other found ((hafter.inProgress other found).1 hother)⟩
  | some key =>
    simp only at hrun'
    rw [Build.runs_modify_bind] at hrun'
    obtain ⟨_, m, hfill, hrest'⟩ := Build.runs_bind.1 hrun'
    obtain ⟨target, m', hfinish, hcomplete⟩ := Build.runs_bind.1 hrest'
    obtain ⟨_, hnode, _⟩ := hkey key rfl
    have hstart : Starts (s.register source value) source value _ :=
      .root source.namespaceName source.className hrootKey hnode
    have hu := unfinished_start hstart
    have honly : ∀ other found, (((s.register source value).withGraph (s.graph.reserve source.namespaceName
        source.className true).2).setDefinition key (.inProgress (some ⟨s.graph.types.size⟩) [])).InProgress other
          found → some key = some other ∧ found = some ⟨s.graph.types.size⟩ := by
      rintro other found ⟨waiting, hpending⟩
      rw [Session.definition?_setDefinition] at hpending
      split at hpending
      · rename_i heq
        cases hpending
        exact ⟨congrArg some heq.symm, rfl⟩
      · exact absurd ⟨waiting, hpending⟩ (hnone other found)
    have hholds := hready _ hstart honly
    obtain ⟨hafter, hsignature, hlasts, hcanonical⟩ :=
      Trail.deeds_root hholds hu rfl (List.Subset.refl _) hfill hfinish
    have hpending : m'.InProgress key (some ⟨s.graph.types.size⟩) := by
      exact (hafter.inProgress key _).2 ⟨[], (Session.definition?_setDefinition _ key key _).trans (if_pos rfl)⟩
    obtain ⟨hdeeds, hinProgress⟩ := deeds_completeRoot traced (hafter.deeds.precedes.collapsed hholds.collapsed)
      hpending (hafter.deeds.documents ▸ hnode) hsignature hlasts hcanonical hfill hfinish hcomplete
    refine ⟨_, hstart, hafter.deeds.trans hdeeds, fun other found hother => ?_⟩
    obtain ⟨hne, hother⟩ := (hinProgress other found).1 hother
    obtain ⟨heq, _⟩ := honly other found ((hafter.inProgress other found).1 hother)
    exact hne (Option.some.inj heq).symm

end Building
end SchemaTypes

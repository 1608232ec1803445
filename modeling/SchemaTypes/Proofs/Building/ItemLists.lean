import SchemaTypes.Proofs.Building.LateCopies
import SchemaTypes.Proofs.Building.Permanence
import SchemaTypes.Proofs.Building.Tuples
/-!
# From lists of items to tuples

A node that declares arrays and lists nodes for their items is built into a property that has one tuple, whose positions
have been built from these nodes in their order, and behind it what `additionalItems` asks of the rest
(`Building.AsksByPlace`).  Whatever else the node says, and whether arrays are the only kind or one of several, there is
nothing more by place (`Building.Scene.yields_array`).

The property keeps these checks: nothing waits under its id, so the rest of the call amends it at most, and no later call
touches it (`Session.divided_built`).
-/
namespace SchemaTypes

open Building

namespace Building

/-- The node declares arrays, alone or among other kinds. -/
def DeclaresArray (node : Json) : Prop :=
  node.get? "type" = some (.string "array") ∨ ∃ types, node.get? "type" = some (.array types) ∧ .string "array" ∈ types

/-- What the keywords of a node ask of items by their places: each position of the tuple comes from the node that is listed
there, and the property of the items behind it from the node of `additionalItems`. -/
def AsksByPlace (built : Json → PropertyId → Prop) (node : Json) (block : List Check) : Prop :=
  match node.get? "items" with
  | some (.array nodes) => ∃ positions, List.Forall₂ built nodes positions ∧
    match node.get? "additionalItems" with
    | some (.bool false) => block = [.tuple positions, .noAdditionalItems nodes.length]
    | some (.object members) => ∃ item, built (.object members) item ∧
      block = [.tuple positions, .additionalItems nodes.length item]
    | _ => block = [.tuple positions]
  | _ => block = []

/-- On the way from one session to another, the node has been built as an item, and this is its property. -/
def BuiltBetween (config : Config) (build : Builder) (scope : Scope) (first last : Session) (node : Json)
    (id : PropertyId) : Prop :=
  ∃ name s s', Session.Writes config.settings.implicitNull first s ∧
    (Build.nested build scope name node).Runs config s id s' ∧ Session.Writes config.settings.implicitNull s' last

section Places

variable {config : Config} {build : Builder} {scope : Scope} {first first' last last' : Session} {node : Json}
  {block : List Check} {id : PropertyId}

theorem AsksByPlace.imp {built built' : Json → PropertyId → Prop} (h : AsksByPlace built node block)
    (himp : ∀ node id, built node id → built' node id) : AsksByPlace built' node block := by
  unfold AsksByPlace at h ⊢
  split at h
  · obtain ⟨positions, hpositions, h⟩ := h
    refine ⟨positions, hpositions.imp fun _ _ => himp _ _, ?_⟩
    split at h
    · exact h
    · obtain ⟨item, hitem, h⟩ := h
      exact ⟨item, himp _ _ hitem, h⟩
    · exact h
  · exact h

theorem BuiltBetween.widen (h : BuiltBetween config build scope first last node id)
    (hfirst : Session.Writes config.settings.implicitNull first' first)
    (hlast : Session.Writes config.settings.implicitNull last last') :
    BuiltBetween config build scope first' last' node id := by
  obtain ⟨name, s, s', hbefore, hrun, hafter⟩ := h
  exact ⟨name, s, s', hfirst.trans hbefore, hrun, hafter.trans hlast⟩

end Places
end Building

namespace Session

/-- The property is there, asks just this by place, and waits for nothing. -/
structure Divides (s : Session) (block : List Check) (id : PropertyId) : Prop where
  there : s.graph.HasProperty id
  divided : (s.graph.property id).Divided block
  free : ∀ key, ¬ s.Waits key id

end Session

namespace Building.Scene

open Build Property

variable {α : Type} {scene : Scene} {s : Session} {build : Builder} {site : Site} {node : Json} {property : Property}
  {block : List Check}

/-- What is known of the result in any session is known besides. -/
theorem Yields.andGives {x : Build α} {P : α → Session → Prop} {q : α → Prop} (h : scene.Yields s x P)
    (hx : Gives scene.config x q) : scene.Yields s x fun a s' => P a s' ∧ q a := fun hs =>
  ⟨fun a s' hrun => ⟨((h hs).1 a s' hrun).1, ((h hs).1 a s' hrun).2.1, ((h hs).1 a s' hrun).2.2,
    ((hx s trivial).1 a s' hrun).2⟩, (h hs).2⟩

theorem Reads.andGives {x : Build α} {p q : α → Prop} (h : scene.Reads s x p) (hx : Gives scene.config x q) :
    scene.Reads s x fun a => p a ∧ q a := fun hs =>
  ⟨fun a s' hrun => ⟨((h hs).1 a s' hrun).1, ((h hs).1 a s' hrun).2, ((hx s trivial).1 a s' hrun).2⟩, (h hs).2⟩

theorem Yields.and {x : Build α} {P Q : α → Session → Prop} (hP : scene.Yields s x P) (hQ : scene.Yields s x Q) :
    scene.Yields s x fun a s' => P a s' ∧ Q a s' := fun hs =>
  ⟨fun a s' hrun => ⟨((hP hs).1 a s' hrun).1, ((hP hs).1 a s' hrun).2.1, ((hP hs).1 a s' hrun).2.2,
    ((hQ hs).1 a s' hrun).2.2⟩, (hP hs).2⟩

/-- How the session has come about may be used. -/
theorem Yields.whenWritten {x : Build α} {P Q : α → Session → Prop} (h : scene.Yields s x P)
    (hPQ : ∀ a s', Session.Writes scene.allowed s s' → P a s' → Q a s') : scene.Yields s x Q := fun hs =>
  ⟨fun a s' hrun => ⟨((h hs).1 a s' hrun).1, ((h hs).1 a s' hrun).2.1,
    hPQ a s' ((h hs).1 a s' hrun).1 ((h hs).1 a s' hrun).2.2⟩, (h hs).2⟩

/-- Each result is what its element asks for. -/
theorem yields_mapM_forall₂ {β : Type} {f : α → Build β} {P : α → β → Session → Prop}
    (hP : ∀ a b m m', Session.Writes scene.allowed m m' → P a b m → P a b m') : ∀ {l : List α} {s : Session},
    (∀ a ∈ l, ∀ m, Session.Writes scene.allowed s m → scene.Yields m (f a) (P a)) →
      scene.Yields s (l.mapM f) fun results s' => List.Forall₂ (fun a b => P a b s') l results
  | [], s, _ => by
    rw [List.mapM_nil]
    exact yields_pure .nil
  | a :: l, s, h => by
    rw [List.mapM_cons]
    refine (h a List.mem_cons_self s .refl).bind fun b m hm hb => ?_
    refine (yields_mapM_forall₂ hP fun x hx t ht => h x (List.mem_cons_of_mem _ hx) t (hm.trans ht)).bind
      fun bs t ht hbs => ?_
    exact yields_pure (.cons (hP a b m t ht hb) hbs)

/-! ## Arrays -/

variable {scope : Scope} {required strict : Bool}

/-- What a draft asks by place is what the node says, with parts that have been built on the way. -/
def Assigns (scene : Scene) (build : Builder) (scope : Scope) (first last : Session) (node : Json)
    (property : Property) : Prop :=
  ∃ block, AsksByPlace (BuiltBetween scene.config build scope first last) node block ∧ property.Divided block

theorem yields_built (hb : scene.Accepts build) (hd : scope.document = scene.document)
    (hr : references node ⊆ scene.spelled) {name : String} :
    scene.Yields s (Build.nested build scope name node) fun id s' =>
      BuiltBetween scene.config build scope s s' node id := fun hs =>
  ⟨fun id s' hrun => ⟨((yields_nested hb hd hr hs).1 id s' hrun).1, ((yields_nested hb hd hr hs).1 id s' hrun).2.1,
    name, s, s', .refl, hrun, .refl⟩, (yields_nested hb hd hr hs).2⟩

theorem assigns_addTuple (hb : scene.Accepts build) (hd : scope.document = scene.document) {items : List Json}
    (hitems : node.get? "items" = some (.array items)) (hr : references node ⊆ scene.spelled)
    (h : property.Divided []) :
    scene.Yields s (addTuple build scope property items node) fun result s' =>
      scene.Assigns build scope s s' node result := by
  have hspelled : ∀ item ∈ items, references item ⊆ scene.spelled := fun item hitem => by
    refine List.Subset.trans ?_ (List.Subset.trans (references_subset_get hitems) hr)
    rw [references]
    exact references_subset_items hitem
  have hpositions : scene.Yields s (items.zipIdx.mapM fun x =>
      Build.nested build scope ("tuple item #" ++ toString x.2 ++ " of array " ++ property.name) x.1)
      fun positions s' => List.Forall₂ (BuiltBetween scene.config build scope s s') items positions := by
    refine (yields_mapM_forall₂ (P := fun x id s' => BuiltBetween scene.config build scope s s' x.1 id)
      (fun x id m m' hwrites hbuilt => BuiltBetween.widen hbuilt .refl hwrites) fun x hx m hm => ?_).imp
      fun positions s' hall => ?_
    · exact (yields_built hb hd (hspelled x.1 (List.fst_mem_of_mem_zipIdx hx))).imp fun _ _ hbuilt =>
        hbuilt.widen hm .refl
    · have hlisted := List.forall₂_map_left_iff.2 hall
      rwa [List.zipIdx_map_fst] at hlisted
  unfold addTuple Assigns AsksByPlace
  rw [hitems]
  refine hpositions.bind fun positions m hm hall => ?_
  have hlength := hall.length_eq
  simp only
  split
  · rename_i hnone
    rw [hnone]
    exact yields_pure ⟨_, ⟨positions, hall, rfl⟩, h.addBlock (.loose positions)⟩
  · rename_i htrue
    rw [htrue]
    exact yields_pure ⟨_, ⟨positions, hall, rfl⟩, h.addBlock (.loose positions)⟩
  · rename_i hfalse
    rw [hfalse]
    exact yields_pure ⟨_, ⟨positions, hall, by rw [hlength]⟩, h.addBlock (.closed positions)⟩
  · rename_i members hmembers
    rw [hmembers]
    refine (yields_built hb hd (List.Subset.trans (references_subset_get hmembers) hr)).bind fun item t ht hitem => ?_
    refine yields_pure ⟨_, ⟨positions, hall.imp fun _ _ hbuilt => hbuilt.widen .refl ht, item, hitem.widen hm .refl, ?_⟩,
      h.addBlock (.full positions item)⟩
    rw [hlength]
  · exact yields_malformed

theorem assigns_addItems (hb : scene.Accepts build) (hd : scope.document = scene.document)
    (hr : references node ⊆ scene.spelled) (h : property.Divided []) :
    scene.Yields s (addItems build scope property node) fun result s' =>
      scene.Assigns build scope s s' node result := by
  unfold addItems
  split
  · rename_i hnone
    refine yields_pure ⟨[], ?_, h⟩
    unfold AsksByPlace
    rw [hnone]
  · rename_i items hitems
    exact assigns_addTuple hb hd hitems hr h
  · rename_i item hnot hitem
    refine (yields_nested hb hd (List.Subset.trans (references_subset_get hitem) hr)).bind fun id m hm _ => ?_
    refine yields_pure ⟨[], ?_, h.addCheck rfl⟩
    unfold AsksByPlace
    rw [hitem]
    split
    · rename_i items heq
      exact absurd (Option.some.inj heq) (hnot items)
    · rfl

theorem assigns_addArrayChecks (hb : scene.Accepts build) (hd : scope.document = scene.document)
    (hr : references node ⊆ scene.spelled) (hdraft : scene.Draft s required strict property)
    (h : property.Divided []) :
    scene.Yields s (addArrayChecks build scope property node) fun result s' =>
      scene.Assigns build scope s s' node result := by
  unfold addArrayChecks
  refine ((reads_addCount (fun _ => ⟨rfl, fun _ => rfl, rfl, rfl⟩) hdraft).andGives
    (divided_addCount h fun _ => rfl)).yieldsThen fun least hleast => ?_
  refine ((reads_addCount (fun _ => ⟨rfl, fun _ => rfl, rfl, rfl⟩) hleast.1).andGives
    (divided_addCount hleast.2 fun _ => rfl)).yieldsThen fun most hmost => ?_
  refine reads_flag.yieldsThen fun unique _ => ?_
  have hdistinct : scene.Draft s required strict (if unique then most.addCheck .uniqueItems else most) := by
    split
    · exact hmost.1.addLeaf ⟨rfl, fun _ => rfl, rfl, rfl⟩
    · exact hmost.1
  refine ((yields_addItems hb hd hr hdistinct).and (assigns_addItems hb hd hr (divided_distinct hmost.2 unique))).bind
    fun placed m _ hplaced => ?_
  obtain ⟨hknown, block, hasks, hdivided⟩ := hplaced
  refine ((yields_addContains hb hd hr hknown).andGives (divided_addContains hdivided)).whenWritten
    fun result t ht hresult => ?_
  exact ⟨block, hasks.imp fun _ _ hbuilt => hbuilt.widen .refl ht, hresult.2⟩

theorem assigns_ofKind (hb : scene.Accepts build) (hd : site.scope.document = scene.document)
    (hr : references node ⊆ scene.spelled) :
    scene.Yields s (ofKind build site node .array) fun property s' =>
      scene.Assigns build site.scope s s' node property := by
  unfold ofKind
  refine (reads_presentProperty.andGives divided_presentProperty).yieldsThen fun property hproperty => ?_
  refine reads_allowsNull.yieldsThen fun allowed hallowed => ?_
  subst hallowed
  refine assigns_addArrayChecks hb hd hr ((hproperty.1.relabel _).addCheck rfl ?_ (Graph.knowsCheck_of_nil rfl rfl))
    (divided_typed hproperty.2)
  simp [Check.withNull]

/-! ## Unions -/

theorem yields_addMembers (hb : scene.Accepts build) (hd : site.scope.document = scene.document)
    (hr : references node ⊆ scene.spelled) {kinds : List Kind} (h : scene.Raw s site.required property) :
    scene.Yields s (addMembers build site node kinds property) fun result s' => scene.Raw s' site.required result :=
  yields_foldlM (P := fun property m => scene.Raw m site.required property) h fun kind _ _ _ _ hproperty =>
    (yields_member hb hd hr kind).bind fun _ _ hu hpart => yields_pure (raw_addMember (hproperty.writes hu) hpart)

/-- The array among the members brings in what the node asks by place, and the others add nothing to it. -/
theorem assigns_addMembers (hb : scene.Accepts build) (hd : site.scope.document = scene.document)
    (hr : references node ⊆ scene.spelled) {kinds : List Kind} (hnodup : kinds.Nodup) (harray : .array ∈ kinds)
    (hraw : scene.Raw s site.required property) (h : property.Collects []) :
    scene.Yields s (addMembers build site node kinds property) fun result s' => ∃ block,
      AsksByPlace (BuiltBetween scene.config build site.scope s s') node block ∧ result.Collects block := by
  obtain ⟨front, back, rfl⟩ := List.append_of_mem harray
  have hrest : .array ∉ front ++ back := (List.nodup_cons.1 (List.nodup_middle.1 hnodup)).1
  rw [addMembers_around]
  refine ((yields_addMembers hb hd hr hraw).andGives
    (collects_members (fun hmem => hrest (List.mem_append_left _ hmem)) h)).bind fun first m hm hfirst => ?_
  refine (((yields_member hb hd hr .array).and (assigns_ofKind hb hd hr)).andGives
    (formed_ofKind .array)).bind fun part t ht hpart => ?_
  obtain ⟨⟨hdraft, block, hasks, hdivided⟩, hformed⟩ := hpart
  refine ((yields_addMembers hb hd hr (raw_addMember (hfirst.1.writes ht) hdraft)).andGives
    (collects_members (fun hmem => hrest (List.mem_append_right _ hmem))
      (hfirst.2.addMember ⟨hdivided, hformed⟩ (Or.inl rfl)))).whenWritten fun result u hu hresult => ?_
  exact ⟨block, hasks.imp fun _ _ hbuilt => hbuilt.widen hm hu, hresult.2⟩

/-! ## Nodes -/

/-- Nothing waits under an id that is handed out now. -/
theorem yields_addDivided (hknown : s.graph.Knows property) (hstep : property.InStep scene.allowed)
    (hdivided : property.Divided block) : scene.Yields s (Build.addProperty property) fun id s' => s'.Divides block id := by
  refine yields_of_stands fun hs => ends_of_runs (Build.runs_addProperty.2 ⟨rfl, rfl⟩) (.single (.add hknown hstep))
    ⟨asFinished_of_types rfl, Session.hasProperty_addProperty _ _, ?_, ?_⟩
  · have hadded := Graph.property_addProperty s.graph property
    exact hdivided.of_validators (congrArg Property.validators hadded)
  · rintro key ⟨type, waiting, hpending, hmem⟩
    exact Nat.lt_irrefl _ ((hs.closed.definitions key _ hpending).2 _ hmem)

theorem yields_complement (hb : scene.Accepts build) (hd : site.scope.document = scene.document)
    (hr : references node ⊆ scene.spelled) (hdraft : scene.Draft s site.required false property)
    (hdivided : property.Divided block) :
    scene.Yields s (complement build site node property) fun id s' => s'.Divides block id := by
  unfold complement
  refine ((reads_applyValueKeywords hdraft).andGives
    (divided_applyValueKeywords hdivided)).yieldsThen fun valued hvalued => ?_
  obtain ⟨⟨strict, hdraft⟩, hdivided⟩ := hvalued
  refine ((yields_applyCompositions hb hd hr hdraft).andGives
    (divided_applyCompositions hdivided)).bind fun composed t _ hcomposed => ?_
  exact yields_addDivided hcomposed.1.knows hcomposed.1.inStep hcomposed.2

/-- What is behind a property's draft leaves what it asks by place, and its parts have been built all the same. -/
theorem yields_assigned (hb : scene.Accepts build) (hd : site.scope.document = scene.document)
    (hr : references node ⊆ scene.spelled) {m : Session} (hdraft : scene.Draft m site.required false property) (hassigns : scene.Assigns build site.scope s m node property) :
    scene.Yields m (complement build site node property) fun id s' =>
      ∃ block, AsksByPlace (BuiltBetween scene.config build site.scope s s') node block ∧ s'.Divides block id := by
  obtain ⟨block, hasks, hdivided⟩ := hassigns
  refine (yields_complement hb hd hr hdraft hdivided).whenWritten fun id s' hwrites hdivides => ?_
  exact ⟨block, hasks.imp fun _ _ hbuilt => hbuilt.widen .refl hwrites, hdivides⟩

theorem yields_typed_array (hb : scene.Accepts build) (hd : site.scope.document = scene.document)
    (hr : references node ⊆ scene.spelled) :
    scene.Yields s (typed build site node "array") fun id s' =>
      ∃ block, AsksByPlace (BuiltBetween scene.config build site.scope s s') node block ∧ s'.Divides block id := by
  change scene.Yields s (ofKind build site node .array >>= complement build site node) _
  refine ((yields_ofKind hb hd hr .array).and (assigns_ofKind hb hd hr)).bind fun property m hm hproperty => ?_
  exact yields_assigned hb hd hr hproperty.1 hproperty.2

theorem yields_union_array (hb : scene.Accepts build) (hd : site.scope.document = scene.document)
    (hr : references node ⊆ scene.spelled) {types : List Json} (harray : .string "array" ∈ types) :
    scene.Yields s (union build site node types) fun id s' =>
      ∃ block, AsksByPlace (BuiltBetween scene.config build site.scope s s') node block ∧ s'.Divides block id := by
  unfold union
  refine (reads_unionKinds.andGives gives_unionKinds).yieldsThen fun kinds hkinds => ?_
  obtain ⟨-, hnodup, hmem⟩ := hkinds
  have hkept : .array ∈ kinds.filter (· ≠ .null) :=
    List.mem_filter.2 ⟨(hmem .array).2 ⟨"array", harray, rfl⟩, rfl⟩
  refine (reads_newProperty.andGives collects_newProperty).yieldsThen fun fresh hfresh => ?_
  obtain ⟨hraw, hcollects⟩ := hfresh
  refine ((yields_addMembers hb hd hr hraw).and
    (assigns_addMembers hb hd hr (hnodup.filter _) hkept hraw hcollects)).bind fun merged u hu hmerged => ?_
  obtain ⟨hraw, block, hasks, hcollects⟩ := hmerged
  simp only
  refine reads_allowsNull.yieldsThen fun allowed hallowed => ?_
  subst hallowed
  have hlabelled : ∀ label : Option TypeLabel, scene.Raw u site.required { merged with label } := fun label =>
    ⟨hraw.regular, hraw.required, hraw.strict, hraw.relaxed, hraw.knows.checks, hraw.knows.nested, hraw.knows.decorators⟩
  refine yields_assigned hb hd hr ?_ ⟨block, hasks, ?_⟩
  · refine (hlabelled _).present.addCheck rfl ?_ (Graph.knowsCheck_of_nil rfl rfl)
    simp [Check.withNull, Bool.and_assoc]
  · exact Divided.addCheck (divided_present (hcollects.divided.of_validators rfl)) rfl

/-- **A node that declares arrays** has its items asked for by place as it says. -/
theorem yields_array (hb : scene.Accepts build) (hd : site.scope.document = scene.document)
    (hr : references node ⊆ scene.spelled) (hplain : node.get? "$ref" = none) (harray : DeclaresArray node) :
    scene.Yields s (nodeProperty build site node) fun id s' =>
      ∃ block, AsksByPlace (BuiltBetween scene.config build site.scope s s') node block ∧ s'.Divides block id := by
  have hobject : ∃ members, node = .object members := by
    cases node with
    | object members => exact ⟨members, rfl⟩
    | _ => rcases harray with h | ⟨_, h, -⟩ <;> cases h
  obtain ⟨members, rfl⟩ := hobject
  unfold nodeProperty Keyword.normalize
  rw [pure_bind, hplain]
  rcases harray with hword | ⟨types, htypes, hmem⟩
  · simp only [hword]
    exact yields_typed_array hb hd hr
  · simp only [htypes]
    exact yields_union_array hb hd hr hmem

end Building.Scene

namespace Session

open Build Property

variable {config : Config} {traced : Prop} {s s' : Session} {block : List Check} {id : PropertyId}

theorem divided_amended {property : Property} (h : property.Divided block) (amendments : List Amendment) :
    (property.amended amendments).Divided block := by
  refine List.foldlRecOn amendments _ h fun amended hamended amendment _ => ?_
  cases amendment with
  | relax => exact hamended.relax
  | describe text => exact hamended.of_validators rfl

theorem Divides.deeds (h : s.Divides block id) (hdeeds : Deeds config traced s s') : s'.Divides block id := by
  refine hdeeds.keeps (P := fun m => m.Divides block id) (fun m m' hdeed hm => ?_) h
  refine ⟨hm.there.grows hdeed.precedes.recalls.grows, ?_, fun key hwaits => hm.free key (hdeed.waits_there hm.there hwaits)⟩
  rcases hdeed.amends hm.there with ⟨key, hwaits, -⟩ | ⟨amendments, hamended⟩
  · exact absurd hwaits (hm.free key)
  · rw [hamended]
    exact divided_amended hm.divided amendments

/-- Wherever in a call a node that declares arrays is built, its property asks by place what the node says, with parts that
have been built for it on the way, at the end of the call and after later ones. -/
theorem divided_built {earlier later : List Call} {m m' t : Session} {bound : Nat} {site : Site} {node : Json}
    (hm : Writes config.settings.implicitNull (performAll config earlier) m) (hplain : node.get? "$ref" = none)
    (harray : DeclaresArray node) (hbuilt : (Building.property bound site node).Runs config m id m')
    (hdeeds : Deeds config traced m' t) : ∃ block,
      AsksByPlace (BuiltBetween config (Building.property (bound - 1)) site.scope m m') node block ∧
      ((later.foldl (perform config) t).graph.property id).Divided block := by
  have hbefore := orderly_performAll config earlier
  let scene : Scene := ⟨config, m.documents, site.scope.document, references node⟩
  have hstands : scene.Stands m := ⟨rfl, hm.closed hbefore.closed, hm.inStep hbefore.inStep⟩
  cases bound with
  | zero => exact absurd hbuilt Build.not_runs_throw
  | succ bound =>
    have hyields : scene.Yields m (nodeProperty (Building.property bound) site node) fun id s' =>
        ∃ block, AsksByPlace (BuiltBetween config (Building.property bound) site.scope m s') node block ∧
          s'.Divides block id :=
      Scene.yields_array (Scene.accepts_property bound scene) rfl (List.Subset.refl _) hplain harray
    obtain ⟨-, -, block, hasks, hdivides⟩ := (hyields hstands).1 id m' hbuilt
    have hkept := hdivides.deeds hdeeds
    refine ⟨block, hasks, ?_⟩
    rw [(enduresIn_performs config later t).property id hkept.there]
    exact hkept.divided

end Session
end SchemaTypes

import SchemaTypes.Proofs.Building.Refining
import SchemaTypes.Proofs.Building.Writes
/-!
# What checks ask of their children

Null settles a property's checks only if it is neither required nor relaxed, so a check's children are strict as long
as they have one of the two marks: they are firm.  A child in a nested context is sheltered, which is more: it is
relaxed and not required, and nothing asks for its presence.  The branches of a composition are required or sheltered,
as the property they belong to is.

Only operations that a property's marks survive are ever applied to a child.  Filling a placeholder in restamps the
validators by the marks of the placeholder, and a copy is a new property, which no check refers to yet.  So a graph that
shelters its children goes on doing so (`Graph.Upholds`), and `Build.Upholds` says it of runs.  As in the contracts of
`Outcomes` the session a run starts from is fixed; what is known of it is carried over to later ones by `upheld`.
-/
namespace SchemaTypes

namespace Graph

/-- By its marks, null settles none of the property's checks. -/
def Firm (graph : Graph) (id : PropertyId) : Prop :=
  (graph.property id).required = true ∨ (graph.property id).relaxed = true

/-- The property lives in a nested context. -/
structure Sheltered (graph : Graph) (id : PropertyId) : Prop where
  required : (graph.property id).required = false
  relaxed : (graph.property id).relaxed = true

/-- The children are marked as the check asks. -/
structure Houses (graph : Graph) (check : Check) : Prop where
  firm : ∀ id ∈ check.children, graph.Firm id
  sheltered : Building.isComposed check = false → ∀ id ∈ check.children, graph.Sheltered id

def HousesAll (graph : Graph) (validators : Validators) : Prop := ∀ v ∈ validators.toList, graph.Houses v.check

structure Sheltering (graph : Graph) : Prop where
  properties : ∀ id, graph.HousesAll (graph.property id).validators
  types : ∀ id, graph.HousesAll (graph.entry id).validators

/-- What is marked for being a child stays so. -/
structure Upholds (graph other : Graph) : Prop where
  firm : ∀ id, graph.Firm id → other.Firm id
  sheltered : ∀ id, graph.Sheltered id → other.Sheltered id

/-- A property that is marked as it was asked for and whose checks have the children they ask for. -/
structure Harbors (graph : Graph) (required : Bool) (property : Property) : Prop where
  required : property.required = required
  houses : graph.HousesAll property.validators

variable {graph other : Graph} {id : PropertyId} {check : Check} {property : Property} {validators : Validators}
  {required : Bool}

theorem Sheltered.firm (h : graph.Sheltered id) : graph.Firm id := Or.inr h.relaxed

/-- An id that nobody handed out has no marks. -/
theorem Firm.hasProperty (h : graph.Firm id) : graph.HasProperty id := by
  refine Nat.lt_of_not_le fun hle => ?_
  have hnone : graph.property id = default := by
    simp [Graph.property, Array.getElem?_eq_none hle]
  rw [Firm, hnone] at h
  rcases h with h | h
  · cases h
  · cases h

theorem Upholds.refl (graph : Graph) : graph.Upholds graph := ⟨fun _ h => h, fun _ h => h⟩

theorem Upholds.trans {third : Graph} (h : graph.Upholds other) (h' : other.Upholds third) : graph.Upholds third :=
  ⟨fun id hid => h'.firm id (h.firm id hid), fun id hid => h'.sheltered id (h.sheltered id hid)⟩

theorem Houses.upheld (h : graph.Houses check) (hg : graph.Upholds other) : other.Houses check :=
  ⟨fun id hid => hg.firm id (h.firm id hid), fun hplain id hid => hg.sheltered id (h.sheltered hplain id hid)⟩

theorem HousesAll.upheld (h : graph.HousesAll validators) (hg : graph.Upholds other) : other.HousesAll validators :=
  fun v hv => (h v hv).upheld hg

theorem Harbors.upheld (h : graph.Harbors required property) (hg : graph.Upholds other) :
    other.Harbors required property := ⟨h.required, h.houses.upheld hg⟩

/-! ## Checks and validators -/

theorem houses_of_nil (h : check.children = []) : graph.Houses check :=
  ⟨fun _ hid => absurd (h ▸ hid) List.not_mem_nil, fun _ _ hid => absurd (h ▸ hid) List.not_mem_nil⟩

theorem houses_of_sheltered (h : ∀ id ∈ check.children, graph.Sheltered id) : graph.Houses check :=
  ⟨fun id hid => (h id hid).firm, fun _ => h⟩

theorem houses_of_composed (hcomposed : Building.isComposed check = true) (h : ∀ id ∈ check.children, graph.Firm id) :
    graph.Houses check := ⟨h, fun hplain => nomatch hcomposed.symm.trans hplain⟩

theorem Houses.withNull (h : graph.Houses check) (settles : Bool) : graph.Houses (check.withNull settles) := by
  cases check with
  | type => exact houses_of_nil rfl
  | enumeration => exact houses_of_nil rfl
  | implicitNull => exact houses_of_nil rfl
  | _ => exact h

theorem housesAll_empty : graph.HousesAll {} := fun _ hv => absurd hv List.not_mem_nil

theorem HousesAll.addCheck (h : graph.HousesAll validators) (hcheck : graph.Houses check) :
    graph.HousesAll (validators.addCheck check) := by
  intro v hv
  rcases Validators.mem_toList_add.1 hv with rfl | hv
  · exact hcheck
  · exact h v hv

theorem HousesAll.removeRequired (h : graph.HousesAll validators) : graph.HousesAll validators.removeRequired := by
  intro v hv
  rw [Validators.toList_removeRequired] at hv
  exact h v (List.mem_filter.1 hv).1

theorem HousesAll.stampRequired (h : graph.HousesAll property.validators) (required allowed : Bool) :
    graph.HousesAll (property.stampRequired required allowed).validators := by
  intro v hv
  simp only [Property.stampRequired] at hv
  rw [Validators.toList_mapChecks] at hv
  obtain ⟨w, hw, rfl⟩ := List.mem_map.1 hv
  refine Houses.withNull ?_ _
  split at hw
  · exact h.removeRequired.addCheck (houses_of_nil rfl) w hw
  · exact h.removeRequired w hw

theorem Harbors.addCheck (h : graph.Harbors required property) (hcheck : graph.Houses check) :
    graph.Harbors required (property.addCheck check) := ⟨h.required, h.houses.addCheck hcheck⟩

theorem Harbors.addLeaf (h : graph.Harbors required property) (hleaf : check.children = []) :
    graph.Harbors required (property.addCheck check) := h.addCheck (houses_of_nil hleaf)

theorem Harbors.addDecorator (h : graph.Harbors required property) (decorator : Decorator) :
    graph.Harbors required (property.addDecorator decorator) := by
  unfold Property.addDecorator
  split
  · exact h
  · exact ⟨h.required, h.houses⟩

/-! ## Writes -/

/-- The marks are as they were, or those of a nested context. -/
def AsMarked (before after : Property) : Prop :=
  (after.required = before.required ∧ after.relaxed = before.relaxed) ∨ (after.required = false ∧ after.relaxed = true)

theorem upholds_of_marks (h : ∀ id, graph.HasProperty id → AsMarked (graph.property id) (other.property id)) :
    graph.Upholds other := by
  refine ⟨fun id hid => ?_, fun id hid => ?_⟩
  · rcases h id hid.hasProperty with ⟨hrequired, hrelaxed⟩ | ⟨_, hrelaxed⟩
    · exact hid.imp hrequired.trans hrelaxed.trans
    · exact Or.inr hrelaxed
  · rcases h id hid.firm.hasProperty with ⟨hrequired, hrelaxed⟩ | ⟨hrequired, hrelaxed⟩
    · exact ⟨hrequired.trans hid.required, hrelaxed.trans hid.relaxed⟩
    · exact ⟨hrequired, hrelaxed⟩

/-- Types have no marks. -/
theorem upholds_of_properties (h : other.properties = graph.properties) : graph.Upholds other := by
  have hsame : ∀ id, other.property id = graph.property id := fun id => by
    unfold Graph.property
    rw [h]
  refine upholds_of_marks fun id _ => Or.inl ?_
  rw [hsame]
  exact ⟨rfl, rfl⟩

theorem upholds_addProperty (graph : Graph) (property : Property) : graph.Upholds (graph.addProperty property).2 := by
  refine upholds_of_marks fun id hid => Or.inl ?_
  rw [property_addProperty_of_lt graph property hid]
  exact ⟨rfl, rfl⟩

theorem Sheltering.addProperty (h : graph.Sheltering) (hproperty : graph.HousesAll property.validators) :
    (graph.addProperty property).2.Sheltering := by
  have hg := upholds_addProperty graph property
  refine ⟨fun id => ?_, fun id => (h.types id).upheld hg⟩
  rw [Session.property_addProperty_eq]
  split
  · exact hproperty.upheld hg
  · exact (h.properties id).upheld hg

theorem upholds_modifyProperty {f : Property → Property} (hf : ∀ property, AsMarked property (f property)) :
    graph.Upholds (graph.modifyProperty id f) := by
  refine upholds_of_marks fun other _ => ?_
  rw [Session.property_modifyProperty_eq]
  split
  · exact hf _
  · exact Or.inl ⟨rfl, rfl⟩

theorem Sheltering.modifyProperty (h : graph.Sheltering) {f : Property → Property}
    (hg : graph.Upholds (graph.modifyProperty id f))
    (hf : graph.HousesAll (graph.property id).validators → graph.HousesAll (f (graph.property id)).validators) :
    (graph.modifyProperty id f).Sheltering := by
  refine ⟨fun other => ?_, fun other => (h.types other).upheld hg⟩
  rw [Session.property_modifyProperty_eq]
  split
  · rename_i heq
    obtain rfl : other = id := by cases other; cases id; exact congrArg _ heq.1
    exact (hf (h.properties other)).upheld hg
  · exact (h.properties other).upheld hg

theorem Sheltering.modifyType (h : graph.Sheltering) {type : TypeId} {f : ObjectType → ObjectType}
    (hf : ∀ entry, graph.HousesAll entry.validators → graph.HousesAll (f entry).validators) :
    (graph.modifyType type f).Sheltering := by
  have hg : graph.Upholds (graph.modifyType type f) := upholds_of_properties rfl
  refine ⟨fun id => (h.properties id).upheld hg, fun id => ?_⟩
  rw [Session.entry_modifyType_eq]
  split
  · exact (hf _ (h.types id)).upheld hg
  · exact (h.types id).upheld hg

theorem Sheltering.reserve (h : graph.Sheltering) (namespaceName className : String) (isRoot : Bool) :
    (graph.reserve namespaceName className isRoot).2.Sheltering := by
  have hg : graph.Upholds (graph.reserve namespaceName className isRoot).2 := upholds_of_properties rfl
  refine ⟨fun id => (h.properties id).upheld hg, fun id => ?_⟩
  rw [Session.entry_reserve_eq]
  split
  · exact housesAll_empty
  · exact (h.types id).upheld hg

theorem sheltering_empty : Sheltering {} := ⟨fun _ => housesAll_empty, fun _ => housesAll_empty⟩

/-! ## Relaxing and filling in -/

theorem upholds_relax : graph.Upholds (graph.modifyProperty id Property.relax) :=
  upholds_modifyProperty fun _ => Or.inr ⟨rfl, rfl⟩

theorem Sheltering.relax (h : graph.Sheltering) : (graph.modifyProperty id Property.relax).Sheltering :=
  h.modifyProperty upholds_relax fun hproperty => HousesAll.removeRequired hproperty

/-- Whatever is there can be relaxed. -/
theorem sheltered_relax (h : graph.HasProperty id) : (graph.modifyProperty id Property.relax).Sheltered id := by
  have hrelaxed := property_modifyProperty graph Property.relax h
  exact ⟨hrelaxed ▸ rfl, hrelaxed ▸ rfl⟩

/-- A placeholder keeps its marks, and its definition's checks have their children already. -/
theorem upholds_bound (definition : Property) (allowed : Bool) :
    graph.Upholds (graph.modifyProperty id (Building.bound · definition allowed)) :=
  upholds_modifyProperty fun _ => Or.inl ⟨rfl, rfl⟩

theorem Sheltering.bound (h : graph.Sheltering) (definition : PropertyId) (allowed : Bool) :
    (graph.modifyProperty id (Building.bound · (graph.property definition) allowed)).Sheltering := by
  refine h.modifyProperty (upholds_bound _ allowed) fun _ => ?_
  unfold Building.bound
  exact HousesAll.stampRequired (by exact h.properties definition) _ allowed

/-- A copy takes over its definition's children. -/
theorem Sheltering.copied (h : graph.Sheltering) (definition : PropertyId) (name identifier : String)
    (required allowed : Bool) :
    graph.Harbors required (Building.copied (graph.property definition) name identifier required allowed) := by
  refine ⟨rfl, ?_⟩
  unfold Building.copied
  exact HousesAll.stampRequired (by exact h.properties definition) required allowed

end Graph

/-! ## Runs -/

namespace Build

/-- Both outcomes shelter the children of all checks.  Success has kept what was marked, and ends as `Q` says. -/
def Upholds (config : Config) (s : Session) {α : Type} (x : Build α) (Q : α → Graph → Prop) : Prop :=
  s.graph.Sheltering →
    (∀ a s', x.Runs config s a s' → s.graph.Upholds s'.graph ∧ s'.graph.Sheltering ∧ Q a s'.graph) ∧
      ∀ halt s', x.Halts config s halt s' → s'.graph.Sheltering

/-- What later graphs do not take back. -/
def Lasting {α : Type} (Q : α → Graph → Prop) : Prop := ∀ a graph other, graph.Upholds other → Q a graph → Q a other

variable {α β : Type} {config : Config} {s : Session} {x : Build α} {f : α → Build β} {Q : α → Graph → Prop}
  {R : β → Graph → Prop} {q : α → Prop}

theorem upholds_pure {a : α} (h : Q a s.graph) : Upholds config s (pure a) Q := by
  refine fun hs => ⟨fun b s' hrun => ?_, fun halt s' hhalts => absurd hhalts not_halts_pure⟩
  obtain ⟨rfl, rfl⟩ := runs_pure.1 hrun
  exact ⟨.refl _, hs, h⟩

theorem upholds_throw {halt : Halt} : Upholds config s (throw halt : Build α) Q := by
  refine fun hs => ⟨fun a s' hrun => absurd hrun not_runs_throw, fun other s' hhalts => ?_⟩
  obtain ⟨_, rfl⟩ := halts_throw.1 hhalts
  exact hs

theorem upholds_refuse {fault : SchemaFault} : Upholds config s (refuse fault) Q := upholds_throw

theorem upholds_malformed {property reason : String} : Upholds config s (malformed property reason) Q := upholds_refuse

theorem Upholds.imp {Q' : α → Graph → Prop} (h : Upholds config s x Q) (hQQ' : ∀ a graph, Q a graph → Q' a graph) :
    Upholds config s x Q' := fun hs => ⟨fun a s' hrun => by
  obtain ⟨hg, hs', ha⟩ := (h hs).1 a s' hrun
  exact ⟨hg, hs', hQQ' a _ ha⟩, (h hs).2⟩

theorem Upholds.bind (hx : Upholds config s x Q)
    (hf : ∀ a m, s.graph.Upholds m.graph → Q a m.graph → Upholds config m (f a) R) : Upholds config s (x >>= f) R := by
  refine fun hs => ⟨fun b s' hrun => ?_, fun halt s' hhalts => ?_⟩
  · obtain ⟨a, m, hxrun, hfrun⟩ := runs_bind.1 hrun
    obtain ⟨hg, hm, ha⟩ := (hx hs).1 a m hxrun
    obtain ⟨hg', hs', hb⟩ := (hf a m hg ha hm).1 b s' hfrun
    exact ⟨hg.trans hg', hs', hb⟩
  · rcases halts_bind.1 hhalts with hxhalts | ⟨a, m, hxrun, hfhalts⟩
    · exact (hx hs).2 halt s' hxhalts
    · obtain ⟨hg, hm, ha⟩ := (hx hs).1 a m hxrun
      exact (hf a m hg ha hm).2 halt s' hfhalts

/-- A part that only reads, with what its result is like. -/
theorem Tells.upholds (hx : Detached x) (h : Tells config x fun a => Q a s.graph) : Upholds config s x Q := by
  refine fun hs => ⟨fun a s' hrun => ?_, fun halt s' hhalts => hx.eq_of_halts hhalts ▸ hs⟩
  obtain ⟨rfl, ha⟩ := h hrun
  exact ⟨.refl _, hs, ha⟩

theorem Tells.upholdsThen (hx : Detached x) (h : Tells config x q) (hf : ∀ a, q a → Upholds config s (f a) R) :
    Upholds config s (x >>= f) R := by
  refine fun hs => ⟨fun b s' hrun => ?_, fun halt s' hhalts => ?_⟩
  · obtain ⟨a, m, hxrun, hfrun⟩ := runs_bind.1 hrun
    obtain ⟨rfl, ha⟩ := h hxrun
    exact (hf a ha hs).1 b s' hfrun
  · rcases halts_bind.1 hhalts with hxhalts | ⟨a, m, hxrun, hfhalts⟩
    · exact hx.eq_of_halts hxhalts ▸ hs
    · obtain ⟨rfl, ha⟩ := h hxrun
      exact (hf a ha hs).2 halt s' hfhalts

theorem Detached.upholdsThen (hx : Detached x) (hf : ∀ a, Upholds config s (f a) R) : Upholds config s (x >>= f) R :=
  hx.tells.upholdsThen hx fun a _ => hf a

/-- Whoever needs the invariant may ask for it. -/
theorem upholds_of_sheltering (h : s.graph.Sheltering → Upholds config s x Q) : Upholds config s x Q :=
  fun hs => h hs hs

theorem upholds_get_bind {f : Session → Build β} (h : Upholds config s (f s) R) : Upholds config s (get >>= f) R :=
  fun hs => ⟨fun b s' hrun => (h hs).1 b s' (runs_get_bind.1 hrun),
    fun halt s' hhalts => (h hs).2 halt s' (halts_get_bind.1 hhalts)⟩

theorem upholds_graph_bind {f : Graph → Build β} (h : Upholds config s (f s.graph) R) :
    Upholds config s (Build.graph >>= f) R := by
  unfold Build.graph
  rw [bind_assoc]
  exact upholds_get_bind (by rw [pure_bind]; exact h)

/-- One write. -/
theorem upholds_of_runs {v : α} {s' : Session} (hx : x.Runs config s v s')
    (h : s.graph.Sheltering → s.graph.Upholds s'.graph ∧ s'.graph.Sheltering ∧ Q v s'.graph) :
    Upholds config s x Q := by
  refine fun hs => ⟨fun a t hrun => ?_, fun halt t hhalts => absurd hhalts hx.not_halts⟩
  obtain ⟨rfl, rfl⟩ := hrun.unique hx
  exact h hs

/-- A write that leaves the graph alone. -/
theorem upholds_modify {g : Session → Session} (hg : (g s).graph = s.graph) :
    Upholds config s (modify g : Build PUnit) fun _ _ => True :=
  upholds_of_runs (v := ⟨⟩) (runs_modify.2 rfl) fun hs => ⟨hg ▸ .refl _, hg ▸ hs, trivial⟩

theorem upholds_notify {notice : Notice} : Upholds config s (notify notice) fun _ _ => True := upholds_modify rfl

theorem upholds_addProperty {property : Property} {required : Bool} (h : s.graph.Harbors required property) :
    Upholds config s (addProperty property) fun id graph => required = true → graph.Firm id := by
  refine upholds_of_runs (runs_addProperty.2 ⟨rfl, rfl⟩) fun hs => ?_
  refine ⟨Graph.upholds_addProperty _ _, hs.addProperty h.houses, fun hrequired => Or.inl ?_⟩
  rw [Graph.property_addProperty]
  exact h.required.trans hrequired

theorem upholds_modifyType {type : TypeId} {f : ObjectType → ObjectType}
    (hf : ∀ entry, s.graph.HousesAll entry.validators → s.graph.HousesAll (f entry).validators) :
    Upholds config s (modifyType type f) fun _ _ => True :=
  upholds_of_runs (v := ⟨⟩) (runs_modifyGraph.2 rfl) fun hs =>
    ⟨Graph.upholds_of_properties rfl, hs.modifyType hf, trivial⟩

theorem upholds_addTypeCheck {type : TypeId} {check : Check} (h : s.graph.Houses check) :
    Upholds config s (addTypeCheck type check) fun _ _ => True :=
  upholds_modifyType fun _ hentry => hentry.addCheck h

theorem upholds_addTypeProperty {type : TypeId} {id : PropertyId} :
    Upholds config s (addTypeProperty type id) fun _ _ => True :=
  upholds_modifyType fun _ hentry => hentry

/-! ### Loops -/

theorem upholds_mapM {f : α → Build β} (hR : Lasting R) : ∀ {l : List α} {s : Session},
    (∀ a ∈ l, ∀ m, s.graph.Upholds m.graph → Upholds config m (f a) R) →
      Upholds config s (l.mapM f) fun bs graph => ∀ b ∈ bs, R b graph
  | [], _, _ => by
    rw [List.mapM_nil]
    exact upholds_pure fun _ hb => absurd hb List.not_mem_nil
  | a :: l, s, h => by
    rw [List.mapM_cons]
    refine (h a List.mem_cons_self s (.refl _)).bind fun b m hm hb => ?_
    refine (upholds_mapM hR fun x hx t ht => h x (List.mem_cons_of_mem _ hx) t (hm.trans ht)).bind
      fun bs t ht hbs => ?_
    exact upholds_pure (List.forall_mem_cons.2 ⟨hR b _ _ ht hb, hbs⟩)

theorem upholds_foldlM {f : β → α → Build β} : ∀ {l : List α} {b : β} {s : Session},
    (∀ b a m, s.graph.Upholds m.graph → R b m.graph → Upholds config m (f b a) R) → R b s.graph →
      Upholds config s (l.foldlM f b) R
  | [], _, _, _, hb => by
    rw [List.foldlM_nil]
    exact upholds_pure hb
  | a :: l, b, s, h, hb => by
    rw [List.foldlM_cons]
    refine (h b a s (.refl _) hb).bind fun b' m hm hb' => ?_
    exact upholds_foldlM (fun c x t ht hc => h c x t (hm.trans ht) hc) hb'

theorem upholds_forM {f : α → Build Unit} : ∀ {l : List α} {s : Session},
    (∀ a ∈ l, ∀ m, s.graph.Upholds m.graph → Upholds config m (f a) fun _ _ => True) →
      Upholds config s (l.forM f) fun _ _ => True
  | [], _, _ => upholds_pure trivial
  | a :: l, s, h => by
    change Upholds config s (f a >>= fun _ => l.forM f) _
    refine (h a List.mem_cons_self s (.refl _)).bind fun _ m hm _ => ?_
    exact upholds_forM fun x hx t ht => h x (List.mem_cons_of_mem _ hx) t (hm.trans ht)

theorem upholds_forIn {f : α → β → Build (ForInStep β)} : ∀ {l : List α} {b : β} {s : Session},
    (∀ a b m, s.graph.Upholds m.graph → Upholds config m (f a b) fun _ _ => True) →
      Upholds config s (forIn l b f) fun _ _ => True
  | [], _, _, _ => by
    rw [List.forIn_nil]
    exact upholds_pure trivial
  | a :: l, b, s, h => by
    rw [List.forIn_cons]
    refine (h a b s (.refl _)).bind fun next m hm _ => ?_
    cases next with
    | done b => exact upholds_pure trivial
    | yield b => exact upholds_forIn fun x c t ht => h x c t (hm.trans ht)

theorem upholds_option_mapM {f : α → Build β} {o : Option α}
    (h : ∀ a, Upholds config s (f a) R) : Upholds config s (o.mapM f) fun found graph => ∀ b ∈ found, R b graph := by
  cases o with
  | none => exact upholds_pure fun _ hb => nomatch hb
  | some a =>
    refine (h a).bind fun b m _ hb => upholds_pure fun c hc => ?_
    cases hc
    exact hb

end Build
end SchemaTypes

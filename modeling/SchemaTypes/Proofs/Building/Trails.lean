import SchemaTypes.Proofs.Building.Lifts
/-!
# Contracts of what does deeds

`trail.Does x q`: wherever `x` succeeds, it has done deeds and nothing else, what is in progress is the same again, the
same types are unfinished, and the answer is as `q` says.  The rules follow the shape of programs.

If deeds are traced, a caller owes that what is being built as an object has a type that is not finished yet, that
everything in progress leads to the references still to come, and that lifted properties are told apart
(`Trail.Ready`).  Traced or not, the types that are being filled in are not finished, and only these are written to.

A builder does deeds, and the property it answers has not been lifted (`Trail.Makes`).
-/
namespace SchemaTypes.Building

/-- What is fixed while a node is built: the document its references start from, the references it may spell, and the
types that are being filled in. -/
structure Trail where
  config : Config
  traced : Prop
  document : String
  spelled : List String
  filling : List TypeId

namespace Trail

structure Ready (trail : Trail) (s : Session) : Prop where
  distinct : Distinct s.documents
  collapsed : s.Collapsed
  unfinished : trail.traced → ∀ key type, s.InProgress key (some type) → s.Unfinished type
  describes : trail.traced → ∀ key type, s.InProgress key (some type) → DescribesObject s.documents key
  leads : trail.traced → ∀ key type, s.InProgress key type → ∀ reference ∈ trail.spelled, ∀ target,
    targetIn? s.documents trail.document reference = some target → Leads s.documents key target.key
  marked : trail.traced → s.Marked
  filling : ∀ type ∈ trail.filling, s.Unfinished type

structure After (trail : Trail) (s s' : Session) : Prop where
  deeds : Session.Deeds trail.config trail.traced s s'
  inProgress : ∀ key type, s'.InProgress key type ↔ s.InProgress key type
  asFinished : s.AsFinished s'

def Does (trail : Trail) {α : Type} (x : Build α) (q : α → Prop) : Prop :=
  ∀ ⦃s a s'⦄, trail.Ready s → x.Runs trail.config s a s' → trail.After s s' ∧ q a

def Makes (trail : Trail) (x : Build PropertyId) : Prop :=
  ∀ ⦃s id s'⦄, trail.Ready s → x.Runs trail.config s id s' → trail.After s s' ∧ (trail.traced → s'.Own id)

variable {trail : Trail} {α β : Type} {s m s' : Session}

theorem After.refl (trail : Trail) (s : Session) : trail.After s s := ⟨.refl, fun _ _ => Iff.rfl, fun _ => Iff.rfl⟩

theorem After.trans (h : trail.After s m) (h' : trail.After m s') : trail.After s s' where
  deeds := h.deeds.trans h'.deeds
  inProgress key type := (h'.inProgress key type).trans (h.inProgress key type)
  asFinished id := (h'.asFinished id).trans (h.asFinished id)

theorem Ready.after (h : trail.Ready s) (hafter : trail.After s s') : trail.Ready s' := by
  have hdocuments := hafter.deeds.documents
  refine ⟨hdocuments ▸ h.distinct, hafter.deeds.precedes.collapsed h.collapsed, fun htraced key type hkey => ?_,
    fun htraced key type hkey => ?_, fun htraced key type hkey => ?_,
    fun htraced => hafter.deeds.marked htraced (h.marked htraced),
    fun type htype => (hafter.asFinished type).2 (h.filling type htype)⟩
  · exact (hafter.asFinished type).2 (h.unfinished htraced key type ((hafter.inProgress key _).1 hkey))
  · rw [hdocuments]
    exact h.describes htraced key type ((hafter.inProgress key _).1 hkey)
  · rw [hdocuments]
    exact h.leads htraced key type ((hafter.inProgress key type).1 hkey)

/-- What stands for a definition in progress still does when the same is in progress again. -/
theorem After.returns {id : PropertyId} (h : trail.After s s') (htraced : trail.traced) (hmarked : s.Marked)
    (hid : s.graph.HasProperty id) (hreturns : s.Returns id) : s'.Returns id := by
  have hlingers : s.Lingers id → s'.Returns id := by
    rintro ⟨key, hwaits, hleads⟩
    refine Or.inl ⟨key, (h.deeds.waits_on hwaits).resolve_right ?_, h.deeds.documents.symm ▸ hleads⟩
    rintro ⟨definition, hbuilt⟩
    obtain ⟨type, waiting, hpending, _⟩ := hwaits
    obtain ⟨_, hstill⟩ := (h.inProgress key type).2 ⟨waiting, hpending⟩
    exact absurd (hstill.symm.trans hbuilt) nofun
  rcases hreturns with hwaits | ⟨type, hnested, key, hpending, hleads⟩
  · exact hlingers hwaits
  · refine (h.deeds.held htraced hmarked hid).elim (fun hsame => Or.inr ⟨type, hsame.trans hnested, key, ?_, ?_⟩) hlingers
    · exact (h.inProgress key _).2 hpending
    · exact h.deeds.documents.symm ▸ hleads

section Rules

variable {x : Build α} {f : α → Build β} {q : α → Prop} {r : β → Prop}

/-! ## Sequences and results -/

theorem Does.imp {q' : α → Prop} (h : trail.Does x q) (hqq' : ∀ a, q a → q' a) : trail.Does x q' := by
  intro s a s' hs hrun
  obtain ⟨hafter, ha⟩ := h hs hrun
  exact ⟨hafter, hqq' a ha⟩

theorem Does.bind (hx : trail.Does x q) (hf : ∀ a, q a → trail.Does (f a) r) : trail.Does (x >>= f) r := by
  intro s b s' hs hrun
  obtain ⟨a, m, hxrun, hfrun⟩ := Build.runs_bind.1 hrun
  obtain ⟨hafter, ha⟩ := hx hs hxrun
  obtain ⟨hafter', hb⟩ := hf a ha (hs.after hafter) hfrun
  exact ⟨hafter.trans hafter', hb⟩

/-- A first part whose result does not matter. -/
theorem Does.andThen (hx : trail.Does x q) (hf : ∀ a, trail.Does (f a) r) : trail.Does (x >>= f) r :=
  hx.bind fun a _ => hf a

theorem Makes.does {x : Build PropertyId} (h : trail.Makes x) : trail.Does x fun _ => True :=
  fun _ _ _ hs hrun => ⟨(h hs hrun).1, trivial⟩

theorem Does.makes {f : α → Build PropertyId} (hx : trail.Does x q) (hf : ∀ a, q a → trail.Makes (f a)) :
    trail.Makes (x >>= f) := by
  intro s id s' hs hrun
  obtain ⟨a, m, hxrun, hfrun⟩ := Build.runs_bind.1 hrun
  obtain ⟨hafter, ha⟩ := hx hs hxrun
  obtain ⟨hafter', hown⟩ := hf a ha (hs.after hafter) hfrun
  exact ⟨hafter.trans hafter', hown⟩

theorem does_of_tells (h : Build.Tells trail.config x q) : trail.Does x q := by
  intro s a s' _ hrun
  obtain ⟨rfl, ha⟩ := h hrun
  exact ⟨.refl trail s', ha⟩

/-- First something that only reads. -/
theorem does_of_detached (hx : Build.Detached x) (hf : ∀ a, trail.Does (f a) r) : trail.Does (x >>= f) r :=
  (does_of_tells hx.tells).andThen hf

theorem does_pure {a : α} (h : q a) : trail.Does (pure a) q := does_of_tells (Build.tells_pure h)

theorem does_refuse {fault : SchemaFault} : trail.Does (Build.refuse fault) q := does_of_tells Build.tells_refuse

theorem makes_refuse {fault : SchemaFault} : trail.Makes (Build.refuse fault) :=
  fun _ _ _ _ hrun => absurd hrun Build.not_runs_refuse

theorem makes_malformed {property reason : String} : trail.Makes (Build.malformed property reason) := makes_refuse

theorem does_malformed {property reason : String} : trail.Does (Build.malformed property reason) q := does_refuse

theorem does_graph : trail.Does Build.graph fun _ => True :=
  does_of_tells fun _ _ _ hrun => ⟨(Build.runs_graph.1 hrun).2, trivial⟩

/-! ## Loops -/

theorem does_mapM {f : β → Build α} : ∀ {l : List β}, (∀ b ∈ l, trail.Does (f b) q) →
    trail.Does (l.mapM f) fun _ => True
  | [], _ => by
    rw [List.mapM_nil]
    exact does_pure trivial
  | b :: l, h => by
    rw [List.mapM_cons]
    refine (h b List.mem_cons_self).andThen fun _ => ?_
    exact (does_mapM fun x hx => h x (List.mem_cons_of_mem _ hx)).andThen fun _ => does_pure trivial

theorem does_foldlM {f : α → β → Build α} : ∀ {l : List β} {a : α}, q a →
    (∀ b ∈ l, ∀ a, q a → trail.Does (f a b) q) → trail.Does (l.foldlM f a) q
  | [], _, ha, _ => by
    rw [List.foldlM_nil]
    exact does_pure ha
  | b :: l, a, ha, h => by
    rw [List.foldlM_cons]
    exact (h b List.mem_cons_self a ha).bind fun _ ha' =>
      does_foldlM ha' fun x hx => h x (List.mem_cons_of_mem _ hx)

theorem does_forM {f : α → Build Unit} : ∀ {l : List α}, (∀ a ∈ l, trail.Does (f a) fun _ => True) →
    trail.Does (l.forM f) fun _ => True
  | [], _ => does_pure trivial
  | a :: l, h => by
    change trail.Does (f a >>= fun _ => l.forM f) _
    exact (h a List.mem_cons_self).andThen fun _ => does_forM fun x hx => h x (List.mem_cons_of_mem _ hx)

theorem does_forIn {f : β → α → Build (ForInStep α)} : ∀ {l : List β} {a : α},
    (∀ b ∈ l, ∀ a, trail.Does (f b a) fun _ => True) → trail.Does (forIn l a f) fun _ => True
  | [], a, _ => by
    rw [List.forIn_nil]
    exact does_pure trivial
  | b :: l, a, h => by
    rw [List.forIn_cons]
    refine (h b List.mem_cons_self a).andThen fun next => ?_
    cases next with
    | done a => exact does_pure trivial
    | yield a => exact does_forIn fun x hx => h x (List.mem_cons_of_mem _ hx)

theorem does_option_mapM {f : α → Build β} {o : Option α} (h : ∀ a, o = some a → trail.Does (f a) r) :
    trail.Does (o.mapM f) fun _ => True := by
  cases o with
  | none => exact does_pure trivial
  | some a => exact (h a rfl).andThen fun _ => does_pure trivial

end Rules

/-! ## Single deeds -/

/-- A deed that leaves definitions alone and finishes nothing. -/
theorem After.of_deed (h : Session.Deed trail.config trail.traced s s')
    (hdefinitions : ∀ key, s'.definition? key = s.definition? key) (hfinished : s.AsFinished s') :
    trail.After s s' := by
  refine ⟨.single h, fun key type => ?_, hfinished⟩
  unfold Session.InProgress
  rw [hdefinitions]

theorem does_notify {notice : Notice} (h : notice.isWarning = true) :
    trail.Does (Build.notify notice) fun _ => True := by
  intro s a s' _ hrun
  obtain rfl := Build.runs_modify.1 hrun
  exact ⟨.of_deed (.notify h) (fun _ => rfl) (Scene.asFinished_of_types rfl), trivial⟩

theorem does_describe {type : TypeId} (hmem : type ∈ trail.filling) (text : String) :
    trail.Does (Build.modifyType type fun entry => { entry with description := some text }) fun _ => True := by
  intro s a s' hs hrun
  obtain rfl := Build.runs_modifyGraph.1 hrun
  exact ⟨.of_deed (.describe text (hs.filling type hmem)) (fun _ => rfl)
    (Scene.asFinished_modifyType s type (Session.keepsStanding_describe text).signature), trivial⟩

/-- A property that is there may be listed. -/
theorem after_addTypeProperty {type : TypeId} {id : PropertyId} {u : Unit} (hmem : type ∈ trail.filling)
    (hs : trail.Ready s) (hid : trail.traced → s.graph.HasProperty id)
    (h : (Build.addTypeProperty type id).Runs trail.config s u s') : trail.After s s' := by
  unfold Build.addTypeProperty Build.modifyType at h
  obtain rfl := Build.runs_modifyGraph.1 h
  exact .of_deed (.enlist (hs.filling type hmem) hid) (fun _ => rfl)
    (Scene.asFinished_modifyType s type (Session.keepsStanding_enlist id).signature)

theorem after_addTypeCheck {type : TypeId} {check : Check} {u : Unit} (hmem : type ∈ trail.filling)
    (hs : trail.Ready s) (hfed : trail.traced → s.FedBy s.Returns type check)
    (h : (Build.addTypeCheck type check).Runs trail.config s u s') : trail.After s s' := by
  unfold Build.addTypeCheck Build.modifyType at h
  obtain rfl := Build.runs_modifyGraph.1 h
  exact .of_deed (.demand (hs.filling type hmem) hfed) (fun _ => rfl)
    (Scene.asFinished_modifyType s type (Session.keepsStanding_demand check).signature)

/-- A check that lifts nothing needs no branches. -/
theorem does_addTypeCheck {type : TypeId} {check : Check} (hmem : type ∈ trail.filling)
    (hplain : ∀ combinator branches, check ≠ .composition combinator branches true) :
    trail.Does (Build.addTypeCheck type check) fun _ => True := fun _ _ _ hs hrun =>
  ⟨after_addTypeCheck hmem hs (fun _ combinator branches heq => absurd heq (hplain combinator branches)) hrun, trivial⟩

/-- What is required may be relaxed. -/
theorem after_relax {id : PropertyId} {u : Unit} (hrequired : (s.graph.property id).required = true)
    (h : (Build.modifyProperty id Property.relax).Runs trail.config s u s') : trail.After s s' := by
  obtain rfl := Build.runs_modifyGraph.1 h
  exact .of_deed (.relax id hrequired) (fun _ => rfl) (Scene.asFinished_of_types rfl)

theorem does_caption {id : PropertyId} {text : String} :
    trail.Does (Build.modifyProperty id fun property => { property with description := some text })
      fun _ => True := by
  intro s a s' _ hrun
  obtain rfl := Build.runs_modifyGraph.1 hrun
  exact ⟨.of_deed (.caption id text) (fun _ => rfl) (Scene.asFinished_of_types rfl), trivial⟩

/-- A property may be added where it fits. -/
theorem after_addProperty {property : Property} (h : s.Fits trail.config property) :
    trail.After s (s.withGraph (s.graph.addProperty property).2) :=
  .of_deed (.draft h) (fun _ => rfl) (Scene.asFinished_of_types rfl)

theorem makes_addProperty {property : Property} (h : property.Flat trail.config) :
    trail.Makes (Build.addProperty property) := by
  intro s id s' _ hrun
  obtain ⟨rfl, rfl⟩ := Build.runs_addProperty.1 hrun
  exact ⟨after_addProperty (Session.fits_of_flat h), fun _ => Session.own_addProperty s h.own⟩

/-! ## Builders -/

/-- The builder keeps to the contract along this trail, and its properties are as required as their sites ask. -/
structure Accepts (trail : Trail) (build : Builder) : Prop where
  makes : ∀ (site : Site) (node : Json), site.scope.document = trail.document → references node ⊆ trail.spelled →
    trail.Makes (build site node)
  required : ∀ {site : Site} {node : Json} {s s' : Session} {id : PropertyId},
    (build site node).Runs trail.config s id s' → (s'.graph.property id).required = site.required

variable {build : Builder} {scope : Scope} {site : Site} {name keyword : String} {node : Json} {draft : Property}

/-- The trail along which one more type is being filled in. -/
def opening (trail : Trail) (type : TypeId) : Trail := { trail with filling := type :: trail.filling }

theorem Ready.opening (h : trail.Ready s) {type : TypeId} (hu : s.Unfinished type) : (trail.opening type).Ready s :=
  ⟨h.distinct, h.collapsed, h.unfinished, h.describes, h.leads, h.marked, List.forall_mem_cons.2 ⟨hu, h.filling⟩⟩

theorem Ready.opened {type : TypeId} (h : (trail.opening type).Ready s) : trail.Ready s :=
  ⟨h.distinct, h.collapsed, h.unfinished, h.describes, h.leads, h.marked, (List.forall_mem_cons.1 h.filling).2⟩

theorem After.opened {type : TypeId} (h : (trail.opening type).After s s') : trail.After s s' :=
  ⟨h.deeds, h.inProgress, h.asFinished⟩

/-- What builders do has nothing to do with the types that are being filled in around them. -/
theorem Accepts.opening (h : trail.Accepts build) (type : TypeId) : (trail.opening type).Accepts build := by
  refine ⟨fun site node hd hr s id s' hs hrun => ?_, h.required⟩
  obtain ⟨hafter, hown⟩ := h.makes site node hd hr hs.opened hrun
  exact ⟨⟨hafter.deeds, hafter.inProgress, hafter.asFinished⟩, hown⟩

theorem does_nested (hb : trail.Accepts build) (hd : scope.document = trail.document)
    (hr : references node ⊆ trail.spelled) : trail.Does (Build.nested build scope name node) fun _ => True := by
  unfold Build.nested
  intro s id s' hs hrun
  obtain ⟨id, m, hbuild, hrest⟩ := Build.runs_bind.1 hrun
  obtain ⟨_, m', hrelax, hreturn⟩ := Build.runs_bind.1 hrest
  obtain ⟨rfl, rfl⟩ := Build.runs_pure.1 hreturn
  have hbuilt := hb.makes _ node hd hr hs hbuild
  exact ⟨hbuilt.1.trans (after_relax (hb.required hbuild) hrelax), trivial⟩

/-! ### Keywords that hold nodes -/

/-- The members read are those of the node. -/
theorem does_members? : trail.Does (Keyword.members? name node keyword) fun found =>
    ∀ member ∈ found.getD [], references member.2 ⊆ references node := by
  unfold Keyword.members?
  split
  · exact does_pure fun member hmember => absurd hmember List.not_mem_nil
  · rename_i members hget
    exact does_pure fun member hmember =>
      List.Subset.trans (references_member hmember) (references_subset_get hget)
  · exact does_malformed

/-- The branches read are parts of the node. -/
theorem does_branches? {combinator : Combinator} :
    trail.Does (Keyword.branches? name node combinator) fun found =>
      ∀ nodes, found = some nodes → ∀ inner ∈ nodes, references inner ⊆ references node := by
  unfold Keyword.branches?
  split
  · exact does_pure fun _ hnone => nomatch hnone
  · rename_i inner hget
    refine does_pure fun found heq other hother => ?_
    cases heq
    rw [List.mem_singleton.1 hother]
    exact references_subset_get hget
  · rename_i nodes _ hget
    refine does_pure fun found heq inner hinner => ?_
    cases heq
    refine List.Subset.trans ?_ (references_subset_get hget)
    rw [references]
    exact references_subset_items hinner
  · exact does_malformed

theorem does_normalize : trail.Does (Keyword.normalize name node) fun normal =>
    references normal ⊆ references node := by
  unfold Keyword.normalize
  split
  · exact does_pure (List.Subset.refl _)
  · refine does_pure ?_
    rw [references_ofBool]
    exact List.nil_subset _
  · exact does_malformed

/-! ## Properties of a declared kind -/

theorem does_addTuple (hb : trail.Accepts build) (hd : scope.document = trail.document) {items : List Json}
    (hitems : ∀ item ∈ items, references item ⊆ trail.spelled) (hr : references node ⊆ trail.spelled) :
    trail.Does (addTuple build scope draft items node) (draft.Refines trail.config) := by
  unfold addTuple
  refine Does.andThen (does_mapM fun x hx =>
    does_nested hb hd (hitems x.1 (List.fst_mem_of_mem_zipIdx hx))) fun positions => ?_
  simp only
  split
  · exact does_pure (refines_addCheck trivial)
  · exact does_pure (refines_addCheck trivial)
  · exact does_pure (refines_addCheck_of (refines_addCheck trivial) trivial)
  · rename_i members hget
    refine (does_nested hb hd (List.Subset.trans (references_subset_get hget) hr)).andThen fun item => ?_
    exact does_pure (refines_addCheck_of (refines_addCheck trivial) trivial)
  · exact does_malformed

theorem does_addItems (hb : trail.Accepts build) (hd : scope.document = trail.document)
    (hr : references node ⊆ trail.spelled) :
    trail.Does (addItems build scope draft node) (draft.Refines trail.config) := by
  unfold addItems
  split
  · exact does_pure (.refl trail.config draft)
  · rename_i items hget
    refine does_addTuple hb hd (fun item hitem => ?_) hr
    refine List.Subset.trans ?_ (List.Subset.trans (references_subset_get hget) hr)
    rw [references]
    exact references_subset_items hitem
  · rename_i item _ hget
    refine (does_nested hb hd (List.Subset.trans (references_subset_get hget) hr)).andThen fun id => ?_
    exact does_pure (refines_addCheck trivial)

theorem does_addContains (hb : trail.Accepts build) (hd : scope.document = trail.document)
    (hr : references node ⊆ trail.spelled) :
    trail.Does (addContains build scope draft node) (draft.Refines trail.config) := by
  unfold addContains
  split
  · exact does_pure (.refl trail.config draft)
  · rename_i item hget
    refine (does_nested hb hd (List.Subset.trans (references_subset_get hget) hr)).andThen fun id => ?_
    exact does_pure (refines_addCheck trivial)

theorem does_addArrayChecks (hb : trail.Accepts build) (hd : scope.document = trail.document)
    (hr : references node ⊆ trail.spelled) :
    trail.Does (addArrayChecks build scope draft node) (draft.Refines trail.config) := by
  unfold addArrayChecks
  refine (does_of_tells (tells_addCount fun _ => by trivial)).bind fun least hleast => ?_
  refine (does_of_tells (tells_addCount fun _ => by trivial)).bind fun counted hcounted => ?_
  refine does_of_detached Keyword.detached_flag fun unique => ?_
  have hunique : draft.Refines trail.config (if unique then counted.addCheck .uniqueItems else counted) := by
    split
    · exact refines_addCheck_of (hleast.trans hcounted) trivial
    · exact hleast.trans hcounted
  refine (does_addItems hb hd hr).bind fun listed hlisted => ?_
  exact (does_addContains hb hd hr).imp fun result hresult => (hunique.trans hlisted).trans hresult

theorem does_addKindChecks (hb : trail.Accepts build) (hd : scope.document = trail.document)
    (hr : references node ⊆ trail.spelled) (kind : Kind) :
    trail.Does (addKindChecks build scope kind draft node) (draft.Refines trail.config) := by
  unfold addKindChecks
  split
  · exact does_of_tells tells_addStringChecks
  · exact does_of_tells tells_addNumberChecks
  · exact does_of_tells tells_addNumberChecks
  · exact does_addArrayChecks hb hd hr
  · exact does_pure (.refl trail.config draft)
  · exact does_pure (.refl trail.config draft)
  · exact does_pure (.refl trail.config draft)

/-- A property of a kind is labelled with the kind. -/
theorem does_ofKind (hb : trail.Accepts build) (hd : site.scope.document = trail.document)
    (hr : references node ⊆ trail.spelled) (kind : Kind) :
    trail.Does (ofKind build site node kind) fun result =>
      result.Flat trail.config ∧ result.label = some (labelOf kind) := by
  unfold ofKind
  refine (does_of_tells Build.tells_presentProperty).bind fun fresh hfresh => ?_
  refine does_of_detached Build.detached_allowsNull fun allowed => ?_
  have hlabelled : ({ fresh with label := some (labelOf kind) } : Property).Flat trail.config :=
    ⟨hfresh.nested, hfresh.admitted, hfresh.own⟩
  refine (does_addKindChecks hb hd hr kind).imp fun result hresult => ?_
  have htype : trail.config.Admits (.type [kind] (allowed && kind != .null)) := trivial
  have hrefines : ({ fresh with label := some (labelOf kind) } : Property).Refines trail.config result :=
    (refines_addCheck htype).trans hresult
  exact ⟨hlabelled.refines hrefines, hrefines.label _ rfl⟩

/-! ## Compositions on a property -/

theorem does_noteIfEmpty {combinator : Combinator} {branches : List Json} :
    trail.Does (noteIfEmpty combinator name branches) fun _ => True := by
  unfold noteIfEmpty
  split
  · exact does_notify rfl
  · exact does_pure trivial

theorem does_branch (hb : trail.Accepts build) (hd : site.scope.document = trail.document)
    (hr : references node ⊆ trail.spelled) : trail.Does (branch build site node) fun _ => True := by
  unfold branch
  intro s id s' hs hrun
  obtain ⟨id, m, hbuild, hrest⟩ := Build.runs_bind.1 hrun
  obtain ⟨hafter, _⟩ := hb.makes { scope := site.scope, name := site.name, required := true } node hd hr hs hbuild
  simp only at hrest
  split at hrest
  · obtain ⟨_, m', hrelax, hreturn⟩ := Build.runs_bind.1 hrest
    obtain ⟨rfl, rfl⟩ := Build.runs_pure.1 hreturn
    exact ⟨hafter.trans (after_relax (hb.required hbuild) hrelax), trivial⟩
  · obtain ⟨rfl, rfl⟩ := Build.runs_pure.1 hrest
    exact ⟨hafter, trivial⟩

theorem does_addComposition (hb : trail.Accepts build) (hd : site.scope.document = trail.document)
    (hr : references node ⊆ trail.spelled) (combinator : Combinator) :
    trail.Does (addComposition build site node draft combinator) (draft.Refines trail.config) := by
  unfold addComposition
  refine does_branches?.bind fun found hfound => ?_
  cases found with
  | none => exact does_pure (.refl trail.config draft)
  | some nodes =>
    refine does_noteIfEmpty.andThen fun _ => ?_
    refine Does.andThen (does_mapM fun inner hinner =>
      does_branch hb hd (references_branch hr (hfound nodes rfl inner hinner))) fun ids => ?_
    refine does_graph.andThen fun graph => does_pure (refines_addCheck_of ?_ trivial)
    split
    · rename_i hnone
      rw [Bool.and_eq_true, Option.isNone_iff_eq_none] at hnone
      exact refines_inferLabel hnone.1 _
    · exact .refl trail.config draft

theorem does_conditional? {buildBranch : Json → Build PropertyId} {onObject : Bool}
    (hbuild : ∀ inner, references inner ⊆ references node → trail.Does (buildBranch inner) fun _ => True) :
    trail.Does (conditional? buildBranch name node onObject) fun found =>
      ∀ check, found = some check → ∃ condition consequent alternative,
        check = .conditional condition consequent alternative onObject := by
  unfold conditional?
  split
  · exact does_pure fun _ hnone => nomatch hnone
  · rename_i condition hget
    split
    · refine (hbuild _ (references_subset_get hget)).andThen fun premise => ?_
      refine (does_option_mapM fun inner hinner => hbuild inner (references_subset_get hinner)).andThen
        fun consequent => ?_
      refine (does_option_mapM fun inner hinner => hbuild inner (references_subset_get hinner)).andThen
        fun alternative => ?_
      exact does_pure fun check heq => ⟨_, _, _, (Option.some.inj heq).symm⟩
    · exact (does_notify rfl).andThen fun _ => does_pure fun _ hnone => nomatch hnone

theorem does_applyCompositions (hb : trail.Accepts build) (hd : site.scope.document = trail.document)
    (hr : references node ⊆ trail.spelled) :
    trail.Does (applyCompositions build site node draft) (draft.Refines trail.config) := by
  unfold applyCompositions
  refine (does_foldlM (q := draft.Refines trail.config) (.refl trail.config draft)
    fun combinator _ result hresult =>
      (does_addComposition hb hd hr combinator).imp fun _ h => hresult.trans h).bind fun composed hcomposed => ?_
  refine (does_conditional? fun inner hinner => does_branch hb hd (references_branch hr hinner)).bind
    fun conditional hconditional => ?_
  have hadded : draft.Refines trail.config ((conditional.map composed.addCheck).getD composed) := by
    cases conditional with
    | none => exact hcomposed
    | some check =>
      obtain ⟨_, _, _, rfl⟩ := hconditional check rfl
      exact refines_addCheck_of hcomposed trivial
  simp only
  split
  · exact does_of_detached Build.detached_allowsNull fun allowed => does_pure (refines_addCheck_of hadded trivial)
  · exact does_pure hadded

end Trail
end SchemaTypes.Building

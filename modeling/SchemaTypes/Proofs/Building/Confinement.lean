import SchemaTypes.Building.Process
import SchemaTypes.Proofs.Building.ObjectChecks
/-!
# Building keeps to its course

Every builder keeps to the course of its call, whichever that is, and answers a new property (`confined_property`).
For a definition the course is watched from a second origin, in which the definition has just begun: what comes to wait
for it since then is new, and that is what completing it fills in (`Passes.leave`).

So processing a document makes moves from the session with the document stored, whether it succeeds or fails
(`Session.moves_process`).
-/
namespace SchemaTypes
namespace Building

open Build

/-- A builder that keeps to every course. -/
def Confined (build : Builder) : Prop := ∀ (course : Course) (site : Site) (node : Json),
  course.Keeps (build site node) course.New

namespace Course

variable {course : Course} {build : Builder} {site : Site} {scope : Scope} {node : Json} {property : Property}
  {type : TypeId} {name keyword : String}

theorem keeps_nested (hb : Confined build) : course.Keeps (Build.nested build scope name node) course.New := by
  unfold Build.nested
  exact (hb course _ node).bind fun id hid => (keeps_modifyProperty hid).andThen fun _ => keeps_pure hid

/-! ## Arrays -/

theorem keeps_addTuple (hb : Confined build) {items : List Json} :
    course.Keeps (addTuple build scope property items node) fun _ => True := by
  unfold addTuple
  refine (keeps_mapM fun _ _ => keeps_nested hb).andThen fun positions => ?_
  simp only
  split
  · exact keeps_pure trivial
  · exact keeps_pure trivial
  · exact keeps_pure trivial
  · exact (keeps_nested hb).andThen fun _ => keeps_pure trivial
  · exact keeps_malformed

theorem keeps_addItems (hb : Confined build) :
    course.Keeps (addItems build scope property node) fun _ => True := by
  unfold addItems
  split
  · exact keeps_pure trivial
  · exact keeps_addTuple hb
  · exact (keeps_nested hb).andThen fun _ => keeps_pure trivial

theorem keeps_addContains (hb : Confined build) :
    course.Keeps (addContains build scope property node) fun _ => True := by
  unfold addContains
  split
  · exact keeps_pure trivial
  · exact (keeps_nested hb).andThen fun _ => keeps_pure trivial

theorem keeps_addArrayChecks (hb : Confined build) :
    course.Keeps (addArrayChecks build scope property node) fun _ => True := by
  unfold addArrayChecks
  refine detached_addCount.keeps.andThen fun _ => detached_addCount.keeps.andThen fun _ => ?_
  exact Keyword.detached_flag.keeps.andThen fun _ => (keeps_addItems hb).andThen fun _ => keeps_addContains hb

theorem keeps_addKindChecks (hb : Confined build) (kind : Kind) :
    course.Keeps (addKindChecks build scope kind property node) fun _ => True := by
  unfold addKindChecks
  split
  · exact detached_addStringChecks.keeps
  · exact detached_addNumberChecks.keeps
  · exact detached_addNumberChecks.keeps
  · exact keeps_addArrayChecks hb
  · exact keeps_pure trivial
  · exact keeps_pure trivial
  · exact keeps_pure trivial

theorem keeps_ofKind (hb : Confined build) (kind : Kind) :
    course.Keeps (ofKind build site node kind) fun _ => True := by
  unfold ofKind
  exact detached_presentProperty.keeps.andThen fun _ => detached_allowsNull.keeps.andThen fun _ =>
    keeps_addKindChecks hb kind

/-! ## Compositions on a property -/

theorem keeps_branch (hb : Confined build) : course.Keeps (branch build site node) course.New := by
  unfold branch
  refine (hb course _ node).bind fun id hid => ?_
  simp only
  split
  · exact (keeps_modifyProperty hid).andThen fun _ => keeps_pure hid
  · exact keeps_pure hid

theorem keeps_addComposition (hb : Confined build) (combinator : Combinator) :
    course.Keeps (addComposition build site node property combinator) fun _ => True := by
  unfold addComposition
  refine Keyword.detached_branches?.keeps.andThen fun found => ?_
  split
  · exact keeps_pure trivial
  · refine (keeps_noteIfEmpty fun _ => keeps_notify).andThen fun _ => ?_
    refine (keeps_mapM fun _ _ => keeps_branch hb).andThen fun ids => ?_
    exact keeps_graph.andThen fun _ => keeps_pure trivial

theorem keeps_applyCompositions (hb : Confined build) :
    course.Keeps (applyCompositions build site node property) fun _ => True := by
  unfold applyCompositions
  refine Keeps.andThen (keeps_foldlM (fun property combinator _ => keeps_addComposition hb combinator) trivial)
    fun property => ?_
  have hbranch : ∀ inner, course.Keeps (branch build site (Keyword.inheritType node inner)) fun _ => True :=
    fun inner => (keeps_branch hb).imp fun _ _ => trivial
  refine (keeps_conditional? (fun _ => keeps_notify) hbranch).andThen fun conditional => ?_
  simp only
  split
  · exact detached_allowsNull.keeps.andThen fun _ => keeps_pure trivial
  · exact keeps_pure trivial

/-! ## Filling a type in -/

theorem keeps_instanceProperty {config : Config} {I : Session → Prop} {required : Bool} :
    Build.Keeps config I (instanceProperty name type required) fun _ => True := by
  unfold instanceProperty
  exact keeps_graph.andThen fun _ => detached_newProperty.keeps.andThen fun _ =>
    detached_allowsNull.keeps.andThen fun _ => keeps_pure trivial

theorem keeps_addProperties (hb : Confined build) (hmem : type ∈ course.filling) :
    course.Keeps (addProperties build scope type node) fun _ => True := by
  unfold addProperties
  refine Keyword.detached_requiredNames.keeps.andThen fun required => ?_
  refine Keyword.detached_members?.keeps.andThen fun found => ?_
  simp only
  refine (keeps_forIn fun member _ => ?_).andThen fun _ => ?_
  · exact (hb course _ member.2).andThen fun _ => (keeps_addTypeProperty hmem).andThen fun _ => keeps_pure trivial
  · refine (keeps_forIn fun name _ => ?_).andThen fun _ => keeps_pure trivial
    exact (hb course _ _).andThen fun _ => (keeps_addTypeProperty hmem).andThen fun _ => keeps_pure trivial

/-- What is being filled in is no concern of the course's origin. -/
theorem abides_passes (hb : Confined build) (hmem : type ∈ course.filling) :
    Abides course.config course.Passes build type where
  node site node := (hb course site node).imp fun _ _ => trivial
  nested _ _ _ := (keeps_nested hb).imp fun _ _ => trivial
  addTypeCheck _ _ := keeps_addTypeCheck hmem
  notify _ := keeps_notify

theorem keeps_lift (hmem : type ∈ course.filling) {combinator : Combinator} {source : PropertyId} :
    course.Keeps (lift type combinator source) fun _ => True := by
  unfold lift
  refine keeps_graph.andThen fun graph => ?_
  simp only
  split
  · exact keeps_pure trivial
  · exact keeps_addProperty.andThen fun _ => (keeps_addTypeProperty hmem).andThen fun _ => keeps_pure trivial

theorem keeps_liftBranch (hmem : type ∈ course.filling) {combinator : Combinator} {branch : PropertyId} :
    course.Keeps (liftBranch type branch combinator) fun _ => True := by
  unfold liftBranch
  refine keeps_graph.andThen fun graph => ?_
  split
  · exact keeps_pure trivial
  · exact (keeps_mapM fun _ _ => keeps_lift hmem).andThen fun _ => keeps_pure trivial

theorem keeps_objectBranch (hb : Confined build) (hmem : type ∈ course.filling) {combinator : Combinator} :
    course.Keeps (objectBranch build scope type combinator node) fun _ => True := by
  unfold objectBranch
  refine (hb course _ _).andThen fun property => ?_
  simp only
  split
  · exact keeps_pure trivial
  · exact (keeps_liftBranch hmem).andThen fun _ => keeps_pure trivial

theorem keeps_addObjectComposition (hb : Confined build) (hmem : type ∈ course.filling) {combinator : Combinator} :
    course.Keeps (addObjectComposition build scope type node combinator) fun _ => True := by
  unfold addObjectComposition
  refine Keyword.detached_branches?.keeps.andThen fun found => ?_
  split
  · exact keeps_pure trivial
  · refine (keeps_noteIfEmpty fun _ => keeps_notify).andThen fun _ => ?_
    exact (keeps_mapM fun _ _ => keeps_objectBranch hb hmem).andThen fun _ => keeps_addTypeCheck hmem

theorem keeps_applyObjectCompositions (hb : Confined build) (hmem : type ∈ course.filling) :
    course.Keeps (applyObjectCompositions build scope type node) fun _ => True := by
  unfold applyObjectCompositions
  refine (keeps_forM fun combinator _ => keeps_addObjectComposition hb hmem).andThen fun _ => ?_
  exact (abides_passes hb hmem).addConditional _

theorem keeps_fill (hb : Confined build) (hmem : type ∈ course.filling) :
    course.Keeps (fill build scope type node) fun _ => True := by
  have habides := abides_passes hb hmem
  unfold fill
  have hrest : course.Keeps (do
      addProperties build scope type node
      addOpenProperties build scope type node
      addPropertyNames build scope type node
      addPropertyCounts scope type node
      dependencyWords.forM (addDependencies build scope type node)
      applyObjectCompositions build scope type node) fun _ => True := by
    refine (keeps_addProperties hb hmem).andThen fun _ => habides.addOpenProperties.andThen fun _ => ?_
    refine habides.addPropertyNames.andThen fun _ => habides.addPropertyCounts.andThen fun _ => ?_
    refine (keeps_forM fun _ _ => habides.addDependencies).andThen fun _ => ?_
    exact keeps_applyObjectCompositions hb hmem
  simp only
  split
  · refine Keeps.andThen (keeps_modifyType hmem ?_) fun _ => hrest
    exact ⟨⟨fun _ => rfl, fun _ => rfl, fun _ => rfl⟩, fun _ => rfl⟩
  · exact hrest

/-! ## Objects and unions -/

theorem opens_reserveFor : course.Opens (reserveFor site node) := by
  unfold reserveFor
  exact Meets.bind detached_read.keeps fun _ s hs => opens_reserve s hs.1

theorem closes_materialize (hb : Confined build) (hnot : type ∉ course.filling) :
    course.Closes type (materialize build site node type) fun _ => True := by
  unfold materialize
  refine Closes.after keeps_graph fun graph => ?_
  refine Closes.after (keeps_fill hb List.mem_cons_self) fun _ => ?_
  exact (closes_finish hnot).andThen fun _ => keeps_instanceProperty

theorem closes_objectInto (hb : Confined build) (hnot : type ∉ course.filling) :
    course.Closes type (objectInto build site node type) course.New := by
  unfold objectInto
  exact (closes_materialize hb hnot).andThen fun _ =>
    detached_applyValueKeywords.keeps.andThen fun _ => keeps_addProperty

theorem keeps_object (hb : Confined build) : course.Keeps (object build site node) course.New :=
  keeps_bracket opens_reserveFor fun _ hnot => closes_objectInto hb hnot

theorem keeps_member (hb : Confined build) (kind : Kind) :
    course.Keeps (member build site node kind) fun _ => True := by
  unfold member
  split
  · exact keeps_bracket opens_reserveFor fun _ hnot => closes_materialize hb hnot
  · exact keeps_ofKind hb kind

theorem keeps_complement (hb : Confined build) :
    course.Keeps (complement build site node property) course.New := by
  unfold complement
  exact detached_applyValueKeywords.keeps.andThen fun _ =>
    (keeps_applyCompositions hb).andThen fun _ => keeps_addProperty

theorem keeps_union (hb : Confined build) {types : List Json} :
    course.Keeps (union build site node types) course.New := by
  unfold union
  refine detached_unionKinds.keeps.andThen fun kinds => detached_newProperty.keeps.andThen fun property => ?_
  refine Keeps.andThen (keeps_foldlM (r := fun _ => True) (fun property kind _ =>
    (keeps_member hb kind).andThen fun _ => keeps_pure trivial) trivial) fun property => ?_
  exact detached_allowsNull.keeps.andThen fun _ => keeps_complement hb

/-! ## Definitions -/

/-- The course of a definition that begins: nothing waits for it yet. -/
def within (course : Course) (key : DefinitionKey) (begun : Option TypeId) (start : Session) : Course :=
  { course with origin := course.origin.setDefinition key (.inProgress begun []), start }

/-- The definition is in progress, and what waits for it is new. -/
def Awaits (course : Course) (key : DefinitionKey) (s : Session) : Prop :=
  ∃ begun waiting, s.definition? key = some (.inProgress begun waiting) ∧ ∀ id ∈ waiting, course.New id

variable {s m : Session} {key : DefinitionKey} {begun : Option TypeId} {definition : PropertyId}

/-- A definition begins. -/
theorem Passes.begin (h : course.Passes s) (hbegun : ∀ known, ¬ course.origin.InProgress key known) :
    course.Passes (s.setDefinition key (.inProgress begun [])) ∧
      (course.within key begun (s.setDefinition key (.inProgress begun []))).Passes
        (s.setDefinition key (.inProgress begun [])) := by
  have hpasses : course.Passes (s.setDefinition key (.inProgress begun [])) := h.of_types (.define _ hbegun) rfl
  refine ⟨hpasses, .start ⟨hpasses.since.endures, fun other known waiting hpending => ?_⟩ hpasses.filling⟩
  have hpending := (Session.definition?_setDefinition course.origin key _ _).symm.trans hpending
  have hlater : (s.setDefinition key (.inProgress begun [])).definition? other = _ :=
    Session.definition?_setDefinition _ _ _ _
  -- What is in progress at the second origin is the definition itself, or was in progress at the first.
  split at hpending
  · rename_i heq
    cases hpending
    exact ⟨[], hlater.trans (if_pos heq), fun _ hid => absurd hid List.not_mem_nil⟩
  · rename_i hne
    obtain ⟨late, hlate, hnew⟩ := h.since.waits other known waiting hpending
    exact ⟨late, hlater.trans ((if_neg hne).trans hlate), hnew⟩

/-- What the definition's course passes, the course passes, and there is what waits for the definition. -/
theorem Passes.leave (hbegun : ∀ known, ¬ course.origin.InProgress key known) (hm : course.Passes m)
    (h : (course.within key begun m).Passes s) : course.Passes s ∧ course.Awaits key s := by
  have hpending : ∀ other known, course.origin.InProgress other known →
      (course.within key begun m).origin.InProgress other known := by
    rintro other known ⟨waiting, hpending⟩
    refine ⟨waiting, ?_⟩
    refine (Session.definition?_setDefinition _ _ _ _).trans ((if_neg ?_).trans hpending)
    rintro rfl
    exact hbegun known ⟨waiting, hpending⟩
  have hgrows : course.origin.graph.Grows (course.within key begun m).origin.graph := .refl _
  have hmoves : Session.Moves course.origin m s :=
    Relation.ReflTransGen.mono (fun _ _ hmove => Session.Move.rebase hgrows hpending hmove) _ _ h.moves
  refine ⟨⟨hm.moves.trans hmoves, hmoves.since hm.since, h.filling⟩, begun, ?_⟩
  have hself : (course.within key begun m).origin.definition? key = some (.inProgress begun []) :=
    (Session.definition?_setDefinition _ _ _ _).trans (if_pos rfl)
  obtain ⟨late, hlate, hnew⟩ := h.since.waits key begun [] hself
  exact ⟨late, hlate, hnew⟩

/-- While a definition is in progress, and afterwards.  The type reserved for it may be finished by then. -/
theorem meets_within {α β : Type} {x : Build α} {f : α → Build β} {q : α → Prop} {R : β → Session → Prop}
    {filling : List TypeId} (hbegun : ∀ known, ¬ course.origin.InProgress key known)
    (hfilling : ∀ id ∈ course.filling, id ∈ filling)
    (hx : ∀ start, Meets course.config ({ course with filling }.within key begun start).Passes x
      (fun a s => (course.within key begun start).Passes s ∧ q a) (course.within key begun start).Passes)
    (hf : ∀ a, q a → Meets course.config (fun s => course.Passes s ∧ course.Awaits key s) (f a) R course.Passes) :
    Meets course.config { course with filling }.Passes
      (modify (fun s : Session => s.setDefinition key (.inProgress begun [])) >>= fun _ => x >>= f)
      R course.Passes := by
  refine Meets.bind (Q := fun _ m => { course with filling }.Passes m ∧
    ({ course with filling }.within key begun m).Passes m) ?_ fun _ m hm => ?_
  · exact meets_of_runs (v := ⟨⟩) (fun _ => Build.runs_modify.2 rfl) fun s hs => hs.begin hbegun
  · have hm' : course.Passes m := ⟨hm.1.moves, hm.1.since, fun id hid => hm.1.filling id (hfilling id hid)⟩
    refine Meets.bind (P := ({ course with filling }.within key begun m).Passes)
      (Q := fun a s => (course.Passes s ∧ course.Awaits key s) ∧ q a) (fun s hs => ?_)
      (fun a s hs => hf a hs.2 s hs.1) m hm.2
    obtain ⟨hok, herror⟩ := hx m s hs
    refine ⟨fun a s' hrun => ?_, fun halt s' hhalts => (Passes.leave hbegun hm' (herror halt s' hhalts)).1⟩
    obtain ⟨hpasses, ha⟩ := hok a s' hrun
    exact ⟨Passes.leave hbegun hm' hpasses, ha⟩

theorem keeps_getProperty {config : Config} {I : Session → Prop} {id : PropertyId} :
    Build.Keeps config I (Build.getProperty id) fun _ => True := keeps_graph.andThen fun _ => keeps_pure trivial

theorem keeps_bind {placeholder : PropertyId} (hnew : course.New placeholder) :
    course.Keeps (bind definition placeholder) fun _ => True := by
  unfold bind
  exact keeps_getProperty.andThen fun _ => detached_read.keeps.andThen fun _ => keeps_modifyProperty hnew

/-- Completing a definition fills in what waits for it. -/
theorem meets_complete (hbegun : ∀ known, ¬ course.origin.InProgress key known) :
    Meets course.config (fun s => course.Passes s ∧ course.Awaits key s) (complete key definition)
      (fun _ => course.Passes) course.Passes := by
  unfold complete
  refine meets_get fun s hs => ?_
  obtain ⟨hpasses, begun, waiting, hpending, hnew⟩ := hs
  simp only [hpending]
  refine Meets.bind (Q := fun _ => course.Passes) ?_ fun _ => ?_
  · refine meets_of_runs (v := ⟨⟩) (fun _ => Build.runs_modify.2 rfl) ?_
    rintro _ rfl
    exact hpasses.of_types (.define _ hbegun) rfl
  · exact Meets.imp (keeps_forM fun id hid => keeps_bind (hnew id hid)) fun _ _ hs => hs.1

theorem keeps_copy : course.Keeps (copy definition site) course.New := by
  unfold copy
  refine keeps_getProperty.andThen fun source => ?_
  split
  · exact keeps_refuse
  · exact detached_read.keeps.andThen fun _ => keeps_addProperty

/-- A placeholder comes to wait for what is in progress. -/
theorem meets_placeholder {reference : String} {waiting : List PropertyId} :
    Meets course.config (fun s => course.Passes s ∧ s.definition? key = some (.inProgress begun waiting))
      (placeholder key site reference begun waiting) (fun id s => course.Passes s ∧ course.New id) course.Passes := by
  unfold placeholder
  cases begun with
  | some type =>
    have hinstance : course.Keeps (do
        Build.addProperty (← instanceProperty site.name type site.required)) course.New :=
      keeps_instanceProperty.andThen fun _ => keeps_addProperty
    exact fun s hs => hinstance s hs.1
  | none =>
    refine Meets.bind (detached_presentProperty.keeps.weaken fun _ hs => hs.1) fun property => ?_
    refine Meets.bind (Q := fun id s => (course.Passes s ∧ s.definition? key = some (.inProgress none waiting)) ∧
      course.New id) ?_ fun id => ?_
    · exact meets_addProperty fun s hs =>
        ⟨⟨hs.1.1.of_types (.add _) rfl, hs.1.2⟩, hs.1.1.new_addProperty _⟩
    refine Meets.bind (Q := fun _ s => course.Passes s ∧ course.New id) ?_ fun _ s hs => keeps_pure hs.2 s hs.1
    refine meets_of_runs (v := ⟨⟩) (fun _ => Build.runs_modify.2 rfl) fun s hs => ?_
    exact ⟨hs.1.1.of_types (.wait hs.1.2 hs.2) rfl, hs.2⟩

/-- A definition nobody has begun is built, and what waits for it is filled in. -/
theorem keeps_define (hb : Confined build) {target : Target}
    (hbegun : ∀ known, ¬ course.origin.InProgress target.key known) :
    course.Keeps (define build target) fun _ => True := by
  have hcompleted : ∀ definition, Meets course.config
      (fun s => course.Passes s ∧ course.Awaits target.key s)
      (do complete target.key definition; pure definition) (fun _ s => course.Passes s ∧ True) course.Passes :=
    fun definition => Meets.bind (meets_complete hbegun) fun _ => keeps_pure trivial
  unfold define
  simp only
  split
  -- The type of an object is reserved first, so the bracket is around the whole definition.
  · rw [bind_map_left]
    refine keeps_bracket opens_reserveFor fun type hnot => ?_
    have hbuilt : ∀ start site, (course.within target.key (some type) start).Closes type
        (objectInto build site target.node type) course.New := fun start site => closes_objectInto hb hnot
    exact meets_within hbegun (fun id hid => List.mem_cons_of_mem _ hid) (fun start => hbuilt start _)
      fun definition _ => hcompleted definition
  · rw [pure_bind]
    have hbuilt : ∀ start site, (course.within target.key none start).Keeps (build site target.node) course.New :=
      fun start site => hb _ site target.node
    exact meets_within hbegun (fun id hid => hid) (fun start => hbuilt start _) fun definition _ =>
      hcompleted definition

theorem keeps_locate {reference : String} : course.Keeps (locate scope reference) fun _ => True := by
  unfold locate
  refine keeps_get.andThen fun session => ?_
  split
  · exact keeps_pure trivial
  · exact keeps_refuse

theorem keeps_refer (hb : Confined build) {reference : String} :
    course.Keeps (refer build site reference) course.New := by
  unfold refer
  refine keeps_locate.andThen fun target => meets_get fun s hs => ?_
  split
  · exact fun t ht => ht ▸ keeps_copy s hs
  · rename_i hpending
    exact fun t ht => ht ▸ meets_placeholder s ⟨hs, hpending⟩
  · rename_i hnone
    have hbegun := fun known => hs.since.not_inProgress hnone known
    exact fun t ht => ht ▸ (keeps_define hb hbegun).andThen (fun _ => keeps_copy) s hs

/-! ## Nodes -/

theorem keeps_typed (hb : Confined build) {word : String} :
    course.Keeps (typed build site node word) course.New := by
  unfold typed
  split
  · exact keeps_refuse
  · exact keeps_object hb
  · exact (keeps_ofKind hb _).andThen fun _ => keeps_complement hb

theorem keeps_referred (hb : Confined build) {reference : Json} :
    course.Keeps (referred build site node reference) course.New := by
  unfold referred
  split
  · refine (keeps_refer hb).bind fun id hid => ?_
    simp only
    split
    · exact (keeps_modifyProperty hid).andThen fun _ => keeps_pure hid
    · exact keeps_pure hid
  · exact keeps_malformed

theorem keeps_nodeProperty (hb : Confined build) : course.Keeps (nodeProperty build site node) course.New := by
  unfold nodeProperty
  refine Keyword.detached_normalize.keeps.andThen fun normal => ?_
  split
  · exact keeps_referred hb
  · split
    · exact keeps_typed hb
    · exact keeps_union hb
    · exact keeps_malformed
    · split
      · exact keeps_object hb
      · split
        · exact detached_presentProperty.keeps.andThen fun _ => keeps_complement hb
        · split
          · exact detached_presentProperty.keeps.andThen fun _ =>
              Keyword.detached_enumeration?.keeps.andThen fun _ => keeps_complement hb
          · exact detached_presentProperty.keeps.andThen fun _ => keeps_complement hb

end Course

/-- **Every bound keeps to every course.** -/
theorem confined_property : ∀ bound : Nat, Confined (Building.property bound)
  | 0, _, _, _ => keeps_throw
  | bound + 1, _, _, _ => Course.keeps_nodeProperty (confined_property bound)

/-! ## Whole documents -/

/-- The course of a document, watched from when it has been stored.  What earlier calls have left in progress is no
concern of its own definitions. -/
def Course.ofDocument (config : Config) (stored : Session) : Course where
  config
  origin := { stored with definitions := [] }
  filling := []
  start := stored

theorem Course.passes_ofDocument (config : Config) (stored : Session) : (ofDocument config stored).Passes stored :=
  .start ⟨.refl _, fun _ _ _ hpending => nomatch hpending⟩ fun _ hid => absurd hid List.not_mem_nil

namespace Course

variable {course : Course} {source : Source} {value : Json} {scope : Scope}

theorem keeps_rootOf : course.Keeps (rootOf source scope value) fun _ => True := by
  unfold rootOf
  split
  · refine keeps_locate.andThen fun target => ?_
    split
    · exact keeps_pure trivial
    · exact keeps_refuse
  · split
    · exact keeps_pure trivial
    · exact keeps_refuse

/-- A root is filled in and finished, and completes its definition if that is in the document. -/
theorem keeps_document {build : Builder} (hb : Confined build)
    (hfresh : ∀ key known, ¬ course.origin.InProgress key known) {key : Option DefinitionKey} {root : Json}
    {className : Graph → TypeId → String} :
    course.Keeps (do
      let type ← Build.reserve source.namespaceName source.className true
      let className := className (← Build.graph) type
      if let some key := key then
        modify (·.setDefinition key (.inProgress (some type) []))
      fill build { scope with className } type root
      let type ← finish type
      if let some key := key then
        let definition ← Build.addProperty (← instanceProperty className type true)
        complete key definition
      return type) fun _ => True := by
  refine keeps_bracket opens_reserve fun type hnot => Closes.after keeps_graph fun graph => ?_
  have hfilled : ∀ course : Course, type ∉ course.filling → course.Closes type (do
      fill build { scope with className := className graph type } type root
      finish type) fun _ => True := fun course hnot =>
    Closes.after (keeps_fill hb List.mem_cons_self) fun _ => closes_finish hnot
  simp only
  cases key with
  | none =>
    have hclosed := (hfilled course hnot).andThen fun target => keeps_pure (a := target) trivial
    simp only [bind_assoc] at hclosed
    exact hclosed
  | some key =>
    have hbegun := hfresh key
    have hrest : ∀ target, Meets course.config (fun s => course.Passes s ∧ course.Awaits key s) (do
        let definition ← Build.addProperty (← instanceProperty (className graph type) target true)
        complete key definition
        return target) (fun _ s => course.Passes s ∧ True) course.Passes := by
      intro target
      refine Meets.bind (keeps_instanceProperty.weaken fun _ hs => hs.1) fun property => ?_
      refine Meets.bind (Q := fun _ s => course.Passes s ∧ course.Awaits key s) ?_ fun definition => ?_
      · exact meets_addProperty fun s hs => ⟨hs.1.1.of_types (.add property) rfl, hs.1.2⟩
      · exact Meets.bind (meets_complete hbegun) fun _ => keeps_pure trivial
    have hclosed := meets_within hbegun (fun id hid => List.mem_cons_of_mem type hid)
      (fun start => hfilled (course.within key (some type) start) hnot) fun target _ => hrest target
    simp only [bind_assoc] at hclosed
    exact hclosed

end Course
end Building

namespace Session

open Build

variable {config : Config} {s s' : Session} {source : Source} {value : Json}

/-- Writes of a call that began with the document stored. -/
abbrev Afterwards (stored s : Session) : Prop := Moves { stored with definitions := [] } stored s

/-- **Whatever comes of a document, its processing makes moves** from the session with the document stored. -/
theorem moves_process (config : Config) (s : Session) (source : Source) (value : Json) :
    Afterwards (s.register source value) (s.process config source value).2 := by
  have hdocument : Meets config (· = s) (Building.document source value)
      (fun _ => Afterwards (s.register source value)) (Afterwards (s.register source value)) := by
    unfold Building.document
    refine Meets.bind (Q := fun _ => (Building.Course.ofDocument config (s.register source value)).Passes) ?_
      fun _ => ?_
    · refine meets_of_runs (v := ⟨⟩) (fun _ => runs_modify.2 rfl) ?_
      rintro _ rfl
      exact Building.Course.passes_ofDocument config _
    · refine Meets.imp (Meets.weaken (Keeps.andThen (q := fun _ => True) (r := fun _ => True) keeps_get
        fun session => ?_) fun _ hs => hs.moves) fun _ _ hs => hs.1.moves
      refine Keeps.andThen Building.Course.keeps_rootOf fun found => ?_
      obtain ⟨root, key⟩ := found
      refine Building.Course.keeps_document (Building.confined_property _) fun _ _ hpending => ?_
      obtain ⟨waiting, hpending⟩ := hpending
      cases hpending
  obtain ⟨hok, herror⟩ := hdocument s rfl
  cases hresult : s.process config source value with
  | mk outcome s' =>
    cases outcome with
    | ok type => exact hok type s' hresult
    | error halt => exact herror halt s' hresult

end Session
end SchemaTypes

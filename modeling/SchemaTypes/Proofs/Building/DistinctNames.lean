import SchemaTypes.Proofs.Building.Listings
import SchemaTypes.Proofs.Building.Permanence
/-!
# Names of a built type

Whatever node a type is made of, and wherever that node stands, the type lists the keys of `properties` in document
order, then what `required` names besides, then what is lifted from the branches of its compositions, each name of these
once and none that the node brings itself (`Graph.ListsFor`).  Finishing the type, completing its definition and all
later calls leave the list as it is (`Session.listsFor_built`).

So two properties of a type have one name exactly if the node brings a name twice.  A document's `properties` cannot,
but its `required` can: a name that it repeats and that is not declared becomes two properties
(`Session.not_forall_names_nodup`).
-/
namespace SchemaTypes

/-- The type lists the names that its node brings, and behind them what its compositions populate. -/
structure Graph.ListsFor (graph : Graph) (type : TypeId) (node : Json) : Prop where
  names : graph.names type = Building.declaredNames node ++ Building.undeclaredNames node ++
    Building.liftedNames (Building.ownNames node) (graph.populated type)
  lifted_nodup : (Building.liftedNames (Building.ownNames node) (graph.populated type)).Nodup
  lifted_not_own : ∀ name ∈ Building.liftedNames (Building.ownNames node) (graph.populated type),
    name ∉ Building.ownNames node
  mem_names : ∀ name ∈ graph.populated type, name ∈ graph.names type
  nodup_iff : (graph.names type).Nodup ↔
    (Building.declaredNames node).Nodup ∧ (Building.undeclaredNames node).Nodup

namespace Building

open Build Session

variable {config : Config} {build : Builder} {scope : Scope} {site : Site} {node : Json} {type : TypeId} {root : Bool}
  {names own populated : List String} {s s' : Session} {source : Source} {value : Json}

/-! ## From the filled type to the end of the call -/

/-- Finishing changes nothing that is listed, and a root is not redirected. -/
theorem meets_finish : Meets config (Tallies type root own) (finish type)
    (fun target s => Tallies type root own s ∧ (root = true → target = type)) fun _ => True := by
  rintro s ⟨populated, hs⟩
  refine ⟨fun target s' hrun => ?_, fun _ _ _ => trivial⟩
  have hmarked : ∀ text, Lists type root (own ++ liftedNames own populated) populated
      (s.withGraph (signing s.graph type text)) :=
    fun text => hs.amend (fun _ => rfl) (fun _ => rfl) fun _ => rfl
  cases concludes_finish hrun with
  | kept _ _ => exact ⟨⟨populated, hmarked _⟩, fun _ => rfl⟩
  | first _ => exact ⟨⟨populated, (hmarked _).of_graph (.refl _) rfl fun _ _ => rfl⟩, fun _ => rfl⟩
  | @duplicate existing _ hnot _ =>
    have hredirected : Lists type root (own ++ liftedNames own populated) populated
        (s.withGraph (redirecting s.graph type (s.graph.signature type) (s.graph.canonical existing))) :=
      hs.amend (fun _ => rfl) (fun _ => rfl) fun _ => rfl
    refine ⟨⟨populated, hredirected.of_graph (.refl _) rfl fun _ _ => rfl⟩, fun hroot => ?_⟩
    rw [hs.isRoot, hroot] at hnot
    cases hnot

theorem meets_materialize (hb : Reliable config build) : Meets config (Lists type root [] [])
    (materialize build site node type) (fun _ => Tallies type root (ownNames node)) fun _ => True := by
  unfold materialize
  refine Meets.bind keeps_graph.meets fun graph => Meets.bind (meets_fill hb) fun _ => ?_
  refine Meets.bind meets_finish fun target => ?_
  exact fun s hs => Course.keeps_instanceProperty.meets s hs.1

/-- Filling placeholders in renames none of them. -/
theorem keeps_complete {key : DefinitionKey} {definition : PropertyId} :
    Keeps config (Lists type root names populated) (complete key definition) fun _ => True := by
  unfold complete
  refine keeps_get.andThen fun session => ?_
  simp only
  refine keeps_lists_setDefinition.andThen fun _ => ?_
  split
  · refine keeps_forM fun id _ => ?_
    unfold bind
    exact Course.keeps_getProperty.andThen fun _ => detached_read.keeps.andThen fun _ =>
      keeps_lists_modifyProperty fun _ => rfl
  · exact keeps_pure trivial

/-- The root of a document, from its reservation on. -/
theorem meets_root (hb : Reliable config build) (className : Graph → TypeId → String) {key : Option DefinitionKey} :
    Meets config (Lists type true [] []) (do
      let className := className (← Build.graph) type
      if let some key := key then
        modify (·.setDefinition key (.inProgress (some type) []))
      fill build { scope with className } type node
      let type ← finish type
      if let some key := key then
        let definition ← Build.addProperty (← instanceProperty className type true)
        complete key definition
      return type) (fun target s => target = type ∧ Tallies type true (ownNames node) s) fun _ => True := by
  have hreturn : ∀ target, Meets config (fun s => Tallies type true (ownNames node) s ∧ target = type) (pure target)
      (fun target s => target = type ∧ Tallies type true (ownNames node) s) fun _ => True :=
    fun target => meets_pure fun s hs => ⟨hs.2, hs.1⟩
  refine Meets.bind keeps_graph.meets fun graph => ?_
  cases key with
  | none =>
    refine Meets.bind (meets_fill hb) fun _ => Meets.bind meets_finish fun target s hs => ?_
    exact hreturn target s ⟨hs.1, hs.2 rfl⟩
  | some key =>
    refine Meets.bind keeps_lists_setDefinition.meets fun _ => ?_
    refine Meets.bind (meets_fill hb) fun _ => Meets.bind meets_finish fun target s hs => ?_
    obtain ⟨⟨populated, hs⟩, htarget⟩ := hs
    have hcompleted : Keeps config (Lists type true (ownNames node ++ liftedNames (ownNames node) populated) populated)
        (do
          let definition ← Build.addProperty (← instanceProperty (className graph type) target true)
          complete key definition) fun _ => True := by
      refine Course.keeps_instanceProperty.andThen fun property => ?_
      exact Keeps.andThen (keeps_lists fun _ => Course.keeps_addProperty) fun _ => keeps_complete
    have hlast := Meets.bind (f := fun _ => pure target)
      (R := fun target s => target = type ∧ Tallies type true (ownNames node) s) hcompleted.meets
      fun _ => meets_pure fun s hs => ⟨htarget rfl, populated, hs⟩
    simp only [bind_assoc] at hlast
    exact hlast s hs

end Building

namespace Session

open Build Building

variable {config : Config} {s s' : Session} {source : Source} {value : Json} {root : TypeId}

theorem Tallies.listsFor {type : TypeId} {isRoot : Bool} {node : Json} (h : s.Tallies type isRoot (ownNames node)) :
    s.graph.ListsFor type node := by
  obtain ⟨populated, h⟩ := h
  have hpopulated := h.populated
  subst hpopulated
  refine ⟨h.names, nodup_eraseDups _, fun name hname => (mem_liftedNames.1 hname).2, fun name hname => ?_, ?_⟩
  · rw [h.names, List.mem_append, mem_liftedNames]
    tauto
  · rw [h.names, nodup_append_liftedNames, nodup_ownNames]

theorem Orderly.tallies_process (hs : s.Orderly config) (h : s.process config source value = (.ok root, s')) :
    Tallies root true (ownNames (rootNode (s.register source value).documents source value)) s' := by
  have hrun : (Building.document source value).Runs config s root s' := h
  unfold Building.document at hrun
  rw [runs_modify_bind, runs_get_bind] at hrun
  obtain ⟨found, m, hfound, hrest⟩ := runs_bind.1 hrun
  obtain ⟨rfl, hnode⟩ := (Scene.reads_rootOf rfl (hs.stands source value)).1 found m hfound
  obtain ⟨node, key⟩ := found
  obtain rfl : node = rootNode (s.register source value).documents source value := hnode
  obtain ⟨type, m, hreserve, hrest⟩ := runs_bind.1 hrest
  obtain ⟨rfl, rfl⟩ := runs_reserve.1 hreserve
  have hlists := lists_reserve (s.register source value) source.namespaceName source.className true
  obtain ⟨rfl, htallies⟩ := (meets_root (reliable_property config _)
    (fun graph type => (graph.entry type).name.className) _ hlists).1 root s' hrest
  exact htallies

/-- Calls leave alone what is listed. -/
theorem Tallies.performs {type : TypeId} {isRoot : Bool} {own : List String} (h : Tallies type isRoot own s)
    (calls : List Call) : Tallies type isRoot own (calls.foldl (perform config) s) := by
  obtain ⟨populated, h⟩ := h
  exact ⟨populated, h.endures (enduresIn_performs config calls s)⟩

/-- **Every type lists the names of its node.**  That holds of whatever type is filled in and finished for an object
node, at any depth and from any session, and of the root of a document, also after all later calls.  Lifting a branch
lists whatever the branch's type lists. -/
theorem listsFor_built (config : Config) :
    (∀ (bound : Nat) (site : Site) (node : Json) (type : TypeId) (s s' : Session) (property : Property),
      s.Blank type → (materialize (Building.property bound) site node type).Runs config s property s' →
      s'.graph.ListsFor type node) ∧
    (∀ (type nested : TypeId) (branch : PropertyId) (combinator : Combinator) (s s' : Session) (affected : List String),
      s.Closed → s.graph.HasType type → (s.graph.property branch).nested = some nested →
      (liftBranch type branch combinator).Runs config s affected s' →
      (∀ name ∈ s.graph.names (s.graph.canonical nested), name ∈ s'.graph.names type) ∧
        ∀ name ∈ affected, name ∈ s.graph.names (s.graph.canonical nested)) ∧
    ∀ (calls others : List Call) (source : Source) (value : Json) (root : TypeId) (s : Session),
      (performAll config calls).process config source value = (.ok root, s) →
      (others.foldl (perform config) s).graph.ListsFor root
        (rootNode ((performAll config calls).register source value).documents source value) := by
  refine ⟨fun bound site node type s s' property hblank hrun => ?_,
    fun type nested branch combinator s s' affected hs htype hnested hrun => runs_liftBranch hs htype hnested hrun,
    fun calls others source value root s hrun => ?_⟩
  · exact Tallies.listsFor
      ((meets_materialize (reliable_property config bound) s (hblank.lists rfl)).1 property s' hrun)
  · have htallies := (orderly_performAll config calls).tallies_process hrun
    exact Tallies.listsFor (htallies.performs others)

/-- A declared name that is also required, one that is only required, and a branch that brings the declared one again. -/
def gathering : Json :=
  .object [("type", .string "object"), ("properties", .object [("p", .object [])]),
    ("required", .ofStrings ["q", "p"]),
    ("anyOf", .array [.object [("properties", .object [("r", .object []), ("p", .object [])])]])]

def gatheringRun : Except Halt TypeId × Session := process {} oneName ⟨"t", "", "T"⟩ gathering

/-- The branch's type is given what the root lists. -/
def liftedRun : Except Halt (List String) × Session :=
  (((liftBranch ⟨1⟩ ⟨6⟩ .anyOf).run oneName).run).run gatheringRun.2

/-- An object node that requires one name, at the top of a document. -/
def requiring : Json := .object [("required", .ofStrings ["q"])]

def requiringSite : Site := { scope := ⟨"t", "", "T"⟩, name := "p", required := true }

/-- A session in which one type has been reserved. -/
def reservedOne : Session := ({} : Session).withGraph (({} : Graph).reserve "" "T" false).2

def requiringRun : Except Halt Property × Session :=
  (((materialize (Building.property 2) requiringSite requiring ⟨0⟩).run oneName).run).run reservedOne

set_option maxRecDepth 100000 in
/-- The declared name stays in its place, and a later document that fails changes nothing. -/
theorem listsFor_built_gathering : gatheringRun.1.toOption = some ⟨0⟩ ∧ requiringRun.1.toOption.isSome = true ∧
    liftedRun.1.toOption = some ["q"] ∧ gatheringRun.2.graph.names ⟨0⟩ = ["p", "q", "r"] ∧
    requiringRun.2.graph.ListsFor ⟨0⟩ requiring ∧
    (∀ name ∈ gatheringRun.2.graph.names ⟨0⟩, name ∈ liftedRun.2.graph.names ⟨1⟩) ∧
    (afterTwins.foldl (perform oneName) gatheringRun.2).graph.ListsFor ⟨0⟩ gathering := by
  have hfacts : gatheringRun.1.toOption = some ⟨0⟩ ∧ requiringRun.1.toOption.isSome = true ∧
      liftedRun.1.toOption = some ["q"] ∧ gatheringRun.2.graph.names ⟨0⟩ = ["p", "q", "r"] ∧
      (gatheringRun.2.graph.property ⟨6⟩).nested = some ⟨0⟩ ∧ gatheringRun.2.graph.canonical ⟨0⟩ = ⟨0⟩ ∧
      1 < gatheringRun.2.graph.types.size := by decide +kernel
  obtain ⟨hok, hfilled, hlifted, hnames, hnested, hcanonical, hsize⟩ := hfacts
  obtain ⟨hnode, hbranch, hroot⟩ := listsFor_built oneName
  obtain ⟨property, hproperty⟩ := Option.isSome_iff_exists.1 hfilled
  have hrun : (performAll oneName []).process oneName ⟨"t", "", "T"⟩ gathering = (.ok ⟨0⟩, gatheringRun.2) :=
    eq_ok_of_toOption hok
  have hclosed : gatheringRun.2.Closed := ((orderly_performAll oneName []).of_process hrun).closed
  have hlists := hnode 2 requiringSite requiring ⟨0⟩ reservedOne requiringRun.2 property
    (blank_reserve {} "" "T" false) (eq_ok_of_toOption hproperty)
  have hall := (hbranch ⟨1⟩ ⟨0⟩ ⟨6⟩ .anyOf gatheringRun.2 liftedRun.2 ["q"] hclosed hsize hnested
    (eq_ok_of_toOption hlifted)).1
  rw [hcanonical] at hall
  exact ⟨hok, hfilled, hlifted, hnames, hlists, hall, hroot [] afterTwins ⟨"t", "", "T"⟩ gathering ⟨0⟩ _ hrun⟩

/-- One name is required twice and not declared. -/
def doubled : Json := .object [("type", .string "object"), ("required", .ofStrings ["a", "a"])]

set_option maxRecDepth 100000 in
/-- The names of a type need not be distinct, even if `properties` has no key twice. -/
theorem not_forall_names_nodup : ¬ ∀ (config : Config) (source : Source) (value : Json) (root : TypeId) (s : Session),
    (declaredNames (rootNode (({} : Session).register source value).documents source value)).Nodup →
      process {} config source value = (.ok root, s) → (s.graph.names root).Nodup := by
  intro hall
  have hfacts : (process {} oneName ⟨"t", "", "T"⟩ doubled).1.toOption = some ⟨0⟩ ∧
      (declaredNames (rootNode (({} : Session).register ⟨"t", "", "T"⟩ doubled).documents
        ⟨"t", "", "T"⟩ doubled)).Nodup ∧
      ¬ ((process {} oneName ⟨"t", "", "T"⟩ doubled).2.graph.names ⟨0⟩).Nodup := by decide +kernel
  obtain ⟨hok, hdeclared, hnot⟩ := hfacts
  exact hnot (hall oneName ⟨"t", "", "T"⟩ doubled ⟨0⟩ _ hdeclared (eq_ok_of_toOption hok))

end Session
end SchemaTypes

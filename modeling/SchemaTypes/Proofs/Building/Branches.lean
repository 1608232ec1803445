import SchemaTypes.Proofs.Building.Completion
import SchemaTypes.Proofs.Building.Leftovers
import SchemaTypes.Proofs.Building.Passages
/-!
# Branches know what they populate

A type comes by its compositions while it is filled in, and a composition that lifts is added when its branches feed the
type.  No deed takes that back: the type's list grows at its end, and the list of a branch's type is complete by then.
So after a run, every branch lists the names of its own type that the enclosing type does not declare, in order, and all
names are names of the enclosing type (`Session.Reached.branch_covers`).

The exception are branches that refer to a definition which leads back to itself, while that is being built
(`Session.Returns`).  Such a branch finds a type whose list is not complete, and misses what is listed later
(`Session.not_forall_branch_covers`).  Another branch of the same run does not (`Session.Passed` tells where a run has been
when).
-/
namespace SchemaTypes.Session

open Building

variable {config : Config} {traced : Prop} {exempt exempt' : PropertyId → Prop} {ok : Reference.Documents → Prop} {s m s' : Session} {type : TypeId}
  {combinator : Combinator} {branches : List Branch} {branch : Branch} {v : Validator}

/-- The branches of all compositions that lift feed their types. -/
def Fed (s : Session) (exempt : PropertyId → Prop) : Prop :=
  ∀ type, ∀ v ∈ (s.graph.entry type).validators.toList, s.FedBy exempt type v.check

theorem Fed.imp (h : s.Fed exempt) (hexempt : ∀ id, exempt id → exempt' id) : s.Fed exempt' :=
  fun type v hv combinator branches heq hne branch hbranch =>
    (h type v hv combinator branches heq hne branch hbranch).imp (hexempt _)

/-- **Every deed leaves every type fed.** -/
theorem Deed.fed (h : Deed config traced s s') (htraced : traced) (hs : s.Marked) (hcollapsed : s.Collapsed)
    (hexempt : ∀ id, s.Returns id → exempt id) (hfed : s.Fed exempt) : s'.Fed exempt := by
  intro type v hv combinator branches heq hne branch hbranch
  refine Feeds.deed ?_ h htraced hs hcollapsed fun hlingers => hexempt _ (Or.inl hlingers)
  rcases h.demands htraced type v hv with hbefore | hnew
  · exact hfed type v hbefore combinator branches heq hne branch hbranch
  · exact (hnew combinator branches heq hne branch hbranch).imp (hexempt _)

theorem Deeds.fed (h : Deeds config traced s s') (htraced : traced) (hs : s.Marked) (hcollapsed : s.Collapsed)
    (hexempt : ∀ m, Deeds config traced s m → Deeds config traced m s' → ∀ id, m.Returns id → exempt id)
    (hfed : s.Fed exempt) : s'.Fed exempt := by
  have hkept : ∀ m, Deeds config traced s m → Deeds config traced m s' → m.Fed exempt := by
    intro m hbefore
    induction hbefore with
    | refl => exact fun _ => hfed
    | tail hfirst hlast ih =>
      intro hafter
      exact hlast.fed htraced (Deeds.marked hfirst htraced hs) ((Deeds.precedes hfirst).collapsed hcollapsed)
        (hexempt _ hfirst (.head hlast hafter)) (ih (.head hlast hafter))
  exact hkept s' h .refl

theorem Fed.of_graph (h : s.Fed exempt) (hgraph : s'.graph = s.graph) : s'.Fed exempt := by
  intro type v hv combinator branches heq hne branch hbranch
  obtain ⟨hthere, hlifted, hcovers⟩ := h type v (hgraph ▸ hv) combinator branches heq hne branch hbranch
  exact ⟨hgraph.symm ▸ hthere, hgraph.symm ▸ hlifted, hgraph.symm ▸ hcovers⟩

/-- What the deeds of a call start with is fed as what has been stored is. -/
theorem fed_start {stored start : Session} {source : Source} {value : Json} (h : Starts stored source value start)
    (hrest : stored.Resting) (hs : stored.Marked) (hcollapsed : stored.Collapsed) (hfed : stored.Fed exempt) :
    start.Fed exempt := by
  have hnone : ∀ id, ¬ stored.Returns id := by
    rintro id (⟨key, hwaits, -⟩ | ⟨type, -, key, hpending, -⟩)
    · exact hrest.not_waits key id hwaits
    · exact hrest key _ hpending
  have hreserve : ∀ namespaceName className,
      (stored.withGraph (stored.graph.reserve namespaceName className true).2).Fed exempt := fun _ _ =>
    have hdeed : Deed {} True stored _ := .reserve _ _ _
    hdeed.fed trivial hs hcollapsed (fun id hreturns => absurd hreturns (hnone id)) hfed
  cases h with
  | bare namespaceName className => exact hreserve namespaceName className
  | root namespaceName className => exact (hreserve namespaceName className).of_graph rfl

/-! ## Runs -/

theorem Reached.collapsed (h : Reached config ok s) : s.Collapsed := by
  induction h with
  | initial => exact collapsed_initial
  | register source value _ ih => exact ih.perform config (.register source value)
  | @process before after source value _ _ _ hrun ih =>
    have hafter : (before.process config source value).2.Collapsed := ih.perform config (.process source value)
    rw [hrun] at hafter
    exact hafter

/-- Storing a document keeps lifted properties apart where nothing is being built: whatever definitions lead to by then,
what is held has been finished. -/
theorem Marked.register (hs : s.Marked) (hrest : s.Resting) (hfinished : ∀ type, ¬ s.Unfinished type) (source : Source)
    (value : Json) : (s.register source value).Marked := by
  refine ⟨fun id type hnested => ?_, hs.listed, fun key definition hbuilt => ?_,
    fun key id hwaits => absurd hwaits (hrest.not_waits key id), hs.unchecked⟩
  · obtain ⟨hthere, _⟩ := hs.held id type hnested
    exact ⟨hthere, Or.inl fun hnone => hfinished type ⟨hthere, hnone⟩⟩
  · obtain ⟨hthere, hown⟩ := hs.built key definition hbuilt
    exact ⟨hthere, hown⟩

theorem marked_initial : Marked {} :=
  ⟨fun _ _ hnested => (nomatch hnested), fun _ _ hid => absurd hid List.not_mem_nil, fun _ _ hbuilt => (nomatch hbuilt),
    fun _ _ ⟨_, _, hpending, _⟩ => (nomatch hpending), fun _ hlifted => (nomatch hlifted)⟩

theorem Reached.marked (h : Reached config ok s) : s.Marked := by
  induction h with
  | initial => exact marked_initial
  | register source value hreached ih => exact ih.register hreached.resting hreached.not_unfinished.2 source value
  | @process before after source value _ hreached _ hrun ih =>
    have hstored := ih.register hreached.resting hreached.not_unfinished.2 source value
    obtain ⟨start, hstart, hdeeds, _⟩ := runs_document_deeds True hreached.resting hreached.distinct
      hreached.collapsed (fun _ => hstored) hrun
    exact hdeeds.marked trivial (hstart.marked hreached.resting hstored)

/-- On the way to the session, a successful call has been at another one. -/
inductive Passed (config : Config) (ok : Reference.Documents → Prop) : Session → Session → Prop
  | within {before start m after : Session} {source : Source} {value : Json} {root : TypeId} : Reached config ok before →
    ok (before.register source value).documents → before.process config source value = (.ok root, after) →
    Starts (before.register source value) source value start → Deeds config True start m → Deeds config True m after →
    Passed config ok m after
  | register {m s : Session} (source : Source) (value : Json) : Passed config ok m s →
    Passed config ok m (s.register source value)
  | process {m before after : Session} {source : Source} {value : Json} {root : TypeId} : Passed config ok m before →
    before.process config source value = (.ok root, after) → Passed config ok m after

/-- Only documents that are as asked for are passed. -/
theorem Passed.documents (h : Passed config ok m s) : ok m.documents := by
  induction h with
  | within _ hok _ hstart hbefore _ =>
    rw [Deeds.documents hbefore, hstart.documents]
    exact hok
  | register _ _ _ ih => exact ih
  | process _ _ ih => exact ih

/-- **After every run the branches feed their types**, those apart that have been met in progress. -/
theorem Reached.fed (h : Reached config ok s) : s.Fed fun id => ∃ m, Passed config ok m s ∧ m.Returns id := by
  induction h with
  | initial => exact fun _ _ hv => absurd hv List.not_mem_nil
  | register source value _ ih =>
    exact (ih.imp fun _ ⟨m, hpassed, hreturns⟩ => ⟨m, hpassed.register source value, hreturns⟩).of_graph rfl
  | @process before after source value _ hreached hok hrun ih =>
    have hstored := hreached.marked.register hreached.resting hreached.not_unfinished.2 source value
    have hcollapsed : (before.register source value).Collapsed :=
      hreached.collapsed.perform config (.register source value)
    obtain ⟨start, hstart, hdeeds, _⟩ := runs_document_deeds True hreached.resting hreached.distinct
      hreached.collapsed (fun _ => hstored) hrun
    have hrest : (before.register source value).Resting := hreached.resting
    refine hdeeds.fed trivial (hstart.marked hrest hstored) (hstart.collapsed hcollapsed)
      (fun m hbefore hafter id hreturns => ⟨m, .within hreached hok hrun hstart hbefore hafter, hreturns⟩) ?_
    refine fed_start hstart hrest hstored hcollapsed (Fed.of_graph (ih.imp fun _ hmet => ?_) rfl)
    obtain ⟨m, hpassed, hreturns⟩ := hmet
    exact ⟨m, hpassed.process hrun, hreturns⟩

/-- **A branch populates the names of its own type that the enclosing type does not declare**, in order, and the
enclosing type lists all of them.  The exception are branches that have stood for a definition which leads back to itself,
while the run was building that.  What a branch populates has always been lifted, and nothing is checked about that. -/
theorem Reached.branch_covers (h : Reached config ok s) (hv : v ∈ (s.graph.entry type).validators.toList)
    (hcheck : v.check = .composition combinator branches true) (hne : combinator ≠ .not) (hbranch : branch ∈ branches) :
    (∀ nested, (s.graph.property branch.property).nested = some nested →
      s.graph.Covers type (s.graph.canonical nested) branch ∨
        ∃ m, Passed config ok m s ∧ ok m.documents ∧ m.Returns branch.property) ∧
    (∀ name ∈ branch.affected, name ∈ s.graph.names type ∧ s.graph.declares type name = false) ∧
    ∀ id ∈ (s.graph.entry type).properties, (s.graph.property id).isLifted = true →
      (s.graph.property id).Unchecked := by
  have hfeeds := h.fed type v hv combinator branches hcheck hne branch hbranch
  refine ⟨fun nested hnested => ?_, hfeeds.lifted, fun id _ => h.marked.unchecked id⟩
  refine (hfeeds.covers nested hnested).imp And.right ?_
  rintro ⟨m, hpassed, hreturns⟩
  exact ⟨m, hpassed, hpassed.documents, hreturns⟩

/-- The branches that the check merges into its type under the combinator. -/
def merged (combinator : Combinator) (check : Check) : List Branch :=
  match check with
  | .composition found branches true => if found = combinator then branches else []
  | _ => []

theorem composition_of_merged {check : Check} (h : branch ∈ merged combinator check) :
    ∃ branches, check = .composition combinator branches true ∧ branch ∈ branches := by
  unfold merged at h
  split at h
  · rename_i found branches
    split at h
    · rename_i hfound
      exact ⟨branches, by rw [hfound], h⟩
    · exact absurd h List.not_mem_nil
  · exact absurd h List.not_mem_nil

/-- A type that merges in what a branch declares. -/
def merging : Json :=
  .object [("type", .string "object"), ("allOf", .array
    [.object [("properties", .object [("a", .object [("type", .string "integer")])])]])]

def mergingRun : Except Halt TypeId × Session := process {} oneName ⟨"t", "", "T"⟩ merging

set_option maxRecDepth 100000 in
/-- The branch's only name is lifted, and the branch populates it. -/
theorem branch_covers_merging : ∃ v ∈ (mergingRun.2.graph.entry ⟨0⟩).validators.toList, ∃ branches,
    v.check = .composition .allOf branches true ∧ ∃ branch ∈ branches,
      (mergingRun.2.graph.property branch.property).nested = some ⟨1⟩ ∧
      mergingRun.2.graph.names (mergingRun.2.graph.canonical ⟨1⟩) = ["a"] ∧
      mergingRun.2.graph.Covers ⟨0⟩ (mergingRun.2.graph.canonical ⟨1⟩) branch := by
  have hfacts : mergingRun.1.toOption = some ⟨0⟩ ∧
      mergingRun.2.graph.names (mergingRun.2.graph.canonical ⟨1⟩) = ["a"] ∧
      ∃ v ∈ (mergingRun.2.graph.entry ⟨0⟩).validators.toList, ∃ branch ∈ merged .allOf v.check,
        (mergingRun.2.graph.property branch.property).nested = some ⟨1⟩ := by decide +kernel
  obtain ⟨hok, hnames, v, hv, branch, hmerged, hnested⟩ := hfacts
  obtain ⟨branches, hcheck, hbranch⟩ := composition_of_merged hmerged
  have hreached : Reached oneName (fun documents => ∀ key, ¬ Leads documents key key) mergingRun.2 :=
    .process .initial (fun _ => not_leads (by decide) _ _) (eq_ok_of_toOption hok)
  obtain ⟨hcovers, _⟩ := hreached.branch_covers hv hcheck (by decide) hbranch
  refine ⟨v, hv, branches, hcheck, branch, hbranch, hnested, hnames, (hcovers ⟨1⟩ hnested).resolve_right ?_⟩
  rintro ⟨m, -, hnone, ⟨key, -, hleads⟩ | ⟨-, -, key, -, hleads⟩⟩
  · exact hnone key hleads
  · exact hnone key hleads

/-- An object with a property that is such an object again. -/
def returning : Json :=
  .object [("type", .string "object"), ("properties", .object
    [("y", .object [("type", .string "object"), ("allOf", .array [.object [("$ref", .string "#")]])]),
      ("z", .object [])])]

def returningRun : Except Halt TypeId × Session := process {} oneName ⟨"t", "", "T"⟩ returning

set_option maxRecDepth 100000 in
/-- **A branch may miss names of its type.**  When the property is built, the object it refers back to lists nothing
yet, so nothing is lifted and the branch populates nothing. -/
theorem not_forall_branch_covers : ¬ ∀ (config : Config) (s : Session) (type nested : TypeId) (v : Validator)
    (combinator : Combinator) (branches : List Branch) (branch : Branch), Reached config (fun _ => True) s →
    v ∈ (s.graph.entry type).validators.toList → v.check = .composition combinator branches true → combinator ≠ .not →
    branch ∈ branches → (s.graph.property branch.property).nested = some nested →
    s.graph.Covers type (s.graph.canonical nested) branch := by
  intro h
  have hfacts : returningRun.1.toOption = some ⟨0⟩ ∧
      "z" ∈ returningRun.2.graph.names (returningRun.2.graph.canonical ⟨0⟩) ∧
      "z" ∉ returningRun.2.graph.names ⟨1⟩ ∧
      ∃ v ∈ (returningRun.2.graph.entry ⟨1⟩).validators.toList, ∃ branch ∈ merged .allOf v.check,
        (returningRun.2.graph.property branch.property).nested = some ⟨0⟩ := by decide +kernel
  obtain ⟨hok, hname, hmissing, v, hv, branch, hmerged, hnested⟩ := hfacts
  obtain ⟨branches, hcheck, hbranch⟩ := composition_of_merged hmerged
  have hreached : Reached oneName (fun _ => True) returningRun.2 := .process .initial trivial (eq_ok_of_toOption hok)
  have hcovers := h oneName returningRun.2 ⟨1⟩ ⟨0⟩ v .allOf branches branch hreached hv hcheck (by decide) hbranch hnested
  exact hmissing (hcovers.names "z" hname)

end SchemaTypes.Session

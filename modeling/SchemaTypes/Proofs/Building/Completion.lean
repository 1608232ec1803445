import SchemaTypes.Proofs.Building.Duplicates
/-!
# Nothing is left waiting

At the end of a run nothing is in progress, so in a sound session nothing defers: every placeholder has been
filled in.  A run is sound as long as no alias lies on a cycle of references (`NoAliasCycle`); the placeholder
that such an alias is completed by would be copied before it is filled in, and a copy is not filled in at all.

A placeholder ends up with the demands of its definition (`process_completes`).  One of an object is its instance
from the start, so it has what the type asks for and not what the keywords beside it ask of the value as a whole.
-/
namespace SchemaTypes

namespace Graph

/-- The same check at the same place; instances may be of two types that are generated as one. -/
def DemandLike (graph : Graph) (v w : Validator) : Prop :=
  v.priority = w.priority ∧
    (v.check = w.check ∨ ∃ a b, v.check = .instanceOf a ∧ w.check = .instanceOf b ∧ graph.SameType a b)

/-- Properties that demand the same. -/
def DemandsAlike (graph : Graph) (a b : PropertyId) : Prop :=
  List.Forall₂ graph.DemandLike (graph.property a).demands (graph.property b).demands

theorem demandsAlike_of_eq {graph : Graph} {a b : PropertyId}
    (h : (graph.property a).demands = (graph.property b).demands) : graph.DemandsAlike a b := by
  unfold DemandsAlike
  rw [h]
  induction (graph.property b).demands with
  | nil => exact .nil
  | cons v _ ih => exact .cons ⟨rfl, Or.inl rfl⟩ ih

end Graph

namespace Session

variable {config : Config} {s s' : Session} {allowed : Bool} {floor : Nat}

theorem Sound.not_defers (h : s.Sound) (hrest : s.Resting) (id : PropertyId) :
    (s.graph.property id).defers = false := by
  refine Bool.eq_false_iff.2 fun hdefers => ?_
  obtain ⟨key, hkey⟩ := h.waits id hdefers
  exact hrest.not_waits key id hkey

/-- A type and what it is redirected to are generated as one. -/
theorem Registered.sameType (h : s.Registered) {type target : TypeId}
    (htarget : target = type ∨ (s.graph.entry type).redirect = some target) : s.graph.SameType type target := by
  rcases htarget with rfl | hredirect
  · rfl
  · unfold Graph.SameType
    rw [h.canonical_eq, h.canonical_eq, hredirect, (h.redirects type target hredirect).1]
    rfl

/-- The instance of a type demands what the property that represents the type does. -/
theorem Registered.demandsAlike (h : s.Registered) {id definition : PropertyId} {type : TypeId}
    (hid : (s.graph.property id).demands = Building.instanceDemands type)
    (hrepresents : s.Represents definition type) : s.graph.DemandsAlike id definition := by
  obtain ⟨_, target, htarget, hdemands⟩ := hrepresents
  unfold Graph.DemandsAlike
  rw [hid, hdemands]
  exact .cons ⟨rfl, Or.inl rfl⟩ (.cons ⟨rfl, Or.inr ⟨type, target, rfl, rfl, h.sameType htarget⟩⟩ .nil)

/-- **A placeholder gets what its definition demands.**  From wherever it is made, tidy steps to a session at
rest build the definition, and the placeholder demands what that does. -/
theorem Steps.demandsAlike {m m' : Session} (hs : m.Sound) {key : DefinitionKey} {type : Option TypeId}
    {waiting : List PropertyId} {site : Site} {reference : String} {id : PropertyId}
    (hpending : m.definition? key = some (.inProgress type waiting))
    (hmade : (Building.placeholder key site reference type waiting).Runs config m id m')
    (hsteps : Steps True allowed floor m' s') (hrest : s'.Resting) (hregistered : s'.Registered)
    (hbare : type ≠ none → Building.BareAt s'.documents key) :
    ∃ definition, s'.definition? key = some (.built definition) ∧ s'.graph.DemandsAlike id definition := by
  cases type with
  | none =>
    obtain ⟨property, hdefers, rfl, rfl⟩ := Building.Env.runs_placeholder_none hmade
    have hwaits : (m.awaiting key waiting property).Waits key ⟨m.graph.properties.size⟩ :=
      (waits_awaiting property hpending key _).2 (Or.inr ⟨rfl, rfl⟩)
    rcases hsteps.enforces trivial (hs.wait hpending hdefers) hwaits with hwaits | ⟨definition, hbuilt, _, hdemands⟩
    · exact absurd hwaits (hrest.not_waits key _)
    · exact ⟨definition, hbuilt, Graph.demandsAlike_of_eq hdemands⟩
  | some type =>
    obtain ⟨property, hclean, hdemands, rfl, rfl⟩ := Building.Env.runs_placeholder_some hmade
    have hsettled : (m.withGraph (m.graph.addProperty property).2).Settled (m.graph.addProperty property).1 := by
      refine ⟨by simp [withGraph, Graph.addProperty], ?_⟩
      exact (congrArg Property.defers (Graph.property_addProperty _ _)).trans hclean
    have hkept := (hsteps.settled trivial (hs.add hclean) hsettled).2
    have hinstance := hkept.trans
      ((congrArg Property.demands (Graph.property_addProperty m.graph property)).trans hdemands)
    have hdocuments := hsteps.documents
    rcases hsteps.holds trivial (hs.add hclean) (hdocuments ▸ hbare (Option.some_ne_none type))
      (Or.inl ⟨waiting, hpending⟩) with
      hprogress | ⟨definition, hbuilt, hrepresents⟩
    · exact absurd hprogress (hrest key (some type))
    · exact ⟨definition, hbuilt, hregistered.demandsAlike hinstance hrepresents⟩

variable {ok : Reference.Documents → Prop}

theorem Reached.distinct (h : Reached config ok s) : Building.Distinct s.documents := by
  induction h with
  | initial => exact List.nodup_nil
  | register source value _ ih => exact ih.insert _
  | @process _ _ source value _ hreached _ hrun ih =>
    obtain ⟨start, hopened, hsteps, _⟩ :=
      Building.runs_document False hreached.resting (fun hfalse => hfalse.elim) hrun
    rw [hsteps.documents, hopened.documents]
    exact ih.insert _

theorem Reached.sound (h : Reached config Building.NoAliasCycle s) : s.Sound := by
  induction h with
  | initial =>
    refine ⟨fun id hdefers => ?_, fun key id hwaits => ?_, fun key other id hwaits _ => ?_,
      fun key definition hbuilt => ?_⟩
    · cases hdefers
    · obtain ⟨_, _, hdefinition, _⟩ := hwaits
      cases hdefinition
    · obtain ⟨_, _, hdefinition, _⟩ := hwaits
      cases hdefinition
    · cases hbuilt
  | register source value _ ih => exact ih.congr (fun _ => rfl) (Nat.le_refl _) fun _ => rfl
  | @process before _ source value _ hreached hok hrun ih =>
    obtain ⟨start, hopened, hsteps, _⟩ := Building.runs_document True hreached.resting
      (fun _ => ⟨ih, hreached.distinct.insert _, hok⟩) hrun
    have hstored : (before.register source value).Sound := ih.congr (fun _ => rfl) (Nat.le_refl _) fun _ => rfl
    exact hsteps.sound trivial (hopened.sound hreached.resting hstored)

/-- **No placeholder survives a run.**  Processing takes steps to a session in which no property defers, and each
placeholder made on the way demands what its definition does; of a definition that is an object this asks that
no keyword beside it asks something of the value as a whole. -/
theorem Reached.process_completes {source : Source} {value : Json} {type : TypeId}
    (hreached : Reached config Building.NoAliasCycle s)
    (hok : Building.NoAliasCycle (s.register source value).documents)
    (hrun : s.process config source value = (.ok type, s')) :
    (∀ id, (s'.graph.property id).defers = false) ∧
      ∃ start, Opened (s.register source value) start ∧
        Steps True config.settings.implicitNull s.graph.types.size start s' ∧
        ∀ (m m' : Session) (site : Site) (reference : String) (key : DefinitionKey) (known : Option TypeId)
          (waiting : List PropertyId) (id : PropertyId),
          Steps True config.settings.implicitNull s.graph.types.size start m →
          m.definition? key = some (.inProgress known waiting) →
          (Building.placeholder key site reference known waiting).Runs config m id m' →
          Steps True config.settings.implicitNull s.graph.types.size m' s' →
          (known ≠ none → Building.BareAt s'.documents key) →
          ∃ definition, s'.definition? key = some (.built definition) ∧ s'.graph.DemandsAlike id definition := by
  have hsound := hreached.sound
  obtain ⟨start, hopened, hsteps, hrest⟩ := Building.runs_document True hreached.resting
    (fun _ => ⟨hsound, hreached.distinct.insert _, hok⟩) hrun
  have hstart := hopened.sound hreached.resting (hsound.congr (fun _ => rfl) (Nat.le_refl _) fun _ => rfl)
  have hregistered := (Reached.process hreached hok hrun).registered
  refine ⟨(hsteps.sound trivial hstart).not_defers hrest, start, hopened, hsteps, ?_⟩
  intro m m' site reference key known waiting id hbefore hpending hmade hafter hbare
  exact hafter.demandsAlike (hbefore.sound trivial hstart) hpending hmade hrest hregistered hbare

/-! ## A definition that repeats itself, and one that does so by another name -/

/-- Rows of rows, and a property that holds them. -/
def rows : Json :=
  .object [("type", .string "object"),
    ("definitions", .object
      [("a", .object [("type", .string "array"), ("items", .object [("$ref", .string "#/definitions/a")])])]),
    ("properties", .object [("x", .object [("$ref", .string "#/definitions/a")])])]

def rowsRun : Except Halt TypeId × Session := process {} oneName ⟨"t", "", "T"⟩ rows

set_option maxRecDepth 100000 in
/-- The rows within rows are met while the rows are being built, and demand in the end what these do. -/
theorem process_completes_rows : rowsRun.1.toOption = some ⟨0⟩ ∧
    ∀ id, (rowsRun.2.graph.property id).defers = false := by
  have hok : rowsRun.1.toOption = some ⟨0⟩ := by decide +kernel
  have htargets : (Building.references rows).all (fun reference =>
      (Building.targetIn? (register {} ⟨"t", "", "T"⟩ rows).documents "t" reference).all fun target =>
        (target.node.get? "$ref").isNone) = true := by decide +kernel
  have hcycle : Building.NoAliasCycle (register {} ⟨"t", "", "T"⟩ rows).documents := by
    refine Building.NoAliasCycle.of_targets (List.pairwise_singleton _ _) ?_
    intro document hdocument reference hreference target htarget
    obtain rfl := List.mem_singleton.1 hdocument
    have hnone := List.all_eq_true.1 htargets reference hreference
    rw [htarget] at hnone
    exact Option.isNone_iff_eq_none.1 hnone
  have hrun : process {} oneName ⟨"t", "", "T"⟩ rows = (.ok ⟨0⟩, rowsRun.2) := eq_ok_of_toOption hok
  exact ⟨hok, (Reached.process_completes .initial hcycle hrun).1⟩

/-- A node that is no reference, or leads to one that is none. -/
inductive EndsAtNode (documents : Reference.Documents) : String → Json → Prop
  | node {document : String} {node : Json} : node.get? "$ref" = none → EndsAtNode documents document node
  | reference {document : String} {node : Json} {text : String} {target : Building.Target} :
    node.get? "$ref" = some (.string text) → Building.targetIn? documents document text = some target →
    EndsAtNode documents target.key.document target.node → EndsAtNode documents document node

/-- The rows' items go by a second name, which stands for the rows. -/
def renamedRows : Json :=
  .object [("type", .string "object"),
    ("definitions", .object
      [("a", .object [("type", .string "array"), ("items", .object [("$ref", .string "#/definitions/b")])]),
        ("b", .object [("$ref", .string "#/definitions/a")])]),
    ("properties", .object [("x", .object [("$ref", .string "#/definitions/a")])])]

def renamedRowsRun : Except Halt TypeId × Session := process {} oneName ⟨"t", "", "T"⟩ renamedRows

set_option maxRecDepth 100000 in
/-- **A chain that ends does not keep a definition from repeating itself.**  The second name is completed by a
placeholder for the rows, and the copy of it that the rows' items are is not filled in: they accept anything. -/
theorem not_forall_process_completes : ¬ ∀ (config : Config) (source : Source) (value : Json) (type : TypeId)
    (s' : Session),
    (∀ reference ∈ Building.references value, ∃ target,
      Building.targetIn? (register {} source value).documents source.key reference = some target ∧
        EndsAtNode (register {} source value).documents target.key.document target.node) →
    process {} config source value = (.ok type, s') →
    ∀ root, ∀ member ∈ (s'.graph.entry root).properties, ∀ part ∈ s'.graph.children member,
      (s'.graph.property part).defers = false := by
  intro h
  have hok : renamedRowsRun.1.toOption = some ⟨0⟩ := by decide +kernel
  have hdefers : (renamedRowsRun.2.graph.entry ⟨0⟩).properties.any (fun member =>
      (renamedRowsRun.2.graph.children member).any fun part =>
        (renamedRowsRun.2.graph.property part).defers) = true := by decide +kernel
  obtain ⟨member, hmember, hpart⟩ := List.any_eq_true.1 hdefers
  obtain ⟨part, hchild, hpart⟩ := List.any_eq_true.1 hpart
  have hends := h oneName ⟨"t", "", "T"⟩ renamedRows ⟨0⟩ renamedRowsRun.2 ?_ (eq_ok_of_toOption hok)
    ⟨0⟩ member hmember part hchild
  · rw [hpart] at hends
    cases hends
  · have hrows : ∀ document, EndsAtNode (register {} ⟨"t", "", "T"⟩ renamedRows).documents document
        (.object [("type", .string "array"), ("items", .object [("$ref", .string "#/definitions/b")])]) :=
      fun _ => .node rfl
    intro reference hreference
    have hspelled : reference = "#/definitions/b" ∨ reference = "#/definitions/a" := by
      simpa [renamedRows, Building.references, Building.referencesOfMembers, Building.ownReference] using hreference
    rcases hspelled with rfl | rfl
    · exact ⟨⟨⟨"t", "/definitions/b"⟩, "", .object [("$ref", .string "#/definitions/a")], "b"⟩, by rfl,
        @EndsAtNode.reference _ _ _ _ ⟨⟨"t", "/definitions/a"⟩, "", _, "a"⟩ rfl (by rfl) (hrows _)⟩
    · exact ⟨⟨⟨"t", "/definitions/a"⟩, "", _, "a"⟩, by rfl, hrows _⟩

end Session
end SchemaTypes

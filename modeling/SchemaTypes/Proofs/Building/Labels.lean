import SchemaTypes.Proofs.Building.Branches
import SchemaTypes.Proofs.Building.Recurrences
/-!
# The classes that labels name

The label of a property is text, written when the property is made.  If the property holds a type by then that is
finished, the label names the class that the type is generated as, and redirects cannot come between: what is held is
what is generated.  A property that stands for an object which is being built is labelled before that object's type is
finished, and the type may turn out to be a duplicate.

So after a run every label names the class that is generated for the type its property holds, and nothing else but
kinds, unless that type has been redirected and some definition leads back to itself
(`Session.Reached.label_names_class`).
-/
namespace SchemaTypes

namespace Session

open Building

variable {config : Config} {ok : Reference.Documents → Prop} {s s' start : Session} {property source result : Property}
  {type : TypeId} {id : PropertyId}

/-- The label names the class that the type was reserved as, and the type lasts or belongs to a recurrence. -/
structure LabelledBy (s : Session) (ok : Reference.Documents → Prop) (property : Property) (type : TypeId) : Prop where
  there : s.graph.HasType type
  shows : property.Shows (s.graph.entry type).name.className
  lasts : s.Lasts type ∨ ∃ documents key, ok documents ∧ Recurs documents key

/-- Whatever type the property holds, it is labelled by it. -/
def Labelled (s : Session) (ok : Reference.Documents → Prop) (property : Property) : Prop :=
  ∀ type, property.nested = some type → s.LabelledBy ok property type

theorem Labelled.passesTo (h : s.Labelled ok source) (hpasses : source.PassesTo config result) :
    s.Labelled ok result := by
  intro type htype
  obtain ⟨hthere, hshows, hlasts⟩ := h type (hpasses.nested ▸ htype)
  exact ⟨hthere, hshows.of_label hpasses.label, hlasts⟩

theorem Fits.labelled (h : s.Fits config property) : s.Labelled ok property := fun type htype =>
  ⟨(h.lasts type htype).hasType, h.shows type htype, Or.inl (h.lasts type htype)⟩

/-- The object that is being built goes by the class name it was reserved as. -/
theorem StandsFor.labelled (h : s.StandsFor True key type property) (hs : s.Collapsed) (hok : ok s.documents) :
    s.Labelled ok property := by
  intro held hheld
  cases h.nested.symm.trans hheld
  obtain ⟨hu, hrecurs⟩ := h.recurs trivial
  refine ⟨hu.hasType, ?_, Or.inr ⟨s.documents, key, hok, hrecurs⟩⟩
  have hname : s.graph.className type = (s.graph.entry type).name.className := by
    unfold Graph.className Graph.type Graph.canonical
    rw [Graph.follow_eq_self (hs.unredirected hu)]
  have hnames : property.names = [(s.graph.entry type).name.className] := by
    unfold Property.names
    rw [h.label, hname]
    rfl
  refine ⟨hnames ▸ List.mem_cons_self, fun name hmem => Or.inl ?_⟩
  rw [hnames] at hmem
  exact List.mem_singleton.1 hmem

/-- No deed takes anything back. -/
theorem Labelled.deeds {traced : Prop} (h : s.Labelled ok property) (hdeeds : Deeds config traced s s') :
    s'.Labelled ok property := by
  intro type htype
  obtain ⟨hthere, hshows, hlasts⟩ := h type htype
  have hrecalls := hdeeds.precedes.recalls
  refine ⟨hthere.grows hrecalls.grows, ?_, hlasts.imp_left fun hlasts => hlasts.deeds hdeeds⟩
  rw [hrecalls.names type hthere]
  exact hshows

theorem Labelled.of_graph (h : s.Labelled ok property) (hgraph : s'.graph = s.graph) : s'.Labelled ok property := by
  intro type htype
  obtain ⟨hthere, hshows, hlasts⟩ := h type htype
  refine ⟨hgraph ▸ hthere, hgraph ▸ hshows, hlasts.imp_left fun hlasts => ⟨?_, ?_⟩⟩
  · rw [hgraph]
    exact hlasts.signature
  · rw [hgraph]
    exact hlasts.redirect

/-- **Every deed leaves every property labelled.** -/
theorem Deed.labelled (h : Deed config True s s') (hs : s.Collapsed) (hok : ok s.documents)
    (hall : ∀ id, s.Labelled ok (s.graph.property id)) (id : PropertyId) : s'.Labelled ok (s'.graph.property id) := by
  refine Labelled.deeds ?_ (.single h)
  cases h.property id with
  | taken source hpasses => exact (hall source).passesTo hpasses
  | drafted hfits => exact hfits.labelled
  | recurring _ hstands => exact hstands.labelled hs hok

theorem Deeds.labelled (h : Deeds config True s s') (hs : s.Collapsed) (hok : ok s.documents)
    (hall : ∀ id, s.Labelled ok (s.graph.property id)) : ∀ id, s'.Labelled ok (s'.graph.property id) := by
  induction h with
  | refl => exact hall
  | tail hfirst hlast ih =>
    have hok := Deeds.documents hfirst ▸ hok
    exact hlast.labelled ((Deeds.precedes hfirst).collapsed hs) hok ih

theorem labelled_start (config : Config) {stored : Session} {source : Source} {value : Json}
    (h : Starts stored source value start) (hall : ∀ id, stored.Labelled ok (stored.graph.property id)) :
    ∀ id, start.Labelled ok (start.graph.property id) := by
  have hreserve : ∀ namespaceName className id,
      (stored.withGraph (stored.graph.reserve namespaceName className true).2).Labelled ok
        (stored.graph.property id) := by
    intro namespaceName className id
    have hdeeds : Deeds config True stored (stored.withGraph (stored.graph.reserve namespaceName className true).2) :=
      .single (.reserve namespaceName className true)
    exact (hall id).deeds hdeeds
  cases h with
  | bare namespaceName className => exact hreserve namespaceName className
  | root namespaceName className => exact fun id => (hreserve namespaceName className id).of_graph rfl

/-! ## Runs -/

theorem Reached.labelled (h : Reached config ok s) : ∀ id, s.Labelled ok (s.graph.property id) := by
  induction h with
  | initial =>
    intro id type htype
    cases htype
  | register source value _ ih => exact fun id => (ih id).of_graph rfl
  | @process before after source value _ hreached hok hrun ih =>
    obtain ⟨start, hstart, hdeeds, _⟩ :=
      runs_document_deeds True hreached.resting hreached.distinct hreached.collapsed
        (fun _ => hreached.marked.register hreached.resting hreached.not_unfinished.2 source value) hrun
    have hstored : (before.register source value).Collapsed :=
      hreached.collapsed.perform config (.register source value)
    have hlabelled := labelled_start config hstart fun id => (ih id).of_graph rfl
    exact hdeeds.labelled (hstart.collapsed hstored) (hstart.documents ▸ hok) hlabelled

/-- **Labels do not dangle.**  If a property holds a type, its label names the class that is generated for the type, and
nothing else but kinds; the exception are types that have been redirected, in runs with a definition of an object
that leads back to itself. -/
theorem Reached.label_names_class (h : Reached config ok s) (hid : (s.graph.property id).nested = some type) :
    (s.graph.property id).Shows (s.graph.className type) ∧ (s.graph.type type).redirect = none ∨
      (s.graph.entry type).redirect ≠ none ∧ ∃ documents key, ok documents ∧ Recurs documents key := by
  obtain ⟨_, hshows, hlasts⟩ := h.labelled id type hid
  by_cases hredirect : (s.graph.entry type).redirect = none
  · have hself : s.graph.canonical type = type := Graph.follow_eq_self hredirect _
    refine Or.inl ⟨?_, ?_⟩
    · unfold Graph.className Graph.type
      rw [hself]
      exact hshows
    · unfold Graph.type
      rw [hself]
      exact hredirect
  · exact Or.inr ⟨hredirect, hlasts.resolve_left fun hlasts => hredirect hlasts.redirect⟩

set_option maxRecDepth 100000 in
/-- The second twin's property is labelled with the class of the first. -/
theorem label_names_class_twins : (twinsRun.2.graph.entry ⟨2⟩).redirect = some ⟨1⟩ ∧
    (twinsRun.2.graph.property ⟨1⟩).Shows (twinsRun.2.graph.className ⟨1⟩) := by
  have hfacts : twinsRun.1.toOption = some ⟨0⟩ ∧ (twinsRun.2.graph.entry ⟨2⟩).redirect = some ⟨1⟩ ∧
      (twinsRun.2.graph.entry ⟨1⟩).redirect = none ∧ (twinsRun.2.graph.property ⟨1⟩).nested = some ⟨1⟩ := by
    decide +kernel
  obtain ⟨hok, hredirect, hstands, hnested⟩ := hfacts
  have hreached : Reached oneName (fun _ => True) twinsRun.2 := .process .initial trivial (eq_ok_of_toOption hok)
  rcases hreached.label_names_class hnested with ⟨hshows, _⟩ | ⟨hgone, _⟩
  · exact ⟨hredirect, hshows⟩
  · exact absurd hstands hgone

/-- Two definitions of one object, which refers to a third one, and that refers to both. -/
def exchange : Json :=
  let referring := fun name => Json.object [("$ref", .string ("#/definitions/" ++ name))]
  let partner := Json.object [("type", .string "object"), ("properties", .object [("y", referring "Y")])]
  .object [("type", .string "object"),
    ("definitions", .object [("X", partner), ("Z", partner), ("Y", .object [("type", .string "object"),
      ("properties", .object [("x", referring "X"), ("z", referring "Z")])])]),
    ("properties", .object [("p", referring "X")])]

def exchangeRun : Except Halt TypeId × Session := process {} oneName ⟨"t", "", "T"⟩ exchange

set_option maxRecDepth 100000 in
/-- **A label may name a class that is not generated.**  While the first definition is being built, the second one is
finished, and the first turns out to be its duplicate; what the third holds of it has been labelled before. -/
theorem not_forall_className_mem_names : ¬ ∀ (config : Config) (s : Session) (owner type : TypeId) (id : PropertyId),
    Reached config (fun _ => True) s → (s.graph.entry owner).redirect = none →
    id ∈ (s.graph.entry owner).properties → (s.graph.property id).nested = some type →
    s.graph.className type ∈ (s.graph.property id).names := by
  intro h
  have hfacts : exchangeRun.1.toOption = some ⟨0⟩ ∧ (exchangeRun.2.graph.entry ⟨2⟩).redirect = none ∧
      (exchangeRun.2.graph.entry ⟨2⟩).properties.any (fun id =>
        (exchangeRun.2.graph.property id).nested = some ⟨1⟩ &&
          !(exchangeRun.2.graph.property id).names.contains (exchangeRun.2.graph.className ⟨1⟩)) = true := by
    decide +kernel
  obtain ⟨hok, hstands, hany⟩ := hfacts
  obtain ⟨id, hmem, hid⟩ := List.any_eq_true.1 hany
  rw [Bool.and_eq_true, decide_eq_true_eq, Bool.not_eq_true'] at hid
  have hreached : Reached oneName (fun _ => True) exchangeRun.2 := .process .initial trivial (eq_ok_of_toOption hok)
  have hnamed := h oneName exchangeRun.2 ⟨2⟩ ⟨1⟩ id hreached hstands hmem hid.1
  rw [List.contains_iff_mem.2 hnamed] at hid
  exact absurd hid.2 (by decide)

end Session
end SchemaTypes

import SchemaTypes.Proofs.Building.Calls
import SchemaTypes.Proofs.Building.Duplicates
import SchemaTypes.Types.Reach
/-!
# What failed calls leave behind

A call that succeeds has finished every type it reserved.  So an unfinished type is one that an earlier call left
behind when it failed, and what a root reaches is finished unless it is such a leftover (`process_finishes`).
Leftovers are used: a definition in progress is taken for one that is being built, also by later calls
(`not_forall_process_finishes`).
-/
namespace SchemaTypes

/-- What a type refers to directly: the type it is redirected to, what its checks make instances of, and what the
properties hold that its own properties and checks lead to. -/
inductive Graph.RefersTo (graph : Graph) (type : TypeId) : TypeId → Prop
  | redirect {other : TypeId} : (graph.entry type).redirect = some other → RefersTo graph type other
  | check {other : TypeId} : other ∈ (graph.entry type).validators.types → RefersTo graph type other
  | property {other : TypeId} {first last : PropertyId} :
    first ∈ (graph.entry type).properties ++ (graph.entry type).validators.children →
    Relation.ReflTransGen (fun a b => b ∈ graph.children a) first last →
    other ∈ Graph.typesOf (graph.property last) → RefersTo graph type other

namespace Session

variable {s s' : Session} {config : Config} {calls : List Call} {source : Source} {value : Json} {root type : TypeId}

theorem Closed.hasType_typesOf (h : s.Closed) {id : PropertyId} {other : TypeId}
    (hother : other ∈ Graph.typesOf (s.graph.property id)) : s.graph.HasType other := by
  rcases List.mem_append.1 hother with hnested | hchecks
  · exact (h.properties id).nested other (Option.mem_toList.1 hnested)
  · obtain ⟨v, hv, htype⟩ := List.mem_flatMap.1 hchecks
    exact ((h.properties id).checks v hv).types other htype

/-- What a type of a closed session refers to is there. -/
theorem Closed.hasType_refersTo (h : s.Closed) {other : TypeId} (hrefers : s.graph.RefersTo type other) :
    s.graph.HasType other := by
  cases hrefers with
  | redirect hredirect => exact (h.types type).redirect other hredirect
  | check hcheck =>
    obtain ⟨v, hv, htype⟩ := List.mem_flatMap.1 hcheck
    exact ((h.types type).checks v hv).types other htype
  | property _ _ htypes => exact h.hasType_typesOf htypes

theorem Closed.hasType_reached (h : s.Closed) (hroot : s.graph.HasType root)
    (hreached : Relation.ReflTransGen s.graph.RefersTo root type) : s.graph.HasType type := by
  cases hreached with
  | refl => exact hroot
  | tail _ hlast => exact h.hasType_refersTo hlast

theorem asFinished_register (s : Session) (source : Source) (value : Json) : s.AsFinished (s.register source value) :=
  Building.Scene.asFinished_of_types rfl

/-- A document that is processed with success leaves the same types unfinished. -/
theorem Orderly.asFinished_process (h : s.Orderly config) (hrun : s.process config source value = (.ok root, s')) :
    s.AsFinished s' ∧ s'.graph.HasType root := by
  obtain ⟨hok, _⟩ := Building.Scene.document_outcomes (h.stands source value)
  obtain ⟨_, hfinished, hroot⟩ := hok root s' hrun
  exact ⟨fun id => (hfinished id).trans (asFinished_register s source value id), hroot⟩

/-- The session after a success is the one that the call leaves. -/
theorem Orderly.of_process (h : s.Orderly config) (hrun : s.process config source value = (.ok root, s')) :
    s'.Orderly config := by
  have hsame : s.perform config (.process source value) = s' := congrArg Prod.snd hrun
  exact hsame ▸ h.perform (.process source value)

/-- Where no call failed, nothing is unfinished. -/
theorem Reached.not_unfinished {ok : Reference.Documents → Prop} (h : Reached config ok s) :
    s.Orderly config ∧ ∀ type, ¬ s.Unfinished type := by
  induction h with
  | initial =>
    refine ⟨orderly_performAll config [], fun type hu => ?_⟩
    exact Nat.not_lt_zero _ hu.hasType
  | register source value _ ih =>
    refine ⟨ih.1.register source value, fun type hu => ih.2 type ?_⟩
    exact (asFinished_register _ source value type).1 hu
  | process _ _ hrun ih =>
    obtain ⟨horderly, hnone⟩ := ih
    refine ⟨horderly.of_process hrun, fun type hu => hnone type ?_⟩
    exact ((horderly.asFinished_process hrun).1 type).1 hu

/-- **What the root of a processed document reaches is finished**, unless an earlier call left it unfinished. -/
theorem process_finishes (h : (performAll config calls).process config source value = (.ok root, s'))
    (hreached : Relation.ReflTransGen s'.graph.RefersTo root type) :
    (s'.graph.entry type).signature ≠ none ∨ (performAll config calls).Unfinished type := by
  have horderly := orderly_performAll config calls
  obtain ⟨hfinished, hroot⟩ := horderly.asFinished_process h
  -- What is reached is there, so without a signature it is unfinished, and was so before.
  have htype := (horderly.of_process h).closed.hasType_reached hroot hreached
  by_cases hsignature : (s'.graph.entry type).signature = none
  · exact Or.inr ((hfinished type).1 ⟨htype, hsignature⟩)
  · exact Or.inl hsignature

/-- An object with a property of a type nobody knows, and a property that refers to it. -/
def unknownType : Json :=
  .object [("type", .string "object"),
    ("definitions", .object [("n", .object [("type", .string "object"), ("properties", .object
      [("b", .object [("type", .string "bogus")])])])]),
    ("properties", .object [("x", .object [("$ref", .string "#/definitions/n")])])]

/-- A document that refers to the object from elsewhere. -/
def borrower : Json :=
  .object [("type", .string "object"), ("properties", .object
    [("x", .object [("$ref", .string "t#/definitions/n")])])]

/-- After the first document has failed. -/
def unknownTypeCalls : List Call := [.process ⟨"t", "", "T"⟩ unknownType]

def twinsAfterFailure : Except Halt TypeId × Session :=
  (performAll oneName unknownTypeCalls).process oneName ⟨"u", "", "U"⟩ twins

def borrowerRun : Except Halt TypeId × Session :=
  (performAll oneName unknownTypeCalls).process oneName ⟨"u", "", "U"⟩ borrower

set_option maxRecDepth 100000 in
/-- The first twin's type is reached and finished, though a call has failed before. -/
theorem process_finishes_twins : twinsAfterFailure.1.toOption = some ⟨2⟩ ∧
    (twinsAfterFailure.2.graph.entry ⟨3⟩).signature ≠ none := by
  have hfacts : twinsAfterFailure.1.toOption = some ⟨2⟩ ∧
      (performAll oneName unknownTypeCalls).graph.types.size = 2 ∧
      (twinsAfterFailure.2.graph.entry ⟨2⟩).properties.any (fun member =>
        (Graph.typesOf (twinsAfterFailure.2.graph.property member)).contains ⟨3⟩) = true := by decide +kernel
  obtain ⟨hok, hsize, hmember⟩ := hfacts
  obtain ⟨member, hmem, htypes⟩ := List.any_eq_true.1 hmember
  have hrefers : twinsAfterFailure.2.graph.RefersTo ⟨2⟩ ⟨3⟩ :=
    .property (List.mem_append.2 (Or.inl hmem)) .refl (List.contains_iff_mem.1 htypes)
  refine ⟨hok, ?_⟩
  rcases process_finishes (eq_ok_of_toOption hok) (.single hrefers) with hfinished | hleft
  · exact hfinished
  · have hlt : 3 < (performAll oneName unknownTypeCalls).graph.types.size := hleft.hasType
    rw [hsize] at hlt
    exact absurd hlt (by decide)

set_option maxRecDepth 100000 in
/-- **A definition that was left in progress is taken for one that is being built.**  The second document gets the
object without its property, and without being told. -/
theorem not_forall_process_finishes : ¬ ∀ (config : Config) (calls : List Call) (source : Source) (value : Json)
    (root type : TypeId) (s' : Session),
    (performAll config calls).process config source value = (.ok root, s') →
    Relation.ReflTransGen s'.graph.RefersTo root type → (s'.graph.entry type).signature ≠ none := by
  intro h
  have hfacts : borrowerRun.1.toOption = some ⟨2⟩ ∧ (borrowerRun.2.graph.entry ⟨1⟩).signature = none ∧
      (borrowerRun.2.graph.entry ⟨2⟩).properties.any (fun member =>
        (Graph.typesOf (borrowerRun.2.graph.property member)).contains ⟨1⟩) = true := by decide +kernel
  obtain ⟨hok, hunfinished, hmember⟩ := hfacts
  obtain ⟨member, hmem, htypes⟩ := List.any_eq_true.1 hmember
  have hrefers : borrowerRun.2.graph.RefersTo ⟨2⟩ ⟨1⟩ :=
    .property (List.mem_append.2 (Or.inl hmem)) .refl (List.contains_iff_mem.1 htypes)
  exact h oneName unknownTypeCalls ⟨"u", "", "U"⟩ borrower ⟨2⟩ ⟨1⟩ borrowerRun.2 (eq_ok_of_toOption hok)
    (.single hrefers) hunfinished

end Session
end SchemaTypes

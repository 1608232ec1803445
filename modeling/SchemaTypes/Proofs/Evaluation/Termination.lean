import SchemaTypes.Proofs.Building.Coherence
import SchemaTypes.Proofs.Evaluation.Deepening
import SchemaTypes.Proofs.Evaluation.Endings
/-!
# Evaluation has an end

Where no property comes back to itself with the whole of a value, and nothing that has parts is filled in and judged
again on the way around a cycle, judging ends (`Evaluation.answers`).  Off cycles that is by induction on what is judged by further on
the way down.  On a cycle, each way around goes to a part, which nests less deep than the value.

Guarding alone does not suffice.  A property that fills in an object and then judges the result by a branch in which the
member of that name is judged by the property again comes to an empty object each time.
-/
namespace SchemaTypes

open Json

namespace Graph

variable {graph : Graph} {a b c : PropertyId}

/-- What is judged by next on the way down either leads back or lies below for good. -/
theorem Around.next (h : graph.Around a b) (hjudges : graph.Judges b c) : graph.Around a c ∨ graph.Below a c := by
  by_cases hback : Relation.ReflTransGen graph.Judges c a
  · exact Or.inl ⟨h.1.tail hjudges, hback⟩
  · exact Or.inr ⟨.tail' h.1 hjudges, fun htrans => hback htrans.to_reflTransGen⟩

end Graph

namespace Evaluation

variable {graph : Graph} {mode : Mode} {a : PropertyId}

/-- The properties around one another judge every value, if what lies below them does.  By induction on how deep the
value nests along the steps that are taken on the way around, and within that on what judges the whole of it. -/
theorem answers_around (hguarded : graph.Guarded) (hdeepens : graph.NeverDeepens)
    (htrims : ∀ id, ∀ v ∈ (graph.property id).validators.toList, v.check.Trims)
    (hbelow : ∀ b, graph.Below a b → ∀ value, Answers (property graph mode) b value) (n : Nat) :
    ∀ b, graph.Around a b → ∀ value : Json, value.nesting (graph.Takes a) ≤ n →
      Answers (property graph mode) b (some value) := by
  induction n using Nat.strongRecOn with
  | _ n ihparts =>
    intro b
    induction b using hguarded.wellFounded.induction with
    | _ b ihwholes =>
      intro haround value hvalue
      refine .of_succ (ends_runValidators (fun value => value.nesting (graph.Takes a) ≤ n) (graph.LeadsBack · b)
        (fun v hv value hfine => ?_) (fun before v after hsplit hlater bound value _ result hfine htransform => ?_)
        fun _ => hvalue)
      · refine ends_transform (answers_absent graph mode) (fun id hid => ?_) fun step id hid part hpart => ?_
        · have hjudges : graph.JudgesWhole b id := ⟨v, hv, hid⟩
          rcases haround.next (Or.inl hjudges) with hback | hdown
          · exact ihwholes id hjudges hback value (hfine ⟨id, Or.inl hid, hback.2.trans haround.1⟩)
          · exact hbelow id hdown _
        · have hpartsOf := Graph.judgesAt_subset_partsOf hid
          have hjudges : graph.Judges b id := Or.inr ⟨v, hv, hpartsOf⟩
          rcases haround.next hjudges with hback | hdown
          · have htaken : graph.Takes a step := ⟨b, id, haround, hback, v, hv, hid⟩
            have hdeep := hfine ⟨id, Or.inr hpartsOf, hback.2.trans haround.1⟩
            exact ihparts (part.nesting (graph.Takes a)) (Nat.lt_of_lt_of_le (nesting_part hpart htaken) hdeep) id hback
              part (Nat.le_refl _)
          · exact hbelow id hdown _
      · -- What a check puts back nests no deeper where the way around comes, if a later check leads back.
        have hbare : ∀ member, graph.Fills (graph.Takes a) v.check member → ∀ filled,
            (graph.property member).default = some filled → Graph.IsBare (graph.Takes a) filled := by
          rw [haround.takes_eq]
          exact hdeepens b before v after hsplit hlater
        have hv : v ∈ (graph.property b).validators.toList :=
          hsplit ▸ List.mem_append_right _ List.mem_cons_self
        refine Nat.le_trans (nesting_transform (htrims b v hv) (fun next hnext => ?_) hbare htransform) hfine
        exact property_keeps htrims mode bound fun w hw member hmember => hbare member (.further hnext hw hmember)

/-- **Judging ends**, for every property and every value. -/
theorem answers (hguarded : graph.Guarded) (hdeepens : graph.NeverDeepens)
    (htrims : ∀ id, ∀ v ∈ (graph.property id).validators.toList, v.check.Trims) (mode : Mode) (id : PropertyId) :
    ∀ value, Answers (property graph mode) id value := by
  induction id using (Graph.wellFounded_below graph).induction with
  | _ id ih =>
    intro value
    cases value with
    | none => exact answers_absent graph mode id
    | some value =>
      exact answers_around hguarded hdeepens htrims ih _ id ⟨.refl, .refl⟩ value (Nat.le_refl _)

theorem ends_run (hanswers : ∀ id value, Answers (property graph mode) id value) (type : TypeId) (value : Json) :
    Ends fun bound => run graph mode bound type value := by
  cases value with
  | object members =>
    exact (ends_evaluateObject (fun id => hanswers id none) (fun _ _ id _ => hanswers id _)
      fun _ id _ part _ => hanswers id (some part)).andThen
  | _ => exact .answer _

theorem exists_deepen_of_ends {α : Type} {x : Nat → Option α} (h : Ends x) (start : Nat) :
    ∃ result, deepen x start = some result := by
  obtain ⟨result, enough, hresult⟩ := h
  exact exists_deepen (fun bound hle hnone => nomatch hnone.symm.trans (hresult bound hle)) start

end Evaluation

namespace Session

variable {config : Config} {opens : DefinitionKey → Prop} {stores : Session → Source → Json → Prop} {s s' : Session}

theorem Passages.admitted (h : Passages config opens stores {} s) : ∀ id, (s.graph.property id).Admitted config := by
  induction h with
  | refl => exact fun id => .of_empty rfl
  | tail _ hlast ih =>
    cases hlast with
    | deed hdeed => exact hdeed.admitted ih
    | store => exact ih
    | root => exact ih

theorem trims_of_admits (hfilters : config.filters ⊆ Filters.standard) {check : Check} (h : config.Admits check) :
    check.Trims := by
  cases check with
  | filter name options accepts apply =>
    obtain ⟨filter, hmem, -, rfl⟩ := h
    exact fun value result happly => Filters.nesting_standard (hfilters hmem) happly
  | _ => trivial

/-- **Evaluation has an end**, after successful calls with built-in filters only, if every cycle goes to a part of the
value, and on the way around none is an object, or an array with items, judged again that has been filled in. -/
theorem Ran.evaluation_ends (h : Ran config stores s) (hfilters : config.filters ⊆ Filters.standard)
    (hguarded : s.graph.Guarded) (hdeepens : s.graph.NeverDeepens) (mode : Mode) :
    (∀ type value, ∃ result, s.graph.evaluate mode type value = some result) ∧
      ∀ id value, ∃ outcome, s.graph.evaluateProperty mode id value = some outcome := by
  have htrims : ∀ id, ∀ v ∈ (s.graph.property id).validators.toList, v.check.Trims := fun id v hv =>
    trims_of_admits hfilters (h.passages.1.admitted id v hv)
  have hanswers := Evaluation.answers hguarded hdeepens htrims mode
  exact ⟨fun type value => Evaluation.exists_deepen_of_ends (Evaluation.ends_run hanswers type value) _,
    fun id value => Evaluation.exists_deepen_of_ends (hanswers id value) _⟩

/-! ## A member that is filled in and judged again -/

/-- A property with a member that has an empty object for a default, and a branch by which its member `a` is judged by
the property again. -/
def refilling (name : String) : Json :=
  .object [("type", .string "object"),
    ("definitions", .object [("p", .object [("type", .array [.string "object", .string "string"]),
      ("properties", .object [(name, .object [("default", .object [])])]),
      ("allOf", .array [.object [("properties", .object
        [("a", .object [("$ref", .string "#/definitions/p")])])]])])]),
    ("properties", .object [("x", .object [("$ref", .string "#/definitions/p")])])]

def refillingRun (name : String) : Except Halt TypeId × Session := process {} oneName ⟨"t", "", "T"⟩ (refilling name)

theorem mem_propertyIds {graph : Graph} {id : PropertyId} (h : id.index < graph.properties.size) :
    id ∈ graph.propertyIds := List.mem_map.2 ⟨id.index, List.mem_range.2 h, rfl⟩

/-- Whether nothing but the branch judges whole values, and nothing does so for the branch. -/
def branchesOnce (graph : Graph) (branch : PropertyId) : Bool :=
  graph.propertyIds.all fun id => (graph.property id).validators.toList.all fun v =>
    (graph.wholesOf v.check).all fun whole => whole = branch && id ≠ branch

theorem guarded_of_branchesOnce {graph : Graph} {branch : PropertyId} (h : branchesOnce graph branch = true) :
    graph.Guarded := by
  have hstep : ∀ a b, graph.JudgesWhole a b → b = branch ∧ a ≠ branch := by
    rintro a b ⟨v, hv, hb⟩
    have hmem : a ∈ graph.propertyIds := mem_propertyIds (Graph.Judges.hasProperty (Or.inl ⟨v, hv, hb⟩))
    have hall := List.all_eq_true.1 (List.all_eq_true.1 (List.all_eq_true.1 h a hmem) v hv) b hb
    simpa using hall
  intro id hcycle
  obtain ⟨next, hfirst, -⟩ := Relation.TransGen.head'_iff.1 hcycle
  obtain ⟨last, -, hlast⟩ := Relation.TransGen.tail'_iff.1 hcycle
  exact (hstep id next hfirst).2 (hstep last id hlast).1

/-- Whether the property has nothing judge the value or parts of it. -/
def judgesNothing (graph : Graph) (id : PropertyId) : Bool :=
  (graph.property id).validators.toList.all fun v => (graph.wholesOf v.check ++ graph.partsOf v.check).isEmpty

/-- Whether members of the names that have a default are judged by nothing but such properties. -/
def defaultsApart (graph : Graph) : Bool :=
  graph.propertyIds.all fun member => (graph.property member).default.isNone ||
    graph.propertyIds.all fun id => (graph.property id).validators.toList.all fun v =>
      (graph.judgesAt v.check (.member (graph.property member).name)).all (judgesNothing graph)

section

variable {graph : Graph} {a b : PropertyId} {steps : Json.Step → Prop} {check : Check}

theorem not_judges_of_judgesNothing (h : judgesNothing graph a = true) : ¬ graph.Judges a b := by
  have hnone : ∀ v ∈ (graph.property a).validators.toList, graph.wholesOf v.check = [] ∧ graph.partsOf v.check = [] :=
    fun v hv => List.append_eq_nil_iff.1 (List.isEmpty_iff.1 (List.all_eq_true.1 h v hv))
  rintro (⟨v, hv, hb⟩ | ⟨v, hv, hb⟩)
  · rw [(hnone v hv).1] at hb
    cases hb
  · rw [(hnone v hv).2] at hb
    cases hb

/-- What judges nothing is not on the way around anything else. -/
theorem eq_of_around (h : graph.Around a b) (hb : judgesNothing graph b = true) : a = b := by
  rcases Relation.ReflTransGen.cases_head h.2 with heq | ⟨_, hjudges, _⟩
  · exact heq.symm
  · exact absurd hjudges (not_judges_of_judgesNothing hb)

theorem fills_taken {member : PropertyId} (h : graph.Fills steps check member) :
    steps (.member (graph.property member).name) := by
  induction h with
  | declared _ htaken => exact htaken
  | further _ _ _ ih => exact ih

theorem neverDeepens_of_defaultsApart (h : defaultsApart graph = true) : graph.NeverDeepens := by
  intro id _ _ _ _ _ member hfills value hvalue
  have hmember : member ∈ graph.propertyIds := by
    refine mem_propertyIds (Nat.lt_of_not_le fun hle => ?_)
    unfold Graph.property at hvalue
    rw [Array.getD_eq_getD_getElem?, Array.getElem?_eq_none hle] at hvalue
    cases hvalue
  have happart := List.all_eq_true.1 h member hmember
  rw [hvalue, Option.isNone_some, Bool.false_or] at happart
  -- Some property on the way around judges the member, but by one that is on no way around.
  obtain ⟨first, second, hfirst, hsecond, v, hv, hjudged⟩ := fills_taken hfills
  have hjudges : graph.Judges first second := Or.inr ⟨v, hv, Graph.judgesAt_subset_partsOf hjudged⟩
  have hnothing := List.all_eq_true.1 (List.all_eq_true.1 (List.all_eq_true.1 happart first
    (mem_propertyIds hjudges.hasProperty)) v hv) second hjudged
  have heq : first = second := eq_of_around (hfirst.symm.trans hsecond) hnothing
  exact absurd (heq ▸ hjudges) (not_judges_of_judgesNothing hnothing)

end

set_option maxRecDepth 100000 in
/-- With the empty object filled in under another name there is an end. -/
theorem evaluation_ends_refilling : (refillingRun "b").1.toOption = some ⟨0⟩ ∧ ∀ mode : Mode,
    (∀ type value, ∃ result, (refillingRun "b").2.graph.evaluate mode type value = some result) ∧
      ∀ id value, ∃ outcome, (refillingRun "b").2.graph.evaluateProperty mode id value = some outcome := by
  have hfacts : (refillingRun "b").1.toOption = some ⟨0⟩ ∧ branchesOnce (refillingRun "b").2.graph ⟨2⟩ = true ∧
      defaultsApart (refillingRun "b").2.graph = true := by decide +kernel
  obtain ⟨hok, honce, happart⟩ := hfacts
  have hran : Ran oneName (fun _ _ _ => True) (refillingRun "b").2 :=
    .process .initial trivial (eq_ok_of_toOption hok)
  exact ⟨hok, hran.evaluation_ends (List.Subset.refl _) (guarded_of_branchesOnce honce)
    (neverDeepens_of_defaultsApart happart)⟩

/-- Whether the property makes an instance, and then has its branch judge that. -/
def refills (graph : Graph) (id : PropertyId) : Bool :=
  match (graph.property id).validators.toList with
  | [⟨.type kinds _, _⟩, ⟨.instanceOf type, _⟩, ⟨.composition _ [branch] false, _⟩] =>
    kinds.contains .object && type = ⟨1⟩ && branch.property = ⟨2⟩
  | _ => false

/-- Whether the instance has an empty object filled in, and the branch has it judged by a property that does so, too. -/
def refilled (graph : Graph) : Bool :=
  (match (graph.property ⟨2⟩).validators.toList with
    | [⟨.required, _⟩, ⟨.type kinds _, _⟩, ⟨.instanceOf type, _⟩] => kinds.contains .object && type = ⟨2⟩
    | _ => false) &&
  (graph.type ⟨2⟩).properties = [⟨1⟩] && (graph.property ⟨1⟩).name = "a" && (graph.type ⟨1⟩).properties = [⟨0⟩] &&
  (graph.type ⟨1⟩).validators.toList.isEmpty && (graph.property ⟨0⟩).name = "a" &&
  (graph.property ⟨0⟩).validators.toList.isEmpty && (match (graph.property ⟨0⟩).default with
    | some (.object []) => true
    | _ => false)

section

open Evaluation

variable {graph : Graph} {mode : Mode} {judge : Judge}

theorem runCheck_type_object {kinds : List Kind} {implicitNull : Bool} (h : kinds.contains .object = true)
    (members : Members) :
    runCheck graph mode judge (.type kinds implicitNull) (some (.object members)) =
      some (.pass, some (.object members)) := by
  have hany : kinds.any (·.accepts (.object members)) = true :=
    List.any_eq_true.2 ⟨.object, List.contains_iff_mem.1 h, rfl⟩
  simp only [runCheck, transform, inspect, settlesNull, hany]
  rfl

/-- The instance that is made of an empty object has the member. -/
theorem instance_refilled (h : refilled graph = true) (mode : Mode) (bound : Nat) :
    runCheck graph mode (Evaluation.property graph mode bound) (.instanceOf ⟨1⟩) (some (.object [])) = none ∨
      runCheck graph mode (Evaluation.property graph mode bound) (.instanceOf ⟨1⟩) (some (.object [])) =
        some (.pass, some (.object [("a", .object [])])) := by
  simp only [refilled, Bool.and_eq_true, decide_eq_true_eq, List.isEmpty_iff] at h
  obtain ⟨⟨⟨⟨⟨-, hdeclared⟩, hchecks⟩, hname⟩, hnone⟩, hdefault⟩ := h
  split at hdefault
  · rename_i hfilled
    cases bound with
    | zero =>
      refine Or.inl ?_
      simp only [runCheck, transform, evaluateObject, hdeclared, evaluateProperties, Evaluation.property,
        Option.bind_eq_bind, Option.bind_none]
    | succ bound =>
      refine Or.inr ?_
      have habsent : Evaluation.property graph mode (bound + 1) ⟨0⟩ none = some { value := none } := by
        simp only [Evaluation.property, hnone, runValidators]
      simp [runCheck, transform, evaluateObject, hdeclared, evaluateProperties, hname, Members.get?, habsent,
        contribution, hfilled, hchecks, evaluateTypeChecks, Members.insert, Verdict.ofDetails]
  · cases hdefault

/-- The branch asks for the member. -/
theorem branch_refilled (h : refilled graph = true) {bound : Nat}
    (hmember : Evaluation.property graph mode bound ⟨1⟩ (some (.object [])) = none) :
    Evaluation.property graph mode (bound + 1) ⟨2⟩ (some (.object [("a", .object [])])) = none := by
  simp only [refilled, Bool.and_eq_true, decide_eq_true_eq] at h
  obtain ⟨⟨⟨⟨⟨⟨⟨hbranch, hdeclared⟩, hname⟩, -⟩, -⟩, -⟩, -⟩, -⟩ := h
  split at hbranch
  · rename_i first kinds implicitNull second type third hchecks
    rw [Bool.and_eq_true, decide_eq_true_eq] at hbranch
    obtain ⟨hkinds, rfl⟩ := hbranch
    have hinstance : runCheck graph mode (Evaluation.property graph mode bound) (.instanceOf ⟨2⟩)
        (some (.object [("a", .object [])])) = none := by
      simp only [runCheck, transform, evaluateObject, hdeclared, evaluateProperties, hname, Members.get?,
        List.lookup_cons, beq_self_eq_true, hmember, Option.bind_eq_bind, Option.bind_none]
    have hrequired : runCheck graph mode (Evaluation.property graph mode bound) .required
        (some (.object [("a", .object [])])) = some (.pass, some (.object [("a", .object [])])) := rfl
    simp only [Evaluation.property, hchecks, runValidators, hrequired, runCheck_type_object hkinds, hinstance,
      Option.bind_eq_bind, Option.bind_some, Option.bind_none]
  · cases hbranch

/-- **No bound is enough**: two levels further down, the same is asked for. -/
theorem property_refilled (h : refilled graph = true) (hmember : refills graph ⟨1⟩ = true) (mode : Mode) (bound : Nat) :
    ∀ id, refills graph id = true → Evaluation.property graph mode bound id (some (.object [])) = none := by
  induction bound using Nat.strongRecOn with
  | _ bound ih =>
    intro id hid
    cases bound with
    | zero => rfl
    | succ bound =>
      have hbranch : Evaluation.property graph mode bound ⟨2⟩ (some (.object [("a", .object [])])) = none := by
        cases bound with
        | zero => rfl
        | succ bound => exact branch_refilled h (ih bound (by omega) ⟨1⟩ hmember)
      unfold refills at hid
      split at hid
      · rename_i kinds implicitNull first type second combinator branch third hchecks
        simp only [Bool.and_eq_true, decide_eq_true_eq] at hid
        obtain ⟨⟨hkinds, rfl⟩, hjudged⟩ := hid
        have hcomposition : runCheck graph mode (Evaluation.property graph mode bound)
            (.composition combinator [branch] false) (some (.object [("a", .object [])])) = none := by
          simp [runCheck, transform, inspect, settlesNull, judgeBranches, hjudged, hbranch]
        rcases instance_refilled h mode bound with hinstance | hinstance
        · simp only [Evaluation.property, hchecks, runValidators, runCheck_type_object hkinds, hinstance,
            Option.bind_eq_bind, Option.bind_some, Option.bind_none]
        · simp only [Evaluation.property, hchecks, runValidators, runCheck_type_object hkinds, hinstance, hcomposition,
            Option.bind_eq_bind, Option.bind_some, Option.bind_none]
      · cases hid

end

set_option maxRecDepth 100000 in
/-- **Every cycle may go to a part and evaluation still have no end**. -/
theorem not_forall_evaluate : ¬ ∀ (config : Config) (s : Session) (mode : Mode) (type : TypeId) (value : Json),
    Ran config (fun _ _ _ => True) s → config.filters ⊆ Filters.standard → s.graph.Guarded →
    ∃ result, s.graph.evaluate mode type value = some result := by
  intro h
  have hfacts : (refillingRun "a").1.toOption = some ⟨0⟩ ∧
      branchesOnce (refillingRun "a").2.graph ⟨2⟩ = true ∧
      refilled (refillingRun "a").2.graph = true ∧
      refills (refillingRun "a").2.graph ⟨1⟩ = true ∧ refills (refillingRun "a").2.graph ⟨4⟩ = true ∧
      ((refillingRun "a").2.graph.type ⟨0⟩).properties = [⟨4⟩] ∧
      ((refillingRun "a").2.graph.property ⟨4⟩).name = "x" := by decide +kernel
  obtain ⟨hok, honce, hrefilled, hmember, hproperty, hdeclared, hname⟩ := hfacts
  have hran : Ran oneName (fun _ _ _ => True) (refillingRun "a").2 :=
    .process .initial trivial (eq_ok_of_toOption hok)
  obtain ⟨result, hresult⟩ := h oneName _ .failFast ⟨0⟩ (.object [("x", .object [])]) hran (List.Subset.refl _)
    (guarded_of_branchesOnce honce)
  obtain ⟨bound, hbound⟩ := Evaluation.exists_of_deepen hresult
  have hnone := property_refilled hrefilled hmember .failFast bound ⟨4⟩ hproperty
  simp only [Evaluation.run, Evaluation.evaluateObject, hdeclared, Evaluation.evaluateProperties, hname, Members.get?,
    List.lookup_cons, beq_self_eq_true, hnone, Option.bind_eq_bind, Option.bind_none] at hbound
  cases hbound

end Session
end SchemaTypes

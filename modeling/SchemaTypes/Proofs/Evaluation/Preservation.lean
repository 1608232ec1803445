import SchemaTypes.Proofs.Building.Collapse
import SchemaTypes.Proofs.Evaluation.Unchanged
/-!
# What evaluation keeps of an object

The model starts as a copy of the input, and from then on members are only put in: under the names of the type's
properties, and under the names that its compositions populate.  Putting in keeps the place of a name that is already
there and appends a new one.  So the members of the input are the first ones of the model, in their order, and those
under other names have kept their value (`Graph.evaluate_preserves`), also where evaluation ends early.

What is put back under the name of a property is the member itself, if nothing that changes values is reached from the
property (`Evaluation.property_leaves`).  Where that holds for all properties and the type adds nothing, the model is the
input.
-/
namespace SchemaTypes

/-- An object and what has become of it: its members are the first ones of the model, in their order, and only those
under a name that may be touched have changed. -/
structure Members.Kept (touched : String → Prop) (input model : Members) : Prop where
  names : input.names <+: model.names
  member : ∀ (index : Nat) name value, input[index]? = some (name, value) → ¬ touched name →
    model[index]? = some (name, value)

namespace Members

variable {members input model : Members} {name : String} {value : Json} {touched : String → Prop}

theorem names_prefix_insert (name : String) (value : Json) : ∀ members : Members,
    members.names <+: (members.insert name value).names
  | [] => List.nil_prefix
  | (known, old) :: rest => by
    rw [insert]
    split
    · exact List.prefix_rfl
    · exact List.cons_prefix_cons.2 ⟨rfl, names_prefix_insert name value rest⟩

theorem getElem?_insert {other : String} {found : Json} (hne : other ≠ name) :
    ∀ {members : Members} {index : Nat}, members[index]? = some (other, found) →
      (members.insert name value)[index]? = some (other, found)
  | [], _, h => nomatch h
  | (known, old) :: rest, 0, h => by
    obtain ⟨rfl, rfl⟩ := Prod.mk.inj (Option.some.inj h)
    rw [insert, if_neg hne]
    rfl
  | (known, old) :: rest, index + 1, h => by
    have hrest : rest[index]? = some (other, found) := h
    rw [insert]
    split
    · exact hrest
    · exact getElem?_insert hne hrest

namespace Kept

theorem refl (touched : String → Prop) (input : Members) : Kept touched input input :=
  ⟨List.prefix_rfl, fun _ _ _ hmember _ => hmember⟩

theorem insert (h : Kept touched input model) (hname : touched name) : Kept touched input (model.insert name value) where
  names := h.names.trans (names_prefix_insert name value model)
  member index other found hmember hother := by
    refine getElem?_insert (fun heq => hother ?_) (h.member index other found hmember hother)
    rw [heq]
    exact hname

/-- What each step of a loop keeps, the loop keeps. -/
theorem foldl {β : Type} {f : Members → β → Members} : ∀ {steps : List β} {model : Members},
    (∀ step ∈ steps, ∀ model, Kept touched input model → Kept touched input (f model step)) →
      Kept touched input model → Kept touched input (steps.foldl f model)
  | [], _, _, h => h
  | _ :: _, _, hsteps, h => by
    rw [List.forall_mem_cons] at hsteps
    rw [List.foldl_cons]
    exact foldl hsteps.2 (hsteps.1 _ h)

end Kept
end Members

/-- The names whose members may change as an object is evaluated against the type: its properties', and those that the
branches of its compositions populate. -/
def Graph.Touches (graph : Graph) (type : TypeId) (name : String) : Prop :=
  (∃ id ∈ (graph.type type).properties, (graph.property id).name = name) ∨
    ∃ v ∈ (graph.type type).validators.toList, ∃ combinator branches,
      v.check = .composition combinator branches true ∧ ∃ branch ∈ branches, name ∈ branch.affected

namespace Evaluation

open Members

variable {graph : Graph} {mode : Mode} {judge : Judge} {check : Check} {input model : Members} {type : TypeId}
  {touched : String → Prop}

/-! ## Compositions -/

theorem kept_takeOver {affected : List String} {output : Option Json} (haffected : ∀ name ∈ affected, touched name)
    (h : Kept touched input model) : Kept touched input (takeOver model affected output) := by
  refine Kept.foldl (fun name hname model h => ?_) h
  split
  · exact h.insert (haffected name hname)
  · exact h

theorem kept_reset {affected : List String} {populated : List String} (haffected : ∀ name ∈ affected, touched name)
    (h : Kept touched input model) : Kept touched input (reset model affected populated) := by
  refine Kept.foldl (fun name hname model h => ?_) h
  split
  · exact h.insert (haffected name hname)
  · exact h

theorem kept_populate {results : List (Branch × Outcome)}
    (haffected : ∀ result ∈ results, ∀ name ∈ result.1.affected, touched name)
    (h : Kept touched input model) : Kept touched input (populate model results) := by
  unfold populate
  refine Kept.foldl (fun result hresult _ h => ?_) (Kept.foldl (fun result hresult _ h => ?_) h)
  · exact kept_reset (haffected result (List.mem_filter.1 hresult).1) h
  · exact kept_takeOver (haffected result (List.mem_filter.1 hresult).1) h

/-! ## Properties and checks -/

theorem kept_contribute {name : String} (hname : touched name) (hmodel : Kept touched input model) (found : Option Json) :
    Kept touched input (match found with | some value => model.insert name value | none => model) := by
  cases found with
  | none => exact hmodel
  | some value => exact hmodel.insert hname

theorem evaluateProperties_kept : ∀ {ids : List PropertyId} {model : Members} {found : Populated},
    (∀ id ∈ ids, touched (graph.property id).name) → Kept touched input model →
      evaluateProperties graph mode judge input ids model = some found → Kept touched input found.model
  | [], _, _, _, hmodel, h => by
    cases h
    exact hmodel
  | id :: rest, model, found, hids, hmodel, h => by
    rw [List.forall_mem_cons] at hids
    simp only [evaluateProperties, Option.bind_eq_bind, Option.bind_eq_some_iff] at h
    obtain ⟨outcome, -, h⟩ := h
    have hnext := kept_contribute hids.1 hmodel (contribution (graph.property id) outcome)
    split at h
    · cases h
      exact hnext
    · simp only [Option.bind_eq_some_iff, Option.pure_def, Option.some.injEq] at h
      obtain ⟨others, hothers, rfl⟩ := h
      have hlast := evaluateProperties_kept hids.2 hnext hothers
      exact hlast

theorem runTypeCheck_kept {model' : Members} {verdict : Verdict}
    (haffected : ∀ combinator branches, check = .composition combinator branches true →
      ∀ branch ∈ branches, ∀ name ∈ branch.affected, touched name)
    (hmodel : Kept touched input model) (h : runTypeCheck mode judge input model check = some (verdict, model')) :
    Kept touched input model' := by
  unfold runTypeCheck at h
  split at h
  · simp only [Option.bind_eq_bind, Option.bind_eq_some_iff, Option.pure_def, Option.some.injEq,
      Prod.mk.injEq] at h
    obtain ⟨outcomes, -, -, rfl⟩ := h
    exact kept_populate (fun result hresult => haffected _ _ rfl _ (List.of_mem_zip hresult).1) hmodel
  · simp only [Option.bind_eq_bind, Option.bind_eq_some_iff, Option.pure_def, Option.some.injEq,
      Prod.mk.injEq] at h
    obtain ⟨_, -, -, rfl⟩ := h
    exact hmodel

theorem evaluateTypeChecks_kept {className : String} : ∀ {validators : List Validator} {model : Members}
    {found : Populated},
    (∀ v ∈ validators, ∀ combinator branches, v.check = .composition combinator branches true →
      ∀ branch ∈ branches, ∀ name ∈ branch.affected, touched name) → Kept touched input model →
    evaluateTypeChecks mode judge className input validators model = some found → Kept touched input found.model
  | [], _, _, _, hmodel, h => by
    cases h
    exact hmodel
  | validator :: rest, model, found, haffected, hmodel, h => by
    rw [List.forall_mem_cons] at haffected
    simp only [evaluateTypeChecks, Option.bind_eq_bind, Option.bind_eq_some_iff] at h
    obtain ⟨⟨verdict, next⟩, hcheck, h⟩ := h
    have hnext := runTypeCheck_kept haffected.1 hmodel hcheck
    cases verdict with
    | pass => exact evaluateTypeChecks_kept haffected.2 hnext h
    | settle => exact evaluateTypeChecks_kept haffected.2 hnext h
    | fail failure =>
      simp only at h
      split at h
      · cases h
        exact hnext
      · simp only [Option.bind_eq_some_iff, Option.pure_def, Option.some.injEq] at h
        obtain ⟨others, hothers, rfl⟩ := h
        have hlast := evaluateTypeChecks_kept haffected.2 hnext hothers
        exact hlast

/-- Whatever judges the properties and branches, an object keeps its members, and those it does not touch keep their
value. -/
theorem evaluateObject_kept {found : Populated} (h : evaluateObject graph mode judge type input = some found) :
    Kept (graph.Touches type) input found.model := by
  simp only [evaluateObject, Option.bind_eq_bind, Option.bind_eq_some_iff] at h
  obtain ⟨first, hfirst, h⟩ := h
  have hmodel : Kept (graph.Touches type) input first.model :=
    evaluateProperties_kept (fun id hid => .inl ⟨id, hid, rfl⟩) (Kept.refl _ input) hfirst
  split at h
  · cases h
    exact hmodel
  · simp only [Option.bind_eq_some_iff, Option.pure_def, Option.some.injEq] at h
    obtain ⟨second, hsecond, rfl⟩ := h
    have hlast : Kept (graph.Touches type) input second.model := evaluateTypeChecks_kept
      (fun v hv combinator branches hcheck branch hbranch name hname =>
        .inr ⟨v, hv, combinator, branches, hcheck, branch, hbranch, hname⟩) hmodel hsecond
    exact hlast

end Evaluation

namespace Graph

open Evaluation

/-- **Evaluation changes nothing it need not.**  The members of an object are the first ones of its model, in their
order, and those that are neither properties of the type nor populated by its branches have kept their value.  Where
no filter, no default and no populating branch is reached, the model is the object itself, whatever is wrong with it. -/
theorem evaluate_preserves {graph : Graph} {mode : Mode} {type : TypeId} {input : Members} {result : Result}
    (h : graph.evaluate mode type (.object input) = some result) :
    ∃ model, result.model = .object model ∧ Members.Kept (graph.Touches type) input model ∧
      (graph.AddsNothing type → (∀ id ∈ (graph.type type).properties, graph.Steady id) → model = input) := by
  rw [evaluate_object] at h
  simp only [Option.bind_eq_bind, Option.bind_eq_some_iff, Option.pure_def, Option.some.injEq] at h
  obtain ⟨found, hfound, rfl⟩ := h
  refine ⟨found.model, rfl, evaluateObject_kept hfound, fun hadds hsteady => ?_⟩
  exact evaluateObject_leaves (fun id hid => evaluateProperty_leaves (hsteady id hid)) hadds hfound

/-- Properties are steady if they lead to none but each other, and all their checks spare the value. -/
theorem steady_of_closed {graph : Graph} {ids : List PropertyId}
    (hclosed : ∀ id ∈ ids, ∀ v ∈ (graph.property id).validators.toList,
      graph.Spares v.check ∧ graph.returnedBy v.check ⊆ ids) : ∀ id ∈ ids, graph.Steady id := by
  intro id hid other hother
  have hmem : other ∈ ids := by
    induction hother with
    | refl => exact hid
    | tail _ hstep ih =>
      obtain ⟨v, hv, hreturned⟩ := hstep
      exact (hclosed _ ih v hv).2 hreturned
  exact fun v hv => (hclosed other hmem v hv).1

end Graph

namespace Session

open Evaluation

/-- An object with a default for its only member. -/
def preset : Json :=
  .object [("type", .string "object"), ("properties", .object [("a", .object [("default", .string "s")])])]

def presetRun : Except Halt TypeId × Session := process {} oneName ⟨"t", "", "T"⟩ preset

/-- A row has a number and a list of texts. -/
def row : Json :=
  let typed := fun word => Json.object [("type", .string word)]
  .object [("type", .string "object"), ("properties", .object [("n", typed "integer"),
    ("cells", .object [("type", .string "array"), ("items", typed "string")])])]

def rowRun : Except Halt TypeId × Session := process {} oneName ⟨"t", "", "T"⟩ row

/-- A row in which neither the number nor one of the texts is what it should be. -/
def brokenRow : Members :=
  [("cells", .array [.string "x", .bool true]), ("m", .null), ("n", .array [])]

set_option maxRecDepth 100000 in
theorem preset_facts : (∀ id ∈ (presetRun.2.graph.type ⟨0⟩).properties, (presetRun.2.graph.property id).name ≠ "z") ∧
    (presetRun.2.graph.type ⟨0⟩).validators.toList.length = 0 ∧
    (run presetRun.2.graph .collectAll 9 ⟨0⟩ (.object [("z", .bool true)])).any (·.isValid) = true := by
  decide +kernel

set_option maxRecDepth 100000 in
theorem row_facts : (rowRun.2.graph.type ⟨0⟩).validators.toList.length = 0 ∧
    (∀ id ∈ (rowRun.2.graph.type ⟨0⟩).properties, (rowRun.2.graph.property id).default.isNone = true ∧
      id ∈ [⟨0⟩, ⟨1⟩, ⟨2⟩]) ∧
    (∀ id ∈ [⟨0⟩, ⟨1⟩, ⟨2⟩], ∀ v ∈ (rowRun.2.graph.property id).validators.toList,
      v.check.isFilter = false ∧ v.check.types = [] ∧ rowRun.2.graph.returnedBy v.check ⊆ [⟨0⟩, ⟨1⟩, ⟨2⟩]) ∧
    (run rowRun.2.graph .collectAll 9 ⟨0⟩ (.object brokenRow)).any (·.report.length = 2) = true := by
  decide +kernel

/-- A member that is not declared stays first where a default is filled in, and a row stays as it is though two of its
members are wrong. -/
theorem evaluate_preserves_row :
    (∃ result model, presetRun.2.graph.evaluate .collectAll ⟨0⟩ (.object [("z", .bool true)]) = some result ∧
      result.model = .object model ∧ model[0]? = some ("z", .bool true)) ∧
    ∃ result, rowRun.2.graph.evaluate .collectAll ⟨0⟩ (.object brokenRow) = some result ∧
      result.report.length = 2 ∧ result.model = .object brokenRow := by
  constructor
  · obtain ⟨hnames, hchecks, hpreset⟩ := preset_facts
    obtain ⟨result, hresult, -⟩ := (Option.any_eq_true _ _).1 hpreset
    have hrun := evaluate_eq_some_iff.2 ⟨9, hresult⟩
    obtain ⟨model, hmodel, hkept, -⟩ := Graph.evaluate_preserves hrun
    refine ⟨result, model, hrun, hmodel, hkept.member 0 "z" _ rfl ?_⟩
    rintro (⟨id, hid, hname⟩ | ⟨v, hv, -⟩)
    · exact hnames id hid hname
    · rw [List.length_eq_zero_iff.1 hchecks] at hv
      cases hv
  · obtain ⟨hchecks, hmembers, hclosed, hrow⟩ := row_facts
    obtain ⟨result, hresult, hlength⟩ := (Option.any_eq_true _ _).1 hrow
    have hrun := evaluate_eq_some_iff.2 ⟨9, hresult⟩
    obtain ⟨model, hmodel, -, hsame⟩ := Graph.evaluate_preserves hrun
    refine ⟨result, hrun, of_decide_eq_true hlength, ?_⟩
    rw [hmodel, hsame ⟨fun id hid => Option.isNone_iff_eq_none.1 (hmembers id hid).1, ?_⟩ fun id hid => ?_]
    · rw [List.length_eq_zero_iff.1 hchecks]
      exact fun v hv => nomatch hv
    · refine Graph.steady_of_closed (fun id hid v hv => ?_) id (hmembers id hid).2
      obtain ⟨hfilter, htypes, hreturned⟩ := hclosed id hid v hv
      refine ⟨⟨hfilter, fun type htype => ?_⟩, hreturned⟩
      rw [htypes] at htype
      cases htype

end Session
end SchemaTypes

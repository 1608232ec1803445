import SchemaTypes.Proofs.Check.Slots
import SchemaTypes.Proofs.Evaluation.Fixpoint
/-!
# Where violations come from

Every violation of a report, at any depth, is made from a check and what a failing run of it adds: parameters of certain
names (`Check.runtimeNames`), and details.  Each function that judges passes this on from the judge it asks
(`Judge.Stems`), so evaluation has it throughout (`Graph.evaluate_stems`).

What a run adds has no name of what is known of the check before.  Where both had one, the message would have the latter
and the violation's parameters the former (`Failure.message_slot`, `Failure.get?_parameters`), which no report shows.
-/
namespace SchemaTypes

/-! ## What failing runs add -/

/-- The names of the parameters that a failing run adds. -/
def Check.runtimeNames : Check → List String
  | .type .. | .noAdditionalItems _ => ["actual"]
  | .noAdditionalProperties .. => ["properties"]
  | .propertyDependency .. => ["missing"]
  | .composition .. => ["matched"]
  | .filter .. => ["reason"]
  | _ => []

namespace Violation

/-- The violation is made from a check and what a failing run adds. -/
def Stems (violation : Violation) : Prop :=
  ∃ (check : Check) (failure : Failure), failure.runtime.names = check.runtimeNames ∧
    violation = failure.violation check violation.property

/-- It holds of the violation and of all that are nested in it. -/
inductive Throughout (P : Violation → Prop) : Violation → Prop
  | intro {violation : Violation} (here : P violation)
      (within : ∀ detail ∈ violation.details, ∀ nested ∈ detail.violations, Throughout P nested) : Throughout P violation

end Violation

/-- All of them, and all that are nested in them, stem from checks. -/
def Report.Stems (report : Report) : Prop := ∀ violation ∈ report, violation.Throughout Violation.Stems

/-- All that is found under the labels stems from checks. -/
def Detail.Stem (details : List (Detail Violation)) : Prop := ∀ detail ∈ details, Report.Stems detail.violations

/-- A failure of the check adds the parameters it should. -/
def Verdict.Stems (check : Check) : Verdict → Prop
  | .fail failure => failure.runtime.names = check.runtimeNames ∧ Detail.Stem failure.details
  | _ => True

/-- What the judge reports stems from checks. -/
def Judge.Stems (judge : Judge) : Prop :=
  ∀ id value outcome, judge id value = some outcome → Report.Stems outcome.violations

theorem Report.Stems.nil : Report.Stems [] := List.forall_mem_nil _

theorem Detail.stem_nil : Detail.Stem [] := List.forall_mem_nil _

theorem Report.Stems.append {first second : Report} (h : Report.Stems first) (h' : Report.Stems second) :
    Report.Stems (first ++ second) := fun violation hviolation =>
  (List.mem_append.1 hviolation).elim (h violation) (h' violation)

/-- **A failed check** makes a violation that stems from it, as what is nested does. -/
theorem Report.Stems.cons {check : Check} {failure : Failure} {report : Report} (h : (Verdict.fail failure).Stems check)
    (hreport : Report.Stems report) (name : String) : Report.Stems (failure.violation check name :: report) := by
  refine List.forall_mem_cons.2 ⟨.intro ⟨check, failure, h.1, rfl⟩ fun detail hdetail nested hnested => ?_, hreport⟩
  exact h.2 detail hdetail nested hnested

/-! ## Answers -/

/-- If there is an answer, it has the property. -/
def Brings {α : Type} (P : α → Prop) (x : Option α) : Prop := ∀ a, x = some a → P a

namespace Brings

variable {α β : Type} {P : α → Prop} {Q : β → Prop} {x : Option α} {f : α → Option β}

theorem some {a : α} (h : P a) : Brings P (Option.some a) := fun _ heq => Option.some.inj heq ▸ h

theorem bind (h : Brings P x) (hf : ∀ a, P a → Brings Q (f a)) : Brings Q (x >>= f) := by
  intro b hb
  obtain ⟨a, ha, hfa⟩ := Option.bind_eq_some_iff.1 hb
  exact hf a (h a ha) b hfa

end Brings

namespace Verdict

variable {check : Check}

theorem stems_ofBool (hnames : check.runtimeNames = []) (passed : Bool) : (ofBool passed).Stems check := by
  unfold ofBool
  split
  · trivial
  · exact ⟨hnames.symm, Detail.stem_nil⟩

theorem stems_failWith {name : String} (hnames : check.runtimeNames = [name]) (value : Json) :
    (failWith name value).Stems check := ⟨hnames.symm, Detail.stem_nil⟩

theorem stems_ofDetails (hnames : check.runtimeNames = []) {details : List (Detail Violation)}
    (h : Detail.Stem details) : (ofDetails details).Stems check := by
  unfold ofDetails
  split
  · trivial
  · exact ⟨hnames.symm, h⟩

end Verdict

theorem Detail.stem_failed {label : String} {report : Report} (h : Report.Stems report) :
    Detail.Stem [Detail.failed label report] := List.forall_mem_singleton.2 h

namespace Judge.Stems

open Evaluation

variable {graph : Graph} {J : Judge} {mode : Mode} {check : Check}

/-! ## Parts -/

theorem brings (h : J.Stems) (id : PropertyId) (value : Option Json) :
    Brings (fun outcome => Report.Stems outcome.violations) (J id value) := h id value

theorem survey (h : J.Stems) (parts : List Part) :
    Brings (fun survey => Detail.Stem survey.details) (J.survey mode parts) := by
  induction parts with
  | nil => exact .some Detail.stem_nil
  | cons part rest ih =>
    simp only [Judge.survey]
    refine (h.brings _ _).bind fun outcome houtcome => ?_
    have hdetails : Detail.Stem (if outcome.isValid then [] else [Detail.failed part.label outcome.violations]) := by
      split
      · exact Detail.stem_nil
      · exact Detail.stem_failed houtcome
    split
    · exact .some hdetails
    · refine ih.bind fun others hothers => .some fun detail hdetail => ?_
      exact (List.mem_append.1 hdetail).elim (hdetails detail) (hothers detail)

theorem judgeBranches (h : J.Stems) (value : Json) : ∀ branches : List Branch,
    Brings (fun outcomes => ∀ outcome ∈ outcomes, Report.Stems outcome.violations) (judgeBranches J branches value)
  | [] => .some (List.forall_mem_nil _)
  | branch :: rest => by
    unfold Evaluation.judgeBranches
    rw [List.mapM_cons]
    refine (h.brings _ _).bind fun outcome houtcome => (h.judgeBranches value rest).bind fun others hothers => ?_
    exact .some (List.forall_mem_cons.2 ⟨houtcome, hothers⟩)

theorem compositionVerdict_stems {combinator : Combinator} {branches : List Branch} {onObject : Bool}
    {outcomes : List Outcome} (h : ∀ outcome ∈ outcomes, Report.Stems outcome.violations) :
    (compositionVerdict combinator outcomes).Stems (.composition combinator branches onObject) := by
  unfold compositionVerdict
  simp only
  split
  · trivial
  · refine ⟨rfl, fun detail hdetail => ?_⟩
    obtain ⟨⟨outcome, index⟩, hindexed, rfl⟩ := List.mem_map.1 hdetail
    exact h outcome (List.fst_mem_of_mem_zipIdx hindexed)

theorem judgeConditional (h : J.Stems) (hnames : check.runtimeNames = []) (condition : PropertyId)
    (consequent alternative : Option PropertyId) (value : Json) :
    Brings (Verdict.Stems check) (judgeConditional J condition consequent alternative value) := by
  unfold Evaluation.judgeConditional
  refine (h.brings _ _).bind fun premise hpremise => ?_
  split
  · exact .some trivial
  · refine (h.brings _ _).bind fun outcome houtcome => ?_
    split
    · exact .some trivial
    · exact .some (Verdict.stems_ofDetails hnames
        (List.forall_mem_cons.2 ⟨hpremise, Detail.stem_failed houtcome⟩))

theorem judgeMembers (h : J.Stems) (hnames : check.runtimeNames = []) (label : String) (id : PropertyId)
    (members : Members) : Brings (Verdict.Stems check) (judgeMembers J mode label id members) :=
  (h.survey _).bind fun _ hdetails => .some (Verdict.stems_ofDetails hnames hdetails)

theorem rejectNames_stems {parameter : String} (hnames : check.runtimeNames = [parameter]) (names : List String) :
    (rejectNames parameter names).Stems check := by
  unfold rejectNames
  split
  · trivial
  · exact Verdict.stems_failWith hnames _

/-! ## Checks -/

theorem inspectObject (h : J.Stems) (members : Members) (check : Check) :
    Brings (Verdict.Stems check) (inspectObject J mode members check) := by
  cases check with
  | noAdditionalProperties className known patterns => exact .some (rejectNames_stems rfl _)
  | additionalProperties className known patterns id => exact h.judgeMembers rfl _ _ _
  | patternProperty className pattern key id => exact h.judgeMembers rfl _ _ _
  | propertyNames className id => exact h.judgeMembers rfl _ _ _
  | minProperties count => exact .some (Verdict.stems_ofBool rfl _)
  | maxProperties count => exact .some (Verdict.stems_ofBool rfl _)
  | propertyDependency trigger dependants =>
    simp only [Evaluation.inspectObject]
    split
    · exact .some (rejectNames_stems rfl _)
    · exact .some trivial
  | schemaDependency trigger id =>
    simp only [Evaluation.inspectObject]
    split
    · refine (h.brings _ _).bind fun outcome houtcome => ?_
      split
      · exact .some trivial
      · exact .some (Verdict.stems_ofDetails rfl (Detail.stem_failed houtcome))
    · exact .some trivial
  | _ => exact .some trivial

theorem inspectArray_stems (J : Judge) (items : List Json) (check : Check) :
    Brings (Verdict.Stems check) (inspectArray J items check) := by
  cases check with
  | noAdditionalItems expected =>
    simp only [Evaluation.inspectArray]
    split
    · exact .some (Verdict.stems_failWith rfl _)
    · exact .some trivial
  | minItems count => exact .some (Verdict.stems_ofBool rfl _)
  | maxItems count => exact .some (Verdict.stems_ofBool rfl _)
  | uniqueItems => exact .some (Verdict.stems_ofBool rfl _)
  | contains item =>
    have hany : Brings (fun _ => True) (anyValid J item items) := fun _ _ => trivial
    exact hany.bind fun _ _ => .some (Verdict.stems_ofBool rfl _)
  | _ => exact .some trivial

theorem inspectNumber_stems (value : Number) (check : Check) : (inspectNumber value check).Stems check := by
  cases check with
  | minimum limit exclusive => exact Verdict.stems_ofBool rfl _
  | maximum limit exclusive => exact Verdict.stems_ofBool rfl _
  | multipleOf divisor => exact Verdict.stems_ofBool rfl _
  | _ => trivial

theorem inspectString_stems (text : String) (check : Check) : (inspectString text check).Stems check := by
  cases check with
  | pattern regex => exact Verdict.stems_ofBool rfl _
  | minLength length => exact Verdict.stems_ofBool rfl _
  | maxLength length => exact Verdict.stems_ofBool rfl _
  | _ => trivial

theorem inspect (h : J.Stems) (check : Check) (value : Json) :
    Brings (Verdict.Stems check) (inspect J mode check value) := by
  unfold Evaluation.inspect
  split
  · exact .some trivial
  · cases check with
    | type kinds implicitNull =>
      simp only
      split
      · exact .some trivial
      · exact .some (Verdict.stems_failWith rfl _)
    | enumeration values implicitNull => exact .some (Verdict.stems_ofBool rfl _)
    | constant expected => exact .some (Verdict.stems_ofBool rfl _)
    | custom description accepts => exact .some (Verdict.stems_ofBool rfl _)
    | composition combinator branches onObject =>
      exact (h.judgeBranches value branches).bind fun _ houtcomes => .some (compositionVerdict_stems houtcomes)
    | conditional condition consequent alternative onObject => exact h.judgeConditional rfl _ _ _ value
    | _ =>
      cases value with
      | number n => exact .some (inspectNumber_stems n _)
      | string text => exact .some (inspectString_stems text _)
      | array items => exact inspectArray_stems J items _
      | object members => exact h.inspectObject members _
      | _ => exact .some trivial

/-! ## Objects -/

theorem evaluateProperties (h : J.Stems) (graph : Graph) (input : Members) :
    ∀ (ids : List PropertyId) (model : Members), Brings (fun found => Report.Stems found.violations)
      (evaluateProperties graph mode J input ids model)
  | [], _ => .some .nil
  | id :: rest, model => by
    simp only [Evaluation.evaluateProperties]
    refine (h.brings _ _).bind fun outcome houtcome => ?_
    split
    · exact .some houtcome
    · exact (h.evaluateProperties graph input rest _).bind fun _ hothers => .some (houtcome.append hothers)

theorem runTypeCheck (h : J.Stems) (input model : Members) (check : Check) :
    Brings (fun checked => checked.1.Stems check) (runTypeCheck mode J input model check) := by
  unfold Evaluation.runTypeCheck
  split
  · exact (h.judgeBranches _ _).bind fun _ houtcomes => .some (compositionVerdict_stems houtcomes)
  · exact (h.inspect _ _).bind fun _ hverdict => .some hverdict

theorem evaluateTypeChecks (h : J.Stems) (className : String) (input : Members) :
    ∀ (validators : List Validator) (model : Members), Brings (fun found => Report.Stems found.violations)
      (evaluateTypeChecks mode J className input validators model)
  | [], _ => .some .nil
  | validator :: rest, model => by
    simp only [Evaluation.evaluateTypeChecks]
    refine (h.runTypeCheck input model validator.check).bind fun checked hverdict => ?_
    obtain ⟨verdict, changed⟩ := checked
    have hrest := h.evaluateTypeChecks className input rest changed
    cases verdict with
    | pass => exact hrest
    | settle => exact hrest
    | fail failure =>
      simp only
      split
      · exact .some (.cons hverdict .nil className)
      · exact hrest.bind fun _ hothers => .some (.cons hverdict hothers className)

theorem evaluateObject (h : J.Stems) (graph : Graph) (type : TypeId) (input : Members) :
    Brings (fun found => Report.Stems found.violations) (evaluateObject graph mode J type input) := by
  unfold Evaluation.evaluateObject
  refine (h.evaluateProperties graph input _ _).bind fun first hfirst => ?_
  split
  · exact .some hfirst
  · exact (h.evaluateTypeChecks _ input _ _).bind fun _ hsecond => .some (hfirst.append hsecond)

/-! ## Properties -/

theorem transformByFilter_stems {name : String} {accepts : List Kind} {apply : FilterFunction} {options : Json}
    (value : Json) : (transformByFilter accepts apply options value).1.Stems (.filter name options accepts apply) := by
  unfold transformByFilter
  split
  · split
    · trivial
    · exact Verdict.stems_failWith rfl _
  · trivial

theorem transform (h : J.Stems) (graph : Graph) (check : Check) (value : Json) :
    Brings (fun transformed => transformed.1.Stems check) (transform graph mode J check value) := by
  unfold Evaluation.transform
  split
  · exact .some (transformByFilter_stems _)
  · exact (h.survey _).bind fun _ hdetails => .some (Verdict.stems_ofDetails rfl hdetails)
  · exact (h.survey _).bind fun _ hdetails => .some (Verdict.stems_ofDetails rfl hdetails)
  · exact (h.survey _).bind fun _ hdetails => .some (Verdict.stems_ofDetails rfl hdetails)
  · refine (h.evaluateObject graph _ _).bind fun found hfound => .some (Verdict.stems_ofDetails rfl ?_)
    split
    · exact Detail.stem_nil
    · exact Detail.stem_failed hfound
  · exact (h.inspect _ _).bind fun _ hverdict => .some hverdict

theorem runCheck (h : J.Stems) (graph : Graph) (check : Check) : ∀ value : Option Json,
    Brings (fun checked => checked.1.Stems check) (runCheck graph mode J check value)
  | none => by
    refine .some ?_
    cases check with
    | required => exact ⟨rfl, Detail.stem_nil⟩
    | _ => trivial
  | some value => (h.transform graph check value).bind fun _ hverdict => .some hverdict

theorem runValidators (h : J.Stems) (graph : Graph) (name : String) : ∀ (validators : List Validator)
    (value : Option Json), Brings (fun outcome => Report.Stems outcome.violations)
      (runValidators graph mode J name validators value)
  | [], _ => .some .nil
  | validator :: rest, value => by
    simp only [Evaluation.runValidators]
    refine (h.runCheck graph validator.check value).bind fun checked hverdict => ?_
    obtain ⟨verdict, left⟩ := checked
    have hrest := h.runValidators graph name rest left
    cases verdict with
    | pass => exact hrest
    | settle => exact .some .nil
    | fail failure =>
      simp only
      split
      · exact .some (.cons hverdict .nil name)
      · exact hrest.bind fun _ hothers => .some (.cons hverdict hothers name)

end Judge.Stems

namespace Evaluation

variable {graph : Graph} {mode : Mode}

/-- By induction on how deep judging may nest. -/
theorem property_stems (graph : Graph) (mode : Mode) : ∀ bound : Nat, (property graph mode bound).Stems
  | 0 => fun _ _ _ hnone => nomatch hnone
  | bound + 1 => fun _ value => (property_stems graph mode bound).runValidators graph _ _ value

theorem run_stems (graph : Graph) (mode : Mode) (bound : Nat) (type : TypeId) (value : Json) :
    Brings (fun result => Report.Stems result.report) (run graph mode bound type value) := by
  have hfails : (Verdict.failWith "actual" (.string (Kind.ofValue value).keyword)).Stems (.type [.object] false) :=
    Verdict.stems_failWith rfl _
  have hother : Report.Stems (notAnObject (graph.className type) value).report := .cons hfails .nil _
  cases value with
  | object members =>
    exact ((property_stems graph mode bound).evaluateObject graph type members).bind fun _ hfound => .some hfound
  | _ => exact .some hother

end Evaluation

namespace Graph

open Evaluation

variable {graph : Graph} {mode : Mode}

/-- **Every violation of a report stems from a check**, and so does every one within. -/
theorem evaluate_stems {type : TypeId} {value : Json} {result : Result}
    (h : graph.evaluate mode type value = some result) : Report.Stems result.report := by
  obtain ⟨bound, hbound⟩ := evaluate_eq_some_iff.1 h
  exact run_stems graph mode bound type value result hbound

theorem evaluateProperty_stems {id : PropertyId} {value : Option Json} {outcome : Outcome}
    (h : graph.evaluateProperty mode id value = some outcome) : Report.Stems outcome.violations := by
  obtain ⟨bound, hbound⟩ := evaluateProperty_eq_some_iff.1 h
  exact property_stems graph mode bound id value outcome hbound

end Graph

/-! ## Messages and parameters -/

namespace Members

theorem get?_append (first second : Members) (name : String) :
    get? (first ++ second) name = (first.get? name).or (second.get? name) := List.lookup_append

theorem get?_cons_of_ne {name other : String} (h : name ≠ other) (value : Json) (rest : Members) :
    get? ((other, value) :: rest) name = get? rest name := by
  have hne : (name == other) = false := beq_false_of_ne h
  simp only [get?, List.lookup_cons, hne]

/-- What is inserted goes before what is there. -/
theorem get?_insertAll (name : String) : ∀ {others : Members}, others.names.Nodup → ∀ members : Members,
    (members.insertAll others).get? name = (others.get? name).or (members.get? name)
  | [], _, _ => rfl
  | (other, value) :: rest, hnodup, members => by
    obtain ⟨hother, hnodup⟩ := List.nodup_cons.1 hnodup
    have hinserted : insertAll members ((other, value) :: rest) = insertAll (members.insert other value) rest := rfl
    rw [hinserted, get?_insertAll name hnodup]
    by_cases heq : name = other
    · have hnone : get? rest other = none := by
        rw [← Option.not_isSome_iff_eq_none, isSome_get?]
        exact hother
      rw [heq, hnone, get?_insert_self]
      simp [get?]
    · rw [get?_insert_of_ne members value heq, get?_cons_of_ne heq]

end Members

namespace Check

/-- What is known of a check is not called like the property's slot, nor like what a run adds. -/
theorem names_apart (check : Check) : ∀ name ∈ "property" :: check.runtimeNames, name ∉ check.parameters.names := by
  cases check with
  | filter name options accepts apply =>
    simp only [parameters]
    split
    · simp [runtimeNames, Members.names]
    · simp [runtimeNames, Members.names]
  | _ => simp [runtimeNames, parameters, Members.names]

theorem nodup_runtimeNames (check : Check) : check.runtimeNames.Nodup := by
  cases check <;> simp [runtimeNames]

end Check

namespace Template

/-- A text in the place of one slot, with the others filled. -/
def filledAround (fillings : Members) (front : Template) (shown : String) (back : Template) : String :=
  front.filled fillings ++ shown ++ back.filled fillings

theorem filledAround_inj {fillings : Members} {front back : Template} {shown other : String} :
    filledAround fillings front shown back = filledAround fillings front other back ↔ shown = other := by
  unfold filledAround
  rw [String.append_left_inj, String.append_right_inj]

end Template

namespace Failure

variable {failure : Failure} {check : Check} {property name : String} {built given : Json}

/-- The parameters of a violation are those of the failing run before those of the check. -/
theorem get?_parameters (h : failure.runtime.names.Nodup) (check : Check) (property name : String) :
    (failure.violation check property).parameters.get? name =
      (failure.runtime.get? name).or (check.parameters.get? name) := Members.get?_insertAll name h _

/-- A message is filled with those of the check before those of the failing run. -/
theorem get?_fillings (hname : name ≠ "property") :
    (check.fillings property failure.runtime).get? name =
      (check.parameters.get? name).or (failure.runtime.get? name) := by
  have hcons : (check.fillings property failure.runtime).get? name =
      Members.get? (check.parameters ++ failure.runtime) name := Members.get?_cons_of_ne hname _ _
  rw [hcons, Members.get?_append]

/-- **Where no name is both** a parameter of the check and of the failing run, the message is made of the violation's own
parameters. -/
theorem message_of_apart (hnodup : failure.runtime.names.Nodup)
    (hapart : ∀ name ∈ failure.runtime.names, name ∉ check.parameters.names)
    (hundisturbed : check.template.Undisturbed (check.fillings property failure.runtime)) :
    (failure.violation check property).message =
      check.template.filled (("property", .string property) :: (failure.violation check property).parameters) := by
  have hmessage : (failure.violation check property).message = check.message property failure.runtime := rfl
  rw [hmessage, check.message_eq_filled property failure.runtime hundisturbed]
  refine congrArg String.ofList (Template.filledWith_congr fun name _ => ?_)
  have hsame : Members.get? (check.fillings property failure.runtime) name =
      Members.get? (("property", .string property) :: (failure.violation check property).parameters) name := by
    by_cases hname : name = "property"
    · subst hname
      rfl
    · rw [get?_fillings hname, Members.get?_cons_of_ne hname, get?_parameters hnodup]
      cases hgiven : Members.get? failure.runtime name with
      | none => rw [Option.none_or, Option.or_none]
      | some given =>
        have hnone : Members.get? check.parameters name = none := by
          rw [← Option.not_isSome_iff_eq_none, Members.isSome_get?]
          exact hapart name (Members.isSome_get?.1 (Option.isSome_of_eq_some hgiven))
        rw [hnone, Option.none_or, Option.or_none]
  unfold Template.slotText
  rw [hsame]

/-- **What is known before is what a slot shows**, whatever the failing run adds under this name. -/
theorem message_slot (hbuilt : check.parameters.get? name = some built) {front back : Template}
    (hsplit : check.template = front ++ .slot name :: back)
    (hundisturbed : check.template.Undisturbed (check.fillings property failure.runtime)) :
    (failure.violation check property).message =
      Template.filledAround (check.fillings property failure.runtime) front built.inMessage back := by
  have hname : name ≠ "property" := by
    rintro rfl
    exact check.names_apart "property" List.mem_cons_self (Members.isSome_get?.1 (Option.isSome_of_eq_some hbuilt))
  have hshown : Template.slotText (check.fillings property failure.runtime) name = built.inMessage.toList := by
    unfold Template.slotText
    rw [get?_fillings hname, hbuilt]
    rfl
  have hmessage : (failure.violation check property).message = check.message property failure.runtime := rfl
  rw [hmessage, check.message_eq_filled property failure.runtime hundisturbed]
  refine String.toList_inj.1 ?_
  simp [Template.filledAround, Template.filled, hsplit, Template.filledWith, hshown]

end Failure

namespace Violation

theorem Throughout.imp {P Q : Violation → Prop} (himp : ∀ violation, P violation → Q violation) {violation : Violation}
    (h : violation.Throughout P) : violation.Throughout Q := by
  induction h with
  | intro here _ ih => exact .intro (himp _ here) ih

/-- The message says of the violation what its parameters do. -/
def IsConsistent (violation : Violation) : Prop :=
  ∃ (check : Check) (failure : Failure), violation = failure.violation check violation.property ∧
    (∀ name ∈ failure.runtime.names, name ∉ check.parameters.names) ∧
    (check.template.Undisturbed (check.fillings violation.property failure.runtime) →
      violation.message = check.template.filled (("property", .string violation.property) :: violation.parameters))

theorem Stems.isConsistent {violation : Violation} (h : violation.Stems) : violation.IsConsistent := by
  obtain ⟨check, failure, hnames, heq⟩ := h
  have hapart : ∀ name ∈ failure.runtime.names, name ∉ check.parameters.names := fun name hname =>
    check.names_apart name (List.mem_cons_of_mem _ (hnames ▸ hname))
  refine ⟨check, failure, heq, hapart, fun hundisturbed => ?_⟩
  have hmessage := Failure.message_of_apart (hnames ▸ check.nodup_runtimeNames) hapart hundisturbed
  rw [← heq] at hmessage
  exact hmessage

/-- **A name that is known of the check and added by the failing run** has the former value in the message and the latter
among the parameters, so they say the same only if both values are written alike.  No violation of an evaluation has such
a name: there, the message is made of the parameters. -/
theorem message_parameters (check : Check) (failure : Failure) (property : String) :
    (∀ (name : String) (built given : Json), check.parameters.get? name = some built →
        failure.runtime.get? name = some given → failure.runtime.names.Nodup →
          (failure.violation check property).parameters.get? name = some given ∧
            (check.template.Undisturbed (check.fillings property failure.runtime) → ∀ front back : Template,
              check.template = front ++ .slot name :: back →
                (failure.violation check property).message =
                    Template.filledAround (check.fillings property failure.runtime) front built.inMessage back ∧
                  ((failure.violation check property).message =
                      Template.filledAround (check.fillings property failure.runtime) front given.inMessage back ↔
                    built.inMessage = given.inMessage))) ∧
      ∀ (graph : Graph) (mode : Mode) (type : TypeId) (value : Json) (result : Evaluation.Result),
        graph.evaluate mode type value = some result →
          ∀ violation ∈ result.report, violation.Throughout IsConsistent := by
  constructor
  · intro name built given hbuilt hgiven hnodup
    constructor
    · rw [Failure.get?_parameters hnodup, hgiven]
      rfl
    · intro hundisturbed front back hsplit
      have hmessage := Failure.message_slot hbuilt hsplit hundisturbed
      refine ⟨hmessage, ?_⟩
      rw [hmessage]
      exact Template.filledAround_inj
  · intro graph mode type value result h violation hviolation
    exact (Graph.evaluate_stems h violation hviolation).imp fun _ => Stems.isConsistent

/-- A failing run that adds a limit. -/
def raised : Failure := { runtime := [("limit", .number (.integer 5))] }

theorem raised_undisturbed : (Check.minimum (.integer 2) false).template.Undisturbed
    ((Check.minimum (.integer 2) false).fillings "age" raised.runtime) := by
  refine .of_not_mem fun parameter hparameter _ => ?_
  have hbraces : ∀ parameter ∈ (Check.minimum (.integer 2) false).fillings "age" raised.runtime,
      '{' ∉ parameter.2.inMessage.toList := by
    change ∀ parameter ∈ [("property", _), ("limit", _), ("limit", _)], _
    simp only [List.forall_mem_cons]
    exact ⟨by decide +kernel, by decide +kernel, by decide +kernel, List.forall_mem_nil _⟩
  exact hbraces parameter hparameter

/-- A type with an age of at least two. -/
def ages : Graph where
  properties := #[{ name := "age", identifier := "age", required := false,
                    validators := Validators.empty.addCheck (.minimum (.integer 2) false) }]
  types := #[{ name := ⟨"", "Person"⟩, isRoot := true, properties := [⟨0⟩] }]

/-- The message goes by the limit of the check, and the parameters by the one that is added. -/
theorem message_parameters_age :
    (raised.violation (.minimum (.integer 2) false) "age").parameters.get? "limit" = some (.number (.integer 5)) ∧
      (raised.violation (.minimum (.integer 2) false) "age").message = "Value for age must not be smaller than 2" ∧
      ∃ result, ages.evaluate .collectAll ⟨0⟩ (.object [("age", .number (.integer 1))]) = some result ∧
        result.isValid = false ∧ ∀ violation ∈ result.report, violation.Throughout IsConsistent := by
  obtain ⟨hboth, hevaluated⟩ := message_parameters (.minimum (.integer 2) false) raised "age"
  obtain ⟨hparameter, hmessage⟩ := hboth "limit" (.number (.integer 2)) (.number (.integer 5)) rfl rfl (by decide)
  refine ⟨hparameter, ?_, ?_⟩
  · have hslots := hmessage raised_undisturbed
      [.text "Value for ", .slot "property", .text " must not be smaller than "] [] rfl
    rw [hslots.1]
    decide +kernel
  · have hresult : ages.evaluate .collectAll ⟨0⟩ (.object [("age", .number (.integer 1))]) = some _ :=
      Evaluation.deepen_of_some rfl
    exact ⟨_, hresult, rfl, hevaluated _ _ _ _ _ hresult⟩

/-- **Messages do not prefer what the failing run adds.** -/
theorem not_forall_message_parameters : ¬ ∀ (check : Check) (failure : Failure) (property : String),
    failure.runtime.names.Nodup → check.template.Undisturbed (check.fillings property failure.runtime) →
    (failure.violation check property).message =
      check.template.filled (("property", .string property) :: (failure.violation check property).parameters) := by
  intro h
  have hequal := h (.minimum (.integer 2) false) raised "age" (by decide) raised_undisturbed
  exact absurd hequal (by decide +kernel)

end Violation

end SchemaTypes

import Mathlib.Data.List.Forall2
import SchemaTypes.Proofs.Check.Messages
import SchemaTypes.Proofs.Evaluation.Fixpoint
/-!
# What a composition comes to

A composition has the whole value judged by all its branches, in either mode and wherever it stands, and decides by the
number of those that find nothing wrong (`Combinator.Allows`).  There are two runs that do so: that of a property's
checks, and that of a type's checks, which also populates the model.  They decide alike, and their violation lists
branch by branch what has been found (`Outcome.listed`).

Branches are judged by evaluation itself, not by what some bound brings of it (`Graph.evaluateProperty_eq`,
`Graph.evaluate_object`).
-/
namespace SchemaTypes

/-- Whether the keyword is content with that many of the branches.  Without branches, none is. -/
def Combinator.Allows (combinator : Combinator) (matched total : Nat) : Prop :=
  1 ≤ total ∧ match combinator with
    | .allOf => matched = total
    | .anyOf => 1 ≤ matched
    | .oneOf => matched = 1
    | .not => matched = 0

theorem Combinator.isSatisfied_iff (combinator : Combinator) (matched total : Nat) :
    combinator.isSatisfied matched total = true ↔ combinator.Allows matched total := by
  unfold isSatisfied Allows
  rw [Bool.and_eq_true, bne_iff_ne, ← Nat.pos_iff_ne_zero]
  refine and_congr Iff.rfl ?_
  cases combinator with
  | anyOf => exact decide_eq_true_iff
  | _ => exact beq_iff_eq

instance (combinator : Combinator) (matched total : Nat) : Decidable (combinator.Allows matched total) :=
  decidable_of_iff _ (combinator.isSatisfied_iff matched total)

/-- How the violation of a failed composition lists the outcome of the branch at `index`. -/
def Outcome.listed (outcome : Outcome) (index : Nat) : Detail Violation where
  label := "Composition element #" ++ toString (index + 1) ++ ": " ++ (if outcome.isValid then "Valid" else "Failed")
  passed := outcome.isValid
  violations := outcome.violations

/-- How many branches have found nothing wrong. -/
def validCount (outcomes : List Outcome) : Nat := outcomes.countP Outcome.isValid

/-- What the violation of a failed composition says: what each branch has found, in order, and how many match. -/
structure Violation.Accounts (violation : Violation) (combinator : Combinator) (branches : List Branch)
    (onObject : Bool) (name : String) (outcomes : List Outcome) : Prop where
  property : violation.property = name
  kind : violation.kind = .compositionViolation
  details : violation.details = outcomes.mapIdx fun index outcome => outcome.listed index
  matched : violation.parameters.get? "matched" = some (.ofNat (validCount outcomes))
  message : violation.message = "Invalid value for " ++
    String.ofList (Check.filledIn combinator branches onObject name.toList (validCount outcomes)) ++
    " declined by composition constraint. Requires to match " ++ combinator.requirement ++ " but matched " ++
    toString (validCount outcomes) ++ " elements"

namespace Evaluation

variable {graph : Graph} {mode : Mode} {judge : Judge} {combinator : Combinator} {branches : List Branch}
  {onObject : Bool} {value : Json} {outcomes : List Outcome}

/-! ## Outcomes and details -/

/-- Branches are judged all or not at all, each on the value itself. -/
theorem judgeBranches_eq_some_iff : ∀ {branches : List Branch} {outcomes : List Outcome},
    judgeBranches judge branches value = some outcomes ↔
      List.Forall₂ (fun branch outcome => judge branch.property (some value) = some outcome) branches outcomes
  | [], outcomes => by
    rw [List.forall₂_nil_left_iff]
    exact ⟨fun h => (Option.some.inj h).symm, fun h => h ▸ rfl⟩
  | branch :: rest, outcomes => by
    unfold judgeBranches
    rw [List.mapM_cons, List.forall₂_cons_left_iff]
    simp only [Option.bind_eq_bind, Option.bind_eq_some_iff, Option.pure_def, Option.some.injEq]
    constructor
    · rintro ⟨outcome, houtcome, others, hothers, rfl⟩
      exact ⟨outcome, others, houtcome, judgeBranches_eq_some_iff.1 hothers, rfl⟩
    · rintro ⟨outcome, others, houtcome, hothers, rfl⟩
      exact ⟨outcome, houtcome, others, judgeBranches_eq_some_iff.2 hothers, rfl⟩

/-- The details are the branches' outcomes, in order. -/
theorem branchDetails_eq (outcomes : List Outcome) :
    branchDetails outcomes = outcomes.mapIdx fun index outcome => outcome.listed index := by
  refine List.ext_getElem? fun index => ?_
  unfold branchDetails
  rw [List.getElem?_map, List.getElem?_zipIdx, List.getElem?_mapIdx, Option.map_map, Nat.zero_add]
  rfl

/-- **The verdict on a composition** is a matter of how many branches have found nothing wrong. -/
theorem compositionVerdict_eq_pass_iff : compositionVerdict combinator outcomes = .pass ↔
    combinator.Allows (validCount outcomes) outcomes.length := by
  rw [← Combinator.isSatisfied_iff, validCount, List.countP_eq_length_filter]
  unfold compositionVerdict
  simp only
  split
  · exact iff_of_true rfl ‹_›
  · exact iff_of_false (fun h => nomatch h) ‹_›

/-- A failed composition accounts for all its branches. -/
theorem compositionVerdict_accounts (h : ¬ combinator.Allows (validCount outcomes) outcomes.length)
    (branches : List Branch) (onObject : Bool) : ∃ failure, compositionVerdict combinator outcomes = .fail failure ∧
      ∀ name, (failure.violation (.composition combinator branches onObject) name).Accounts combinator branches onObject
        name outcomes := by
  have hmatched : (outcomes.filter Outcome.isValid).length = validCount outcomes := List.countP_eq_length_filter.symm
  rw [← Combinator.isSatisfied_iff] at h
  unfold compositionVerdict
  simp only [hmatched]
  rw [if_neg h]
  refine ⟨_, rfl, fun name => ⟨rfl, rfl, branchDetails_eq outcomes, ?_, ?_⟩⟩
  · exact Members.get?_insert_self _ _ _
  · exact Check.message_composition combinator branches onObject name _

/-! ## The two runs -/

theorem isSome_judgeBranches (judge : Judge) (value : Json) : ∀ branches : List Branch,
    (judgeBranches judge branches value).isSome ↔ ∀ branch ∈ branches, (judge branch.property (some value)).isSome
  | [] => iff_of_true rfl fun _ h => nomatch h
  | branch :: rest => by
    have ih := isSome_judgeBranches judge value rest
    unfold judgeBranches at ih ⊢
    rw [List.mapM_cons, List.forall_mem_cons, ← ih]
    cases judge branch.property (some value) with
    | none => exact iff_of_false (fun h => nomatch h) (fun h => nomatch h.1)
    | some outcome =>
      cases rest.mapM fun branch => judge branch.property (some value) with
      | none => exact iff_of_false (fun h => nomatch h) (fun h => nomatch h.2)
      | some others => exact iff_of_true rfl ⟨rfl, rfl⟩

theorem inspect_composition (mode : Mode) (judge : Judge) (combinator : Combinator) (branches : List Branch)
    (onObject : Bool) (value : Json) : inspect judge mode (.composition combinator branches onObject) value =
      (judgeBranches judge branches value).map (compositionVerdict combinator) := by
  rw [Option.map_eq_bind]
  cases value <;> rfl

/-- A property's composition has the value judged that its earlier checks have left, and passes it on. -/
theorem runCheck_composition (graph : Graph) (mode : Mode) (judge : Judge) (combinator : Combinator)
    (branches : List Branch) (onObject : Bool) (value : Json) :
    runCheck graph mode judge (.composition combinator branches onObject) (some value) =
      (judgeBranches judge branches value).map fun outcomes =>
        (compositionVerdict combinator outcomes, some value) := by
  have htransform : transform graph mode judge (.composition combinator branches onObject) value = do
      return (← inspect judge mode (.composition combinator branches onObject) value, value) := by
    cases value <;> rfl
  rw [runCheck, htransform, inspect_composition]
  cases judgeBranches judge branches value <;> rfl

/-- A type's composition has the input judged, whatever its earlier checks have made of the model. -/
theorem runTypeCheck_composition (mode : Mode) (judge : Judge) (input model : Members) (combinator : Combinator)
    (branches : List Branch) (onObject : Bool) :
    (runTypeCheck mode judge input model (.composition combinator branches onObject)).map Prod.fst =
      (judgeBranches judge branches (.object input)).map (compositionVerdict combinator) := by
  cases onObject with
  | true =>
    have hrun : runTypeCheck mode judge input model (.composition combinator branches true) = do
        let outcomes ← judgeBranches judge branches (.object input)
        return (compositionVerdict combinator outcomes, populate model (branches.zip outcomes)) := rfl
    rw [hrun]
    cases judgeBranches judge branches (.object input) <;> rfl
  | false =>
    have hrun : runTypeCheck mode judge input model (.composition combinator branches false) = do
        return (← inspect judge mode (.composition combinator branches false) (.object input), model) := rfl
    rw [hrun, inspect_composition]
    cases judgeBranches judge branches (.object input) <;> rfl

section

variable {validator : Validator} {rest : List Validator} {failure : Failure} {name className : String}

theorem runValidators_of_pass {value left : Option Json}
    (h : runCheck graph mode judge validator.check value = some (.pass, left)) :
    runValidators graph mode judge name (validator :: rest) value = runValidators graph mode judge name rest left := by
  rw [runValidators, h]
  rfl

theorem runValidators_of_fail {value left : Option Json} {outcome : Outcome}
    (h : runCheck graph mode judge validator.check value = some (.fail failure, left))
    (hrun : runValidators graph mode judge name (validator :: rest) value = some outcome) :
    ∃ later, outcome.violations = failure.violation validator.check name :: later := by
  rw [runValidators, h] at hrun
  simp only [Option.bind_eq_bind, Option.bind_some] at hrun
  split at hrun
  · obtain rfl := Option.some.inj hrun
    exact ⟨[], rfl⟩
  · obtain ⟨others, _, heq⟩ := Option.bind_eq_some_iff.1 hrun
    obtain rfl := Option.some.inj heq
    exact ⟨others.violations, rfl⟩

theorem evaluateTypeChecks_of_pass {input model left : Members}
    (h : runTypeCheck mode judge input model validator.check = some (.pass, left)) :
    evaluateTypeChecks mode judge className input (validator :: rest) model =
      evaluateTypeChecks mode judge className input rest left := by
  rw [evaluateTypeChecks, h]
  rfl

theorem evaluateTypeChecks_of_fail {input model left : Members} {found : Populated}
    (h : runTypeCheck mode judge input model validator.check = some (.fail failure, left))
    (hrun : evaluateTypeChecks mode judge className input (validator :: rest) model = some found) :
    ∃ later, found.violations = failure.violation validator.check className :: later := by
  rw [evaluateTypeChecks, h] at hrun
  simp only [Option.bind_eq_bind, Option.bind_some] at hrun
  split at hrun
  · obtain rfl := Option.some.inj hrun
    exact ⟨[], rfl⟩
  · obtain ⟨others, _, heq⟩ := Option.bind_eq_some_iff.1 hrun
    obtain rfl := Option.some.inj heq
    exact ⟨others.violations, rfl⟩

end

end Evaluation

namespace Graph

open Evaluation

variable {graph : Graph} {mode : Mode} {check : Check} {value : Json} {Is : String → Violation → Prop}

/-- The check passes on the value, wherever it stands: nothing is reported, and the checks behind it run. -/
structure Passes (graph : Graph) (mode : Mode) (check : Check) (value : Json) : Prop where
  verdict : runCheck graph mode (graph.evaluateProperty mode) check (some value) = some (.pass, some value)
  goesOn : ∀ name priority rest, runValidators graph mode (graph.evaluateProperty mode) name
      (⟨check, priority⟩ :: rest) (some value) =
    runValidators graph mode (graph.evaluateProperty mode) name rest (some value)
  typeVerdict : ∀ input model, value = .object input →
    ∃ left, runTypeCheck mode (graph.evaluateProperty mode) input model check = some (.pass, left)
  typeGoesOn : ∀ className priority rest input model, value = .object input →
    ∃ left, evaluateTypeChecks mode (graph.evaluateProperty mode) className input (⟨check, priority⟩ :: rest) model =
      evaluateTypeChecks mode (graph.evaluateProperty mode) className input rest left

/-- The check fails on the value, wherever it stands, and what is reported first under a name is `Is` of that name. -/
structure Fails (graph : Graph) (mode : Mode) (check : Check) (value : Json) (Is : String → Violation → Prop) :
    Prop where
  verdict : ∃ failure, runCheck graph mode (graph.evaluateProperty mode) check (some value) =
    some (.fail failure, some value) ∧ ∀ name, Is name (failure.violation check name)
  reports : ∀ name priority rest outcome, runValidators graph mode (graph.evaluateProperty mode) name
      (⟨check, priority⟩ :: rest) (some value) = some outcome →
    ∃ violation later, outcome.violations = violation :: later ∧ Is name violation
  typeVerdict : ∀ input model, value = .object input →
    ∃ failure left, runTypeCheck mode (graph.evaluateProperty mode) input model check = some (.fail failure, left) ∧
      ∀ name, Is name (failure.violation check name)
  typeReports : ∀ className priority rest input model found, value = .object input →
    evaluateTypeChecks mode (graph.evaluateProperty mode) className input (⟨check, priority⟩ :: rest) model =
      some found →
    ∃ violation later, found.violations = violation :: later ∧ Is className violation

theorem Passes.of_verdict
    (h : runCheck graph mode (graph.evaluateProperty mode) check (some value) = some (.pass, some value))
    (htype : ∀ input model, value = .object input →
      ∃ left, runTypeCheck mode (graph.evaluateProperty mode) input model check = some (.pass, left)) :
    graph.Passes mode check value where
  verdict := h
  goesOn _ _ _ := runValidators_of_pass h
  typeVerdict := htype
  typeGoesOn _ _ _ input model heq := by
    obtain ⟨left, hleft⟩ := htype input model heq
    exact ⟨left, evaluateTypeChecks_of_pass hleft⟩

theorem Fails.of_verdict {failure : Failure}
    (h : runCheck graph mode (graph.evaluateProperty mode) check (some value) = some (.fail failure, some value))
    (htype : ∀ input model, value = .object input →
      ∃ left, runTypeCheck mode (graph.evaluateProperty mode) input model check = some (.fail failure, left))
    (hviolation : ∀ name, Is name (failure.violation check name)) : graph.Fails mode check value Is where
  verdict := ⟨failure, h, hviolation⟩
  reports name _ _ _ hrun := by
    obtain ⟨later, hlater⟩ := runValidators_of_fail h hrun
    exact ⟨_, later, hlater, hviolation name⟩
  typeVerdict input model heq := by
    obtain ⟨left, hleft⟩ := htype input model heq
    exact ⟨failure, left, hleft, hviolation⟩
  typeReports className _ _ input model _ heq hrun := by
    obtain ⟨left, hleft⟩ := htype input model heq
    obtain ⟨later, hlater⟩ := evaluateTypeChecks_of_fail hleft hrun
    exact ⟨_, later, hlater, hviolation className⟩

/-- **Compositions count exactly.**  In every graph and in either mode, a composition is decided once all its branches
have been evaluated on the value, and it passes if the keyword is content with the number of those without a violation.
Otherwise its violation accounts for all of them.  This is what both runs make of it, that of a property's checks on the
value that has come to it, and that of a type's checks on the input. -/
theorem composition_counts (graph : Graph) (mode : Mode) (combinator : Combinator) (branches : List Branch)
    (onObject : Bool) (value : Json) :
    ((runCheck graph mode (graph.evaluateProperty mode) (.composition combinator branches onObject)
        (some value)).isSome ↔
      ∀ branch ∈ branches, (graph.evaluateProperty mode branch.property (some value)).isSome) ∧
    (∀ input model, value = .object input →
      ((runTypeCheck mode (graph.evaluateProperty mode) input model
          (.composition combinator branches onObject)).isSome ↔
        ∀ branch ∈ branches, (graph.evaluateProperty mode branch.property (some value)).isSome)) ∧
    ∀ outcomes, List.Forall₂ (fun branch outcome =>
        graph.evaluateProperty mode branch.property (some value) = some outcome) branches outcomes →
      (combinator.Allows (validCount outcomes) branches.length →
        graph.Passes mode (.composition combinator branches onObject) value) ∧
      (¬ combinator.Allows (validCount outcomes) branches.length →
        graph.Fails mode (.composition combinator branches onObject) value fun name violation =>
          violation.Accounts combinator branches onObject name outcomes) := by
  have htypeCheck := fun input model =>
    runTypeCheck_composition mode (graph.evaluateProperty mode) input model combinator branches onObject
  refine ⟨?_, fun input model heq => ?_, fun outcomes houtcomes => ?_⟩
  · rw [runCheck_composition, Option.isSome_map, isSome_judgeBranches]
  · subst heq
    have hsome := congrArg Option.isSome (htypeCheck input model)
    rw [Option.isSome_map, Option.isSome_map] at hsome
    rw [hsome, isSome_judgeBranches]
  · have hjudged := judgeBranches_eq_some_iff.2 houtcomes
    have hcheck : runCheck graph mode (graph.evaluateProperty mode) (.composition combinator branches onObject)
        (some value) = some (compositionVerdict combinator outcomes, some value) := by
      rw [runCheck_composition, hjudged]
      rfl
    have htype : ∀ input model, value = .object input → ∃ left, runTypeCheck mode (graph.evaluateProperty mode) input
        model (.composition combinator branches onObject) = some (compositionVerdict combinator outcomes, left) := by
      rintro input model rfl
      have hverdict := htypeCheck input model
      rw [hjudged] at hverdict
      obtain ⟨⟨verdict, left⟩, hrun, rfl⟩ := Option.map_eq_some_iff.1 hverdict
      exact ⟨left, hrun⟩
    rw [houtcomes.length_eq]
    refine ⟨fun hallows => ?_, fun hnot => ?_⟩
    · rw [compositionVerdict_eq_pass_iff.2 hallows] at hcheck htype
      exact .of_verdict hcheck htype
    · obtain ⟨failure, hfailure, haccounts⟩ := compositionVerdict_accounts hnot branches onObject
      rw [hfailure] at hcheck htype
      exact .of_verdict hcheck htype haccounts

/-- A string, what is no string, and what is exactly one of these. -/
def branching : Graph :=
  let composed := fun combinator (indices : List Nat) =>
    Check.composition combinator (indices.map fun index => ⟨⟨index⟩, []⟩) false
  let property := fun name (check : Check) =>
    ({ name, identifier := name, required := false, validators := Validators.empty.addCheck check } : Property)
  { properties := #[property "text" (.type [.string] false), property "other" (composed .not [0]),
      property "either" (composed .oneOf [0, 1])] }

def branchingBranches : List Branch := [⟨⟨0⟩, []⟩, ⟨⟨1⟩, []⟩, ⟨⟨2⟩, []⟩]

/-- An object is no string, and so it matches the last two, in either mode. -/
theorem branching_outcomes (mode : Mode) : ∃ outcomes, List.Forall₂ (fun branch outcome =>
    branching.evaluateProperty mode branch.property (some (.object [])) = some outcome) branchingBranches outcomes ∧
      validCount outcomes = 2 := by
  have hfound : (judgeBranches (Evaluation.property branching mode 3) branchingBranches (.object [])).any
      (fun outcomes => validCount outcomes = 2) = true := by
    cases mode <;> decide +kernel
  obtain ⟨outcomes, houtcomes, hmatched⟩ := (Option.any_eq_true _ _).1 hfound
  refine ⟨outcomes, ?_, of_decide_eq_true hmatched⟩
  refine (judgeBranches_eq_some_iff.1 houtcomes).imp fun branch outcome hbound => ?_
  exact evaluateProperty_eq_some_iff.2 ⟨3, hbound⟩

/-- Two branches match, which is enough for one keyword and too many for the other. -/
theorem composition_counts_branching :
    branching.Passes .failFast (.composition .anyOf branchingBranches true) (.object []) ∧ ∃ outcomes,
      validCount outcomes = 2 ∧
      branching.Fails .collectAll (.composition .oneOf branchingBranches true) (.object []) fun name violation =>
        violation.Accounts .oneOf branchingBranches true name outcomes := by
  obtain ⟨few, hfew, htwo⟩ := branching_outcomes .failFast
  obtain ⟨all, hall, hboth⟩ := branching_outcomes .collectAll
  have hpasses := (composition_counts branching .failFast .anyOf branchingBranches true (.object [])).2.2 few hfew
  have hfails := (composition_counts branching .collectAll .oneOf branchingBranches true (.object [])).2.2 all hall
  rw [htwo] at hpasses
  rw [hboth] at hfails
  exact ⟨hpasses.1 (by decide), all, hboth, hfails.2 (by decide)⟩

end Graph
end SchemaTypes

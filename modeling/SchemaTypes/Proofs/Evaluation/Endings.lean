import SchemaTypes.Proofs.Evaluation.Guarded
import SchemaTypes.Proofs.Evaluation.Nesting
/-!
# Evaluation ends where what it asks for ends

A computation under a bound ends if all bounds from some one on bring the same (`Ends`), and one that asks judges ends
if whatever it asks them does.  What a check asks for is the whole value for some properties, and for others the parts
that certain steps lead to (`Evaluation.ends_transform`).
-/
namespace SchemaTypes

open Json

variable {α β : Type}

/-- From some bound on, the computation brings the same. -/
def Ends (x : Nat → Option α) : Prop := ∃ result enough, ∀ bound, enough ≤ bound → x bound = some result

namespace Ends

variable {x : Nat → Option α} {f : Nat → α → Option β}

theorem answer (result : α) : Ends fun _ => some result := ⟨result, 0, fun _ _ => rfl⟩

/-- What is done with a result is done with one that some bound brings. -/
theorem bind (h : Ends x) (hf : ∀ result bound, x bound = some result → Ends fun bound => f bound result) :
    Ends fun bound => x bound >>= f bound := by
  obtain ⟨a, enough, ha⟩ := h
  obtain ⟨b, enough', hb⟩ := hf a enough (ha enough (Nat.le_refl _))
  refine ⟨b, max enough enough', fun bound hle => ?_⟩
  refine Option.bind_eq_some_iff.2 ⟨a, ha bound (Nat.le_trans (Nat.le_max_left _ _) hle), ?_⟩
  exact hb bound (Nat.le_trans (Nat.le_max_right _ _) hle)

/-- A first part, and then a function of what it brings. -/
theorem andThen {f : α → β} (h : Ends x) : Ends fun bound => x bound >>= fun result => some (f result) :=
  h.bind fun _ _ _ => answer _

/-- Where a computation begins does not matter. -/
theorem of_succ (h : Ends fun bound => x (bound + 1)) : Ends x := by
  obtain ⟨result, enough, hresult⟩ := h
  refine ⟨result, enough + 1, fun bound hle => ?_⟩
  obtain ⟨smaller, rfl⟩ := Nat.exists_eq_add_of_lt hle
  exact hresult _ (by omega)

end Ends

namespace Evaluation

variable {graph : Graph} {mode : Mode} {judges : Nat → Judge} {check : Check} {value : Json}

/-- Judging that value by that property ends. -/
def Answers (judges : Nat → Judge) (id : PropertyId) (value : Option Json) : Prop :=
  Ends fun bound => judges bound id value

/-! ## Parts -/

theorem ends_survey : ∀ {parts : List Part}, (∀ part ∈ parts, Answers judges part.property part.value) →
    Ends fun bound => (judges bound).survey mode parts
  | [], _ => .answer _
  | part :: rest, h => by
    rw [List.forall_mem_cons] at h
    simp only [Judge.survey]
    refine h.1.bind fun outcome _ _ => ?_
    split
    · exact .answer _
    · exact (ends_survey h.2).andThen

theorem ends_transformItems {label : String} {item : PropertyId} {offset : Nat} {items : List Json}
    (h : ∀ value ∈ items, Answers judges item (some value)) :
    Ends fun bound => transformItems (judges bound) mode label item offset items := by
  refine Ends.andThen (ends_survey fun part hpart => ?_)
  obtain ⟨⟨value, index⟩, hmem, rfl⟩ := List.mem_map.1 hpart
  exact h value (List.mem_of_mem_drop (List.fst_mem_of_mem_zipIdx hmem))

theorem ends_transformTuple {positions : List PropertyId} {items : List Json}
    (habsent : ∀ id, Answers judges id none) (h : ∀ id ∈ positions, ∀ value ∈ items, Answers judges id (some value)) :
    Ends fun bound => transformTuple (judges bound) mode positions items := by
  refine Ends.andThen (ends_survey fun part hpart => ?_)
  obtain ⟨⟨id, index⟩, hmem, rfl⟩ := List.mem_map.1 hpart
  change Answers judges id items[index]?
  cases hitem : items[index]? with
  | none => exact habsent id
  | some value => exact h id (List.fst_mem_of_mem_zipIdx hmem) value (List.mem_of_getElem? hitem)

theorem ends_judgeMembers {label : String} {id : PropertyId} {members : Members}
    (h : ∀ member ∈ members, Answers judges id (some member.2)) :
    Ends fun bound => judgeMembers (judges bound) mode label id members := by
  refine Ends.andThen (ends_survey fun part hpart => ?_)
  obtain ⟨member, hmem, rfl⟩ := List.mem_map.1 hpart
  exact h member hmem

theorem ends_anyValid {item : PropertyId} : ∀ {items : List Json}, (∀ value ∈ items, Answers judges item (some value)) →
    Ends fun bound => anyValid (judges bound) item items
  | [], _ => .answer _
  | value :: rest, h => by
    rw [List.forall_mem_cons] at h
    simp only [anyValid]
    refine h.1.bind fun outcome _ _ => ?_
    split
    · exact .answer _
    · exact ends_anyValid h.2

/-! ## The whole value -/

theorem ends_judgeBranches : ∀ {branches : List Branch},
    (∀ branch ∈ branches, Answers judges branch.property (some value)) → Ends fun bound => judgeBranches (judges bound) branches value
  | [], _ => .answer _
  | branch :: rest, h => by
    rw [List.forall_mem_cons] at h
    simp only [judgeBranches, List.mapM_cons]
    exact h.1.bind fun outcome _ _ => (ends_judgeBranches h.2).andThen

theorem ends_judgeConditional {condition : PropertyId} {consequent alternative : Option PropertyId}
    (hcondition : Answers judges condition (some value))
    (hnext : ∀ id, consequent = some id ∨ alternative = some id → Answers judges id (some value)) :
    Ends fun bound => judgeConditional (judges bound) condition consequent alternative value := by
  refine hcondition.bind fun premise _ _ => ?_
  have hchosen : ∀ id, (if premise.isValid then consequent else alternative) = some id →
      Answers judges id (some value) := by
    intro id hid
    split at hid
    · exact hnext id (Or.inl hid)
    · exact hnext id (Or.inr hid)
  generalize (if premise.isValid then consequent else alternative) = chosen at hchosen
  cases chosen with
  | none => exact .answer _
  | some id =>
    refine (hchosen id rfl).bind fun outcome _ _ => ?_
    split <;> exact .answer _

/-! ## Checks that leave the value alone -/

theorem ends_inspectArray {items : List Json}
    (hparts : ∀ step, ∀ id ∈ check.judgesAt step, ∀ part, PartAt step (.array items) part →
      Answers judges id (some part)) :
    Ends fun bound => inspectArray (judges bound) items check := by
  cases check with
  | contains item =>
    exact (ends_anyValid fun value hvalue =>
      hparts .item item List.mem_cons_self value (.item hvalue)).andThen
  | noAdditionalItems expected =>
    simp only [inspectArray]
    split <;> exact .answer _
  | _ => exact .answer _

theorem ends_inspectObject {members : Members}
    (hwholes : ∀ id ∈ check.wholes, Answers judges id (some (.object members)))
    (hparts : ∀ step, ∀ id ∈ check.judgesAt step, ∀ part, PartAt step (.object members) part →
      Answers judges id (some part)) :
    Ends fun bound => inspectObject (judges bound) mode members check := by
  cases check with
  | additionalProperties className known patterns id =>
    refine ends_judgeMembers fun member hmember => ?_
    obtain ⟨hmember, hadditional⟩ := List.mem_filter.1 hmember
    refine hparts (.member member.1) id ?_ member.2 (.member hmember)
    rw [Check.judgesAt, if_pos hadditional]
    exact List.mem_cons_self
  | patternProperty className regex key id =>
    refine ends_judgeMembers fun member hmember => ?_
    obtain ⟨hmember, hmatch⟩ := List.mem_filter.1 hmember
    refine hparts (.member member.1) id ?_ member.2 (.member hmember)
    rw [Check.judgesAt, if_pos hmatch]
    exact List.mem_cons_self
  | propertyNames className id =>
    refine ends_judgeMembers fun member hmember => ?_
    obtain ⟨named, _, rfl⟩ := List.mem_map.1 hmember
    exact hparts .name id List.mem_cons_self _ (.name named.1)
  | schemaDependency trigger id =>
    simp only [inspectObject]
    split
    · refine (hwholes id List.mem_cons_self).bind fun outcome _ _ => ?_
      split <;> exact .answer _
    · exact .answer _
  | propertyDependency trigger dependants =>
    simp only [inspectObject]
    split <;> exact .answer _
  | _ => exact .answer _

theorem ends_inspect (hwholes : ∀ id ∈ check.wholes, Answers judges id (some value))
    (hparts : ∀ step, ∀ id ∈ check.judgesAt step, ∀ part, PartAt step value part → Answers judges id (some part)) :
    Ends fun bound => inspect (judges bound) mode check value := by
  unfold inspect
  split
  · exact .answer _
  · cases check with
    | composition combinator branches onObject =>
      exact (ends_judgeBranches fun branch hbranch =>
        hwholes _ (List.mem_map.2 ⟨branch, hbranch, rfl⟩)).andThen
    | conditional condition consequent alternative onObject =>
      refine ends_judgeConditional (hwholes _ List.mem_cons_self) fun id hid => hwholes id ?_
      rcases hid with rfl | rfl
      · exact List.mem_cons_of_mem _ (List.mem_append_left _ List.mem_cons_self)
      · exact List.mem_cons_of_mem _ (List.mem_append_right _ List.mem_cons_self)
    | type =>
      simp only
      split <;> exact .answer _
    | enumeration => exact .answer _
    | constant => exact .answer _
    | custom => exact .answer _
    | _ =>
      cases value with
      | array items => exact ends_inspectArray hparts
      | object members => exact ends_inspectObject hwholes hparts
      | _ => exact .answer _

/-! ## Objects -/

theorem ends_evaluateProperties {input : Members} : ∀ {ids : List PropertyId} {model : Members},
    (∀ id ∈ ids, Answers judges id (input.get? (graph.property id).name)) →
    Ends fun bound => evaluateProperties graph mode (judges bound) input ids model
  | [], _, _ => .answer _
  | id :: rest, model, h => by
    rw [List.forall_mem_cons] at h
    simp only [evaluateProperties]
    refine h.1.bind fun outcome _ _ => ?_
    split
    · exact .answer _
    · exact (ends_evaluateProperties h.2).andThen

theorem ends_runTypeCheck {input model : Members}
    (hwholes : ∀ id ∈ check.wholes, Answers judges id (some (.object input)))
    (hparts : ∀ step, ∀ id ∈ check.judgesAt step, ∀ part, PartAt step (.object input) part →
      Answers judges id (some part)) :
    Ends fun bound => runTypeCheck mode (judges bound) input model check := by
  have hinspect : Ends fun bound => do return (← inspect (judges bound) mode check (.object input), model) :=
    (ends_inspect hwholes hparts).andThen
  cases check with
  | composition combinator branches onObject =>
    cases onObject with
    | true =>
      exact (ends_judgeBranches fun branch hbranch =>
        hwholes _ (List.mem_map.2 ⟨branch, hbranch, rfl⟩)).andThen
    | false => exact hinspect
  | _ => exact hinspect

theorem ends_evaluateTypeChecks {className : String} {input : Members} : ∀ {validators : List Validator}
    {model : Members},
    (∀ v ∈ validators, (∀ id ∈ v.check.wholes, Answers judges id (some (.object input))) ∧
      ∀ step, ∀ id ∈ v.check.judgesAt step, ∀ part, PartAt step (.object input) part → Answers judges id (some part)) →
    Ends fun bound => evaluateTypeChecks mode (judges bound) className input validators model
  | [], _, _ => .answer _
  | validator :: rest, model, h => by
    rw [List.forall_mem_cons] at h
    simp only [evaluateTypeChecks]
    refine (ends_runTypeCheck h.1.1 h.1.2).bind fun result _ _ => ?_
    obtain ⟨verdict, model⟩ := result
    cases verdict with
    | pass => exact ends_evaluateTypeChecks h.2
    | settle => exact ends_evaluateTypeChecks h.2
    | fail failure =>
      simp only
      split
      · exact .answer _
      · exact (ends_evaluateTypeChecks h.2).andThen

theorem ends_evaluateObject {type : TypeId} {input : Members} (habsent : ∀ id, Answers judges id none)
    (hwholes : ∀ v ∈ (graph.type type).validators.toList, ∀ id ∈ v.check.wholes,
      Answers judges id (some (.object input)))
    (hparts : ∀ step id, (id ∈ graph.declaredAt type step ∨
        ∃ v ∈ (graph.type type).validators.toList, id ∈ v.check.judgesAt step) →
      ∀ part, PartAt step (.object input) part → Answers judges id (some part)) :
    Ends fun bound => evaluateObject graph mode (judges bound) type input := by
  unfold evaluateObject
  refine (ends_evaluateProperties fun id hid => ?_).bind fun first _ _ => ?_
  · cases hmember : input.get? (graph.property id).name with
    | none => exact habsent id
    | some part =>
      have hdeclared : id ∈ graph.declaredAt type (.member (graph.property id).name) :=
        List.mem_filter.2 ⟨hid, decide_eq_true rfl⟩
      exact hparts _ id (Or.inl hdeclared) part (partAt_get? hmember)
  · split
    · exact .answer _
    · exact (ends_evaluateTypeChecks fun v hv =>
        ⟨hwholes v hv, fun step id hid => hparts step id (Or.inr ⟨v, hv, hid⟩)⟩).andThen

/-- **A check ends where what it asks for ends**: the whole value for some properties, and its parts for others. -/
theorem ends_transform (habsent : ∀ id, Answers judges id none)
    (hwholes : ∀ id ∈ graph.wholesOf check, Answers judges id (some value))
    (hparts : ∀ step, ∀ id ∈ graph.judgesAt check step, ∀ part, PartAt step value part →
      Answers judges id (some part)) :
    Ends fun bound => transform graph mode (judges bound) check value := by
  have hinspect : Ends fun bound => do return (← inspect (judges bound) mode check value, value) :=
    (ends_inspect (fun id hid => hwholes id (List.mem_append_left _ hid))
      fun step id hid => hparts step id (List.mem_append_left _ hid)).andThen
  cases check with
  | filter => exact .answer _
  | items item =>
    cases value with
    | array items =>
      exact ends_transformItems fun value hvalue => hparts .item item List.mem_cons_self value (.item hvalue)
    | _ => exact hinspect
  | additionalItems offset item =>
    cases value with
    | array items =>
      exact ends_transformItems fun value hvalue => hparts .item item List.mem_cons_self value (.item hvalue)
    | _ => exact hinspect
  | tuple positions =>
    cases value with
    | array items =>
      exact ends_transformTuple habsent fun id hid value hvalue =>
        hparts .item id (List.mem_append_left _ hid) value (.item hvalue)
    | _ => exact hinspect
  | instanceOf type =>
    cases value with
    | object members =>
      refine (ends_evaluateObject habsent (fun v hv id hid => hwholes id ?_) fun step id hid => hparts step id ?_).andThen
      · exact List.mem_flatMap.2 ⟨type, List.mem_cons_self, List.mem_flatMap.2 ⟨v, hv, hid⟩⟩
      · refine List.mem_flatMap.2 ⟨type, List.mem_cons_self, ?_⟩
        rcases hid with hdeclared | ⟨v, hv, hid⟩
        · exact List.mem_append_left _ hdeclared
        · exact List.mem_append_right _ (List.mem_flatMap.2 ⟨v, hv, hid⟩)
    | _ => exact hinspect
  | _ => exact hinspect

/-! ## Properties -/

/-- Without a value no check asks for anything. -/
theorem ends_absent {name : String} : ∀ validators : List Validator,
    Ends fun bound => runValidators graph mode (judges bound) name validators none
  | [] => .answer _
  | validator :: rest => by
    simp only [runValidators, runCheck, Option.bind_eq_bind, Option.bind_some]
    split
    · exact ends_absent rest
    · exact .answer _
    · split
      · exact .answer _
      · exact (ends_absent rest).andThen

theorem answers_absent (graph : Graph) (mode : Mode) (id : PropertyId) : Answers (property graph mode) id none :=
  .of_succ (ends_absent _)

/-- **The checks of a property end**, if each ends on the values that are fine for it.  A value has to be fine as long as
a check comes that it matters to, and it may change only to one that is fine again if such a check comes later. -/
theorem ends_runValidators {name : String} (Fine : Json → Prop) (Matters : Check → Prop) :
    ∀ {validators : List Validator} {value : Json},
    (∀ v ∈ validators, ∀ value, (Matters v.check → Fine value) →
      Ends fun bound => transform graph mode (judges bound) v.check value) →
    (∀ before v after, validators = before ++ v :: after → (∃ later ∈ after, Matters later.check) →
      ∀ bound value verdict result, Fine value →
      transform graph mode (judges bound) v.check value = some (verdict, result) → Fine result) →
    ((∃ v ∈ validators, Matters v.check) → Fine value) →
    Ends fun bound => runValidators graph mode (judges bound) name validators (some value)
  | [], _, _, _, _ => .answer _
  | validator :: rest, value, hends, hkeeps, hfine => by
    have hcheck : Ends fun bound => runCheck graph mode (judges bound) validator.check (some value) :=
      (hends validator List.mem_cons_self value fun hmatters =>
        hfine ⟨validator, List.mem_cons_self, hmatters⟩).andThen
    simp only [runValidators]
    refine hcheck.bind fun result bound hresult => ?_
    obtain ⟨verdict, left⟩ := result
    simp only [runCheck, Option.bind_eq_bind, Option.bind_eq_some_iff, Option.pure_def, Option.some.injEq,
      Prod.mk.injEq] at hresult
    obtain ⟨⟨_, left⟩, htransform, rfl, rfl⟩ := hresult
    have hrest : Ends fun bound => runValidators graph mode (judges bound) name rest (some left) := by
      refine ends_runValidators Fine Matters (fun v hv => hends v (List.mem_cons_of_mem _ hv))
        (fun before v after hsplit => hkeeps (validator :: before) v after (congrArg _ hsplit)) fun hlater => ?_
      obtain ⟨later, hmem, hmatters⟩ := hlater
      exact hkeeps [] validator rest rfl ⟨later, hmem, hmatters⟩ bound value _ left
        (hfine ⟨later, List.mem_cons_of_mem _ hmem, hmatters⟩) htransform
    split
    · exact hrest
    · exact .answer _
    · split
      · exact .answer _
      · exact hrest.andThen

end Evaluation
end SchemaTypes

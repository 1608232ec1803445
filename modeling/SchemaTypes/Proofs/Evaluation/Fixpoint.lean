import SchemaTypes.Proofs.Evaluation.Deepening
/-!
# Evaluation is a fixed point

Judging is closed under a bound, and evaluation tries larger and larger ones.  What it answers in the end does not show
that: a property is evaluated by running its checks, which judge by evaluating properties
(`Graph.evaluateProperty_eq`), and so is a type (`Graph.evaluate_object`).

The reason is that a run asks its judge finitely often.  What it answers, it also answers with judges that know just the
answers it comes upon, and of judges that grow all from some one on know these (`Attained`).  Each function that asks a
judge passes this on.
-/
namespace SchemaTypes

/-- What is answered, all attempts from some one on answer. -/
def Attained {α : Type} (x : Option α) (y : Nat → Option α) : Prop :=
  ∀ a, x = some a → ∃ enough, ∀ bound, enough ≤ bound → y bound = some a

namespace Attained

variable {α β : Type} {x : Option α} {y : Nat → Option α} {f : α → Option β} {g : Nat → α → Option β}

theorem const (x : Option α) : Attained x fun _ => x := fun _ h => ⟨0, fun _ _ => h⟩

theorem bind (h : Attained x y) (hf : ∀ a, Attained (f a) fun bound => g bound a) :
    Attained (x >>= f) fun bound => y bound >>= g bound := by
  intro b hb
  obtain ⟨a, ha, hfa⟩ := Option.bind_eq_some_iff.1 hb
  obtain ⟨first, hfirst⟩ := h a ha
  obtain ⟨second, hsecond⟩ := hf a b hfa
  refine ⟨max first second, fun bound hle => Option.bind_eq_some_iff.2 ⟨a, ?_, ?_⟩⟩
  · exact hfirst bound (Nat.le_trans (Nat.le_max_left _ _) hle)
  · exact hsecond bound (Nat.le_trans (Nat.le_max_right _ _) hle)

/-- A first part, and then a function of what it brings. -/
theorem andThen (h : Attained x y) : Attained (x >>= f) fun bound => y bound >>= f := h.bind fun _ => const _

/-- Where the attempts begin does not matter. -/
theorem of_succ (h : Attained x fun bound => y (bound + 1)) : Attained x y := by
  intro a ha
  obtain ⟨enough, henough⟩ := h a ha
  refine ⟨enough + 1, fun bound hle => ?_⟩
  obtain ⟨smaller, rfl⟩ := Nat.exists_eq_add_of_lt hle
  exact henough _ (by omega)

/-- Of two answers that are attained by the same attempts, neither differs. -/
theorem unique {a b : α} (ha : Attained (some a) y) (hb : Attained (some b) y) : a = b := by
  obtain ⟨first, hfirst⟩ := ha a rfl
  obtain ⟨second, hsecond⟩ := hb b rfl
  have hle := hfirst (max first second) (Nat.le_max_left _ _)
  rw [hsecond (max first second) (Nat.le_max_right _ _)] at hle
  exact (Option.some.inj hle).symm

end Attained

/-- Every answer of the judge is attained by the judges. -/
def Judge.Attained (judge : Judge) (judges : Nat → Judge) : Prop :=
  ∀ id value, SchemaTypes.Attained (judge id value) fun bound => judges bound id value

namespace Judge.Attained

open Evaluation SchemaTypes.Attained

variable {graph : Graph} {J : Judge} {judges : Nat → Judge} {mode : Mode} {check : Check}

/-! ## Parts -/

theorem survey (h : J.Attained judges) : ∀ parts : List Part,
    SchemaTypes.Attained (J.survey mode parts) fun bound => (judges bound).survey mode parts
  | [] => const _
  | part :: rest => by
    simp only [Judge.survey]
    refine (h _ _).bind fun outcome => ?_
    split
    · exact const _
    · exact (h.survey rest).andThen

theorem judgeBranches (h : J.Attained judges) (value : Json) : ∀ branches : List Branch,
    SchemaTypes.Attained (judgeBranches J branches value) fun bound => judgeBranches (judges bound) branches value
  | [] => const _
  | branch :: rest => by
    unfold Evaluation.judgeBranches
    simp only [List.mapM_cons]
    exact (h _ _).bind fun outcome => (h.judgeBranches value rest).andThen

theorem judgeConditional (h : J.Attained judges) (condition : PropertyId) (consequent alternative : Option PropertyId)
    (value : Json) : SchemaTypes.Attained (judgeConditional J condition consequent alternative value) fun bound =>
      judgeConditional (judges bound) condition consequent alternative value := by
  unfold Evaluation.judgeConditional
  refine (h _ _).bind fun premise => ?_
  generalize (if premise.isValid then consequent else alternative) = next
  cases next with
  | none => exact const _
  | some id => exact (h _ _).andThen

theorem anyValid (h : J.Attained judges) (item : PropertyId) : ∀ items : List Json,
    SchemaTypes.Attained (anyValid J item items) fun bound => anyValid (judges bound) item items
  | [] => const _
  | value :: rest => by
    simp only [Evaluation.anyValid]
    refine (h _ _).bind fun outcome => ?_
    split
    · exact const _
    · exact h.anyValid item rest

/-! ## Checks -/

theorem inspectObject (h : J.Attained judges) (members : Members) (check : Check) :
    SchemaTypes.Attained (inspectObject J mode members check) fun bound =>
      inspectObject (judges bound) mode members check := by
  cases check with
  | additionalProperties className known patterns id => exact (h.survey _).andThen
  | patternProperty className pattern key id => exact (h.survey _).andThen
  | propertyNames className id => exact (h.survey _).andThen
  | schemaDependency trigger id =>
    simp only [Evaluation.inspectObject]
    split
    · exact (h _ _).andThen
    · exact const _
  | _ => exact const _

theorem inspect (h : J.Attained judges) (check : Check) (value : Json) :
    SchemaTypes.Attained (inspect J mode check value) fun bound => inspect (judges bound) mode check value := by
  unfold Evaluation.inspect
  split
  · exact const _
  · cases check with
    | composition combinator branches onObject => exact (h.judgeBranches value branches).andThen
    | conditional condition consequent alternative onObject => exact h.judgeConditional _ _ _ value
    | contains item =>
      cases value with
      | array items => exact (h.anyValid item items).andThen
      | object members => exact h.inspectObject members _
      | _ => exact const _
    | type => exact const _
    | enumeration => exact const _
    | constant => exact const _
    | custom => exact const _
    | _ =>
      cases value with
      | object members => exact h.inspectObject members _
      | _ => exact const _

/-! ## Objects -/

theorem evaluateProperties (h : J.Attained judges) (graph : Graph) (input : Members) :
    ∀ (ids : List PropertyId) (model : Members), SchemaTypes.Attained (evaluateProperties graph mode J input ids model)
      fun bound => evaluateProperties graph mode (judges bound) input ids model
  | [], _ => const _
  | id :: rest, model => by
    simp only [Evaluation.evaluateProperties]
    refine (h _ _).bind fun outcome => ?_
    split
    · exact const _
    · exact (h.evaluateProperties graph input rest _).andThen

theorem runTypeCheck (h : J.Attained judges) (input model : Members) (check : Check) :
    SchemaTypes.Attained (runTypeCheck mode J input model check) fun bound =>
      runTypeCheck mode (judges bound) input model check := by
  unfold Evaluation.runTypeCheck
  split
  · exact (h.judgeBranches _ _).andThen
  · exact (h.inspect _ _).andThen

theorem evaluateTypeChecks (h : J.Attained judges) (className : String) (input : Members) :
    ∀ (validators : List Validator) (model : Members),
      SchemaTypes.Attained (evaluateTypeChecks mode J className input validators model) fun bound =>
        evaluateTypeChecks mode (judges bound) className input validators model
  | [], _ => const _
  | validator :: rest, model => by
    have hrest := h.evaluateTypeChecks className input rest
    simp only [Evaluation.evaluateTypeChecks]
    refine (h.runTypeCheck input model validator.check).bind fun (verdict, changed) => ?_
    cases verdict with
    | pass => exact hrest changed
    | settle => exact hrest changed
    | fail failure =>
      simp only
      split
      · exact const _
      · exact (hrest changed).andThen

theorem evaluateObject (h : J.Attained judges) (graph : Graph) (type : TypeId) (input : Members) :
    SchemaTypes.Attained (evaluateObject graph mode J type input) fun bound =>
      evaluateObject graph mode (judges bound) type input := by
  unfold Evaluation.evaluateObject
  refine (h.evaluateProperties graph input _ _).bind fun first => ?_
  split
  · exact const _
  · exact (h.evaluateTypeChecks _ input _ _).andThen

/-! ## Properties -/

theorem transform (h : J.Attained judges) (graph : Graph) (check : Check) (value : Json) :
    SchemaTypes.Attained (transform graph mode J check value) fun bound =>
      transform graph mode (judges bound) check value := by
  unfold Evaluation.transform
  split
  · exact const _
  · exact (h.survey _).andThen
  · exact (h.survey _).andThen
  · exact (h.survey _).andThen
  · exact (h.evaluateObject graph _ _).andThen
  · exact (h.inspect _ _).andThen

theorem runCheck (h : J.Attained judges) (graph : Graph) (check : Check) : ∀ value : Option Json,
    SchemaTypes.Attained (runCheck graph mode J check value) fun bound => runCheck graph mode (judges bound) check value
  | none => const _
  | some value => (h.transform graph check value).andThen

theorem runValidators (h : J.Attained judges) (graph : Graph) (name : String) :
    ∀ (validators : List Validator) (value : Option Json),
      SchemaTypes.Attained (runValidators graph mode J name validators value) fun bound =>
        runValidators graph mode (judges bound) name validators value
  | [], _ => const _
  | validator :: rest, value => by
    have hrest := h.runValidators graph name rest
    simp only [Evaluation.runValidators]
    refine (h.runCheck graph validator.check value).bind fun (verdict, left) => ?_
    cases verdict with
    | pass => exact hrest left
    | settle => exact const _
    | fail failure =>
      simp only
      split
      · exact const _
      · exact (hrest left).andThen

end Judge.Attained

namespace Evaluation

variable {α : Type} {attempt : Nat → Option α} {result : α} {graph : Graph} {mode : Mode}

/-- Where every answer lasts, an answer under any bound is the answer. -/
theorem deepen_eq_some_iff (hlasts : ∀ bound, Attained (attempt bound) attempt) {start : Nat} :
    deepen attempt start = some result ↔ ∃ bound, attempt bound = some result := by
  refine ⟨exists_of_deepen, fun ⟨bound, hbound⟩ => ?_⟩
  have hresult : Attained (some result) attempt := by
    rw [← hbound]
    exact hlasts bound
  obtain ⟨enough, henough⟩ := hresult result rfl
  obtain ⟨found, hfound⟩ := exists_deepen (fun bound hle hnone => nomatch hnone.symm.trans (henough bound hle)) start
  obtain ⟨other, hother⟩ := exists_of_deepen hfound
  have hlater : Attained (some found) attempt := by
    rw [← hother]
    exact hlasts other
  rw [hfound, hlater.unique hresult]

/-- By induction on the bound: what a property's checks come to lasts as soon as the answers they have asked for do. -/
theorem property_attained (graph : Graph) (mode : Mode) : ∀ bound : Nat,
    (property graph mode bound).Attained (property graph mode)
  | 0 => fun _ _ _ hnone => nomatch hnone
  | bound + 1 => fun _ value => .of_succ ((property_attained graph mode bound).runValidators graph _ _ value)

/-- What a property is evaluated to is what some bound brings. -/
theorem evaluateProperty_eq_some_iff {id : PropertyId} {value : Option Json} {outcome : Outcome} :
    graph.evaluateProperty mode id value = some outcome ↔ ∃ bound, property graph mode bound id value = some outcome :=
  deepen_eq_some_iff fun bound => property_attained graph mode bound id value

/-- What evaluation asks about properties is what the bounds bring in the end. -/
theorem asked_iff {F : Judge → Option α}
    (hF : ∀ J judges, Judge.Attained J judges → Attained (F J) fun bound => F (judges bound)) :
    F (graph.evaluateProperty mode) = some result ↔ ∃ bound, F (property graph mode bound) = some result := by
  have hattained : Judge.Attained (graph.evaluateProperty mode) (property graph mode) := by
    intro id value outcome houtcome
    obtain ⟨bound, hbound⟩ := evaluateProperty_eq_some_iff.1 houtcome
    exact property_attained graph mode bound id value outcome hbound
  have hbounded : ∀ bound, (property graph mode bound).Attained fun _ => graph.evaluateProperty mode :=
    fun bound _ _ _ houtcome => ⟨0, fun _ _ => evaluateProperty_eq_some_iff.2 ⟨bound, houtcome⟩⟩
  constructor
  · intro hasked
    obtain ⟨enough, henough⟩ := hF _ _ hattained result hasked
    exact ⟨enough, henough enough (Nat.le_refl _)⟩
  · rintro ⟨bound, hasked⟩
    obtain ⟨enough, henough⟩ := hF _ _ (hbounded bound) result hasked
    exact henough enough (Nat.le_refl _)

theorem run_attained (graph : Graph) (mode : Mode) (type : TypeId) (value : Json) (bound : Nat) :
    Attained (run graph mode bound type value) fun bound => run graph mode bound type value := by
  cases value with
  | object members => exact ((property_attained graph mode bound).evaluateObject graph type members).andThen
  | _ => exact .const _

/-- What a value is evaluated to against a type is what some bound brings. -/
theorem evaluate_eq_some_iff {type : TypeId} {value : Json} {result : Result} :
    graph.evaluate mode type value = some result ↔ ∃ bound, run graph mode bound type value = some result :=
  deepen_eq_some_iff (run_attained graph mode type value)

end Evaluation

namespace Graph

open Evaluation

/-- **A property is evaluated by running its checks**, in order, each judging what it judges by evaluation. -/
theorem evaluateProperty_eq (graph : Graph) (mode : Mode) (id : PropertyId) (value : Option Json) :
    graph.evaluateProperty mode id value = runValidators graph mode (graph.evaluateProperty mode)
      (graph.property id).name (graph.property id).validators.toList value := by
  refine Option.ext fun outcome => ?_
  rw [evaluateProperty_eq_some_iff, asked_iff fun _ _ h => h.runValidators graph _ _ value]
  constructor
  · rintro ⟨bound, hbound⟩
    cases bound with
    | zero => cases hbound
    | succ bound => exact ⟨bound, hbound⟩
  · rintro ⟨bound, hbound⟩
    exact ⟨bound + 1, hbound⟩

/-- **An object is evaluated against a type** by its properties, in order, and then by its checks. -/
theorem evaluate_object (graph : Graph) (mode : Mode) (type : TypeId) (input : Members) :
    graph.evaluate mode type (.object input) = do
      let found ← evaluateObject graph mode (graph.evaluateProperty mode) type input
      return { model := .object found.model, report := found.violations } := by
  refine Option.ext fun result => ?_
  rw [asked_iff fun _ _ h => (h.evaluateObject graph type input).andThen]
  exact evaluate_eq_some_iff

end Graph

end SchemaTypes

import SchemaTypes.Evaluation.Basic
import SchemaTypes.Proofs.Types.Ids
/-!
# Evaluation reads what a graph knows

From a type that has been handed out, evaluation comes upon ids that have been handed out, and upon no others.  So two
graphs that agree on these (`Graph.AgreeOn`) evaluate alike, down to the reports (`Graph.AgreeOn.run_eq`).  It is
shown in one direction and for a growing bound: what ends in one graph ends with the same in the other
(`Extends`), each function that asks a judge passing that on.
-/
namespace SchemaTypes

/-- Both graphs have the same under the ids that `base` has handed out, and it leads to such ids only. -/
structure Graph.AgreeOn (base graph other : Graph) : Prop where
  property : ∀ id, base.HasProperty id → graph.property id = other.property id
  entry : ∀ id, base.HasType id → graph.entry id = other.entry id
  canonical : ∀ id, base.HasType id → graph.canonical id = other.canonical id
  knows : ∀ id, base.HasProperty id → base.Knows (graph.property id)
  knowsType : ∀ id, base.HasType id → base.KnowsType (graph.entry id)
  hasCanonical : ∀ id, base.HasType id → base.HasType (graph.canonical id)

/-- What ends, ends with the same there. -/
def Extends {α : Type} (x y : Option α) : Prop := ∀ a, x = some a → y = some a

theorem Extends.refl {α : Type} (x : Option α) : Extends x x := fun _ h => h

theorem Extends.bind {α β : Type} {x y : Option α} {f g : α → Option β} (h : Extends x y)
    (hf : ∀ a, Extends (f a) (g a)) : Extends (x >>= f) (y >>= g) := by
  intro b hb
  obtain ⟨a, ha, hfa⟩ := Option.bind_eq_some_iff.1 hb
  exact Option.bind_eq_some_iff.2 ⟨a, h a ha, hf a b hfa⟩

/-- A first part that is judged further by the same. -/
theorem Extends.andThen {α β : Type} {x y : Option α} {f : α → Option β} (h : Extends x y) :
    Extends (x >>= f) (y >>= f) := h.bind fun _ => .refl _

theorem Extends.antisymm {α : Type} {x y : Option α} (h : Extends x y) (h' : Extends y x) : x = y :=
  Option.ext fun a => ⟨h a, h' a⟩

namespace Graph.AgreeOn

variable {base graph other : Graph}

theorem symm (h : base.AgreeOn graph other) : base.AgreeOn other graph where
  property id hid := (h.property id hid).symm
  entry id hid := (h.entry id hid).symm
  canonical id hid := (h.canonical id hid).symm
  knows id hid := h.property id hid ▸ h.knows id hid
  knowsType id hid := h.entry id hid ▸ h.knowsType id hid
  hasCanonical id hid := h.canonical id hid ▸ h.hasCanonical id hid

theorem type (h : base.AgreeOn graph other) {id : TypeId} (hid : base.HasType id) : graph.type id = other.type id :=
  (h.entry _ (h.hasCanonical id hid)).trans (congrArg other.entry (h.canonical id hid))

theorem className (h : base.AgreeOn graph other) {id : TypeId} (hid : base.HasType id) :
    graph.className id = other.className id := congrArg (·.name.className) (h.type hid)

end Graph.AgreeOn

/-- What one judge decides about a known property, the other decides alike. -/
def Judge.ExtendsOn (base : Graph) (judge judge' : Judge) : Prop :=
  ∀ id value, base.HasProperty id → Extends (judge id value) (judge' id value)

section

open Evaluation

variable {base graph other : Graph} {J K : Judge} {mode : Mode} {check : Check}

namespace Judge.ExtendsOn

theorem survey (h : J.ExtendsOn base K) : ∀ {parts : List Part}, (∀ part ∈ parts, base.HasProperty part.property) →
    Extends (J.survey mode parts) (K.survey mode parts)
  | [], _ => .refl _
  | part :: rest, hparts => by
    simp only [Judge.survey]
    refine (h _ _ (hparts part List.mem_cons_self)).bind fun outcome => ?_
    split
    · exact .refl _
    · exact (h.survey fun x hx => hparts x (List.mem_cons_of_mem _ hx)).andThen

theorem transformItems (h : J.ExtendsOn base K) {item : PropertyId} (hitem : base.HasProperty item) (label : String)
    (offset : Nat) (items : List Json) :
    Extends (transformItems J mode label item offset items) (transformItems K mode label item offset items) := by
  refine Extends.andThen (h.survey fun part hpart => ?_)
  obtain ⟨_, _, rfl⟩ := List.mem_map.1 hpart
  exact hitem

theorem transformTuple (h : J.ExtendsOn base K) {positions : List PropertyId}
    (hpositions : ∀ id ∈ positions, base.HasProperty id) (items : List Json) :
    Extends (transformTuple J mode positions items) (transformTuple K mode positions items) := by
  refine Extends.andThen (h.survey fun part hpart => ?_)
  obtain ⟨⟨id, index⟩, hmem, rfl⟩ := List.mem_map.1 hpart
  exact hpositions id (List.fst_mem_of_mem_zipIdx hmem)

theorem judgeMembers (h : J.ExtendsOn base K) {id : PropertyId} (hid : base.HasProperty id) (label : String)
    (members : Members) : Extends (judgeMembers J mode label id members) (judgeMembers K mode label id members) := by
  refine Extends.andThen (h.survey fun part hpart => ?_)
  obtain ⟨_, _, rfl⟩ := List.mem_map.1 hpart
  exact hid

/-! ## Compositions and conditionals -/

theorem judgeBranches (h : J.ExtendsOn base K) (value : Json) : ∀ {branches : List Branch},
    (∀ branch ∈ branches, base.HasProperty branch.property) →
    Extends (judgeBranches J branches value) (judgeBranches K branches value)
  | [], _ => .refl _
  | branch :: rest, hbranches => by
    unfold Evaluation.judgeBranches
    rw [List.mapM_cons, List.mapM_cons]
    refine (h _ _ (hbranches branch List.mem_cons_self)).bind fun outcome => ?_
    exact (h.judgeBranches value fun x hx => hbranches x (List.mem_cons_of_mem _ hx)).andThen

theorem judgeConditional (h : J.ExtendsOn base K) {condition : PropertyId} {consequent alternative : Option PropertyId}
    (hcondition : base.HasProperty condition) (hconsequent : ∀ id, consequent = some id → base.HasProperty id)
    (halternative : ∀ id, alternative = some id → base.HasProperty id) (value : Json) :
    Extends (judgeConditional J condition consequent alternative value)
      (judgeConditional K condition consequent alternative value) := by
  unfold Evaluation.judgeConditional
  refine (h _ _ hcondition).bind fun premise => ?_
  have hnext : ∀ id, (if premise.isValid then consequent else alternative) = some id → base.HasProperty id := by
    intro id hid
    split at hid
    · exact hconsequent id hid
    · exact halternative id hid
  generalize (if premise.isValid then consequent else alternative) = next at hnext
  cases next with
  | none => exact .refl _
  | some id => exact (h _ _ (hnext id rfl)).andThen

/-! ## Checks -/

theorem anyValid (h : J.ExtendsOn base K) {item : PropertyId} (hitem : base.HasProperty item) (items : List Json) :
    Extends (anyValid J item items) (anyValid K item items) := by
  induction items with
  | nil => exact .refl _
  | cons value rest ih =>
    simp only [Evaluation.anyValid]
    refine (h _ _ hitem).bind fun outcome => ?_
    split
    · exact .refl _
    · exact ih

theorem inspectArray (h : J.ExtendsOn base K) (items : List Json) (hcheck : base.KnowsCheck check) :
    Extends (inspectArray J items check) (inspectArray K items check) := by
  cases check with
  | contains item => exact (h.anyValid (hcheck.children item List.mem_cons_self) items).andThen
  | _ => exact .refl _

theorem inspectObject (h : J.ExtendsOn base K) (members : Members) (hcheck : base.KnowsCheck check) :
    Extends (inspectObject J mode members check) (inspectObject K mode members check) := by
  cases check with
  | additionalProperties className known patterns id =>
    exact h.judgeMembers (hcheck.children id List.mem_cons_self) _ _
  | patternProperty className pattern key id => exact h.judgeMembers (hcheck.children id List.mem_cons_self) _ _
  | propertyNames className id => exact h.judgeMembers (hcheck.children id List.mem_cons_self) _ _
  | schemaDependency trigger id =>
    simp only [Evaluation.inspectObject]
    split
    · exact (h _ _ (hcheck.children id List.mem_cons_self)).andThen
    · exact .refl _
  | _ => exact .refl _

theorem inspect (h : J.ExtendsOn base K) (hcheck : base.KnowsCheck check) (value : Json) :
    Extends (inspect J mode check value) (inspect K mode check value) := by
  unfold Evaluation.inspect
  split
  · exact .refl _
  · cases check with
    | composition combinator branches onObject =>
      exact (h.judgeBranches value fun branch hbranch =>
        hcheck.children _ (List.mem_map.2 ⟨branch, hbranch, rfl⟩)).andThen
    | conditional condition consequent alternative onObject =>
      refine h.judgeConditional (hcheck.children _ List.mem_cons_self) (fun id hid => ?_) (fun id hid => ?_) value
      · subst hid
        exact hcheck.children id (List.mem_cons_of_mem _ (List.mem_append_left _ List.mem_cons_self))
      · subst hid
        exact hcheck.children id (List.mem_cons_of_mem _ (List.mem_append_right _ List.mem_cons_self))
    | type => exact .refl _
    | enumeration => exact .refl _
    | constant => exact .refl _
    | custom => exact .refl _
    | _ =>
      cases value with
      | array items => exact h.inspectArray items hcheck
      | object members => exact h.inspectObject members hcheck
      | _ => exact .refl _

/-! ## Objects -/

theorem runTypeCheck (h : J.ExtendsOn base K) (hcheck : base.KnowsCheck check) (input model : Members) :
    Extends (runTypeCheck mode J input model check) (runTypeCheck mode K input model check) := by
  have hinspect : Extends (do return (← Evaluation.inspect J mode check (.object input), model))
      (do return (← Evaluation.inspect K mode check (.object input), model)) := (h.inspect hcheck _).andThen
  cases check with
  | composition combinator branches onObject =>
    cases onObject with
    | true =>
      exact (h.judgeBranches (.object input) fun branch hbranch =>
        hcheck.children _ (List.mem_map.2 ⟨branch, hbranch, rfl⟩)).andThen
    | false => exact hinspect
  | _ => exact hinspect

theorem evaluateTypeChecks (h : J.ExtendsOn base K) (className : String) (input : Members) :
    ∀ {validators : List Validator} (model : Members), (∀ v ∈ validators, base.KnowsCheck v.check) →
    Extends (evaluateTypeChecks mode J className input validators model)
      (evaluateTypeChecks mode K className input validators model)
  | [], _, _ => .refl _
  | validator :: rest, model, hchecks => by
    simp only [Evaluation.evaluateTypeChecks]
    have hrest : ∀ model, Extends (Evaluation.evaluateTypeChecks mode J className input rest model)
        (Evaluation.evaluateTypeChecks mode K className input rest model) := fun model =>
      h.evaluateTypeChecks className input model fun v hv => hchecks v (List.mem_cons_of_mem _ hv)
    refine (h.runTypeCheck (hchecks validator List.mem_cons_self) input model).bind fun result => ?_
    obtain ⟨verdict, model⟩ := result
    cases verdict with
    | pass => exact hrest model
    | settle => exact hrest model
    | fail failure =>
      simp only
      split
      · exact .refl _
      · exact (hrest model).andThen

end Judge.ExtendsOn

namespace Graph.AgreeOn

theorem evaluateProperties (hg : base.AgreeOn graph other) (h : J.ExtendsOn base K) (input : Members) :
    ∀ {ids : List PropertyId} (model : Members), (∀ id ∈ ids, base.HasProperty id) →
    Extends (evaluateProperties graph mode J input ids model) (evaluateProperties other mode K input ids model)
  | [], _, _ => .refl _
  | id :: rest, model, hids => by
    simp only [Evaluation.evaluateProperties]
    rw [hg.property id (hids id List.mem_cons_self)]
    refine (h _ _ (hids id List.mem_cons_self)).bind fun outcome => ?_
    split
    · exact .refl _
    · exact (hg.evaluateProperties h input _ fun x hx => hids x (List.mem_cons_of_mem _ hx)).andThen

theorem evaluateObject (hg : base.AgreeOn graph other) (h : J.ExtendsOn base K) {id : TypeId} (hid : base.HasType id)
    (input : Members) : Extends (evaluateObject graph mode J id input) (evaluateObject other mode K id input) := by
  have hknows := hg.knowsType _ (hg.hasCanonical id hid)
  unfold Evaluation.evaluateObject
  rw [← hg.type hid]
  refine (hg.evaluateProperties h input _ hknows.properties).bind fun first => ?_
  split
  · exact .refl _
  · exact (h.evaluateTypeChecks _ input _ hknows.checks).andThen

theorem transform (hg : base.AgreeOn graph other) (h : J.ExtendsOn base K) (hcheck : base.KnowsCheck check)
    (value : Json) : Extends (transform graph mode J check value) (transform other mode K check value) := by
  have hinspect : Extends (do return (← inspect J mode check value, value))
      (do return (← inspect K mode check value, value)) := (h.inspect hcheck value).andThen
  cases check with
  | filter => exact .refl _
  | items item =>
    cases value with
    | array items => exact h.transformItems (hcheck.children item List.mem_cons_self) _ _ items
    | _ => exact hinspect
  | additionalItems offset item =>
    cases value with
    | array items => exact h.transformItems (hcheck.children item List.mem_cons_self) _ _ items
    | _ => exact hinspect
  | tuple positions =>
    cases value with
    | array items => exact h.transformTuple hcheck.children items
    | _ => exact hinspect
  | instanceOf type =>
    have htype := hcheck.types type List.mem_cons_self
    cases value with
    | object members =>
      simp only [Evaluation.transform]
      rw [hg.className htype]
      exact (hg.evaluateObject h htype members).andThen
    | _ => exact hinspect
  | _ => exact hinspect

theorem runCheck (hg : base.AgreeOn graph other) (h : J.ExtendsOn base K) (hcheck : base.KnowsCheck check) :
    ∀ value : Option Json, Extends (runCheck graph mode J check value) (runCheck other mode K check value)
  | none => .refl _
  | some value => (hg.transform h hcheck value).andThen

theorem runValidators (hg : base.AgreeOn graph other) (h : J.ExtendsOn base K) (name : String) :
    ∀ {validators : List Validator} (value : Option Json), (∀ v ∈ validators, base.KnowsCheck v.check) →
    Extends (runValidators graph mode J name validators value) (runValidators other mode K name validators value)
  | [], _, _ => .refl _
  | validator :: rest, value, hchecks => by
    simp only [Evaluation.runValidators]
    have hrest : ∀ value, Extends (Evaluation.runValidators graph mode J name rest value)
        (Evaluation.runValidators other mode K name rest value) := fun value =>
      hg.runValidators h name value fun v hv => hchecks v (List.mem_cons_of_mem _ hv)
    refine (hg.runCheck h (hchecks validator List.mem_cons_self) value).bind fun result => ?_
    obtain ⟨verdict, value⟩ := result
    cases verdict with
    | pass => exact hrest value
    | settle => exact .refl _
    | fail failure =>
      simp only
      split
      · exact .refl _
      · exact (hrest value).andThen

/-- By induction on the bound: a level up, the checks of a known property ask for known ones. -/
theorem judge (hg : base.AgreeOn graph other) : ∀ {bound larger : Nat}, bound ≤ larger →
    Judge.ExtendsOn base (Evaluation.property graph mode bound) (Evaluation.property other mode larger)
  | 0, _, _ => fun _ _ _ _ hnone => nomatch hnone
  | bound + 1, 0, hle => absurd hle (Nat.not_succ_le_zero bound)
  | bound + 1, larger + 1, hle => fun id value hid => by
    simp only [Evaluation.property]
    rw [← hg.property id hid]
    exact hg.runValidators (hg.judge (Nat.le_of_succ_le_succ hle)) _ value (hg.knows id hid).checks

/-- What ends within a bound, ends in the other graph within any larger one, and with the same. -/
theorem run_extends (hg : base.AgreeOn graph other) {bound larger : Nat} (hle : bound ≤ larger) {type : TypeId}
    (htype : base.HasType type) (value : Json) :
    Extends (run graph mode bound type value) (run other mode larger type value) := by
  cases value with
  | object members => exact (hg.evaluateObject (hg.judge hle) htype members).andThen
  | _ =>
    simp only [run]
    rw [hg.className htype]
    exact .refl _

/-- **Graphs that agree on what is known evaluate a known type alike.** -/
theorem run_eq (hg : base.AgreeOn graph other) (mode : Mode) (bound : Nat) {type : TypeId} (htype : base.HasType type)
    (value : Json) : run graph mode bound type value = run other mode bound type value :=
  (hg.run_extends (Nat.le_refl _) htype value).antisymm (hg.symm.run_extends (Nat.le_refl _) htype value)

end Graph.AgreeOn

end

end SchemaTypes

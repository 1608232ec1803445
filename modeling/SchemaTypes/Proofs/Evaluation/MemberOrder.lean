import SchemaTypes.Proofs.Building.Arranging
import SchemaTypes.Proofs.Evaluation.Comparisons
import SchemaTypes.Proofs.Evaluation.Likeness
import SchemaTypes.Proofs.Evaluation.Population
/-!
# The order of members is irrelevant

Objects are read by name, counted, or gone through member by member.  Going through them, evaluation may end at the first
invalid member, and in another order that is another one; but whether there is one is the same.  So two values that are
the same up to the order of members are judged alike, and what is left of them is the same up to that order again
(`Graph.evaluate_reordered`).

Nothing is said where one of the two runs has no end.  Hence results are compared where both answer (`Concur`), and each
function that asks a judge passes this on.
-/
namespace SchemaTypes

/-- If both answer, the answers are related. -/
def Concur {α β : Type} (r : α → β → Prop) (x : Option α) (y : Option β) : Prop :=
  ∀ a b, x = some a → y = some b → r a b

namespace Concur

variable {α β α' β' : Type} {r : α → β → Prop} {s : α' → β' → Prop} {x : Option α} {y : Option β}
  {f : α → Option α'} {g : β → Option β'}

theorem some {a : α} {b : β} (h : r a b) : Concur r (some a) (some b) := by
  rintro _ _ ⟨⟩ ⟨⟩
  exact h

theorem bind (h : Concur r x y) (hf : ∀ a b, r a b → Concur s (f a) (g b)) : Concur s (x >>= f) (y >>= g) := by
  intro c d hc hd
  obtain ⟨a, ha, hc⟩ := Option.bind_eq_some_iff.1 hc
  obtain ⟨b, hb, hd⟩ := Option.bind_eq_some_iff.1 hd
  exact hf a b (h a b ha hb) c d hc hd

/-- One run concurs with itself. -/
theorem self {r : α → α → Prop} (hr : ∀ a, r a a) (x : Option α) : Concur r x x := by
  intro a b ha hb
  obtain rfl := Option.some.inj (ha.symm.trans hb)
  exact hr a

end Concur

theorem filter_alike {α β : Type} {r : α → β → Prop} {p : α → Bool} {q : β → Bool} (hpq : ∀ a b, r a b → p a = q b)
    {as : List α} {bs : List β} (h : List.Forall₂ r as bs) : List.Forall₂ r (as.filter p) (bs.filter q) := by
  refine List.rel_filter (fun a b hab => ?_) h
  simp only [hpq a b hab]

/-! ## Results up to the order of members -/

/-- The same validity, and values that are the same up to the order of members. -/
structure Outcome.Reordered (a b : Outcome) : Prop where
  value : Option.Rel Json.Reordered a.value b.value
  isValid : a.isValid = b.isValid

structure Survey.Reordered (a b : Survey) : Prop where
  values : List.Forall₂ (Option.Rel Json.Reordered) a.values b.values
  details : a.details.isEmpty = b.details.isEmpty

structure Evaluation.Populated.Reordered (a b : Evaluation.Populated) : Prop where
  model : a.model.Reordered b.model
  violations : a.violations.isEmpty = b.violations.isEmpty

/-- The same verdict, and what is left of the value. -/
def TransformedAlike (x y : Verdict × Json) : Prop := x.1.Like y.1 ∧ x.2.Reordered y.2

theorem reordered_self : ∀ value : Option Json, Option.Rel Json.Reordered value value
  | none => .none
  | some value => .some (.refl value)

theorem Outcome.Reordered.refl (outcome : Outcome) : outcome.Reordered outcome := ⟨reordered_self _, rfl⟩

theorem TransformedAlike.refl (x : Verdict × Json) : TransformedAlike x x := ⟨.refl _, .refl _⟩

/-- The judge judges values alike that are the same up to the order of members. -/
def Judge.Orderless (judge : Judge) : Prop :=
  ∀ id v w, Option.Rel Json.Reordered v w → Concur Outcome.Reordered (judge id v) (judge id w)

/-- What the check runs itself does not see the order of members: a standard filter, or such a predicate. -/
def Check.Orderless : Check → Prop
  | .filter _ _ _ apply => ∃ filter ∈ Filters.standard, filter.apply = apply
  | .custom _ accepts => ∀ a b : Json, a.Reordered b → accepts a = accepts b
  | _ => True

/-- So do all checks. -/
structure Graph.Orderless (graph : Graph) : Prop where
  properties : ∀ id, ∀ v ∈ (graph.property id).validators.toList, v.check.Orderless
  types : ∀ id, ∀ v ∈ (graph.type id).validators.toList, v.check.Orderless

namespace Judge.Orderless

open Evaluation

variable {graph : Graph} {J : Judge} {mode : Mode} {check : Check} {v w : Json} {as bs : Members}

/-! ## Parts -/

/-- Parts that are judged by one property, with values the same up to the order of members. -/
structure PartAlike (p q : Part) : Prop where
  property : p.property = q.property
  value : Option.Rel Json.Reordered p.value q.value

theorem isEmpty_detail {o o' : Outcome} (h : o.isValid = o'.isValid) (label label' : String) :
    (if o.isValid then [] else [Detail.failed label o.violations]).isEmpty =
      (if o'.isValid then [] else [Detail.failed label' o'.violations]).isEmpty := by
  rw [h]
  split <;> rfl

theorem survey (h : J.Orderless) {ps qs : List Part} (hpq : List.Forall₂ PartAlike ps qs) :
    Concur Survey.Reordered (J.survey mode ps) (J.survey mode qs) := by
  induction hpq with
  | nil => exact .some ⟨.nil, rfl⟩
  | @cons p q _ _ hpart _ ih =>
    simp only [Judge.survey]
    rw [hpart.property]
    refine (h _ _ _ hpart.value).bind fun o o' ho => ?_
    rw [mode.stopsAt_eq ho.isValid]
    have hdetail := isEmpty_detail ho.isValid p.label q.label
    split
    · exact .some ⟨.cons ho.value .nil, hdetail⟩
    · refine ih.bind fun s s' hs => .some ⟨.cons ho.value hs.values, ?_⟩
      rw [isEmpty_append, isEmpty_append, hs.details, hdetail]

theorem reordered_overwrite : ∀ {items items' : List Json} {values values' : List (Option Json)},
    List.Forall₂ Json.Reordered items items' → List.Forall₂ (Option.Rel Json.Reordered) values values' →
      List.Forall₂ Json.Reordered (overwrite items values) (overwrite items' values')
  | _, _, _, _, .nil, .nil => .nil
  | _, _, _, _, .nil, .cons _ _ => .nil
  | _, _, _, _, .cons hitem hitems, .nil => .cons hitem hitems
  | _, _, _, _, .cons hitem hitems, .cons hvalue hvalues => by
    refine .cons ?_ (reordered_overwrite hitems hvalues)
    cases hvalue with
    | none => exact hitem
    | some hvalue => exact hvalue

theorem partsAlike_items (label : Nat → String) (property : PropertyId) : ∀ {items items' : List Json},
    List.Forall₂ Json.Reordered items items' → ∀ start : Nat, List.Forall₂ PartAlike
      ((items.zipIdx start).map fun (value, index) => ⟨label index, property, some value⟩)
      ((items'.zipIdx start).map fun (value, index) => ⟨label index, property, some value⟩)
  | _, _, .nil, _ => .nil
  | _, _, .cons hitem hitems, start =>
    .cons ⟨rfl, .some hitem⟩ (partsAlike_items label property hitems (start + 1))

theorem transformItems (h : J.Orderless) (label : String) (item : PropertyId) (offset : Nat) {items items' : List Json}
    (hitems : List.Forall₂ Json.Reordered items items') :
    Concur TransformedAlike (transformItems J mode label item offset items)
      (transformItems J mode label item offset items') := by
  unfold Evaluation.transformItems
  have hrest := List.forall₂_drop offset hitems
  have hparts := partsAlike_items (fun index => label ++ " #" ++ toString (offset + index)) item hrest 0
  refine Concur.bind (h.survey hparts) fun s s' hs => .some ⟨.ofDetails hs.details, .of_items ?_⟩
  exact List.rel_append (List.forall₂_take offset hitems) (reordered_overwrite hrest hs.values)

theorem rel_getElem? {items items' : List Json} (h : List.Forall₂ Json.Reordered items items') (index : Nat) :
    Option.Rel Json.Reordered items[index]? items'[index]? := by
  induction h generalizing index with
  | nil => exact .none
  | cons hitem _ ih =>
    cases index with
    | zero => exact .some hitem
    | succ index => exact ih index

theorem transformTuple (h : J.Orderless) (positions : List PropertyId) {items items' : List Json}
    (hitems : List.Forall₂ Json.Reordered items items') :
    Concur TransformedAlike (transformTuple J mode positions items) (transformTuple J mode positions items') := by
  unfold Evaluation.transformTuple
  refine Concur.bind (h.survey ?_) fun s s' hs => .some ⟨.ofDetails hs.details, .of_items ?_⟩
  · rw [List.forall₂_map_left_iff, List.forall₂_map_right_iff, List.forall₂_same]
    exact fun (position, index) _ => ⟨rfl, rel_getElem? hitems index⟩
  · exact reordered_overwrite hitems hs.values

/-! ## Members -/

/-- Every part of the second list has a counterpart in the first one. -/
def Covers (ps qs : List Part) : Prop := ∀ q ∈ qs, ∃ p ∈ ps, PartAlike p q

/-- Surveyed parts are valid all together, or one of those that have been judged is not. -/
theorem survey_cases : ∀ {parts : List Part} {survey : Survey}, J.survey mode parts = some survey →
    (survey.details.isEmpty = true ∧ ∀ part ∈ parts, ∃ o, J part.property part.value = some o ∧ o.isValid = true) ∨
    (survey.details.isEmpty = false ∧ ∃ part ∈ parts, ∃ o, J part.property part.value = some o ∧ o.isValid = false)
  | [], _, h => by
    cases h
    exact .inl ⟨rfl, fun _ hpart => nomatch hpart⟩
  | part :: rest, survey, h => by
    simp only [Judge.survey, Option.bind_eq_bind, Option.bind_eq_some_iff, Option.pure_def] at h
    obtain ⟨o, ho, h⟩ := h
    cases hvalid : o.isValid with
    | false =>
      refine .inr ⟨?_, part, List.mem_cons_self, o, ho, hvalid⟩
      simp only [hvalid, Bool.false_eq_true, if_false] at h
      split at h
      · cases h
        rfl
      · obtain ⟨others, -, h⟩ := Option.bind_eq_some_iff.1 h
        cases h
        rfl
    | true =>
      have hgoes : mode.stopsAt o.violations = false := by
        unfold Mode.stopsAt
        rw [show o.violations.isEmpty = true from hvalid, Bool.not_true, Bool.and_false]
      simp only [hvalid, hgoes, Bool.false_eq_true, if_false, if_true] at h
      obtain ⟨others, hothers, h⟩ := Option.bind_eq_some_iff.1 h
      cases h
      rcases survey_cases hothers with ⟨hempty, hall⟩ | ⟨hempty, found, hfound, hinvalid⟩
      · exact .inl ⟨hempty, List.forall_mem_cons.2 ⟨⟨o, ho, hvalid⟩, hall⟩⟩
      · exact .inr ⟨hempty, found, List.mem_cons_of_mem _ hfound, hinvalid⟩

/-- What is found wrong in one order is found wrong in the other: not by the same part, perhaps, as the first one that
is wrong may end it. -/
theorem survey_unordered (h : J.Orderless) {ps qs : List Part} (hpq : Covers ps qs) (hqp : Covers qs ps) :
    Concur (fun s s' : Survey => s.details.isEmpty = s'.details.isEmpty) (J.survey mode ps) (J.survey mode qs) := by
  intro s s' hs hs'
  rcases survey_cases hs with ⟨hempty, hall⟩ | ⟨hempty, p, hp, o, ho, hinvalid⟩ <;>
    rcases survey_cases hs' with ⟨hempty', hall'⟩ | ⟨hempty', q, hq, o', ho', hinvalid'⟩
  · rw [hempty, hempty']
  · obtain ⟨p, hp, halike⟩ := hpq q hq
    obtain ⟨o, ho, hvalid⟩ := hall p hp
    rw [halike.property] at ho
    have hsame := (h _ _ _ halike.value o o' ho ho').isValid
    rw [hvalid, hinvalid'] at hsame
    cases hsame
  · obtain ⟨q, hq, halike⟩ := hqp p hp
    obtain ⟨o', ho', hvalid⟩ := hall' q hq
    rw [halike.property] at ho'
    have hsame := (h _ _ _ halike.value o' o ho' ho).isValid
    rw [hvalid, hinvalid] at hsame
    cases hsame
  · rw [hempty, hempty']

/-- Every member of the second list is, up to order, in the first one. -/
def CoversMembers (xs ys : Members) : Prop := ∀ name b, (name, b) ∈ ys → ∃ a, (name, a) ∈ xs ∧ a.Reordered b

theorem covers_parts {xs ys : Members} (h : CoversMembers xs ys) (label : String) (property : PropertyId) :
    Covers (xs.map fun (name, value) => ⟨label ++ " " ++ name, property, some value⟩)
      (ys.map fun (name, value) => ⟨label ++ " " ++ name, property, some value⟩) := by
  intro q hq
  obtain ⟨⟨name, b⟩, hb, rfl⟩ := List.mem_map.1 hq
  obtain ⟨a, ha, hab⟩ := h name b hb
  exact ⟨_, List.mem_map_of_mem ha, rfl, .some hab⟩

theorem judgeMembers (h : J.Orderless) (label : String) (property : PropertyId) {xs ys : Members}
    (hxy : CoversMembers xs ys) (hyx : CoversMembers ys xs) :
    Concur Verdict.Like (judgeMembers J mode label property xs) (judgeMembers J mode label property ys) := by
  unfold Evaluation.judgeMembers
  exact (h.survey_unordered (covers_parts hxy label property) (covers_parts hyx label property)).bind
    fun s s' hs => .some (.ofDetails hs)

theorem coversMembers_filter (hab : as.Reordered bs) (p : String → Bool) :
    CoversMembers (as.filter fun member => p member.1) (bs.filter fun member => p member.1) := by
  intro name b hb
  obtain ⟨hb, hname⟩ := List.mem_filter.1 hb
  have hfound := Members.get?_of_mem hab.right hb
  obtain ⟨a, ha⟩ := Option.isSome_iff_exists.1 ((hab.names name).trans (Option.isSome_iff_exists.2 ⟨b, hfound⟩))
  exact ⟨a, List.mem_filter.2 ⟨Members.mem_of_get? ha, hname⟩, hab.values name a b ha hfound⟩

theorem coversMembers_names (hab : as.Reordered bs) :
    CoversMembers (as.map fun member => (member.1, .string member.1))
      (bs.map fun member => (member.1, .string member.1)) := by
  intro name b hb
  obtain ⟨member, hmember, heq⟩ := List.mem_map.1 hb
  obtain ⟨rfl, rfl⟩ := Prod.mk.inj heq
  obtain ⟨other, hother, hname⟩ := List.mem_map.1 (hab.names_perm.mem_iff.2 (List.mem_map_of_mem hmember))
  exact ⟨_, List.mem_map.2 ⟨other, hother, by rw [hname]⟩, .refl _⟩

theorem has_eq (hab : as.Reordered bs) : as.has = bs.has := by
  funext name
  rw [Members.has_eq, Members.has_eq, hab.names]

theorem rejectNames_like (parameter : String) {names names' : List String} (h : names.isEmpty = names'.isEmpty) :
    (rejectNames parameter names).Like (rejectNames parameter names') := by
  unfold rejectNames
  rw [h]
  split
  · exact .pass
  · exact .fail

theorem rel_object (hab : as.Reordered bs) : Option.Rel Json.Reordered (some (.object as)) (some (.object bs)) :=
  .some (.of_members hab)

theorem inspectObject (h : J.Orderless) (hab : as.Reordered bs) (check : Check) :
    Concur Verdict.Like (inspectObject J mode as check) (inspectObject J mode bs check) := by
  cases check with
  | noAdditionalProperties className known patterns =>
    refine .some (rejectNames_like _ ?_)
    have hperm := hab.names_perm.filter (isAdditional known patterns)
    rw [Bool.eq_iff_iff, List.isEmpty_iff_length_eq_zero, List.isEmpty_iff_length_eq_zero, hperm.length_eq]
  | additionalProperties className known patterns id =>
    exact h.judgeMembers _ _ (coversMembers_filter hab _) (coversMembers_filter hab.symm _)
  | patternProperty className regex key id =>
    exact h.judgeMembers _ _ (coversMembers_filter hab _) (coversMembers_filter hab.symm _)
  | propertyNames className id =>
    exact h.judgeMembers _ _ (coversMembers_names hab) (coversMembers_names hab.symm)
  | minProperties count =>
    simp only [Evaluation.inspectObject, hab.length_eq]
    exact .some (.refl _)
  | maxProperties count =>
    simp only [Evaluation.inspectObject, hab.length_eq]
    exact .some (.refl _)
  | propertyDependency trigger dependants =>
    simp only [Evaluation.inspectObject, has_eq hab]
    exact .self .refl _
  | schemaDependency trigger id =>
    simp only [Evaluation.inspectObject, has_eq hab]
    split
    · refine (h _ _ _ (rel_object hab)).bind fun o o' ho => ?_
      rw [ho.isValid]
      split
      · exact .some .pass
      · exact .some (.ofDetails rfl)
    · exact .some .pass
  | _ => exact .some .pass

/-! ## Compositions and conditionals -/

theorem judgeBranches (h : J.Orderless) (hvw : v.Reordered w) : ∀ branches : List Branch,
    Concur (List.Forall₂ Outcome.Reordered) (judgeBranches J branches v) (judgeBranches J branches w)
  | [] => .some .nil
  | branch :: rest => by
    have hrest := h.judgeBranches hvw rest
    unfold Evaluation.judgeBranches at hrest ⊢
    rw [List.mapM_cons, List.mapM_cons]
    exact (h _ _ _ (.some hvw)).bind fun o o' ho => hrest.bind fun os os' hos => .some (.cons ho hos)

theorem compositionVerdict_alike (combinator : Combinator) {os os' : List Outcome}
    (h : List.Forall₂ Outcome.Reordered os os') :
    (compositionVerdict combinator os).Like (compositionVerdict combinator os') := by
  have hmatched : List.Forall₂ Outcome.Reordered (os.filter Outcome.isValid) (os'.filter Outcome.isValid) :=
    filter_alike (fun o o' ho => ho.isValid) h
  unfold compositionVerdict
  simp only [hmatched.length_eq, h.length_eq]
  split
  · exact .pass
  · exact .fail

theorem judgeConditional (h : J.Orderless) (condition : PropertyId) (consequent alternative : Option PropertyId)
    (hvw : v.Reordered w) : Concur Verdict.Like (judgeConditional J condition consequent alternative v)
      (judgeConditional J condition consequent alternative w) := by
  unfold Evaluation.judgeConditional
  refine (h _ _ _ (.some hvw)).bind fun o o' ho => ?_
  rw [ho.isValid]
  generalize (if o'.isValid then consequent else alternative) = next
  cases next with
  | none => exact .some .pass
  | some id =>
    refine (h _ _ _ (.some hvw)).bind fun p p' hp => ?_
    rw [hp.isValid]
    split
    · exact .some .pass
    · exact .some (.ofDetails rfl)

/-! ## Checks that leave the value alone -/

theorem anyValid (h : J.Orderless) (item : PropertyId) {items items' : List Json}
    (hitems : List.Forall₂ Json.Reordered items items') : Concur Eq (anyValid J item items) (anyValid J item items') := by
  induction hitems with
  | nil => exact .some rfl
  | cons hitem _ ih =>
    simp only [Evaluation.anyValid]
    refine (h _ _ _ (.some hitem)).bind fun o o' ho => ?_
    rw [ho.isValid]
    split
    · exact .some rfl
    · exact ih

theorem allDistinct_eq {items items' : List Json} (hitems : List.Forall₂ Json.Reordered items items') :
    Json.allDistinct items = Json.allDistinct items' := by
  induction hitems with
  | nil => rfl
  | @cons a b as bs hab hrest ih =>
    have hdiffers : (as.all fun other => !a.equal other) = bs.all fun other => !b.equal other := by
      clear ih
      induction hrest with
      | nil => rfl
      | @cons x y _ _ hxy _ ih =>
        have hequal : a.equal x = b.equal y :=
          (Json.equalBy_reordered hab x).1.trans (Json.equalBy_reordered hxy b).2
        rw [List.all_cons, List.all_cons, ih, hequal]
    unfold Json.allDistinct
    rw [hdiffers, ih]

theorem inspectArray (h : J.Orderless) {items items' : List Json} (hitems : List.Forall₂ Json.Reordered items items')
    (check : Check) : Concur Verdict.Like (inspectArray J items check) (inspectArray J items' check) := by
  cases check with
  | contains item =>
    refine (h.anyValid item hitems).bind fun x y hxy => ?_
    rw [hxy]
    exact .some (.refl _)
  | uniqueItems =>
    simp only [Evaluation.inspectArray, allDistinct_eq hitems]
    exact .some (.refl _)
  | minItems count =>
    simp only [Evaluation.inspectArray, hitems.length_eq]
    exact .some (.refl _)
  | maxItems count =>
    simp only [Evaluation.inspectArray, hitems.length_eq]
    exact .some (.refl _)
  | noAdditionalItems expected =>
    simp only [Evaluation.inspectArray, hitems.length_eq]
    exact .self .refl _
  | _ => exact .some .pass

theorem settlesNull_eq (check : Check) (h : v.Reordered w) : settlesNull check v = settlesNull check w := by
  have hcontainer : ∀ value : Json, value ≠ .null → settlesNull check value = false :=
    fun value => settlesNull_of_ne_null check
  cases h with
  | refl => rfl
  | array => rw [hcontainer (.array _) nofun, hcontainer (.array _) nofun]
  | object => rw [hcontainer (.object _) nofun, hcontainer (.object _) nofun]

theorem accepts_eq (kinds : List Kind) (h : v.Reordered w) : kinds.any (·.accepts v) = kinds.any (·.accepts w) := by
  unfold Kind.accepts
  rw [h.ofValue_eq]

theorem inspect (h : J.Orderless) (hcheck : check.Orderless) (hvw : v.Reordered w) :
    Concur Verdict.Like (inspect J mode check v) (inspect J mode check w) := by
  unfold Evaluation.inspect
  rw [settlesNull_eq check hvw]
  split
  · exact .some .settle
  · cases check with
    | type kinds implicitNull =>
      simp only [accepts_eq kinds hvw]
      split
      · exact .some .pass
      · exact .some .fail
    | enumeration values implicitNull =>
      have hequal : (fun value : Json => value.equal v) = fun value => value.equal w :=
        funext fun value => (Json.equalBy_reordered hvw value).2
      simp only [hequal]
      exact .some (.refl _)
    | constant expected =>
      have hequal : expected.equal v = expected.equal w := (Json.equalBy_reordered hvw expected).2
      simp only [hequal]
      exact .some (.refl _)
    | composition combinator branches onObject =>
      exact (h.judgeBranches hvw branches).bind fun os os' hos => .some (compositionVerdict_alike combinator hos)
    | conditional condition consequent alternative onObject =>
      exact h.judgeConditional condition consequent alternative hvw
    | custom description accepts =>
      simp only [hcheck v w hvw]
      exact .some (.refl _)
    | _ =>
      cases hvw with
      | refl => exact .self .refl _
      | array hlength hitems => exact h.inspectArray (Json.Reordered.items (.array hlength hitems)) _
      | object hleft hright hnames hvalues => exact h.inspectObject ⟨hleft, hright, hnames, hvalues⟩ _

/-! ## Objects -/

theorem rel_get? (h : v.Reordered w) (name : String) : Option.Rel Json.Reordered (v.get? name) (w.get? name) := by
  cases h with
  | refl => exact reordered_self _
  | array => exact .none
  | object hleft hright hnames hvalues => exact Members.Reordered.rel ⟨hleft, hright, hnames, hvalues⟩ name

theorem takeOver_reordered (affected : List String) {output output' : Option Json}
    (houtput : Option.Rel Json.Reordered output output') {model model' : Members} (hmodel : model.Reordered model') :
    (takeOver model affected output).Reordered (takeOver model' affected output') := by
  unfold takeOver
  induction affected generalizing model model' with
  | nil => exact hmodel
  | cons name rest ih =>
    rw [List.foldl_cons, List.foldl_cons]
    refine ih ?_
    have hmember : Option.Rel Json.Reordered (output.bind (·.get? name)) (output'.bind (·.get? name)) := by
      cases houtput with
      | none => exact .none
      | some h => exact rel_get? h name
    revert hmember
    cases output.bind (·.get? name) <;> cases output'.bind (·.get? name) <;> rintro ⟨⟩
    · exact hmodel
    · exact hmodel.insert ‹_›

theorem reset_reordered (affected populated : List String) {model model' : Members} (hmodel : model.Reordered model') :
    (reset model affected populated).Reordered (reset model' affected populated) := by
  unfold reset
  induction affected generalizing model model' with
  | nil => exact hmodel
  | cons name rest ih =>
    rw [List.foldl_cons, List.foldl_cons]
    refine ih ?_
    rw [has_eq hmodel]
    split
    · exact hmodel.insert (.refl _)
    · exact hmodel

/-- A branch with outcomes that are the same up to the order of members. -/
def RoundAlike (x y : Branch × Outcome) : Prop := x.1 = y.1 ∧ x.2.Reordered y.2

theorem roundAlike_zip : ∀ (branches : List Branch) {os os' : List Outcome}, List.Forall₂ Outcome.Reordered os os' →
    List.Forall₂ RoundAlike (branches.zip os) (branches.zip os')
  | [], _, _, _ => .nil
  | _ :: _, _, _, .nil => .nil
  | _ :: rest, _, _, .cons ho hos => .cons ⟨rfl, ho⟩ (roundAlike_zip rest hos)

theorem populate_reordered {xs ys : List (Branch × Outcome)} (h : List.Forall₂ RoundAlike xs ys)
    {model model' : Members} (hmodel : model.Reordered model') :
    (populate model xs).Reordered (populate model' ys) := by
  have hpassing : List.Forall₂ RoundAlike (xs.filter (·.2.isValid)) (ys.filter (·.2.isValid)) :=
    filter_alike (fun x y hxy => hxy.2.isValid) h
  have hfailing : List.Forall₂ RoundAlike (xs.filter (!·.2.isValid)) (ys.filter (!·.2.isValid)) :=
    filter_alike (fun x y hxy => congrArg (!·) hxy.2.isValid) h
  have hpopulated : (xs.filter (·.2.isValid)).flatMap (·.1.affected) = (ys.filter (·.2.isValid)).flatMap (·.1.affected) := by
    refine List.forall₂_eq_eq_eq ▸ List.rel_flatMap hpassing fun x y hxy => ?_
    rw [hxy.1, List.forall₂_eq_eq_eq]
  unfold populate
  simp only [hpopulated]
  refine List.rel_foldl (fun m m' hm x y hxy => ?_) (List.rel_foldl (fun m m' hm x y hxy => ?_) hmodel hpassing) hfailing
  · obtain ⟨⟨branch, o⟩, ⟨_, o'⟩⟩ := x, y
    obtain ⟨rfl, ho⟩ := hxy
    exact reset_reordered _ _ hm
  · obtain ⟨⟨branch, o⟩, ⟨_, o'⟩⟩ := x, y
    obtain ⟨rfl, ho⟩ := hxy
    exact takeOver_reordered _ ho.value hm

theorem rel_contribution (property : Property) {o o' : Outcome} (h : o.Reordered o') :
    Option.Rel Json.Reordered (contribution property o) (contribution property o') := by
  obtain ⟨value, _⟩ := o
  obtain ⟨value', _⟩ := o'
  have hvalue := h.value
  unfold contribution
  cases hvalue with
  | none => exact reordered_self _
  | some hvalue => exact .some hvalue

theorem contribute_reordered (name : String) {model model' : Members} (hmodel : model.Reordered model')
    {found found' : Option Json} : Option.Rel Json.Reordered found found' →
    Members.Reordered (match found with | some value => model.insert name value | none => model)
      (match found' with | some value => model'.insert name value | none => model') := by
  intro h
  cases h with
  | none => exact hmodel
  | some hvalue => exact hmodel.insert hvalue

theorem evaluateProperties (h : J.Orderless) (graph : Graph) (hab : as.Reordered bs) : ∀ (ids : List PropertyId)
    {model model' : Members}, model.Reordered model' → Concur Populated.Reordered
      (evaluateProperties graph mode J as ids model) (evaluateProperties graph mode J bs ids model')
  | [], _, _, hmodel => .some ⟨hmodel, rfl⟩
  | id :: rest, model, model', hmodel => by
    simp only [Evaluation.evaluateProperties]
    refine (h _ _ _ (hab.rel _)).bind fun o o' ho => ?_
    rw [mode.stopsAt_eq ho.isValid]
    have hnext := contribute_reordered (graph.property id).name hmodel (rel_contribution (graph.property id) ho)
    split
    · exact .some ⟨hnext, ho.isValid⟩
    · refine (h.evaluateProperties graph hab rest hnext).bind fun p p' hp => .some ⟨hp.model, ?_⟩
      rw [isEmpty_append, isEmpty_append, hp.violations]
      exact congrArg (· && _) ho.isValid

theorem runTypeCheck (h : J.Orderless) (hcheck : check.Orderless) (hab : as.Reordered bs) {model model' : Members}
    (hmodel : model.Reordered model') :
    Concur (fun x y : Verdict × Members => x.1.Like y.1 ∧ x.2.Reordered y.2) (runTypeCheck mode J as model check)
      (runTypeCheck mode J bs model' check) := by
  unfold Evaluation.runTypeCheck
  split
  · refine (h.judgeBranches (.of_members hab) _).bind fun os os' hos => .some ⟨compositionVerdict_alike _ hos, ?_⟩
    exact populate_reordered (roundAlike_zip _ hos) hmodel
  · exact (h.inspect hcheck (.of_members hab)).bind fun x y hxy => .some ⟨hxy, hmodel⟩

theorem evaluateTypeChecks (h : J.Orderless) (className : String) (hab : as.Reordered bs) :
    ∀ {validators : List Validator}, (∀ v ∈ validators, v.check.Orderless) → ∀ {model model' : Members},
      model.Reordered model' → Concur Populated.Reordered (evaluateTypeChecks mode J className as validators model)
        (evaluateTypeChecks mode J className bs validators model')
  | [], _, _, _, hmodel => .some ⟨hmodel, rfl⟩
  | validator :: rest, hchecks, model, model', hmodel => by
    rw [List.forall_mem_cons] at hchecks
    have hrest : ∀ {model model' : Members}, model.Reordered model' → Concur Populated.Reordered
        (Evaluation.evaluateTypeChecks mode J className as rest model)
        (Evaluation.evaluateTypeChecks mode J className bs rest model') :=
      fun hmodel => h.evaluateTypeChecks className hab hchecks.2 hmodel
    simp only [Evaluation.evaluateTypeChecks]
    refine (h.runTypeCheck hchecks.1 hab hmodel).bind fun x y hxy => ?_
    obtain ⟨verdict, after⟩ := x
    obtain ⟨verdict', after'⟩ := y
    obtain ⟨hverdict, hafter⟩ := hxy
    cases hverdict with
    | pass => exact hrest hafter
    | settle => exact hrest hafter
    | fail =>
      simp only
      split
      · exact .some ⟨hafter, rfl⟩
      · exact (hrest hafter).bind fun p p' hp => .some ⟨hp.model, rfl⟩

theorem evaluateObject (h : J.Orderless) (hgraph : graph.Orderless) (type : TypeId) (hab : as.Reordered bs) :
    Concur Populated.Reordered (evaluateObject graph mode J type as) (evaluateObject graph mode J type bs) := by
  unfold Evaluation.evaluateObject
  refine (h.evaluateProperties graph hab _ hab).bind fun p p' hp => ?_
  rw [mode.stopsAt_eq hp.violations]
  split
  · exact .some hp
  · refine (h.evaluateTypeChecks _ hab (hgraph.types type) hp.model).bind fun q q' hq => .some ⟨hq.model, ?_⟩
    rw [isEmpty_append, isEmpty_append, hp.violations, hq.violations]

/-! ## Checks that may change the value -/

theorem isEmpty_eq (h : v.Reordered w) : Filters.isEmpty v = Filters.isEmpty w := by
  cases h with
  | refl => rfl
  | array hlength =>
    simp only [Filters.isEmpty]
    rw [Bool.eq_iff_iff, List.isEmpty_iff_length_eq_zero, List.isEmpty_iff_length_eq_zero, hlength]
  | object hleft hright hnames hvalues =>
    have hlength := (Members.Reordered.mk hleft hright hnames hvalues).length_eq
    simp only [Filters.isEmpty]
    rw [Bool.eq_iff_iff, List.isEmpty_iff_length_eq_zero, List.isEmpty_iff_length_eq_zero, hlength]

/-- A standard filter never fails, and what it makes of two values is the same up to the order of members. -/
theorem apply_standard {filter : Filter} (hfilter : filter ∈ Filters.standard) (hvw : v.Reordered w) (options : Json) :
    ∃ v' w', filter.apply v options = .ok v' ∧ filter.apply w options = .ok w' ∧ v'.Reordered w' := by
  simp only [Filters.standard, List.mem_cons, List.not_mem_nil, or_false] at hfilter
  rcases hfilter with rfl | rfl
  · cases hvw with
    | refl => exact ⟨_, _, rfl, rfl, .refl _⟩
    | array hlength hitems => exact ⟨_, _, rfl, rfl, .array hlength hitems⟩
    | object hleft hright hnames hvalues => exact ⟨_, _, rfl, rfl, .object hleft hright hnames hvalues⟩
  · cases hvw with
    | refl => exact ⟨_, _, rfl, rfl, .refl _⟩
    | array hlength hitems =>
      refine ⟨_, _, rfl, rfl, .of_items ?_⟩
      exact filter_alike (fun x y hxy => congrArg (!·) (isEmpty_eq hxy)) (Json.Reordered.items (.array hlength hitems))
    | object hleft hright hnames hvalues => exact ⟨_, _, rfl, rfl, .object hleft hright hnames hvalues⟩

theorem transformByFilter_reordered {filter : Filter} (hfilter : filter ∈ Filters.standard) (accepts : List Kind)
    (options : Json) (hvw : v.Reordered w) : TransformedAlike (transformByFilter accepts filter.apply options v)
      (transformByFilter accepts filter.apply options w) := by
  obtain ⟨v', w', hv, hw, hresult⟩ := apply_standard hfilter hvw options
  unfold transformByFilter
  rw [accepts_eq accepts hvw, hv, hw]
  split
  · exact ⟨.pass, hresult⟩
  · exact ⟨.pass, hvw⟩

theorem transform (h : J.Orderless) (hgraph : graph.Orderless) (hcheck : check.Orderless) (hvw : v.Reordered w) :
    Concur TransformedAlike (transform graph mode J check v) (transform graph mode J check w) := by
  have hinspect : Concur TransformedAlike (do return (← Evaluation.inspect J mode check v, v))
      (do return (← Evaluation.inspect J mode check w, w)) :=
    (h.inspect hcheck hvw).bind fun x y hxy => .some ⟨hxy, hvw⟩
  cases check with
  | filter name options accepts apply =>
    obtain ⟨filter, hfilter, rfl⟩ := hcheck
    exact .some (transformByFilter_reordered hfilter accepts options hvw)
  | items item =>
    cases hvw with
    | refl => exact .self .refl _
    | array hlength hitems => exact h.transformItems _ _ _ (Json.Reordered.items (.array hlength hitems))
    | object => exact hinspect
  | additionalItems offset item =>
    cases hvw with
    | refl => exact .self .refl _
    | array hlength hitems => exact h.transformItems _ _ _ (Json.Reordered.items (.array hlength hitems))
    | object => exact hinspect
  | tuple positions =>
    cases hvw with
    | refl => exact .self .refl _
    | array hlength hitems => exact h.transformTuple _ (Json.Reordered.items (.array hlength hitems))
    | object => exact hinspect
  | instanceOf type =>
    cases hvw with
    | refl => exact .self .refl _
    | array => exact hinspect
    | object hleft hright hnames hvalues =>
      refine (h.evaluateObject hgraph type ⟨hleft, hright, hnames, hvalues⟩).bind fun p p' hp => ?_
      refine .some ⟨.ofDetails ?_, .of_members hp.model⟩
      rw [hp.violations]
      split <;> rfl
  | _ => exact hinspect

theorem runCheck (h : J.Orderless) (hgraph : graph.Orderless) (hcheck : check.Orderless) {v w : Option Json}
    (hvw : Option.Rel Json.Reordered v w) :
    Concur (fun x y : Verdict × Option Json => x.1.Like y.1 ∧ Option.Rel Json.Reordered x.2 y.2)
      (runCheck graph mode J check v) (runCheck graph mode J check w) := by
  cases hvw with
  | none => exact .some ⟨.refl _, .none⟩
  | some hvw => exact (h.transform hgraph hcheck hvw).bind fun x y hxy => .some ⟨hxy.1, .some hxy.2⟩

theorem runValidators (h : J.Orderless) (hgraph : graph.Orderless) (name : String) : ∀ {validators : List Validator},
    (∀ v ∈ validators, v.check.Orderless) → ∀ {v w : Option Json}, Option.Rel Json.Reordered v w →
      Concur Outcome.Reordered (runValidators graph mode J name validators v)
        (runValidators graph mode J name validators w)
  | [], _, _, _, hvw => .some ⟨hvw, rfl⟩
  | validator :: rest, hchecks, v, w, hvw => by
    rw [List.forall_mem_cons] at hchecks
    simp only [Evaluation.runValidators]
    refine (h.runCheck hgraph hchecks.1 hvw).bind fun x y hxy => ?_
    obtain ⟨verdict, left⟩ := x
    obtain ⟨verdict', left'⟩ := y
    obtain ⟨hverdict, hleft⟩ := hxy
    have hrest := h.runValidators hgraph name hchecks.2 hleft
    cases hverdict with
    | pass => exact hrest
    | settle => exact .some ⟨hleft, rfl⟩
    | fail =>
      simp only
      split
      · exact .some ⟨hleft, rfl⟩
      · exact hrest.bind fun o o' ho => .some ⟨ho.value, rfl⟩

end Judge.Orderless

namespace Evaluation

variable {graph : Graph}

/-- By induction on the bound: what the checks of a property ask for is judged alike, so they do. -/
theorem property_orderless (hgraph : graph.Orderless) (mode : Mode) : ∀ bound : Nat,
    (property graph mode bound).Orderless
  | 0 => fun _ _ _ _ _ _ ho => nomatch ho
  | bound + 1 => fun id _ _ hvw =>
    (property_orderless hgraph mode bound).runValidators hgraph _ (hgraph.properties id) hvw

theorem evaluateProperty_orderless (hgraph : graph.Orderless) (mode : Mode) :
    Judge.Orderless (graph.evaluateProperty mode) := by
  intro id v w hvw o o' ho ho'
  obtain ⟨first, hfirst⟩ := evaluateProperty_eq_some_iff.1 ho
  obtain ⟨second, hsecond⟩ := evaluateProperty_eq_some_iff.1 ho'
  -- Both answers last, so there is a bound under which both are given.
  obtain ⟨enough, henough⟩ := property_attained graph mode first id v o hfirst
  obtain ⟨enough', henough'⟩ := property_attained graph mode second id w o' hsecond
  exact property_orderless hgraph mode (max enough enough') id v w hvw o o' (henough _ (Nat.le_max_left _ _))
    (henough' _ (Nat.le_max_right _ _))

end Evaluation

namespace Graph

open Evaluation

/-- **The order of members is irrelevant.**  Values that are the same up to the order of members, at any depth, are
valid alike, and their models are the same up to that order. -/
theorem evaluate_reordered {graph : Graph} {mode : Mode} {type : TypeId} {v w : Json} {found other : Result}
    (hgraph : graph.Orderless) (hvw : v.Reordered w) (hv : graph.evaluate mode type v = some found)
    (hw : graph.evaluate mode type w = some other) :
    found.isValid = other.isValid ∧ found.model.Reordered other.model := by
  cases hvw with
  | refl =>
    obtain rfl := Option.some.inj (hv.symm.trans hw)
    exact ⟨rfl, .refl _⟩
  | array hlength hitems =>
    obtain ⟨_, hv⟩ := evaluate_eq_some_iff.1 hv
    obtain ⟨_, hw⟩ := evaluate_eq_some_iff.1 hw
    cases hv
    cases hw
    exact ⟨rfl, .array hlength hitems⟩
  | object hleft hright hnames hvalues =>
    rw [evaluate_object] at hv hw
    obtain ⟨p, hp, hv⟩ := Option.bind_eq_some_iff.1 hv
    obtain ⟨q, hq, hw⟩ := Option.bind_eq_some_iff.1 hw
    cases hv
    cases hw
    have hjudge := evaluateProperty_orderless hgraph mode
    have hpq := hjudge.evaluateObject hgraph type ⟨hleft, hright, hnames, hvalues⟩ p q hp hq
    exact ⟨hpq.violations, .of_members hpq.model⟩

end Graph

/-! ## Generated types -/

theorem Check.Orderless.of_admits {config : Config} {check : Check} (hadmits : config.Admits check)
    (hcustom : check.isCustom = false) (hfilters : config.filters ⊆ Filters.standard) :
    check.Orderless := by
  cases check with
  | filter =>
    obtain ⟨filter, hfilter, -, happly⟩ := hadmits
    exact ⟨filter, hfilters hfilter, happly⟩
  | custom => cases hcustom
  | _ => trivial

namespace Session

open Evaluation

/-- Builders add no checks of a caller, so the filters are all that could see the order. -/
theorem orderless_performAll {config : Config} (hfilters : config.filters ⊆ Filters.standard)
    (calls : List Call) : (performAll config calls).graph.Orderless := by
  have harranged : (performAll config calls).Arranged config := arranged_performAll config calls
  refine ⟨fun id v hv => ?_, fun id v hv => ?_⟩
  · have hproperty := harranged.properties id
    exact .of_admits (hproperty.admitted v hv) (Validators.any_eq_false.1 hproperty.custom v hv) hfilters
  · obtain ⟨hadmits, hspelled⟩ := harranged.types _ v hv
    refine .of_admits hadmits ?_ hfilters
    generalize v.check = check at hspelled
    cases check with
    | custom => cases hspelled
    | _ => rfl

/-- One member is a constant object, and all others have to be numbers. -/
def weighed : Json :=
  .object [("type", .string "object"), ("properties", .object [
    ("a", .object [("const", .object [("x", .bool true), ("y", .null)])])]),
    ("additionalProperties", .object [("type", .string "integer")])]

def weighedCalls : List Call := [.process ⟨"t", "", "T"⟩ weighed]

/-- The constant behind other members. -/
def weighted (others constant : Members) : Members := others.insert "a" (.object constant)

set_option maxRecDepth 100000 in
theorem weighed_facts : (run (performAll oneName weighedCalls).graph .failFast 9 ⟨0⟩ (.object (weighted
      [("b", .bool true), ("c", .null)] [("x", .bool true), ("y", .null)]))).any (!·.isValid) = true ∧
    (run (performAll oneName weighedCalls).graph .failFast 9 ⟨0⟩ (.object (weighted
      [("c", .null), ("b", .bool true)] [("y", .null), ("x", .bool true)]))).isSome = true := by
  decide +kernel

/-- Neither of two members is a number, and whichever comes first ends the evaluation. -/
theorem evaluate_reordered_weights : ∃ found other,
    (performAll oneName weighedCalls).graph.evaluate .failFast ⟨0⟩ (.object (weighted
      [("b", .bool true), ("c", .null)] [("x", .bool true), ("y", .null)])) = some found ∧
    (performAll oneName weighedCalls).graph.evaluate .failFast ⟨0⟩ (.object (weighted
      [("c", .null), ("b", .bool true)] [("y", .null), ("x", .bool true)])) = some other ∧
    other.isValid = false ∧ found.model.Reordered other.model := by
  obtain ⟨hfirst, hsecond⟩ := weighed_facts
  obtain ⟨found, hfound, hinvalid⟩ := (Option.any_eq_true _ _).1 hfirst
  obtain ⟨other, hother⟩ := Option.isSome_iff_exists.1 hsecond
  have hfound := evaluate_eq_some_iff.2 ⟨9, hfound⟩
  have hother := evaluate_eq_some_iff.2 ⟨9, hother⟩
  have hconstant : Members.Reordered [("x", .bool true), ("y", .null)] [("y", .null), ("x", .bool true)] :=
    .of_perm (by decide) (.swap _ _ _)
  have hothers : Members.Reordered [("b", .bool true), ("c", .null)] [("c", .null), ("b", .bool true)] :=
    .of_perm (by decide) (.swap _ _ _)
  obtain ⟨hvalid, hmodel⟩ := Graph.evaluate_reordered (orderless_performAll (List.Subset.refl _) weighedCalls)
    (.of_members (hothers.insert (.of_members hconstant))) hfound hother
  exact ⟨found, other, hfound, hother, hvalid.symm.trans (by simpa using hinvalid), hmodel⟩

end Session
end SchemaTypes

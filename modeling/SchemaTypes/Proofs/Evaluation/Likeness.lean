import Mathlib.Data.List.Forall2
import SchemaTypes.Evaluation.Basic
/-!
# Alike properties judge alike

Evaluation reads little of a graph: the checks of a property, and of a type the names and defaults of its
properties and its checks.  Ids and class names it only hands on.  So if a relation between the properties of
two graphs is kept by what their checks lead to (`IsLikeness`), related properties judge every value in
lockstep: within the same bound both end or neither does, with the same value and the same validity
(`IsLikeness.judge`), and related types accept the same values and make the same models
(`IsLikeness.run`).

A branch is only ever judged by a value that is there, so for branches it does not matter who asks for presence.
Hence two relations: `R` where a value may be missing, and the weaker `P` where there is one.
-/
namespace SchemaTypes

/-! ## Results that may differ in names only -/

/-- The same value and the same validity; what is reported may differ. -/
structure Outcome.Like (a b : Outcome) : Prop where
  value : a.value = b.value
  isValid : a.isValid = b.isValid

/-- Verdicts of one kind; what a failing run knows may differ. -/
inductive Verdict.Like : Verdict → Verdict → Prop
  | pass : Like .pass .pass
  | settle : Like .settle .settle
  | fail {a b : Failure} : Like (.fail a) (.fail b)

theorem Verdict.Like.refl : ∀ verdict : Verdict, verdict.Like verdict
  | .pass => .pass
  | .settle => .settle
  | .fail _ => .fail

theorem Verdict.Like.ofDetails {a b : List (Detail Violation)} (h : a.isEmpty = b.isEmpty) :
    (Verdict.ofDetails a).Like (Verdict.ofDetails b) := by
  unfold Verdict.ofDetails
  rw [h]
  split
  · exact .pass
  · exact .fail

/-- The same model and the same validity. -/
structure Evaluation.Result.Like (a b : Evaluation.Result) : Prop where
  model : a.model = b.model
  isValid : a.isValid = b.isValid

theorem isEmpty_append {α : Type} (first second : List α) :
    (first ++ second).isEmpty = (first.isEmpty && second.isEmpty) := by
  cases first <;> rfl

/-- Both end, alike, or neither does. -/
theorem rel_bind {α β α' β' : Type} {r : α → β → Prop} {s : α' → β' → Prop} {x : Option α} {y : Option β}
    {f : α → Option α'} {g : β → Option β'} (h : Option.Rel r x y)
    (hf : ∀ a b, r a b → Option.Rel s (f a) (g b)) : Option.Rel s (x >>= f) (y >>= g) := by
  cases h with
  | none => exact .none
  | some h => exact hf _ _ h

/-! ## Likeness of checks and properties -/

/-- Checks that ask for the same: ids are related, class names and access keys left out, the rest agrees. -/
inductive Check.Like (R P : PropertyId → PropertyId → Prop) (T : TypeId → TypeId → Prop) : Check → Check → Prop
  | same {check : Check} : check.children = [] → check.types = [] → Like R P T check check
  | items {a b : PropertyId} : R a b → Like R P T (.items a) (.items b)
  | tuple {as bs : List PropertyId} : List.Forall₂ R as bs → Like R P T (.tuple as) (.tuple bs)
  | additionalItems {offset : Nat} {a b : PropertyId} : R a b →
    Like R P T (.additionalItems offset a) (.additionalItems offset b)
  | contains {a b : PropertyId} : R a b → Like R P T (.contains a) (.contains b)
  | instanceOf {a b : TypeId} : T a b → Like R P T (.instanceOf a) (.instanceOf b)
  | noAdditionalProperties {c d : String} {known : List String} {patterns : List Pattern} :
    Like R P T (.noAdditionalProperties c known patterns) (.noAdditionalProperties d known patterns)
  | additionalProperties {c d : String} {known : List String} {patterns : List Pattern} {a b : PropertyId} :
    R a b → Like R P T (.additionalProperties c known patterns a) (.additionalProperties d known patterns b)
  | patternProperty {c d key key' : String} {regex : Pattern} {a b : PropertyId} :
    R a b → Like R P T (.patternProperty c regex key a) (.patternProperty d regex key' b)
  | propertyNames {c d : String} {a b : PropertyId} :
    R a b → Like R P T (.propertyNames c a) (.propertyNames d b)
  | schemaDependency {trigger : String} {a b : PropertyId} :
    R a b → Like R P T (.schemaDependency trigger a) (.schemaDependency trigger b)
  | composition {combinator : Combinator} {as bs : List Branch} {onObject : Bool} :
    List.Forall₂ (fun a b : Branch => P a.property b.property ∧ a.affected = b.affected) as bs →
    Like R P T (.composition combinator as onObject) (.composition combinator bs onObject)
  | conditional {a b : PropertyId} {c d c' d' : Option PropertyId} {onObject : Bool} :
    P a b → Option.Rel P c d → Option.Rel P c' d' →
    Like R P T (.conditional a c c' onObject) (.conditional b d d' onObject)

/-- Validators whose checks are alike, one by one. -/
def Validators.Like (R P : PropertyId → PropertyId → Prop) (T : TypeId → TypeId → Prop) (vs ws : List Validator) :
    Prop :=
  List.Forall₂ (fun v w : Validator => Check.Like R P T v.check w.check) vs ws

/-- What a property asks of a value that is there. -/
def Property.asks (property : Property) : List Validator :=
  property.validators.toList.filter (!·.check.isRequired)

/-- Related members of two types: called alike, with one default. -/
structure MemberLike (G H : Graph) (R : PropertyId → PropertyId → Prop) (a b : PropertyId) : Prop where
  name : (G.property a).name = (H.property b).name
  default : (G.property a).default = (H.property b).default
  related : R a b

/-- Types with members and checks alike, one by one. -/
structure TypeLike (G H : Graph) (R P : PropertyId → PropertyId → Prop) (T : TypeId → TypeId → Prop)
    (a b : ObjectType) : Prop where
  properties : List.Forall₂ (MemberLike G H R) a.properties b.properties
  validators : Validators.Like R P T a.validators.toList b.validators.toList

/-- Relations between the properties and the types of two graphs that are kept by what checks lead to. -/
structure IsLikeness (G H : Graph) (R P : PropertyId → PropertyId → Prop) (T : TypeId → TypeId → Prop) :
    Prop where
  presence : ∀ a b, R a b →
    P a b ∧ (G.property a).validators.hasRequired = (H.property b).validators.hasRequired
  property : ∀ a b, P a b → Validators.Like R P T (G.property a).asks (H.property b).asks
  type : ∀ a b, T a b → TypeLike G H R P T (G.type a) (H.type b)

/-! ## What alike checks lead to -/

namespace Check

variable {R R' : PropertyId → PropertyId → Prop} {T T' : TypeId → TypeId → Prop} {c d : Check}

theorem forall₂_toList {r : PropertyId → PropertyId → Prop} {a b : Option PropertyId} (h : Option.Rel r a b) :
    List.Forall₂ r a.toList b.toList := by
  cases h with
  | none => exact .nil
  | some h => exact .cons h .nil

theorem forall₂_append {α β : Type} {r : α → β → Prop} {as as' : List α} {bs bs' : List β}
    (h : List.Forall₂ r as bs) (h' : List.Forall₂ r as' bs') : List.Forall₂ r (as ++ as') (bs ++ bs') := by
  induction h with
  | nil => exact h'
  | cons hab _ ih => exact .cons hab ih

theorem Like.children (h : Like R R T c d) : List.Forall₂ R c.children d.children := by
  cases h with
  | same hchildren =>
    rw [hchildren]
    exact .nil
  | tuple h => exact h
  | instanceOf => exact .nil
  | noAdditionalProperties => exact .nil
  | @composition _ as bs _ h =>
    change List.Forall₂ R (as.map (·.property)) (bs.map (·.property))
    rw [List.forall₂_map_left_iff, List.forall₂_map_right_iff]
    exact h.imp fun _ _ hbranch => hbranch.1
  | conditional h hthen helse => exact .cons h (forall₂_append (forall₂_toList hthen) (forall₂_toList helse))
  | _ h => exact .cons h .nil

/-- Likeness only concerns the ids that the checks name. -/
theorem Like.imp (h : Like R R T c d) (hR : ∀ a ∈ c.children, ∀ b ∈ d.children, R a b → R' a b)
    (hT : ∀ a ∈ c.types, ∀ b, T a b → T' a b) : Like R' R' T' c d := by
  have himp : ∀ {as bs : List PropertyId}, List.Forall₂ R as bs → (∀ a ∈ as, ∀ b ∈ bs, R a b → R' a b) →
      List.Forall₂ R' as bs := by
    intro as bs h hmem
    induction h with
    | nil => exact .nil
    | cons hab _ ih =>
      exact .cons (hmem _ List.mem_cons_self _ List.mem_cons_self hab)
        (ih fun a ha b hb => hmem a (List.mem_cons_of_mem _ ha) b (List.mem_cons_of_mem _ hb))
  have hone : ∀ {a b : PropertyId}, (∀ i ∈ [a], ∀ j ∈ [b], R i j → R' i j) → R a b → R' a b :=
    fun hmem => hmem _ List.mem_cons_self _ List.mem_cons_self
  cases h with
  | same hchildren htypes => exact .same hchildren htypes
  | items h => exact .items (hone hR h)
  | tuple h => exact .tuple (himp h hR)
  | additionalItems h => exact .additionalItems (hone hR h)
  | contains h => exact .contains (hone hR h)
  | instanceOf h => exact .instanceOf (hT _ List.mem_cons_self _ h)
  | noAdditionalProperties => exact .noAdditionalProperties
  | additionalProperties h => exact .additionalProperties (hone hR h)
  | patternProperty h => exact .patternProperty (hone hR h)
  | propertyNames h => exact .propertyNames (hone hR h)
  | schemaDependency h => exact .schemaDependency (hone hR h)
  | @composition _ as bs _ h =>
    refine .composition ?_
    change ∀ a ∈ as.map (·.property), ∀ b ∈ bs.map (·.property), R a b → R' a b at hR
    clear hT
    induction h with
    | nil => exact .nil
    | cons hab _ ih =>
      exact .cons ⟨hR _ List.mem_cons_self _ List.mem_cons_self hab.1, hab.2⟩
        (ih fun a ha b hb => hR a (List.mem_cons_of_mem _ ha) b (List.mem_cons_of_mem _ hb))
  | @conditional a b c d c' d' _ h hthen helse =>
    have hlist : ∀ id ∈ a :: (c.toList ++ c'.toList), ∀ other ∈ b :: (d.toList ++ d'.toList), R id other →
        R' id other := hR
    refine .conditional (hlist _ List.mem_cons_self _ List.mem_cons_self h) ?_ ?_
    · cases hthen with
      | none => exact .none
      | some hab => exact .some (hlist _ (by simp) _ (by simp) hab)
    · cases helse with
      | none => exact .none
      | some hab => exact .some (hlist _ (by simp) _ (by simp) hab)

end Check

/-! ## Judges -/

/-- Related properties judge alike. -/
structure Judge.Like (R P : PropertyId → PropertyId → Prop) (J K : Judge) : Prop where
  whole : ∀ a b value, R a b → Option.Rel Outcome.Like (J a value) (K b value)
  present : ∀ a b value, P a b → Option.Rel Outcome.Like (J a (some value)) (K b (some value))

theorem Mode.stopsAt_eq (mode : Mode) {a b : List Violation} (h : a.isEmpty = b.isEmpty) :
    mode.stopsAt a = mode.stopsAt b := by
  unfold Mode.stopsAt
  rw [h]

/-! ## Parts of a value -/

structure Part.Like (R : PropertyId → PropertyId → Prop) (p q : Part) : Prop where
  related : R p.property q.property
  value : p.value = q.value

structure Survey.Like (a b : Survey) : Prop where
  values : a.values = b.values
  details : a.details.isEmpty = b.details.isEmpty

section

variable {G H : Graph} {R P : PropertyId → PropertyId → Prop} {T : TypeId → TypeId → Prop} {J K : Judge}

theorem Judge.Like.survey (h : Judge.Like R P J K) (mode : Mode) {ps qs : List Part}
    (hp : List.Forall₂ (Part.Like R) ps qs) :
    Option.Rel Survey.Like (J.survey mode ps) (K.survey mode qs) := by
  induction hp with
  | nil => exact .some ⟨rfl, rfl⟩
  | cons hpq _ ih =>
    simp only [Judge.survey]
    rw [hpq.value]
    refine rel_bind (h.whole _ _ _ hpq.related) fun o o' ho => ?_
    rw [mode.stopsAt_eq ho.isValid]
    have hd : ∀ label label', (if o.isValid = true then [] else [Detail.failed label o.violations]).isEmpty =
        (if o'.isValid = true then [] else [Detail.failed label' o'.violations]).isEmpty := by
      intro label label'
      rw [ho.isValid]
      split <;> rfl
    split
    · exact .some ⟨by rw [ho.value], hd _ _⟩
    · refine rel_bind ih fun s s' hs => .some ⟨by rw [ho.value, hs.values], ?_⟩
      rw [isEmpty_append, isEmpty_append, hs.details, hd]

theorem forall₂_map_parts {α : Type} (xs : List α) (f g : α → Part) (h : ∀ x, Part.Like R (f x) (g x)) :
    List.Forall₂ (Part.Like R) (xs.map f) (xs.map g) := by
  induction xs with
  | nil => exact .nil
  | cons x _ ih => exact .cons (h x) ih

theorem Judge.Like.transformItems (h : Judge.Like R P J K) (mode : Mode) (label : String) {a b : PropertyId}
    (hab : R a b) (offset : Nat) (items : List Json) :
    Option.Rel (fun x y : Verdict × Json => x.1.Like y.1 ∧ x.2 = y.2)
      (Evaluation.transformItems J mode label a offset items)
      (Evaluation.transformItems K mode label b offset items) := by
  unfold Evaluation.transformItems
  refine rel_bind (h.survey mode (forall₂_map_parts _ _ _ fun x => ⟨hab, rfl⟩)) fun s s' hs => ?_
  exact .some ⟨Verdict.Like.ofDetails hs.details, by rw [hs.values]⟩

theorem forall₂_zipIdx_parts {as bs : List PropertyId} (hab : List.Forall₂ R as bs) (label : Nat → String)
    (value : Nat → Option Json) : ∀ start : Nat, List.Forall₂ (Part.Like R)
      ((as.zipIdx start).map fun x => ⟨label x.2, x.1, value x.2⟩)
      ((bs.zipIdx start).map fun x => ⟨label x.2, x.1, value x.2⟩) := by
  induction hab with
  | nil => exact fun _ => .nil
  | cons hx _ ih =>
    intro start
    rw [List.zipIdx_cons, List.zipIdx_cons, List.map_cons, List.map_cons]
    exact .cons ⟨hx, rfl⟩ (ih (start + 1))

theorem Judge.Like.transformTuple (h : Judge.Like R P J K) (mode : Mode) {as bs : List PropertyId}
    (hab : List.Forall₂ R as bs) (items : List Json) :
    Option.Rel (fun x y : Verdict × Json => x.1.Like y.1 ∧ x.2 = y.2)
      (Evaluation.transformTuple J mode as items) (Evaluation.transformTuple K mode bs items) := by
  unfold Evaluation.transformTuple
  refine rel_bind (h.survey mode (forall₂_zipIdx_parts hab (fun i => "Invalid tuple item #" ++ toString i)
    (fun i => items[i]?) 0)) fun s s' hs => ?_
  exact .some ⟨Verdict.Like.ofDetails hs.details, by rw [hs.values]⟩

theorem Judge.Like.judgeMembers (h : Judge.Like R P J K) (mode : Mode) (label : String) {a b : PropertyId}
    (hab : R a b) (members : Members) :
    Option.Rel Verdict.Like (Evaluation.judgeMembers J mode label a members)
      (Evaluation.judgeMembers K mode label b members) := by
  unfold Evaluation.judgeMembers
  refine rel_bind (h.survey mode (forall₂_map_parts _ _ _ fun x => ⟨hab, rfl⟩)) fun s s' hs => ?_
  exact .some (Verdict.Like.ofDetails hs.details)

/-! ## Compositions and conditionals -/

/-- Branches that populate the same and are judged by related properties. -/
def BranchLike (P : PropertyId → PropertyId → Prop) (a b : Branch) : Prop :=
  P a.property b.property ∧ a.affected = b.affected

theorem Judge.Like.judgeBranches (h : Judge.Like R P J K) (value : Json) {as bs : List Branch}
    (hab : List.Forall₂ (BranchLike P) as bs) :
    Option.Rel (List.Forall₂ Outcome.Like) (Evaluation.judgeBranches J as value)
      (Evaluation.judgeBranches K bs value) := by
  unfold Evaluation.judgeBranches
  induction hab with
  | nil =>
    rw [List.mapM_nil, List.mapM_nil]
    exact .some .nil
  | cons hx _ ih =>
    rw [List.mapM_cons, List.mapM_cons]
    exact rel_bind (h.present _ _ _ hx.1) fun o o' ho => rel_bind ih fun os os' hos => .some (.cons ho hos)

theorem matched_like {os os' : List Outcome} (h : List.Forall₂ Outcome.Like os os') :
    (os.filter Outcome.isValid).length = (os'.filter Outcome.isValid).length := by
  induction h with
  | nil => rfl
  | cons ho _ ih =>
    rw [List.filter_cons, List.filter_cons, ho.isValid]
    split
    · rw [List.length_cons, List.length_cons, ih]
    · exact ih

theorem compositionVerdict_like (combinator : Combinator) {os os' : List Outcome}
    (h : List.Forall₂ Outcome.Like os os') :
    (Evaluation.compositionVerdict combinator os).Like (Evaluation.compositionVerdict combinator os') := by
  unfold Evaluation.compositionVerdict
  rw [matched_like h, h.length_eq]
  simp only
  split
  · exact .pass
  · exact .fail

theorem Judge.Like.judgeConditional (h : Judge.Like R P J K) {a b : PropertyId} {c d c' d' : Option PropertyId}
    (hab : P a b) (hc : Option.Rel P c d) (hc' : Option.Rel P c' d') (value : Json) :
    Option.Rel Verdict.Like (Evaluation.judgeConditional J a c c' value)
      (Evaluation.judgeConditional K b d d' value) := by
  unfold Evaluation.judgeConditional
  refine rel_bind (h.present _ _ _ hab) fun o o' ho => ?_
  have hnext : Option.Rel P (if o.isValid = true then c else c') (if o'.isValid = true then d else d') := by
    rw [ho.isValid]
    split
    · exact hc
    · exact hc'
  generalize (if o.isValid = true then c else c') = next at hnext
  generalize (if o'.isValid = true then d else d') = next' at hnext
  cases hnext with
  | none => exact .some .pass
  | some hn =>
    refine rel_bind (h.present _ _ _ hn) fun p p' hp => ?_
    rw [hp.isValid]
    split
    · exact .some .pass
    · exact .some (Verdict.Like.ofDetails rfl)

/-! ## Checks that leave the value alone -/

theorem Judge.Like.anyValid (h : Judge.Like R P J K) {a b : PropertyId} (hab : R a b) (items : List Json) :
    Option.Rel Eq (Evaluation.anyValid J a items) (Evaluation.anyValid K b items) := by
  induction items with
  | nil => exact .some rfl
  | cons item rest ih =>
    simp only [Evaluation.anyValid]
    refine rel_bind (h.whole _ _ _ hab) fun o o' ho => ?_
    rw [ho.isValid]
    split
    · exact .some rfl
    · exact ih

theorem rel_refl_verdict (x : Verdict) : Option.Rel Verdict.Like (some x) (some x) := .some (.refl x)

theorem Judge.Like.inspectArray (h : Judge.Like R P J K) (items : List Json) {c d : Check}
    (hcd : Check.Like R P T c d) :
    Option.Rel Verdict.Like (Evaluation.inspectArray J items c) (Evaluation.inspectArray K items d) := by
  cases hcd with
  | contains hab =>
    simp only [Evaluation.inspectArray]
    refine rel_bind (h.anyValid hab items) fun x y hxy => ?_
    rw [hxy]
    exact rel_refl_verdict _
  | same hc ht =>
    cases c with
    | contains item => simp [Check.children] at hc
    | noAdditionalItems expected =>
      simp only [Evaluation.inspectArray]
      split <;> exact rel_refl_verdict _
    | _ => exact rel_refl_verdict _
  | _ => exact rel_refl_verdict _

theorem Judge.Like.inspectObject (h : Judge.Like R P J K) (mode : Mode) (members : Members) {c d : Check}
    (hcd : Check.Like R P T c d) :
    Option.Rel Verdict.Like (Evaluation.inspectObject J mode members c)
      (Evaluation.inspectObject K mode members d) := by
  cases hcd with
  | additionalProperties hab => exact h.judgeMembers mode _ hab _
  | patternProperty hab => exact h.judgeMembers mode _ hab _
  | propertyNames hab => exact h.judgeMembers mode _ hab _
  | schemaDependency hab =>
    simp only [Evaluation.inspectObject]
    split
    · refine rel_bind (h.whole _ _ _ hab) fun o o' ho => ?_
      rw [ho.isValid]
      split
      · exact .some .pass
      · exact .some (Verdict.Like.ofDetails rfl)
    · exact .some .pass
  | same hc ht =>
    cases c with
    | additionalProperties => simp [Check.children] at hc
    | patternProperty => simp [Check.children] at hc
    | propertyNames => simp [Check.children] at hc
    | schemaDependency => simp [Check.children] at hc
    | propertyDependency =>
      simp only [Evaluation.inspectObject]
      split <;> exact rel_refl_verdict _
    | _ => exact rel_refl_verdict _
  | _ => exact rel_refl_verdict _

/-- What null does is said by checks without ids. -/
theorem Check.Like.settlesNull_eq {c d : Check} (hcd : Check.Like R P T c d) (value : Json) :
    Evaluation.settlesNull c value = Evaluation.settlesNull d value := by
  cases hcd <;> cases value <;> rfl

theorem Judge.Like.inspect (h : Judge.Like R P J K) (mode : Mode) {c d : Check} (hcd : Check.Like R P T c d)
    (value : Json) :
    Option.Rel Verdict.Like (Evaluation.inspect J mode c value) (Evaluation.inspect K mode d value) := by
  unfold Evaluation.inspect
  rw [hcd.settlesNull_eq value]
  split
  · exact rel_refl_verdict _
  · have hobject := fun members => h.inspectObject mode members hcd
    have harray := fun items => h.inspectArray items hcd
    cases hcd with
    | composition hbs =>
      refine rel_bind (h.judgeBranches value hbs) fun os os' hos => ?_
      exact .some (compositionVerdict_like _ hos)
    | conditional hab hc hc' => exact h.judgeConditional hab hc hc' value
    | same hc ht =>
      cases c with
      | composition combinator branches onObject =>
        obtain rfl : branches = [] := List.map_eq_nil_iff.1 hc
        exact rel_bind (h.judgeBranches value .nil) fun os os' hos => .some (compositionVerdict_like _ hos)
      | conditional => simp [Check.children] at hc
      | type kinds settles =>
        simp only
        split <;> exact rel_refl_verdict _
      | enumeration => exact rel_refl_verdict _
      | constant => exact rel_refl_verdict _
      | custom => exact rel_refl_verdict _
      | _ =>
        cases value with
        | array items => exact harray items
        | object members => exact hobject members
        | _ => exact rel_refl_verdict _
    | _ =>
      cases value with
      | array items => exact harray items
      | object members => exact hobject members
      | _ => exact rel_refl_verdict _

/-! ## Objects -/

structure Evaluation.Populated.Like (a b : Evaluation.Populated) : Prop where
  model : a.model = b.model
  violations : a.violations.isEmpty = b.violations.isEmpty

/-- Branches alike in what they populate, with outcomes alike. -/
structure ResultLike (x y : Branch × Outcome) : Prop where
  affected : x.1.affected = y.1.affected
  outcome : x.2.Like y.2

theorem forall₂_zip {as bs : List Branch} {os os' : List Outcome} (hab : List.Forall₂ (BranchLike P) as bs)
    (ho : List.Forall₂ Outcome.Like os os') : List.Forall₂ ResultLike (as.zip os) (bs.zip os') := by
  induction hab generalizing os os' with
  | nil => exact .nil
  | cons hx _ ih =>
    cases ho with
    | nil => exact .nil
    | cons h hs => exact .cons ⟨hx.2, h⟩ (ih hs)

theorem forall₂_passing {xs ys : List (Branch × Outcome)} (h : List.Forall₂ ResultLike xs ys)
    (keep : Bool → Bool) : List.Forall₂ ResultLike (xs.filter (keep ·.2.isValid)) (ys.filter (keep ·.2.isValid)) := by
  induction h with
  | nil => exact .nil
  | cons hx _ ih =>
    rw [List.filter_cons, List.filter_cons, hx.outcome.isValid]
    split
    · exact .cons hx ih
    · exact ih

theorem forall₂_affected {xs ys : List (Branch × Outcome)} (h : List.Forall₂ ResultLike xs ys) :
    xs.flatMap (·.1.affected) = ys.flatMap (·.1.affected) := by
  induction h with
  | nil => rfl
  | cons hx _ ih => rw [List.flatMap_cons, List.flatMap_cons, hx.affected, ih]

theorem foldl_takeOver_eq {xs ys : List (Branch × Outcome)} (h : List.Forall₂ ResultLike xs ys) :
    ∀ model : Members,
      xs.foldl (fun model (branch, outcome) => Evaluation.takeOver model branch.affected outcome.value) model =
        ys.foldl (fun model (branch, outcome) => Evaluation.takeOver model branch.affected outcome.value) model := by
  induction h with
  | nil => exact fun _ => rfl
  | @cons x y _ _ hx _ ih =>
    intro model
    obtain ⟨branch, outcome⟩ := x
    obtain ⟨branch', outcome'⟩ := y
    have haffected : branch.affected = branch'.affected := hx.affected
    have hvalue : outcome.value = outcome'.value := hx.outcome.value
    simp only [List.foldl_cons]
    rw [haffected, hvalue]
    exact ih _

theorem foldl_reset_eq (populated : List String) {xs ys : List (Branch × Outcome)}
    (h : List.Forall₂ ResultLike xs ys) : ∀ model : Members,
      xs.foldl (fun model (branch, _) => Evaluation.reset model branch.affected populated) model =
        ys.foldl (fun model (branch, _) => Evaluation.reset model branch.affected populated) model := by
  induction h with
  | nil => exact fun _ => rfl
  | @cons x y _ _ hx _ ih =>
    intro model
    obtain ⟨branch, outcome⟩ := x
    obtain ⟨branch', outcome'⟩ := y
    have haffected : branch.affected = branch'.affected := hx.affected
    simp only [List.foldl_cons]
    rw [haffected]
    exact ih _

theorem populate_like (model : Members) {xs ys : List (Branch × Outcome)}
    (h : List.Forall₂ ResultLike xs ys) : Evaluation.populate model xs = Evaluation.populate model ys := by
  have hpassing := forall₂_passing h id
  have hfailing := forall₂_passing h (!·)
  simp only [id_eq] at hpassing
  simp only [Evaluation.populate]
  rw [forall₂_affected hpassing, foldl_takeOver_eq hpassing, foldl_reset_eq _ hfailing]

theorem Judge.Like.evaluateProperties (h : Judge.Like R P J K) (mode : Mode) (input : Members)
    {as bs : List PropertyId} (hab : List.Forall₂ (MemberLike G H R) as bs) : ∀ model : Members,
    Option.Rel Evaluation.Populated.Like (Evaluation.evaluateProperties G mode J input as model)
      (Evaluation.evaluateProperties H mode K input bs model) := by
  induction hab with
  | nil => exact fun model => .some ⟨rfl, rfl⟩
  | @cons a b _ _ hx _ ih =>
    intro model
    simp only [Evaluation.evaluateProperties]
    rw [hx.name]
    refine rel_bind (h.whole _ _ _ hx.related) fun o o' ho => ?_
    have hc : Evaluation.contribution (G.property a) o = Evaluation.contribution (H.property b) o' := by
      unfold Evaluation.contribution
      rw [ho.value, hx.default]
    rw [hc, mode.stopsAt_eq ho.isValid]
    split
    · exact .some ⟨rfl, ho.isValid⟩
    · refine rel_bind (ih _) fun p p' hp => .some ⟨hp.model, ?_⟩
      rw [isEmpty_append, isEmpty_append, hp.violations]
      rw [show o.violations.isEmpty = o'.violations.isEmpty from ho.isValid]

/-- What running a check of a type leaves. -/
def CheckedLike (x y : Verdict × Members) : Prop := x.1.Like y.1 ∧ x.2 = y.2

theorem Judge.Like.runTypeCheck (h : Judge.Like R P J K) (mode : Mode) (input model : Members) {c d : Check}
    (hcd : Check.Like R P T c d) :
    Option.Rel CheckedLike (Evaluation.runTypeCheck mode J input model c)
      (Evaluation.runTypeCheck mode K input model d) := by
  have hinspect : Option.Rel CheckedLike
      (do return (← Evaluation.inspect J mode c (.object input), model))
      (do return (← Evaluation.inspect K mode d (.object input), model)) :=
    rel_bind (h.inspect mode hcd (.object input)) fun v w hvw => .some ⟨hvw, rfl⟩
  have hbranches : ∀ (combinator : Combinator) {as bs : List Branch}, List.Forall₂ (BranchLike P) as bs →
      Option.Rel CheckedLike (Evaluation.runTypeCheck mode J input model (.composition combinator as true))
        (Evaluation.runTypeCheck mode K input model (.composition combinator bs true)) := by
    intro combinator as bs hbs
    refine rel_bind (h.judgeBranches (.object input) hbs) fun os os' hos => ?_
    exact .some ⟨compositionVerdict_like _ hos, populate_like model (forall₂_zip hbs hos)⟩
  cases hcd with
  | @composition combinator as bs onObject hbs =>
    cases onObject with
    | true => exact hbranches combinator hbs
    | false => exact hinspect
  | same hc ht =>
    cases c with
    | composition combinator branches onObject =>
      obtain rfl : branches = [] := List.map_eq_nil_iff.1 hc
      cases onObject with
      | true => exact hbranches combinator .nil
      | false => exact hinspect
    | _ => exact hinspect
  | _ => exact hinspect

theorem Judge.Like.evaluateTypeChecks (h : Judge.Like R P J K) (mode : Mode) (className className' : String)
    (input : Members) {vs ws : List Validator}
    (hvw : List.Forall₂ (fun v w : Validator => Check.Like R P T v.check w.check) vs ws) : ∀ model : Members,
    Option.Rel Evaluation.Populated.Like
      (Evaluation.evaluateTypeChecks mode J className input vs model)
      (Evaluation.evaluateTypeChecks mode K className' input ws model) := by
  induction hvw with
  | nil => exact fun model => .some ⟨rfl, rfl⟩
  | cons hx _ ih =>
    intro model
    simp only [Evaluation.evaluateTypeChecks]
    refine rel_bind (h.runTypeCheck mode input model hx) fun x y hxy => ?_
    obtain ⟨verdict, after⟩ := x
    obtain ⟨verdict', after'⟩ := y
    obtain ⟨hverdict, rfl⟩ := hxy
    cases hverdict with
    | pass => exact ih _
    | settle => exact ih _
    | fail =>
      simp only
      split
      · exact .some ⟨rfl, rfl⟩
      · exact rel_bind (ih _) fun p p' hp => .some ⟨hp.model, rfl⟩

/-- Types with members and checks alike evaluate alike. -/
theorem IsLikeness.evaluateObject (hl : IsLikeness G H R P T) (h : Judge.Like R P J K) (mode : Mode)
    {a b : TypeId} (hab : T a b) (input : Members) :
    Option.Rel Evaluation.Populated.Like (Evaluation.evaluateObject G mode J a input)
      (Evaluation.evaluateObject H mode K b input) := by
  have htype := hl.type a b hab
  unfold Evaluation.evaluateObject
  refine rel_bind (h.evaluateProperties mode input htype.properties input) fun p p' hp => ?_
  rw [mode.stopsAt_eq hp.violations, hp.model]
  split
  · exact .some hp
  · refine rel_bind (h.evaluateTypeChecks mode _ _ input htype.validators _) fun q q' hq => .some ⟨hq.model, ?_⟩
    rw [isEmpty_append, isEmpty_append, hp.violations, hq.violations]

/-! ## Checks that may change the value -/

theorem IsLikeness.transform (hl : IsLikeness G H R P T) (h : Judge.Like R P J K) (mode : Mode) {c d : Check}
    (hcd : Check.Like R P T c d) (value : Json) :
    Option.Rel (fun x y : Verdict × Json => x.1.Like y.1 ∧ x.2 = y.2)
      (Evaluation.transform G mode J c value) (Evaluation.transform H mode K d value) := by
  have hinspect : Option.Rel (fun x y : Verdict × Json => x.1.Like y.1 ∧ x.2 = y.2)
      (do return (← Evaluation.inspect J mode c value, value))
      (do return (← Evaluation.inspect K mode d value, value)) :=
    rel_bind (h.inspect mode hcd value) fun v w hvw => .some ⟨hvw, rfl⟩
  cases hcd with
  | items hab =>
    cases value with
    | array items => exact h.transformItems mode _ hab 0 items
    | _ => exact hinspect
  | additionalItems hab =>
    cases value with
    | array items => exact h.transformItems mode _ hab _ items
    | _ => exact hinspect
  | tuple hab =>
    cases value with
    | array items => exact h.transformTuple mode hab items
    | _ => exact hinspect
  | instanceOf hab =>
    cases value with
    | object members =>
      refine rel_bind (hl.evaluateObject h mode hab members) fun p p' hp => .some ⟨?_, by rw [hp.model]⟩
      refine Verdict.Like.ofDetails ?_
      rw [hp.violations]
      split <;> rfl
    | _ => exact hinspect
  | same hc ht =>
    cases c with
    | items => simp [Check.children] at hc
    | additionalItems => simp [Check.children] at hc
    | instanceOf => simp [Check.types] at ht
    | tuple positions =>
      obtain rfl : positions = [] := hc
      cases value with
      | array items => exact h.transformTuple mode .nil items
      | _ => exact hinspect
    | filter name options accepts apply => exact .some ⟨.refl _, rfl⟩
    | _ => exact hinspect
  | _ => exact hinspect

theorem Check.Like.isRequired_eq {c d : Check} (hcd : Check.Like R P T c d) : c.isRequired = d.isRequired := by
  cases hcd <;> rfl

theorem IsLikeness.runCheck (hl : IsLikeness G H R P T) (h : Judge.Like R P J K) (mode : Mode) {c d : Check}
    (hcd : Check.Like R P T c d) (value : Option Json) :
    Option.Rel (fun x y : Verdict × Option Json => x.1.Like y.1 ∧ x.2 = y.2)
      (Evaluation.runCheck G mode J c value) (Evaluation.runCheck H mode K d value) := by
  cases value with
  | none =>
    simp only [Evaluation.runCheck]
    rw [hcd.isRequired_eq]
    exact .some ⟨.refl _, rfl⟩
  | some value =>
    simp only [Evaluation.runCheck]
    refine rel_bind (hl.transform h mode hcd value) fun x y hxy => ?_
    exact .some ⟨hxy.1, by rw [hxy.2]⟩

theorem IsLikeness.runValidators (hl : IsLikeness G H R P T) (h : Judge.Like R P J K) (mode : Mode)
    (name name' : String) {vs ws : List Validator} (hvw : Validators.Like R P T vs ws) :
    ∀ value : Option Json, Option.Rel Outcome.Like (Evaluation.runValidators G mode J name vs value)
      (Evaluation.runValidators H mode K name' ws value) := by
  unfold Validators.Like at hvw
  induction hvw with
  | nil => exact fun value => .some ⟨rfl, rfl⟩
  | cons hx _ ih =>
    intro value
    simp only [Evaluation.runValidators]
    refine rel_bind (hl.runCheck h mode hx value) fun x y hxy => ?_
    obtain ⟨verdict, after⟩ := x
    obtain ⟨verdict', after'⟩ := y
    obtain ⟨hverdict, rfl⟩ := hxy
    cases hverdict with
    | pass => exact ih _
    | settle => exact .some ⟨rfl, rfl⟩
    | fail =>
      simp only
      split
      · exact .some ⟨rfl, rfl⟩
      · exact rel_bind (ih _) fun o o' ho => .some ⟨ho.value, rfl⟩

end

/-! ## Presence -/

namespace Evaluation

/-- A value that is there passes the presence check. -/
theorem runValidators_present (graph : Graph) (mode : Mode) (judge : Judge) (name : String) :
    ∀ (vs : List Validator) (value : Json),
      runValidators graph mode judge name vs (some value) =
        runValidators graph mode judge name (vs.filter (!·.check.isRequired)) (some value)
  | [], _ => rfl
  | v :: vs, value => by
    have ih := runValidators_present graph mode judge name vs
    rw [List.filter_cons]
    by_cases hrequired : v.check.isRequired = true
    · have hcheck : v.check = .required := by
        cases hv : v.check <;> rw [hv] at hrequired <;> first | rfl | cases hrequired
      simp only [hrequired, Bool.not_true, Bool.false_eq_true, if_false]
      rw [← ih value, runValidators, hcheck]
      cases value <;> rfl
    · have hkept : (!v.check.isRequired) = true := by simpa using hrequired
      rw [if_pos hkept]
      simp only [runValidators, runCheck, Option.bind_eq_bind]
      cases transform graph mode judge v.check value with
      | none => rfl
      | some result =>
        simp only [Option.bind_some, Option.pure_def]
        rw [ih]

/-- Without a value only presence is asked for. -/
theorem runValidators_absent (graph : Graph) (mode : Mode) (judge : Judge) (name : String) :
    ∀ vs : List Validator, ∃ outcome, runValidators graph mode judge name vs none = some outcome ∧
      outcome.value = none ∧ outcome.isValid = !vs.any (·.check.isRequired)
  | [] => ⟨{ value := none }, rfl, rfl, rfl⟩
  | v :: vs => by
    obtain ⟨outcome, hrun, hvalue, hvalid⟩ := runValidators_absent graph mode judge name vs
    rw [List.any_cons]
    by_cases hrequired : v.check.isRequired = true
    · simp only [runValidators, runCheck, hrequired, if_true, Option.bind_eq_bind, Option.bind_some]
      split
      · exact ⟨_, rfl, rfl, rfl⟩
      · rw [hrun]
        exact ⟨_, rfl, hvalue, rfl⟩
    · have hpass : v.check.isRequired = false := by simpa using hrequired
      simp only [runValidators, runCheck, hpass, Bool.false_eq_true, if_false, Option.bind_eq_bind,
        Option.bind_some, Bool.false_or]
      exact ⟨outcome, hrun, hvalue, hvalid⟩

end Evaluation

section

variable {G H : Graph} {R P : PropertyId → PropertyId → Prop} {T : TypeId → TypeId → Prop}

/-! ## Closing the recursion -/

/-- **Related properties judge every value in lockstep.**  By induction on the bound: a level up, the checks
of related properties are alike, and what they ask for is related again. -/
theorem IsLikeness.judge (hl : IsLikeness G H R P T) (mode : Mode) : ∀ bound : Nat,
    Judge.Like R P (Evaluation.property G mode bound) (Evaluation.property H mode bound)
  | 0 => ⟨fun _ _ _ _ => .none, fun _ _ _ _ => .none⟩
  | bound + 1 => by
    have hpresent : ∀ a b value, P a b → Option.Rel Outcome.Like
        (Evaluation.property G mode (bound + 1) a (some value))
        (Evaluation.property H mode (bound + 1) b (some value)) := by
      intro a b value hab
      simp only [Evaluation.property]
      rw [Evaluation.runValidators_present G, Evaluation.runValidators_present H]
      exact hl.runValidators (hl.judge mode bound) mode _ _ (hl.property a b hab) (some value)
    refine ⟨fun a b value hab => ?_, hpresent⟩
    obtain ⟨hP, hrequired⟩ := hl.presence a b hab
    cases value with
    | some value => exact hpresent a b value hP
    | none =>
      obtain ⟨o, ho, hvalue, hvalid⟩ := Evaluation.runValidators_absent G mode
        (Evaluation.property G mode bound) (G.property a).name (G.property a).validators.toList
      obtain ⟨o', ho', hvalue', hvalid'⟩ := Evaluation.runValidators_absent H mode
        (Evaluation.property H mode bound) (H.property b).name (H.property b).validators.toList
      simp only [Evaluation.property]
      rw [ho, ho']
      refine .some ⟨hvalue.trans hvalue'.symm, ?_⟩
      unfold Validators.hasRequired at hrequired
      rw [hvalid, hvalid', hrequired]

theorem notAnObject_like (className className' : String) (value : Json) :
    Evaluation.Result.Like (Evaluation.notAnObject className value)
      (Evaluation.notAnObject className' value) := ⟨rfl, rfl⟩

/-- **Related types accept the same values and make the same models.** -/
theorem IsLikeness.run (hl : IsLikeness G H R P T) (mode : Mode) (bound : Nat) {a b : TypeId} (hab : T a b)
    (value : Json) :
    Option.Rel Evaluation.Result.Like (Evaluation.run G mode bound a value)
      (Evaluation.run H mode bound b value) := by
  cases value with
  | object members =>
    refine rel_bind (hl.evaluateObject (hl.judge mode bound) mode hab members) fun p p' hp => ?_
    exact .some ⟨by rw [hp.model], hp.violations⟩
  | _ => exact .some (notAnObject_like _ _ _)

end

end SchemaTypes

import SchemaTypes.Proofs.Evaluation.Deepening
import SchemaTypes.Proofs.Evaluation.Likeness
/-!
# Redirects between alike types

A redirect replaces a type by another one.  Nothing is lost by it if the two are alike: their members and
checks agree, level by level through the children of checks, where a type that is mentioned counts by what it
is generated as.  `Alike` is the greatest relation of this kind.  A graph all of whose redirects join alike
types evaluates as the graph without them does (`RedirectsAlike.run`).
-/
namespace SchemaTypes

namespace Graph

/-- The same graph, each type standing for itself. -/
def withoutRedirects (graph : Graph) : Graph :=
  { graph with types := graph.types.map fun type => { type with redirect := none } }

theorem entry_withoutRedirects (graph : Graph) (id : TypeId) :
    graph.withoutRedirects.entry id = { graph.entry id with redirect := none } := by
  unfold entry withoutRedirects
  rw [Array.getD_eq_getD_getElem?, Array.getD_eq_getD_getElem?, Array.getElem?_map]
  cases graph.types[id.index]? <;> rfl

theorem follow_eq_self {graph : Graph} {id : TypeId} (h : (graph.entry id).redirect = none) :
    ∀ n : Nat, graph.follow n id = id
  | 0 => rfl
  | n + 1 => by
    unfold follow
    rw [h]

/-- Which type is meant depends on the types only. -/
theorem type_of_types {graph other : Graph} (h : other.types = graph.types) (id : TypeId) :
    other.type id = graph.type id := by
  have hentry : ∀ id, other.entry id = graph.entry id := by
    intro id
    unfold entry
    rw [h]
  have hfollow : ∀ n id, other.follow n id = graph.follow n id := by
    intro n
    induction n with
    | zero => exact fun _ => rfl
    | succ n ih =>
      intro id
      rw [follow, follow, hentry]
      split
      · exact ih _
      · rfl
  unfold type canonical
  rw [hentry, h, hfollow]

/-- A type that is not redirected stands for itself. -/
theorem type_eq_entry {graph : Graph} {id : TypeId} (h : (graph.entry id).redirect = none) :
    graph.type id = graph.entry id := congrArg graph.entry (follow_eq_self h _)

theorem type_withoutRedirects (graph : Graph) (id : TypeId) :
    graph.withoutRedirects.type id = { graph.entry id with redirect := none } := by
  have h : graph.withoutRedirects.canonical id = id :=
    follow_eq_self (by rw [entry_withoutRedirects]) _
  unfold type
  rw [h, entry_withoutRedirects]

/-! ## Alike types -/

/-- Generated as one type. -/
def SameType (graph : Graph) (a b : TypeId) : Prop := graph.canonical a = graph.canonical b

/-- A relation of properties that their checks keep. -/
def IsCongruence (graph : Graph) (R : PropertyId → PropertyId → Prop) : Prop :=
  ∀ a b, R a b →
    Validators.Like R R graph.SameType (graph.property a).validators.toList (graph.property b).validators.toList

/-- Properties that some congruence relates. -/
def Alike (graph : Graph) (a b : PropertyId) : Prop := ∃ R, graph.IsCongruence R ∧ R a b

/-- Types whose own members and checks are alike. -/
def AlikeTypes (graph : Graph) (s t : TypeId) : Prop :=
  TypeLike graph graph graph.Alike graph.Alike graph.SameType (graph.entry s) (graph.entry t)

/-- Every type is like the one generated for it. -/
def RedirectsAlike (graph : Graph) : Prop := ∀ id, graph.AlikeTypes (graph.canonical id) id

end Graph

section

variable {R S P Q : PropertyId → PropertyId → Prop} {T : TypeId → TypeId → Prop}

theorem rel_option_mono (h : ∀ a b, R a b → S a b) {a b : Option PropertyId} (hab : Option.Rel R a b) :
    Option.Rel S a b := by
  cases hab with
  | none => exact .none
  | some hab => exact .some (h _ _ hab)

theorem Check.Like.mono (h : ∀ a b, R a b → S a b) (h' : ∀ a b, P a b → Q a b) {c d : Check}
    (hcd : Check.Like R P T c d) : Check.Like S Q T c d := by
  cases hcd with
  | same hc ht => exact .same hc ht
  | items hab => exact .items (h _ _ hab)
  | tuple hab => exact .tuple (hab.imp h)
  | additionalItems hab => exact .additionalItems (h _ _ hab)
  | contains hab => exact .contains (h _ _ hab)
  | instanceOf hab => exact .instanceOf hab
  | noAdditionalProperties => exact .noAdditionalProperties
  | additionalProperties hab => exact .additionalProperties (h _ _ hab)
  | patternProperty hab => exact .patternProperty (h _ _ hab)
  | propertyNames hab => exact .propertyNames (h _ _ hab)
  | schemaDependency hab => exact .schemaDependency (h _ _ hab)
  | composition hbs => exact .composition (hbs.imp fun _ _ hb => ⟨h' _ _ hb.1, hb.2⟩)
  | conditional hab hc hd => exact .conditional (h' _ _ hab) (rel_option_mono h' hc) (rel_option_mono h' hd)

theorem forall₂_refl_of (h : ∀ a, R a a) : ∀ as : List PropertyId, List.Forall₂ R as as
  | [] => .nil
  | a :: as => .cons (h a) (forall₂_refl_of h as)

theorem forall₂_branches_refl (h : ∀ a, R a a) : ∀ as : List Branch,
    List.Forall₂ (fun a b : Branch => R a.property b.property ∧ a.affected = b.affected) as as
  | [] => .nil
  | a :: as => .cons ⟨h a.property, rfl⟩ (forall₂_branches_refl h as)

theorem rel_option_refl (h : ∀ a, R a a) : ∀ a : Option PropertyId, Option.Rel R a a
  | none => .none
  | some a => .some (h a)

theorem Check.Like.refl (h : ∀ a, R a a) (ht : ∀ t, T t t) (check : Check) : Check.Like R R T check check := by
  cases check with
  | items item => exact .items (h item)
  | tuple positions => exact .tuple (forall₂_refl_of h positions)
  | additionalItems offset item => exact .additionalItems (h item)
  | contains item => exact .contains (h item)
  | instanceOf type => exact .instanceOf (ht type)
  | additionalProperties className known patterns property => exact .additionalProperties (h property)
  | patternProperty className pattern key property => exact .patternProperty (h property)
  | propertyNames className property => exact .propertyNames (h property)
  | schemaDependency trigger property => exact .schemaDependency (h property)
  | composition combinator branches onObject => exact .composition (forall₂_branches_refl h branches)
  | conditional condition consequent alternative onObject =>
    exact .conditional (h condition) (rel_option_refl h consequent) (rel_option_refl h alternative)
  | _ => exact .same rfl rfl

theorem Validators.Like.refl (h : ∀ a, R a a) (ht : ∀ t, T t t) : ∀ vs : List Validator,
    Validators.Like R R T vs vs
  | [] => .nil
  | v :: vs => .cons (.refl h ht v.check) (Validators.Like.refl h ht vs)

theorem Validators.Like.mono (h : ∀ a b, R a b → S a b) (h' : ∀ a b, P a b → Q a b) {vs ws : List Validator}
    (hvw : Validators.Like R P T vs ws) : Validators.Like S Q T vs ws :=
  List.Forall₂.imp (fun _ _ hcd => Check.Like.mono h h' hcd) hvw

/-- Alike validators ask for presence alike, and so does what is left of them without that. -/
theorem Validators.Like.any_isRequired_eq {vs ws : List Validator} (h : Validators.Like R P T vs ws) :
    vs.any (·.check.isRequired) = ws.any (·.check.isRequired) := by
  unfold Validators.Like at h
  induction h with
  | nil => rfl
  | cons hvw _ ih => rw [List.any_cons, List.any_cons, ih, hvw.isRequired_eq]

theorem Validators.Like.asks {vs ws : List Validator} (h : Validators.Like R P T vs ws) :
    Validators.Like R P T (vs.filter (!·.check.isRequired)) (ws.filter (!·.check.isRequired)) := by
  unfold Validators.Like at h ⊢
  induction h with
  | nil => exact .nil
  | cons hvw _ ih =>
    rw [List.filter_cons, List.filter_cons, hvw.isRequired_eq]
    split
    · exact .cons hvw ih
    · exact ih

end

namespace Graph

theorem SameType.refl (graph : Graph) (id : TypeId) : graph.SameType id id := rfl

theorem Alike.refl (graph : Graph) (a : PropertyId) : graph.Alike a a := by
  refine ⟨Eq, ?_, rfl⟩
  rintro x _ rfl
  exact .refl (fun _ => rfl) (SameType.refl graph) _

/-- The greatest congruence is one. -/
theorem isCongruence_alike (graph : Graph) : graph.IsCongruence graph.Alike := by
  rintro a b ⟨R, hR, hab⟩
  exact (hR a b hab).mono (fun x y hxy => ⟨R, hR, hxy⟩) fun x y hxy => ⟨R, hR, hxy⟩

theorem forall₂_members_refl (graph : Graph) : ∀ ids : List PropertyId,
    List.Forall₂ (MemberLike graph graph graph.Alike) ids ids
  | [] => .nil
  | id :: ids => .cons ⟨rfl, rfl, .refl graph id⟩ (forall₂_members_refl graph ids)

theorem AlikeTypes.refl (graph : Graph) (id : TypeId) : graph.AlikeTypes id id :=
  ⟨graph.forall₂_members_refl _, .refl (Alike.refl graph) (SameType.refl graph) _⟩

theorem AlikeTypes.of_empty {graph : Graph} {a b : TypeId} (ha : (graph.entry a).properties = [])
    (hb : (graph.entry b).properties = []) (ha' : (graph.entry a).validators.toList.length = 0)
    (hb' : (graph.entry b).validators.toList.length = 0) : graph.AlikeTypes a b := by
  refine ⟨?_, ?_⟩
  · rw [ha, hb]
    exact .nil
  · rw [List.length_eq_zero_iff.1 ha', List.length_eq_zero_iff.1 hb']
    exact .nil

/-- Where redirects join alike types, a type with its redirects is like one that stands for itself. -/
theorem RedirectsAlike.isLikeness {graph : Graph} (h : graph.RedirectsAlike) :
    IsLikeness graph graph.withoutRedirects graph.Alike graph.Alike graph.SameType where
  presence a b hab := ⟨hab, (graph.isCongruence_alike a b hab).any_isRequired_eq⟩
  property a b hab := (graph.isCongruence_alike a b hab).asks
  type a b hab := by
    have hb := h b
    rw [type_withoutRedirects]
    unfold type
    rw [show graph.canonical a = graph.canonical b from hab]
    exact ⟨hb.properties.imp fun _ _ hm => ⟨hm.name, hm.default, hm.related⟩, hb.validators⟩

/-- **Alike types can be told apart by no value.**  Both graphs end within the same bound or neither does,
with the same model and the same validity. -/
theorem RedirectsAlike.run {graph : Graph} (h : graph.RedirectsAlike) (mode : Mode) (bound : Nat) (id : TypeId)
    (value : Json) :
    Option.Rel Evaluation.Result.Like (Evaluation.run graph mode bound id value)
      (Evaluation.run graph.withoutRedirects mode bound id value) :=
  h.isLikeness.run mode bound (a := id) (b := id) rfl value

theorem RedirectsAlike.evaluate {graph : Graph} (h : graph.RedirectsAlike) (mode : Mode) (id : TypeId)
    (value : Json) :
    Option.Rel Evaluation.Result.Like (graph.evaluate mode id value)
      (graph.withoutRedirects.evaluate mode id value) :=
  Evaluation.deepen_rel (fun bound => h.run mode bound id value) _

end Graph
end SchemaTypes

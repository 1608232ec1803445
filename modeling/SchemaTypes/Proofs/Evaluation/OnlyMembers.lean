import SchemaTypes.Proofs.Evaluation.Fixpoint
import SchemaTypes.Proofs.Types.Ids
import SchemaTypes.Proofs.Types.Redirects
/-!
# Only members and likenesses

A type with a single property and no checks accepts an object with nothing else exactly if the property accepts what is
there (`Graph.evaluate_only`), and a required property that holds an instance of a type accepts the objects that the type
accepts (`Graph.evaluateProperty_instance`).

A likeness passes from runs under every bound to evaluation (`IsLikeness.evaluate`, `IsLikeness.evaluateProperty`).
It can be enlarged by properties that ask for the same by it (`IsLikeness.addProperty`) and by types that are alike by
it (`IsLikeness.addType`), and related properties that nobody claims may become optional (`IsLikeness.relax`).
-/
namespace SchemaTypes

open Evaluation

/-- What is related in every attempt is related in the end. -/
theorem rel_of_attempts {α β : Type} {r : α → β → Prop} {x : Option α} {y : Option β} {xs : Nat → Option α}
    {ys : Nat → Option β} (hx : ∀ a, x = some a ↔ ∃ n, xs n = some a) (hy : ∀ b, y = some b ↔ ∃ n, ys n = some b)
    (h : ∀ n, Option.Rel r (xs n) (ys n)) : Option.Rel r x y := by
  cases hfound : x with
  | some a =>
    obtain ⟨n, hn⟩ := (hx a).1 hfound
    have hrel := h n
    rw [hn] at hrel
    cases hb : ys n with
    | none => rw [hb] at hrel; cases hrel
    | some b =>
      rw [hb] at hrel
      rw [(hy b).2 ⟨n, hb⟩]
      exact hrel
  | none =>
    cases hother : y with
    | none => exact .none
    | some b =>
      obtain ⟨n, hn⟩ := (hy b).1 hother
      have hrel := h n
      rw [hn] at hrel
      cases ha : xs n with
      | none => rw [ha] at hrel; cases hrel
      | some a => exact nomatch hfound.symm.trans ((hx a).2 ⟨n, ha⟩)

namespace IsLikeness

variable {G H : Graph} {R P : PropertyId → PropertyId → Prop} {T : TypeId → TypeId → Prop}

/-- **Related types evaluate alike.** -/
theorem evaluate (hl : IsLikeness G H R P T) (mode : Mode) {a b : TypeId} (hab : T a b) (value : Json) :
    Option.Rel Result.Like (G.evaluate mode a value) (H.evaluate mode b value) :=
  rel_of_attempts (fun _ => evaluate_eq_some_iff) (fun _ => evaluate_eq_some_iff) fun bound =>
    hl.run mode bound hab value

/-- Related properties are judged alike, however deep that goes. -/
theorem evaluateProperty (hl : IsLikeness G H R P T) (mode : Mode) :
    Judge.Like R P (G.evaluateProperty mode) (H.evaluateProperty mode) where
  whole a b value hab := rel_of_attempts (fun _ => evaluateProperty_eq_some_iff) (fun _ => evaluateProperty_eq_some_iff)
    fun bound => (hl.judge mode bound).whole a b value hab
  present a b value hab := rel_of_attempts (fun _ => evaluateProperty_eq_some_iff)
    (fun _ => evaluateProperty_eq_some_iff) fun bound => (hl.judge mode bound).present a b value hab

end IsLikeness

/-! ## Larger likenesses -/

theorem Property.asks_relax (property : Property) : property.relax.asks = property.asks := by
  unfold Property.asks Property.relax
  simp only [Validators.toList_removeRequired, List.filter_filter, Bool.and_self]

theorem Property.asks_subset (property : Property) : property.asks ⊆ property.validators.toList :=
  List.filter_subset_self _

section
variable {G H G' H' : Graph} {R R' : PropertyId → PropertyId → Prop} {T T' : TypeId → TypeId → Prop}
  {a b : PropertyId} {k l : TypeId} {vs ws : List Validator}

theorem Validators.Like.enlarge (h : Validators.Like R R T vs ws) (hR : ∀ i j, R i j → R' i j)
    (hT : ∀ m n, T m n → T' m n) : Validators.Like R' R' T' vs ws :=
  List.Forall₂.imp (fun _ _ hvw => hvw.imp (fun i _ j _ => hR i j) fun m _ n => hT m n) h

/-- Where no check leads to a property, it can be left out. -/
theorem Validators.Like.without (h : Validators.Like R R T vs ws) (hvs : ∀ v ∈ vs, a ∉ v.check.children)
    (hws : ∀ w ∈ ws, b ∉ w.check.children) :
    Validators.Like (fun i j => R i j ∧ i ≠ a ∧ j ≠ b) (fun i j => R i j ∧ i ≠ a ∧ j ≠ b) T vs ws := by
  unfold Validators.Like at h ⊢
  induction h with
  | nil => exact .nil
  | cons hvw _ ih =>
    refine .cons (hvw.imp (fun i hi j hj hij => ⟨hij, ?_, ?_⟩) fun _ _ _ => id) (ih ?_ ?_)
    · exact fun heq => hvs _ List.mem_cons_self (heq ▸ hi)
    · exact fun heq => hws _ List.mem_cons_self (heq ▸ hj)
    · exact fun v hv => hvs v (List.mem_cons_of_mem _ hv)
    · exact fun w hw => hws w (List.mem_cons_of_mem _ hw)

namespace IsLikeness

/-- A likeness of graphs is one of others that have the same related properties and types. -/
theorem congr (hl : IsLikeness G H R R T)
    (hproperties : ∀ i j, R i j → G'.property i = G.property i ∧ H'.property j = H.property j)
    (htypes : ∀ m n, T m n → G'.type m = G.type m ∧ H'.type n = H.type n) : IsLikeness G' H' R R T where
  presence i j hij := by
    rw [(hproperties i j hij).1, (hproperties i j hij).2]
    exact hl.presence i j hij
  property i j hij := by
    rw [(hproperties i j hij).1, (hproperties i j hij).2]
    exact hl.property i j hij
  type m n hmn := by
    rw [(htypes m n hmn).1, (htypes m n hmn).2]
    obtain ⟨hmembers, hvalidators⟩ := hl.type m n hmn
    refine ⟨hmembers.imp fun i j hij => ?_, hvalidators⟩
    obtain ⟨hi, hj⟩ := hproperties i j hij.related
    exact ⟨by rw [hi, hj, hij.name], by rw [hi, hj, hij.default], hij.related⟩

/-- Properties that ask for the same by a likeness may belong to it. -/
theorem addProperty (hl : IsLikeness G H R R T)
    (hpresence : (G.property a).validators.hasRequired = (H.property b).validators.hasRequired)
    (hasks : Validators.Like R R T (G.property a).asks (H.property b).asks) :
    IsLikeness G H (fun i j => R i j ∨ i = a ∧ j = b) (fun i j => R i j ∨ i = a ∧ j = b) T where
  presence i j hij := by
    rcases hij with hij | ⟨rfl, rfl⟩
    · exact ⟨Or.inl hij, (hl.presence i j hij).2⟩
    · exact ⟨Or.inr ⟨rfl, rfl⟩, hpresence⟩
  property i j hij := by
    rcases hij with hij | ⟨rfl, rfl⟩
    · exact (hl.property i j hij).enlarge (fun _ _ => Or.inl) fun _ _ => id
    · exact hasks.enlarge (fun _ _ => Or.inl) fun _ _ => id
  type m n hmn := by
    obtain ⟨hmembers, hvalidators⟩ := hl.type m n hmn
    exact ⟨hmembers.imp fun _ _ hij => ⟨hij.name, hij.default, Or.inl hij.related⟩,
      hvalidators.enlarge (fun _ _ => Or.inl) fun _ _ => id⟩

/-- So may types that are alike by it. -/
theorem addType (hl : IsLikeness G H R R T) (htype : TypeLike G H R R T (G.type k) (H.type l)) :
    IsLikeness G H R R fun m n => T m n ∨ m = k ∧ n = l where
  presence := hl.presence
  property i j hij := (hl.property i j hij).enlarge (fun _ _ => id) fun _ _ => Or.inl
  type m n hmn := by
    have hlarger : ∀ {x y : ObjectType}, TypeLike G H R R T x y →
        TypeLike G H R R (fun m n => T m n ∨ m = k ∧ n = l) x y :=
      fun hxy => ⟨hxy.properties, hxy.validators.enlarge (fun _ _ => id) fun _ _ => Or.inl⟩
    rcases hmn with hmn | ⟨rfl, rfl⟩
    · exact hlarger (hl.type m n hmn)
    · exact hlarger htype

/-- Properties that nobody claims can be left out. -/
theorem without (hl : IsLikeness G H R R T) (ha : G.Unclaimed a) (hb : H.Unclaimed b) :
    IsLikeness G H (fun i j => R i j ∧ i ≠ a ∧ j ≠ b) (fun i j => R i j ∧ i ≠ a ∧ j ≠ b) T where
  presence i j hij := ⟨hij, (hl.presence i j hij.1).2⟩
  property i j hij := (hl.property i j hij.1).without
    (fun v hv => ha.checks i v (Property.asks_subset _ hv)) fun w hw => hb.checks j w (Property.asks_subset _ hw)
  type m n hmn := by
    obtain ⟨hmembers, hvalidators⟩ := hl.type m n hmn
    have hlists : ∀ {is js : List PropertyId}, List.Forall₂ (MemberLike G H R) is js → a ∉ is → b ∉ js →
        List.Forall₂ (MemberLike G H fun i j => R i j ∧ i ≠ a ∧ j ≠ b) is js := by
      intro is js h his hjs
      induction h with
      | nil => exact .nil
      | cons hij _ ih =>
        rw [List.mem_cons, not_or] at his hjs
        exact .cons ⟨hij.name, hij.default, hij.related, Ne.symm his.1, Ne.symm hjs.1⟩ (ih his.2 hjs.2)
    exact ⟨hlists hmembers (ha.members _) (hb.members _), hvalidators.without (ha.typeChecks _) (hb.typeChecks _)⟩

/-- Related properties that nobody claims may become optional together. -/
theorem relax (hl : IsLikeness G H R R T) (hab : R a b) (ha : G.Unclaimed a) (hb : H.Unclaimed b)
    (hthere : G.HasProperty a) (hthere' : H.HasProperty b) :
    IsLikeness (G.modifyProperty a Property.relax) (H.modifyProperty b Property.relax)
      (fun i j => (R i j ∧ i ≠ a ∧ j ≠ b) ∨ i = a ∧ j = b) (fun i j => (R i j ∧ i ≠ a ∧ j ≠ b) ∨ i = a ∧ j = b) T := by
  have hrelaxed := Graph.property_modifyProperty G Property.relax hthere
  have hrelaxed' := Graph.property_modifyProperty H Property.relax hthere'
  have htypes : ∀ (graph : Graph) (id : PropertyId), (graph.modifyProperty id Property.relax).types = graph.types :=
    fun _ _ => rfl
  have hkept : IsLikeness (G.modifyProperty a Property.relax) (H.modifyProperty b Property.relax)
      (fun i j => R i j ∧ i ≠ a ∧ j ≠ b) (fun i j => R i j ∧ i ≠ a ∧ j ≠ b) T :=
    (hl.without ha hb).congr (fun i j hij => ⟨Graph.property_modifyProperty_of_ne _ _ hij.2.1,
      Graph.property_modifyProperty_of_ne _ _ hij.2.2⟩) fun _ _ _ =>
        ⟨Graph.type_of_types (htypes G a) _, Graph.type_of_types (htypes H b) _⟩
  refine hkept.addProperty ?_ ?_
  · rw [hrelaxed, hrelaxed']
    exact (Validators.hasRequired_removeRequired _).trans (Validators.hasRequired_removeRequired _).symm
  · rw [hrelaxed, hrelaxed', Property.asks_relax, Property.asks_relax]
    exact (hl.property a b hab).without (fun v hv => ha.checks a v (Property.asks_subset _ hv))
      fun w hw => hb.checks b w (Property.asks_subset _ hw)

end IsLikeness

end

/-! ## Only members -/

namespace Graph

variable {graph : Graph} {mode : Mode} {root held : TypeId} {member : PropertyId}

theorem runValidators_instance (judge : Judge) (name : String) {validators : List Validator}
    (hchecks : validators.map (·.check) = [.required, .type [.object] false, .instanceOf held]) (members : Members) :
    (runValidators graph mode judge name validators (some (.object members))).map (·.isValid) =
      (evaluateObject graph mode judge held members).map (·.violations.isEmpty) := by
  obtain ⟨v₁, vs, rfl, h₁, hrest⟩ := List.map_eq_cons_iff.1 hchecks
  obtain ⟨v₂, ws, rfl, h₂, hrest⟩ := List.map_eq_cons_iff.1 hrest
  obtain ⟨v₃, xs, rfl, h₃, hrest⟩ := List.map_eq_cons_iff.1 hrest
  obtain rfl := List.map_eq_nil_iff.1 hrest
  have hpresent : runCheck graph mode judge .required (some (.object members)) =
      some (.pass, some (.object members)) := rfl
  have hobject : runCheck graph mode judge (.type [.object] false) (some (.object members)) =
      some (.pass, some (.object members)) := rfl
  simp only [runValidators, h₁, h₂, h₃, hpresent, hobject, Option.bind_eq_bind, Option.bind_some]
  simp only [runCheck, transform]
  cases evaluateObject graph mode judge held members with
  | none => rfl
  | some result =>
    obtain ⟨model, violations⟩ := result
    cases violations with
    | nil => rfl
    | cons => cases mode <;> rfl

/-- A required property that holds an instance of a type accepts the objects that the type accepts. -/
theorem evaluateProperty_instance (hchecks : (graph.property member).validators.toList.map (·.check) =
      [.required, .type [.object] false, .instanceOf held]) (mode : Mode) (members : Members) :
    (graph.evaluateProperty mode member (some (.object members))).map (·.isValid) =
      (graph.evaluate mode held (.object members)).map (·.isValid) := by
  rw [evaluateProperty_eq, runValidators_instance _ _ hchecks, evaluate_object]
  cases evaluateObject graph mode (graph.evaluateProperty mode) held members <;> rfl

/-- **A type with one property judges as its property does.** -/
theorem evaluate_only (hredirect : (graph.entry root).redirect = none)
    (hproperties : (graph.entry root).properties = [member]) (hvalidators : (graph.entry root).validators = {})
    (mode : Mode) (value : Json) :
    (graph.evaluate mode root (.object [((graph.property member).name, value)])).map (·.isValid) =
      (graph.evaluateProperty mode member (some value)).map (·.isValid) := by
  have hget : Members.get? [((graph.property member).name, value)] (graph.property member).name = some value := by
    simp [Members.get?]
  rw [evaluate_object]
  unfold evaluateObject
  simp only [type_eq_entry hredirect, hproperties, hvalidators, evaluateProperties, hget]
  cases graph.evaluateProperty mode member (some value) with
  | none => rfl
  | some outcome =>
    obtain ⟨_, violations⟩ := outcome
    cases violations with
    | nil => cases mode <;> rfl
    | cons => cases mode <;> rfl

end Graph

end SchemaTypes

import Mathlib.Data.Set.Finite.Basic
import Mathlib.Order.WellFoundedSet
import SchemaTypes.Evaluation.Basic
/-!
# What judges the whole of a value, and what judges parts of it

A property has other properties judge the value, or parts of it: by its own checks, and by those of the types it makes
an instance of.  Where no property comes back to itself with the whole of the value (`Graph.Guarded`), each way around
a cycle goes to a part.

That does not suffice for an end.  A check that puts what is judged back into the value may put defaults there, too,
and the next check of the property then judges a value that is larger.  If that check leads back to the property, no
default may have parts of its own that the way around comes to: one that is put where the steps lead that are taken on
the way around (`Graph.NeverDeepens`).  What is filled in elsewhere, or judged again only off the cycle, does no harm.
-/
namespace SchemaTypes

/-! ## Parts of a value -/

namespace Json

/-- A step from a value to a part of it: to an item, to the member of a name, or to a member's name. -/
inductive Step where
  | item
  | member (name : String)
  | name

/-- The step leads from the value to that part. -/
inductive PartAt : Step → Json → Json → Prop where
  | item {items : List Json} {part : Json} : part ∈ items → PartAt .item (.array items) part
  | member {members : Members} {name : String} {part : Json} : (name, part) ∈ members →
    PartAt (.member name) (.object members) part
  | name {members : Members} (name : String) : PartAt .name (.object members) (.string name)

theorem partAt_get? {members : Members} {name : String} {part : Json} (h : members.get? name = some part) :
    PartAt (.member name) (.object members) part := by
  obtain ⟨before, behind, rfl, -⟩ := List.lookup_eq_some_iff.1 h
  exact .member (List.mem_append_right _ List.mem_cons_self)

end Json

namespace Check

/-- The properties that judge the value as a whole. -/
def wholes : Check → List PropertyId
  | .composition _ branches _ => branches.map (·.property)
  | .conditional condition consequent alternative _ => condition :: (consequent.toList ++ alternative.toList)
  | .schemaDependency _ property => [property]
  | _ => []

/-- The properties that judge parts of the value. -/
def parts : Check → List PropertyId
  | .items item | .additionalItems _ item | .contains item => [item]
  | .tuple positions => positions
  | .additionalProperties _ _ _ property | .patternProperty _ _ _ property | .propertyNames _ property => [property]
  | _ => []

theorem children_eq (check : Check) : check.children = check.wholes ++ check.parts := by
  cases check <;> first | rfl | exact (List.append_nil _).symm

/-- The properties that judge the part which the step leads to. -/
def judgesAt : Check → Json.Step → List PropertyId
  | .items item, .item | .additionalItems _ item, .item | .contains item, .item => [item]
  | .tuple positions, .item => positions
  | .additionalProperties _ known patterns property, .member name =>
    if Evaluation.isAdditional known patterns name then [property] else []
  | .patternProperty _ regex _ property, .member name => if regex.isMatch name then [property] else []
  | .propertyNames _ property, .name => [property]
  | _, _ => []

theorem judgesAt_subset_parts (check : Check) (step : Json.Step) : check.judgesAt step ⊆ check.parts := by
  unfold judgesAt
  split
  -- What judges members of some names only judges none of the others.
  case h_5 | h_6 =>
    split
    · exact List.Subset.refl _
    · exact List.nil_subset _
  case h_8 => exact List.nil_subset _
  all_goals exact List.Subset.refl _

/-- Whether what has been judged is put back into the value. -/
def putsBack : Check → Bool
  | .items _ | .additionalItems _ _ | .tuple _ | .instanceOf _ => true
  | _ => false

end Check

namespace Graph

variable {graph : Graph} {check : Check} {id a b c : PropertyId}

/-! ## Who judges what -/

/-- The properties that judge the whole value for a check, be it for a type that the value becomes an instance of. -/
def wholesOf (graph : Graph) (check : Check) : List PropertyId :=
  check.wholes ++ check.types.flatMap fun type => (graph.type type).validators.toList.flatMap (·.check.wholes)

/-- The properties that judge parts of the value for a check, the declared members among them. -/
def partsOf (graph : Graph) (check : Check) : List PropertyId :=
  check.parts ++ check.types.flatMap fun type =>
    (graph.type type).properties ++ (graph.type type).validators.toList.flatMap (·.check.parts)

/-- The second property judges what the first one does. -/
def JudgesWhole (graph : Graph) (a b : PropertyId) : Prop :=
  ∃ v ∈ (graph.property a).validators.toList, b ∈ graph.wholesOf v.check

/-- The second property judges a part of what the first one does. -/
def JudgesPart (graph : Graph) (a b : PropertyId) : Prop :=
  ∃ v ∈ (graph.property a).validators.toList, b ∈ graph.partsOf v.check

def Judges (graph : Graph) (a b : PropertyId) : Prop := graph.JudgesWhole a b ∨ graph.JudgesPart a b

/-- **On every cycle some step goes to a part**: no property comes back to itself with the whole value. -/
def Guarded (graph : Graph) : Prop := ∀ id, ¬ Relation.TransGen graph.JudgesWhole id id

/-- Both properties judge on the way down from each other. -/
def Around (graph : Graph) (a b : PropertyId) : Prop :=
  Relation.ReflTransGen graph.Judges a b ∧ Relation.ReflTransGen graph.Judges b a

/-! ## Steps that are taken on the way around -/

/-- The properties of a type that are declared for the part which the step leads to. -/
def declaredAt (graph : Graph) (type : TypeId) : Json.Step → List PropertyId
  | .member name => (graph.type type).properties.filter fun id => (graph.property id).name = name
  | _ => []

/-- The properties that judge the part which the step leads to, be it for a type that the value becomes an instance of. -/
def judgesAt (graph : Graph) (check : Check) (step : Json.Step) : List PropertyId :=
  check.judgesAt step ++ check.types.flatMap fun type =>
    graph.declaredAt type step ++ (graph.type type).validators.toList.flatMap (·.check.judgesAt step)

/-- Some property around this one judges the part which the step leads to, by a property around it. -/
def Takes (graph : Graph) (id : PropertyId) (step : Json.Step) : Prop :=
  ∃ a b, graph.Around id a ∧ graph.Around id b ∧
    ∃ v ∈ (graph.property a).validators.toList, b ∈ graph.judgesAt v.check step

/-! ## Defaults that are judged again -/

/-- What a check has judge the value, or parts of it, leads back to the property. -/
def LeadsBack (graph : Graph) (check : Check) (id : PropertyId) : Prop :=
  ∃ next, (next ∈ graph.wholesOf check ∨ next ∈ graph.partsOf check) ∧ Relation.ReflTransGen graph.Judges next id

/-- What the property leaves of a part, or of the whole of an object, is put back by the check along those steps. -/
inductive PutsBack (graph : Graph) (steps : Json.Step → Prop) : Check → PropertyId → Prop where
  | items {item : PropertyId} : steps .item → PutsBack graph steps (.items item) item
  | additionalItems {offset : Nat} {item : PropertyId} : steps .item →
    PutsBack graph steps (.additionalItems offset item) item
  | tuple {positions : List PropertyId} {item : PropertyId} : steps .item → item ∈ positions →
    PutsBack graph steps (.tuple positions) item
  | declared {type : TypeId} {member : PropertyId} : member ∈ (graph.type type).properties →
    steps (.member (graph.property member).name) → PutsBack graph steps (.instanceOf type) member
  | populated {type : TypeId} {validator : Validator} {combinator : Combinator} {branches : List Branch}
    {branch : Branch} {name : String} : validator ∈ (graph.type type).validators.toList →
    validator.check = .composition combinator branches true → branch ∈ branches → name ∈ branch.affected →
    steps (.member name) → PutsBack graph steps (.instanceOf type) branch.property

/-- The check fills in the default of a declared member, or has it filled in by what it puts back, where those steps
lead. -/
inductive Fills (graph : Graph) (steps : Json.Step → Prop) : Check → PropertyId → Prop where
  | declared {type : TypeId} {member : PropertyId} : member ∈ (graph.type type).properties →
    steps (.member (graph.property member).name) → Fills graph steps (.instanceOf type) member
  | further {check : Check} {next member : PropertyId} {validator : Validator} : graph.PutsBack steps check next →
    validator ∈ (graph.property next).validators.toList → Fills graph steps validator.check member →
    Fills graph steps check member

/-- Those steps lead to no part of the value, and will not if members are filled in. -/
def IsBare (steps : Json.Step → Prop) : Json → Prop
  | .array items => steps .item → items = []
  | .object _ => False
  | _ => True

/-- **Nothing is filled in and judged again on the way around** that has parts there: if a check of a property is
followed by one that leads back to the property, the defaults that it fills in where the way around comes are bare. -/
def NeverDeepens (graph : Graph) : Prop :=
  ∀ id before validator after, (graph.property id).validators.toList = before ++ validator :: after →
    (∃ later ∈ after, graph.LeadsBack later.check id) →
    ∀ member, graph.Fills (graph.Takes id) validator.check member →
      ∀ value, (graph.property member).default = some value → IsBare (graph.Takes id) value

variable {step : Json.Step}

theorem declaredAt_subset_properties {type : TypeId} : graph.declaredAt type step ⊆ (graph.type type).properties := by
  intro id hid
  cases step with
  | member name => exact (List.mem_filter.1 hid).1
  | _ => cases hid

theorem judgesAt_subset_partsOf : graph.judgesAt check step ⊆ graph.partsOf check := by
  intro id hid
  rcases List.mem_append.1 hid with hid | hid
  · exact List.mem_append_left _ (check.judgesAt_subset_parts step hid)
  · obtain ⟨type, htype, hid⟩ := List.mem_flatMap.1 hid
    refine List.mem_append_right _ (List.mem_flatMap.2 ⟨type, htype, ?_⟩)
    rcases List.mem_append.1 hid with hid | hid
    · exact List.mem_append_left _ (declaredAt_subset_properties hid)
    · obtain ⟨v, hv, hid⟩ := List.mem_flatMap.1 hid
      exact List.mem_append_right _ (List.mem_flatMap.2 ⟨v, hv, v.check.judgesAt_subset_parts step hid⟩)

/-! ## Around -/

theorem Around.symm (h : graph.Around a b) : graph.Around b a := ⟨h.2, h.1⟩

theorem Around.trans (h : graph.Around a b) (h' : graph.Around b c) : graph.Around a c :=
  ⟨h.1.trans h'.1, h'.2.trans h.2⟩

/-- The same steps are taken around properties that are around each other. -/
theorem Around.takes_eq (h : graph.Around a b) : graph.Takes a = graph.Takes b := by
  funext step
  refine propext ⟨fun ⟨first, second, hfirst, hsecond, hjudges⟩ => ?_,
    fun ⟨first, second, hfirst, hsecond, hjudges⟩ => ?_⟩
  · exact ⟨first, second, h.symm.trans hfirst, h.symm.trans hsecond, hjudges⟩
  · exact ⟨first, second, h.trans hfirst, h.trans hsecond, hjudges⟩

/-! ## Finitely many properties judge -/

theorem Judges.hasProperty (h : graph.Judges a b) : a.index < graph.properties.size := by
  have hjudging : ∃ v, v ∈ (graph.property a).validators.toList := by
    rcases h with ⟨v, hv, _⟩ | ⟨v, hv, _⟩ <;> exact ⟨v, hv⟩
  obtain ⟨v, hv⟩ := hjudging
  refine Nat.lt_of_not_le fun hle => ?_
  have hnone : graph.property a = default := by
    unfold Graph.property
    rw [Array.getD_eq_getD_getElem?, Array.getElem?_eq_none hle]
    rfl
  rw [hnone] at hv
  cases hv

/-- A relation that leads back to nothing leads on from finitely many properties only finitely often. -/
theorem wellFounded_of_irrefl {r : PropertyId → PropertyId → Prop} (size : Nat)
    (hsource : ∀ a b, r a b → a.index < size) (hirrefl : ∀ a, ¬ Relation.TransGen r a a) :
    WellFounded fun b a => r a b := by
  have hfinite : {a : PropertyId | a.index < size}.Finite := by
    refine Set.Finite.of_finite_image (f := PropertyId.index) ((Set.finite_lt_nat size).subset ?_) ?_
    · rintro _ ⟨a, ha, rfl⟩
      exact ha
    · rintro ⟨i⟩ _ ⟨j⟩ _ rfl
      rfl
  have : IsStrictOrder PropertyId fun b a => Relation.TransGen r a b :=
    { irrefl := hirrefl, trans := fun _ _ _ hba hcb => hcb.trans hba }
  -- A property that judges nothing is no source, and every other one is one of finitely many.
  have hacc : ∀ a, a.index < size → Acc (fun b a => r a b) a := by
    intro a ha
    refine (hfinite.wellFoundedOn (r := fun b a => Relation.TransGen r a b)).induction ha fun a _ ih => ?_
    refine .intro a fun b hab => ?_
    by_cases hb : b.index < size
    · exact ih b hb (.single hab)
    · exact .intro b fun c hbc => absurd (hsource b c hbc) hb
  refine ⟨fun a => ?_⟩
  by_cases ha : a.index < size
  · exact hacc a ha
  · exact .intro a fun b hab => absurd (hsource a b hab) ha

theorem Guarded.wellFounded (h : graph.Guarded) : WellFounded fun b a => graph.JudgesWhole a b :=
  wellFounded_of_irrefl _ (fun _ _ hjudges => Judges.hasProperty (Or.inl hjudges)) h

/-- The second property is judged by on the way down from the first one, and not on any way back. -/
def Below (graph : Graph) (a b : PropertyId) : Prop :=
  Relation.TransGen graph.Judges a b ∧ ¬ Relation.TransGen graph.Judges b a

theorem wellFounded_below (graph : Graph) : WellFounded fun b a => graph.Below a b := by
  have htrans : ∀ a b, Relation.TransGen graph.Below a b → graph.Below a b := by
    intro a b h
    induction h with
    | single h => exact h
    | tail _ hlast ih => exact ⟨ih.1.trans hlast.1, fun hback => ih.2 (hlast.1.trans hback)⟩
  have hirrefl : ∀ a, ¬ Relation.TransGen graph.Below a a := fun a ha => (htrans a a ha).2 (htrans a a ha).1
  refine wellFounded_of_irrefl graph.properties.size (fun a b hbelow => ?_) hirrefl
  obtain ⟨_, hjudges, _⟩ := Relation.TransGen.head'_iff.1 hbelow.1
  exact hjudges.hasProperty

end Graph
end SchemaTypes

import SchemaTypes.Check.Description
import SchemaTypes.Proofs.Types.Marks
/-!
# Families of checks

What a kind of value is asked for beyond its kind are the checks of one shape: lengths and patterns for texts, bounds for
numbers, items for arrays, a type for objects.  They come in a fixed order, each at most once (`Check.IsFamily`), and
fingerprints tell them apart (`Check.place_eq_of_fingerprint_eq`).  All of them run last.
-/
namespace SchemaTypes

/-- The kind whose checks are asked of a kind: integers have those of numbers. -/
def Kind.shape : Kind → Kind
  | .integer => .number
  | kind => kind

theorem Kind.shape_eq_of_accepts {kind : Kind} {value : Json} (h : kind.accepts value = true) :
    (Kind.ofValue value).shape = kind.shape := by
  have hincludes : Kind.ofValue value = kind ∨ kind = .number ∧ Kind.ofValue value = .integer := by
    simpa [Kind.accepts, Kind.includes] using h
  rcases hincludes with heq | ⟨hnumber, hinteger⟩
  · rw [heq]
  · rw [hnumber, hinteger]
    rfl

/-- Two kinds with the same checks are the two kinds of numbers. -/
theorem Kind.shape_eq_number {a b : Kind} (h : a.shape = b.shape) (hne : a ≠ b) :
    a.shape = .number ∧ b.shape = .number := by
  cases a <;> cases b <;> first | exact absurd rfl hne | exact ⟨rfl, rfl⟩ | cases h

namespace Check

/-- The shape of the values that have the check of their own. -/
def shape? : Check → Option Kind
  | .minimum .. | .maximum .. | .multipleOf _ => some .number
  | .pattern _ | .minLength _ | .maxLength _ => some .string
  | .minItems _ | .maxItems _ | .uniqueItems | .items _ | .tuple _ | .noAdditionalItems _ | .additionalItems ..
  | .contains _ => some .array
  | .instanceOf _ => some .object
  | _ => none

variable {c d : Check} {kind : Kind} {checks : List Check}

theorem defaultPriority_of_shape (h : c.shape? = some kind) : c.defaultPriority = 99 := by
  cases c <;> first | rfl | cases h

theorem withNull_of_shape (h : c.shape? = some kind) (settles : Bool) : c.withNull settles = c := by
  cases c <;> first | rfl | cases h

theorem isRequired_of_shape (h : c.shape? = some kind) : c.isRequired = false := by
  cases c <;> first | rfl | cases h

theorem isType_of_shape (h : c.shape? = some kind) : c.isType = false := by
  cases c <;> first | rfl | cases h

/-! ## Telling checks apart -/

/-- How the fingerprint of such a check begins, with a point behind its end. -/
def opening : Check → String
  | .minimum _ true => "value > "
  | .minimum _ false => "value >= "
  | .maximum _ true => "value < "
  | .maximum _ false => "value <= "
  | .multipleOf _ => "value % "
  | .pattern _ => "value matches "
  | .minLength _ => "length >= "
  | .maxLength _ => "length <= "
  | .minItems _ => "item count >= "
  | .maxItems _ => "item count <= "
  | .uniqueItems => "items are unique."
  | .items _ => "items."
  | .tuple _ => "tuple "
  | .noAdditionalItems _ => "at most "
  | .additionalItems .. => "additional items from "
  | .contains _ => "contains."
  | .instanceOf _ => "nested object."
  | _ => ""

/-- The openings, in the order in which the checks are added. -/
def openings : List String :=
  ["value > ", "value >= ", "value < ", "value <= ", "value % ", "value matches ", "length >= ", "length <= ",
    "item count >= ", "item count <= ", "items are unique.", "items.", "tuple ", "at most ", "additional items from ",
    "contains.", "nested object."]

/-- The place of a check in that order. -/
def place : Check → Nat
  | .minimum _ true => 0
  | .minimum _ false => 1
  | .maximum _ true => 2
  | .maximum _ false => 3
  | .multipleOf _ => 4
  | .pattern _ => 5
  | .minLength _ => 6
  | .maxLength _ => 7
  | .minItems _ => 8
  | .maxItems _ => 9
  | .uniqueItems => 10
  | .items _ => 11
  | .tuple _ => 12
  | .noAdditionalItems _ => 13
  | .additionalItems .. => 14
  | .contains _ => 15
  | .instanceOf _ => 16
  | _ => 17

theorem openings_place (h : c.shape? = some kind) : openings[c.place]? = some c.opening := by
  cases c with
  | minimum limit exclusive => cases exclusive <;> rfl
  | maximum limit exclusive => cases exclusive <;> rfl
  | _ => first | rfl | cases h

theorem exists_fingerprint_eq (h : c.shape? = some kind) : ∃ rest, c.fingerprint ++ "." = c.opening ++ rest := by
  cases c with
  | minimum limit exclusive => cases exclusive <;> exact ⟨limit.text ++ ".", String.append_assoc⟩
  | maximum limit exclusive => cases exclusive <;> exact ⟨limit.text ++ ".", String.append_assoc⟩
  | multipleOf divisor =>
    refine ⟨divisor.text ++ " == 0" ++ ".", ?_⟩
    rw [← String.append_assoc, ← String.append_assoc]
    rfl
  | noAdditionalItems expected =>
    refine ⟨toString expected ++ " items" ++ ".", ?_⟩
    rw [← String.append_assoc, ← String.append_assoc]
    rfl
  | pattern regex => exact ⟨slashed regex ++ ".", String.append_assoc⟩
  | tuple positions => exact ⟨toString positions.length ++ ".", String.append_assoc⟩
  | additionalItems offset item => exact ⟨toString offset ++ ".", String.append_assoc⟩
  | minLength n | maxLength n | minItems n | maxItems n => exact ⟨toString n ++ ".", String.append_assoc⟩
  | uniqueItems => exact ⟨"", rfl⟩
  | items | contains | instanceOf => exact ⟨"", rfl⟩
  | _ => cases h

/-- No opening begins another one. -/
theorem eq_of_isPrefixOf : ∀ i < openings.length, ∀ j < openings.length, ∀ a ∈ openings[i]?, ∀ b ∈ openings[j]?,
    a.toList.isPrefixOf b.toList = true → i = j := by
  decide +kernel

theorem place_eq_of_fingerprint_eq {other : Kind} (hc : c.shape? = some kind) (hd : d.shape? = some other)
    (h : c.fingerprint = d.fingerprint) : c.place = d.place := by
  obtain ⟨rest, hrest⟩ := exists_fingerprint_eq hc
  obtain ⟨rest', hrest'⟩ := exists_fingerprint_eq hd
  have hopening := openings_place hc
  have hopening' := openings_place hd
  have hlt := (List.getElem?_eq_some_iff.1 hopening).1
  have hlt' := (List.getElem?_eq_some_iff.1 hopening').1
  have hprefix : c.opening.toList <+: (c.fingerprint ++ ".").toList := ⟨rest.toList, by rw [hrest, String.toList_append]⟩
  have hprefix' : d.opening.toList <+: (c.fingerprint ++ ".").toList :=
    ⟨rest'.toList, by rw [h, hrest', String.toList_append]⟩
  rcases List.prefix_or_prefix_of_prefix hprefix hprefix' with hle | hle
  · exact eq_of_isPrefixOf _ hlt _ hlt' _ hopening _ hopening' (List.isPrefixOf_iff_prefix.2 hle)
  · exact (eq_of_isPrefixOf _ hlt' _ hlt _ hopening' _ hopening (List.isPrefixOf_iff_prefix.2 hle)).symm

/-- The place tells the shape. -/
theorem shape_eq_of_place_eq {other : Kind} (hc : c.shape? = some kind) (hd : d.shape? = some other)
    (h : c.place = d.place) : kind = other := by
  have hshapes : ∀ {c : Check} {kind : Kind}, c.shape? = some kind →
      (c.place ≤ 4 ∧ kind = .number) ∨ (5 ≤ c.place ∧ c.place ≤ 7 ∧ kind = .string) ∨
        (8 ≤ c.place ∧ c.place ≤ 15 ∧ kind = .array) ∨ (c.place = 16 ∧ kind = .object) := by
    intro c kind h
    cases c with
    | minimum limit exclusive => cases h; cases exclusive <;> simp [place]
    | maximum limit exclusive => cases h; cases exclusive <;> simp [place]
    | _ => first | (cases h; simp [place]) | cases h
  rcases hshapes hc with ⟨hc, rfl⟩ | ⟨hc, hc', rfl⟩ | ⟨hc, hc', rfl⟩ | ⟨hc, rfl⟩ <;>
    rcases hshapes hd with ⟨hd, rfl⟩ | ⟨hd, hd', rfl⟩ | ⟨hd, hd', rfl⟩ | ⟨hd, rfl⟩ <;> first | rfl | omega

/-! ## Families -/

/-- Checks of a kind's own, in their order, each at most once. -/
structure IsFamily (kind : Kind) (checks : List Check) : Prop where
  shape : ∀ c ∈ checks, c.shape? = some kind.shape
  ordered : checks.Pairwise (·.place < ·.place)

theorem isFamily_nil (kind : Kind) : IsFamily kind [] := ⟨fun _ h => absurd h List.not_mem_nil, .nil⟩

/-- One more check, which belongs behind the others. -/
theorem IsFamily.append (h : IsFamily kind checks) (hc : c.shape? = some kind.shape)
    (hlater : ∀ d ∈ checks, d.place < c.place) : IsFamily kind (checks ++ [c]) := by
  refine ⟨fun d hd => ?_, List.pairwise_append.2 ⟨h.ordered, List.pairwise_singleton _ _, fun d hd e he => ?_⟩⟩
  · rcases List.mem_append.1 hd with hd | hd
    · exact h.shape d hd
    · exact List.mem_singleton.1 hd ▸ hc
  · exact List.mem_singleton.1 he ▸ hlater d hd

end Check

/-! ## Lists in order -/

namespace Validators

variable {validators : Validators} {validator : Validator} {before after : List Validator}

theorem place_between (arrival : Arrival) : ∀ {before after : List Arrival},
    (∀ a ∈ before, a.validator.priority ≤ arrival.validator.priority) →
    (∀ a ∈ after, arrival.validator.priority < a.validator.priority) →
    place arrival (before ++ after) = before ++ arrival :: after
  | [], [], _, _ => rfl
  | [], first :: rest, _, hafter => by
    rw [List.nil_append, place, if_neg (Nat.not_le_of_lt (hafter first List.mem_cons_self))]
    rfl
  | first :: rest, after, hbefore, hafter => by
    rw [List.cons_append, place, if_pos (hbefore first List.mem_cons_self),
      place_between arrival (fun a ha => hbefore a (List.mem_cons_of_mem _ ha)) hafter]
    rfl

/-- What is added goes between what runs no later and what runs later. -/
theorem toList_add_between (h : validators.toList = before ++ after)
    (hbefore : ∀ v ∈ before, v.priority ≤ validator.priority) (hafter : ∀ v ∈ after, validator.priority < v.priority) :
    (validators.add validator).toList = before ++ validator :: after := by
  obtain ⟨first, second, harrivals, rfl, rfl⟩ := List.map_eq_append_iff.1 h
  have hplaced : place ⟨validators.next, validator⟩ (first ++ second) = first ++ ⟨validators.next, validator⟩ :: second :=
    place_between _ (fun a ha => hbefore _ (List.mem_map_of_mem ha)) fun a ha => hafter _ (List.mem_map_of_mem ha)
  unfold toList add
  rw [harrivals, hplaced, List.map_append, List.map_cons]

/-- What runs last is added behind. -/
theorem toList_add_last (h : ∀ v ∈ validators.toList, v.priority ≤ validator.priority) :
    (validators.add validator).toList = validators.toList ++ [validator] :=
  toList_add_between (List.append_nil _).symm h fun _ hv => absurd hv List.not_mem_nil

end Validators
end SchemaTypes

import SchemaTypes.Proofs.Evaluation.Population
import SchemaTypes.Proofs.Evaluation.Preservation
/-!
# Merging the outcomes of branches

After a composition each member is what the last passing branch offers that affects its name; what no branch offers stays, if
a passing branch affects it, and is reset if only failing ones do.  `Settles` says so as a relation, with a case for each
sentence, and populating is the only function that fulfils it (`Evaluation.populate_settles`).
-/
namespace SchemaTypes.Evaluation

variable {round : Round} {result : Branch × Outcome} {name : String} {member found : Option Json} {value : Json}

/-- The branch has passed, affects the name, and its output is an object with this value under it. -/
def Offers (result : Branch × Outcome) (name : String) (value : Json) : Prop :=
  result.2.isValid = true ∧ name ∈ result.1.affected ∧
    ∃ output : Members, result.2.value = some (.object output) ∧ output.get? name = some value

/-- What becomes of a member. -/
inductive Settles (round : Round) (name : String) (member : Option Json) : Option Json → Prop
  | populated {before after : Round} {result : Branch × Outcome} {value : Json} :
    round = before ++ result :: after → Offers result name value → (∀ later ∈ after, ∀ other, ¬ Offers later name other) →
      Settles round name member (some value)
  | kept : (∀ result ∈ round, ∀ value, ¬ Offers result name value) →
      (∃ result ∈ round, result.2.isValid = true ∧ name ∈ result.1.affected) → Settles round name member member
  | reset : (∀ result ∈ round, result.2.isValid = true → name ∉ result.1.affected) →
      (∃ result ∈ round, result.2.isValid = false ∧ name ∈ result.1.affected) → member.isSome = true →
        Settles round name member (some .null)
  | untouched : (∀ result ∈ round, result.2.isValid = true → name ∉ result.1.affected) →
      ¬ ((∃ result ∈ round, result.2.isValid = false ∧ name ∈ result.1.affected) ∧ member.isSome = true) →
        Settles round name member member

/-! ## Offers -/

theorem offers_iff : Offers result name value ↔
    (if result.2.isValid && result.1.affected.contains name then result.2.value.bind (·.get? name) else none) =
      some value := by
  unfold Offers
  rw [← and_assoc, ← List.contains_iff_mem, ← Bool.and_eq_true]
  split
  · rename_i htakes
    rw [and_iff_right htakes, Option.bind_eq_some_iff]
    constructor
    · rintro ⟨output, houtput, hvalue⟩
      exact ⟨.object output, houtput, hvalue⟩
    · rintro ⟨output, houtput, hvalue⟩
      cases output with
      | object members => exact ⟨members, houtput, hvalue⟩
      | _ => cases hvalue
  · rename_i hpasses
    exact iff_of_false (fun h => hpasses h.1) nofun

theorem forall_not_offers_iff : (∀ value, ¬ Offers result name value) ↔
    (if result.2.isValid && result.1.affected.contains name then result.2.value.bind (·.get? name) else none) = none := by
  rw [Option.eq_none_iff_forall_ne_some]
  exact forall_congr' fun value => not_congr offers_iff

namespace Round

theorem output?_eq_none_iff :
    round.output? name = none ↔ ∀ result ∈ round, ∀ value, ¬ Offers result name value := by
  unfold output?
  rw [List.findSome?_eq_none_iff]
  simp only [List.mem_reverse, forall_not_offers_iff]

theorem output?_eq_some_iff : round.output? name = some value ↔ ∃ before result after,
    round = before ++ result :: after ∧ Offers result name value ∧
      ∀ later ∈ after, ∀ other, ¬ Offers later name other := by
  unfold output?
  rw [List.findSome?_eq_some_iff]
  constructor
  · rintro ⟨after, result, before, hsplit, hresult, hafter⟩
    refine ⟨before.reverse, result, after.reverse, ?_, offers_iff.2 hresult, fun later hlater =>
      forall_not_offers_iff.2 (hafter later (List.mem_reverse.1 hlater))⟩
    rw [List.reverse_eq_iff.1 hsplit]
    simp
  · rintro ⟨before, result, after, rfl, hresult, hafter⟩
    exact ⟨after.reverse, result, before.reverse, by simp, offers_iff.1 hresult, fun later hlater =>
      forall_not_offers_iff.1 (hafter later (List.mem_reverse.1 hlater))⟩

theorem passes_iff : round.passes name = true ↔
    ∃ result ∈ round, result.2.isValid = true ∧ name ∈ result.1.affected := by
  simp only [passes, List.any_eq_true, Bool.and_eq_true, List.contains_iff_mem]

theorem passes_eq_false_iff : round.passes name = false ↔
    ∀ result ∈ round, result.2.isValid = true → name ∉ result.1.affected := by
  simp only [passes, List.any_eq_false, Bool.and_eq_true, List.contains_iff_mem, not_and]

theorem fails_iff : round.fails name = true ↔
    ∃ result ∈ round, result.2.isValid = false ∧ name ∈ result.1.affected := by
  simp only [fails, List.any_eq_true, Bool.and_eq_true, Bool.not_eq_true', List.contains_iff_mem]

end Round

/-! ## What becomes of a member -/

theorem settle_of_output (h : round.output? name = some value) : round.settle name member = some value := by
  rw [Round.settle, h, Option.some_or]

theorem settle_of_passes (houtput : round.output? name = none) (hpasses : round.passes name = true) :
    round.settle name member = member := by
  rw [Round.settle, houtput, hpasses, Bool.not_true, Bool.and_false, if_neg Bool.false_ne_true, Option.none_or]

theorem settle_of_not_passes (hpasses : round.passes name = false) :
    round.settle name member = if round.fails name then member.map fun _ => .null else member := by
  rw [Round.settle, Round.output?_eq_none hpasses, hpasses, Bool.not_false, Bool.and_true, Option.none_or]

theorem settle_of_settles (h : Settles round name member found) : round.settle name member = found := by
  cases h with
  | populated hsplit hoffers hlast =>
    exact settle_of_output (Round.output?_eq_some_iff.2 ⟨_, _, _, hsplit, hoffers, hlast⟩)
  | kept hnone hpasses => exact settle_of_passes (Round.output?_eq_none_iff.2 hnone) (Round.passes_iff.2 hpasses)
  | reset hpasses hfails hmember =>
    obtain ⟨value, rfl⟩ := Option.isSome_iff_exists.1 hmember
    rw [settle_of_not_passes (Round.passes_eq_false_iff.2 hpasses), if_pos (Round.fails_iff.2 hfails)]
    rfl
  | untouched hpasses hnone =>
    rw [settle_of_not_passes (Round.passes_eq_false_iff.2 hpasses)]
    cases member with
    | none => exact ite_self none
    | some value => exact if_neg fun hfails => hnone ⟨Round.fails_iff.1 hfails, rfl⟩

theorem settles_settle (round : Round) (name : String) (member : Option Json) :
    Settles round name member (round.settle name member) := by
  cases houtput : round.output? name with
  | some value =>
    obtain ⟨before, result, after, hsplit, hoffers, hlast⟩ := Round.output?_eq_some_iff.1 houtput
    rw [settle_of_output houtput]
    exact .populated hsplit hoffers hlast
  | none =>
    cases hpasses : round.passes name with
    | true =>
      rw [settle_of_passes houtput hpasses]
      exact .kept (Round.output?_eq_none_iff.1 houtput) (Round.passes_iff.1 hpasses)
    | false =>
      have hnone := Round.passes_eq_false_iff.1 hpasses
      rw [settle_of_not_passes hpasses]
      cases hfails : round.fails name with
      | false => exact .untouched hnone fun h => nomatch (Round.fails_iff.2 h.1).symm.trans hfails
      | true =>
        cases member with
        | none => exact .untouched hnone fun h => nomatch h.2
        | some value => exact .reset hnone (Round.fails_iff.1 hfails) rfl

/-- **Populating merges the outcomes of all branches**: under every name there is what becomes of the member, and members
that have been there keep their places. -/
theorem populate_settles (round : Round) (model : Members) :
    (∀ name found, Settles round name (model.get? name) found ↔ (populate model round).get? name = found) ∧
      model.names <+: (populate model round).names := by
  have hkept : Members.Kept (fun _ => True) model (populate model round) :=
    kept_populate (fun _ _ _ _ => trivial) (.refl _ _)
  refine ⟨fun name found => ?_, hkept.names⟩
  rw [get?_populate]
  refine ⟨settle_of_settles, fun h => ?_⟩
  rw [← h]
  exact settles_settle round name (model.get? name)

end SchemaTypes.Evaluation

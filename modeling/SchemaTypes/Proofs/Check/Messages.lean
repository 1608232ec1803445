import SchemaTypes.Proofs.Check.Slots
/-!
# What a message says

A message is filled slot by slot, each filling going over the whole text, what earlier ones have put there included.  So
the words of a template stay as they are, and a failed composition states how many branches have matched, whatever the
property is called (`Check.message_composition`).

A name or a pattern that has a slot for a later parameter in it does not come out as it is (`Check.message_substituted`).
-/
namespace SchemaTypes.Check

section Compositions

variable (combinator : Combinator) (branches : List Branch) (onObject : Bool)

/-- The text with the slots of a failed composition filled. -/
def filledIn (text : List Char) (matched : Nat) : List Char :=
  fillSlots (fillSlots text (composition combinator branches onObject).parameters) [("matched", .ofNat matched)]

theorem expandedSlot_property (name : String) (matched : Nat) :
    Template.expandedSlot ((composition combinator branches onObject).fillings name [("matched", .ofNat matched)])
      "property" = filledIn combinator branches onObject name.toList matched := by
  unfold filledIn fillSlots
  rw [← List.foldl_append]
  rfl

/-- **The message of a failed composition** states the requirement and how many branches have matched.  The name of the
property stands in it with its own slots filled, if it has any. -/
theorem message_composition (name : String) (matched : Nat) :
    (composition combinator branches onObject).message name [("matched", .ofNat matched)] =
      "Invalid value for " ++ String.ofList (filledIn combinator branches onObject name.toList matched) ++
        " declined by composition constraint. Requires to match " ++ combinator.requirement ++
        " but matched " ++ toString matched ++ " elements" := by
  have hunbroken : Template.IsUnbroken "matched" := by decide
  have hruntime : ∀ parameter ∈ [("matched", Json.ofNat matched)], Template.IsUnbroken parameter.1 :=
    List.forall_mem_singleton.2 hunbroken
  have hproperty := expandedSlot_property combinator branches onObject name matched
  rw [message_eq_expanded _ _ _ hruntime]
  generalize hfillings :
    (composition combinator branches onObject).fillings name [("matched", .ofNat matched)] = fillings
  have hrequirement : Template.expandedSlot fillings "requirement" = combinator.requirement.toList := by
    subst hfillings
    cases combinator <;> rfl
  have hmatched : Template.expandedSlot fillings "matched" = (toString matched).toList := by
    subst hfillings
    rfl
  rw [hfillings] at hproperty
  refine String.toList_inj.1 ?_
  simp [template, Template.filledWith, hproperty, hrequirement, hmatched]

end Compositions

/-! ## What is substituted -/

/-- **Messages and what is substituted in them.**  If no text has a slot for a later parameter, all slots are filled at
once, and every text comes out as it is.  Else what is in a slot is the text of the first parameter of its name, with the
slots for later parameters filled in it, if no name has a separator in it. -/
theorem message_substituted (check : Check) (property : String) (runtime : Members) :
    (check.template.Undisturbed (check.fillings property runtime) →
        check.message property runtime = check.template.filled (check.fillings property runtime)) ∧
      ((∀ parameter ∈ runtime, Template.IsUnbroken parameter.1) → check.message property runtime =
        String.ofList (check.template.filledWith (Template.expandedSlot (check.fillings property runtime)))) :=
  ⟨check.message_eq_filled property runtime, check.message_eq_expanded property runtime⟩

/-- A count in braces comes out as it is where the check has no count, and else it is replaced. -/
theorem message_substituted_braces :
    (minimum (.integer 2) false).message "{count}" [] = "Value for {count} must not be smaller than 2" ∧
      (minProperties 3).message "{count}" [] = "Provided object for 3 must not contain less than 3 properties" := by
  have hlimit : Template.IsUnbroken "limit" := by decide
  have hclear : Template.IsClear "limit" "{count}".toList := by
    refine hlimit.isClear fun hoccurs => ?_
    have hletter : 'l' ∈ Template.placeholder "limit" := by decide
    exact absurd (hoccurs.subset hletter) (by decide)
  have hundisturbed : (minimum (.integer 2) false).template.Undisturbed
      ((minimum (.integer 2) false).fillings "{count}" []) := List.pairwise_pair.2 fun _ => hclear
  constructor
  · rw [(message_substituted (minimum (.integer 2) false) "{count}" []).1 hundisturbed]
    decide +kernel
  · rw [(message_substituted (minProperties 3) "{count}" []).2 fun _ h => nomatch h]
    decide +kernel

/-- **Not all slots are filled at once**: the limit is put into the name of a property. -/
theorem not_forall_message_eq_filled : ¬ ∀ (check : Check) (property : String) (runtime : Members),
    (∀ parameter ∈ runtime, parameter.1 ∉ check.parameters.names) →
      check.message property runtime = check.template.filled (check.fillings property runtime) := by
  intro h
  have hequal := h (minimum (.integer 2) false) "{limit}" [] fun _ hparameter => nomatch hparameter
  exact absurd hequal (by decide +kernel)

end SchemaTypes.Check

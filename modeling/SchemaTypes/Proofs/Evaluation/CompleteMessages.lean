import SchemaTypes.Proofs.Evaluation.Violations
/-!
# Complete messages

The slots of a template are the property's, parameters of the check, and parameters that a failing run adds
(`Check.mem_slots`), and a failing run adds all that it should (`Verdict.Stems`).  So no slot of a message is left as it
is: if the texts that are put into a template have no brace, neither has the message (`Violation.Stems.isComplete`).
-/
namespace SchemaTypes

/-! ## What templates name -/

/-- **Every slot is known**, when the check is built or when it fails. -/
theorem Check.mem_slots (check : Check) : ∀ slot ∈ check.template.slots,
    slot = "property" ∨ slot ∈ check.parameters.names ∨ slot ∈ check.runtimeNames := by
  cases check with
  | minimum limit exclusive => cases exclusive <;> simp [template, Template.slots, parameters, Members.names]
  | maximum limit exclusive => cases exclusive <;> simp [template, Template.slots, parameters, Members.names]
  | _ => simp [template, Template.slots, parameters, Members.names, runtimeNames]

/-- Each slot of the check's template is the property's, or a parameter of the check or of the failing run. -/
def Failure.Covers (failure : Failure) (check : Check) : Prop :=
  ∀ slot ∈ check.template.slots,
    slot = "property" ∨ slot ∈ check.parameters.names ∨ slot ∈ failure.runtime.names

theorem Failure.covers_of_names {failure : Failure} {check : Check}
    (h : failure.runtime.names = check.runtimeNames) : failure.Covers check :=
  fun slot hslot => h ▸ check.mem_slots slot hslot

theorem Verdict.Stems.covers {failure : Failure} {check : Check} (h : (Verdict.fail failure).Stems check) :
    failure.Covers check := Failure.covers_of_names h.1

/-! ## Braces -/

namespace Members

variable {members others : Members} {name : String}

theorem insert_of_not_mem (value : Json) : ∀ {members : Members}, name ∉ members.names →
    members.insert name value = members ++ [(name, value)]
  | [], _ => rfl
  | (other, old) :: rest, h => by
    obtain ⟨hne, hrest⟩ := not_or.1 (List.mem_cons.not.1 h)
    rw [insert, if_neg (Ne.symm hne), insert_of_not_mem value hrest]
    rfl

/-- Members under other names are inserted behind those that are there. -/
theorem insertAll_of_apart : ∀ {others members : Members}, others.names.Nodup →
    (∀ name ∈ others.names, name ∉ members.names) → members.insertAll others = members ++ others
  | [], members, _, _ => (List.append_nil members).symm
  | (name, value) :: rest, members, hnodup, hapart => by
    obtain ⟨hname, hnodup⟩ := List.nodup_cons.1 hnodup
    obtain ⟨hnew, hapart⟩ := List.forall_mem_cons.1 hapart
    have hinserted : members.insertAll ((name, value) :: rest) = (members.insert name value).insertAll rest := rfl
    rw [hinserted, insertAll_of_apart hnodup, insert_of_not_mem value hnew, List.append_assoc]
    · rfl
    · intro other hother hmem
      rcases mem_names_insert.1 hmem with rfl | hmem
      · exact hname hother
      · exact hapart other hother hmem

end Members

/-- Braces come with what is put into the slots only. -/
theorem Template.not_mem_filledWith_opening {content : String → List Char} : ∀ {template : Template},
    template.isSpaced = true → (∀ name ∈ template.slots, '{' ∉ content name) → '{' ∉ template.filledWith content
  | [], _, _ => List.not_mem_nil
  | .text words :: template, hspaced, h => by
    obtain ⟨hwords, hspaced⟩ := isSpaced_text.1 hspaced
    rw [filledWith_text, List.mem_append, not_or]
    exact ⟨hwords.1, not_mem_filledWith_opening hspaced h⟩
  | .slot name :: template, hspaced, h => by
    obtain ⟨hname, hrest⟩ := List.forall_mem_cons.1 h
    rw [filledWith_slot, List.mem_append, not_or]
    exact ⟨hname, not_mem_filledWith_opening (isSpaced_slot.1 hspaced).2.2 hrest⟩

namespace Violation

/-- The message has no slot left if nothing that is put into it has a brace. -/
def IsComplete (violation : Violation) : Prop :=
  ∃ (check : Check) (failure : Failure), violation = failure.violation check violation.property ∧
    failure.Covers check ∧
    ('{' ∉ violation.property.toList →
      (∀ parameter ∈ violation.parameters, parameter.1 ∈ check.template.slots → '{' ∉ parameter.2.inMessage.toList) →
      ∀ name, ¬ Template.placeholder name <:+: violation.message.toList)

end Violation

namespace Failure

variable {failure : Failure} {check : Check} {property : String}

/-- A message is filled with the property and the violation's parameters. -/
theorem fillings_eq (h : failure.runtime.names = check.runtimeNames) (property : String) :
    check.fillings property failure.runtime =
      ("property", .string property) :: (failure.violation check property).parameters := by
  have hparameters : (failure.violation check property).parameters = check.parameters ++ failure.runtime := by
    refine Members.insertAll_of_apart (h ▸ check.nodup_runtimeNames) fun name hname => ?_
    exact check.names_apart name (List.mem_cons_of_mem _ (h ▸ hname))
  rw [hparameters]
  rfl

/-- **A message has a brace only if the property has one**, or a parameter that is put into it. -/
theorem not_mem_message (h : failure.runtime.names = check.runtimeNames) (hproperty : '{' ∉ property.toList)
    (hparameters : ∀ parameter ∈ (failure.violation check property).parameters,
      parameter.1 ∈ check.template.slots → '{' ∉ parameter.2.inMessage.toList) :
    '{' ∉ (failure.violation check property).message.toList := by
  have hfillings := fillings_eq h property
  have hbraces : ∀ parameter ∈ check.fillings property failure.runtime,
      parameter.1 ∈ check.template.slots → '{' ∉ parameter.2.inMessage.toList := by
    rw [hfillings]
    exact List.forall_mem_cons.2 ⟨fun _ => hproperty, hparameters⟩
  have hmessage : (failure.violation check property).message = check.message property failure.runtime := rfl
  rw [hmessage, check.message_eq_filled property failure.runtime (.of_not_mem hbraces), Template.filled,
    String.toList_ofList]
  refine Template.not_mem_filledWith_opening check.isSpaced_template fun slot hslot => ?_
  have hknown : slot ∈ (check.fillings property failure.runtime).names := by
    have hslots := covers_of_names h slot hslot
    simpa [Check.fillings, Members.names] using hslots
  obtain ⟨value, hvalue⟩ := Option.isSome_iff_exists.1 (Members.isSome_get?.2 hknown)
  unfold Template.slotText
  rw [hvalue]
  exact hbraces _ (Members.mem_of_get? hvalue) hslot

end Failure

namespace Violation

theorem Stems.isComplete {violation : Violation} (h : violation.Stems) : violation.IsComplete := by
  obtain ⟨check, failure, hnames, heq⟩ := h
  refine ⟨check, failure, heq, Failure.covers_of_names hnames, fun hproperty hparameters name hoccurs => ?_⟩
  rw [heq] at hparameters
  have hmessage := Failure.not_mem_message hnames hproperty hparameters
  rw [← heq] at hmessage
  exact hmessage (hoccurs.subset List.mem_cons_self)

/-- **No slot of a message is left as it is.**  Whichever check fails, and however it does, all slots of its template are
known; so in what evaluation reports, of a value or of a property of one, no message, at any depth, has a slot in it that
does not come with the property's name or with a parameter. -/
theorem messages_complete :
    (∀ (graph : Graph) (mode : Mode) (bound : Nat) (check : Check) (failure : Failure),
      (∀ value left, Evaluation.runCheck graph mode (Evaluation.property graph mode bound) check value =
          some (.fail failure, left) → failure.Covers check) ∧
        ∀ input model changed, Evaluation.runTypeCheck mode (Evaluation.property graph mode bound) input model check =
          some (.fail failure, changed) → failure.Covers check) ∧
    (∀ (graph : Graph) (mode : Mode) (type : TypeId) (value : Json) (result : Evaluation.Result),
      graph.evaluate mode type value = some result →
        ∀ violation ∈ result.report, violation.Throughout IsComplete) ∧
    ∀ (graph : Graph) (mode : Mode) (id : PropertyId) (value : Option Json) (outcome : Outcome),
      graph.evaluateProperty mode id value = some outcome →
        ∀ violation ∈ outcome.violations, violation.Throughout IsComplete := by
  refine ⟨fun graph mode bound check failure => ⟨fun value left h => ?_, fun input model changed h => ?_⟩,
    fun graph mode type value result h violation hviolation => ?_,
    fun graph mode id value outcome h violation hviolation => ?_⟩
  · exact ((Evaluation.property_stems graph mode bound).runCheck graph check value _ h).covers
  · exact ((Evaluation.property_stems graph mode bound).runTypeCheck input model check _ h).covers
  · exact (Graph.evaluate_stems h violation hviolation).imp fun _ => Stems.isComplete
  · exact (Graph.evaluateProperty_stems h violation hviolation).imp fun _ => Stems.isComplete

/-- A type with scores: an array of numbers up to ten. -/
def scores : Graph where
  properties := #[{ name := "scores", identifier := "scores", required := false,
                    validators := Validators.empty.addCheck (.items ⟨1⟩) },
                  { name := "score", identifier := "score", required := false,
                    validators := Validators.empty.addCheck (.maximum (.integer 10) false) }]
  types := #[{ name := ⟨"", "Game"⟩, isRoot := true, properties := [⟨0⟩] }]

def highScores : Json := .array [.number (.integer 9), .number (.integer 12)]

/-- How the scores fail to be one item at most. -/
def crowded : Failure := { runtime := [("actual", .ofNat 2)] }

/-- A score is reported within the array, and too many of them are reported with their number. -/
theorem messages_complete_scores :
    crowded.Covers (.noAdditionalItems 1) ∧
    (∃ result, scores.evaluate .collectAll ⟨0⟩ (.object [("scores", highScores)]) = some result ∧
      result.isValid = false ∧ ∀ violation ∈ result.report, violation.Throughout IsComplete) ∧
    ∃ outcome, scores.evaluateProperty .failFast ⟨0⟩ (some highScores) = some outcome ∧ outcome.isValid = false ∧
      ∀ violation ∈ outcome.violations, violation.Throughout IsComplete := by
  obtain ⟨hchecks, hresults, houtcomes⟩ := messages_complete
  have hfails : Evaluation.runCheck scores .collectAll (Evaluation.property scores .collectAll 1) (.noAdditionalItems 1)
      (some highScores) = some (.fail crowded, some highScores) := rfl
  have hresult : scores.evaluate .collectAll ⟨0⟩ (.object [("scores", highScores)]) = some _ :=
    Evaluation.deepen_of_some rfl
  have houtcome : scores.evaluateProperty .failFast ⟨0⟩ (some highScores) = some _ := Evaluation.deepen_of_some rfl
  refine ⟨(hchecks scores .collectAll 1 _ _).1 _ _ hfails, ⟨_, hresult, rfl, hresults _ _ _ _ _ hresult⟩, ?_⟩
  exact ⟨_, houtcome, rfl, houtcomes _ _ _ _ _ houtcome⟩

end Violation

end SchemaTypes

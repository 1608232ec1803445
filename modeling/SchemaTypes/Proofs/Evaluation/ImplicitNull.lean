import SchemaTypes.Proofs.Building.Arranging
import SchemaTypes.Proofs.Building.Presence
import SchemaTypes.Proofs.Evaluation.GivenValue
/-!
# Null counts as absent

Where the settings let it, an explicit null is as good as no value for an optional property.  Three checks settle it: one
of the type, one of enumerated values, and one made for branches alone.  None of them is last.  Checks that would decline
null run behind these, and those before them let it pass, so that null is accepted whatever else is asked
(`Session.evaluateProperty_null`).

A property that lists null is the exception.  Null is a value to it as any other, and all its checks have to pass: a
constant string declines null though the type lists it (`Session.not_forall_null_accepted`).
-/
namespace SchemaTypes

open Building

namespace Check

/-- The check lists kinds or values. -/
def isChoice : Check → Bool
  | .type .. | .enumeration .. => true
  | _ => false

/-- It does, and null is none of them. -/
def omitsNull : Check → Bool
  | .type kinds _ => !kinds.contains .null
  | .enumeration values _ => !values.any Json.isNull
  | _ => false

theorem decidesNull_of_isChoice {check : Check} (h : check.isChoice = true) : decidesNull check = true := by
  cases check <;> first | rfl | cases h

end Check

namespace Evaluation

variable {config : Config} {graph : Graph} {mode : Mode} {judge : Judge} {check : Check} {name : String}
  {validators : List Validator}

/-! ## One check -/

/-- The flags of a check settle null unless the check lists it. -/
def FlagsNull (check : Check) : Prop := settlesNull check .null = (check.omitsNull || check.isImplicitNull)

theorem settlesNull_type (kinds : List Kind) (flag : Bool) : settlesNull (.type kinds flag) .null = flag := by
  cases flag <;> rfl

theorem settlesNull_enumeration (values : List Json) (flag : Bool) :
    settlesNull (.enumeration values flag) .null = flag := by
  cases flag <;> rfl

/-- Nothing puts another value in the place of null, standard filters included. -/
theorem transform_null (hfilters : config.filters ⊆ Filters.standard)
    (hadmits : config.Admits check) :
    transform graph mode judge check .null = (inspect judge mode check .null).map fun verdict => (verdict, .null) := by
  have hinspected : (do return (← inspect judge mode check .null, Json.null)) =
      (inspect judge mode check .null).map fun verdict => (verdict, .null) := by
    cases inspect judge mode check .null <;> rfl
  cases check with
  | filter =>
    obtain ⟨filter, hfilter, rfl, rfl⟩ := hadmits
    have hstandard := hfilters hfilter
    simp only [Filters.standard, List.mem_cons, List.not_mem_nil, or_false] at hstandard
    rcases hstandard with rfl | rfl <;> rfl
  | _ => exact hinspected

theorem runCheck_null (hfilters : config.filters ⊆ Filters.standard)
    (hadmits : config.Admits check) : runCheck graph mode judge check (some .null) =
      (inspect judge mode check .null).map fun verdict => (verdict, some .null) := by
  simp only [runCheck, transform_null hfilters hadmits]
  cases inspect judge mode check .null <;> rfl

/-- What neither decides about null nor has branches lets it pass. -/
theorem inspect_null_of_tame (hdecides : decidesNull check = false) (hcomposed : isComposed check = false)
    (hsettles : check.isImplicitNull = false) (hcustom : check.isCustom = false) :
    inspect judge mode check .null = some .pass := by
  cases check <;> first | rfl | simp [decidesNull, isComposed, Check.isImplicitNull, Check.isCustom] at *

/-- So does what lists it. -/
theorem inspect_null_of_listed (hchoice : check.isChoice = true) (homits : check.omitsNull = false)
    (hsettles : settlesNull check .null = false) : inspect judge mode check .null = some .pass := by
  unfold inspect
  rw [hsettles, if_neg Bool.false_ne_true]
  cases check with
  | type kinds flag =>
    have hlisted : kinds.any (·.accepts .null) = true := by
      simp only [Check.omitsNull, Bool.not_eq_false', List.contains_iff_mem] at homits
      exact List.any_eq_true.2 ⟨.null, homits, rfl⟩
    simp only [hlisted, if_true]
  | enumeration values flag =>
    have hlisted : values.any (·.equal .null) = true := by
      simp only [Check.omitsNull, Bool.not_eq_false', List.any_eq_true] at homits
      obtain ⟨value, hvalue, hnull⟩ := homits
      refine List.any_eq_true.2 ⟨value, hvalue, ?_⟩
      cases value <;> first | rfl | cases hnull
    simp only [hlisted]
    rfl
  | _ => cases hchoice

/-- Before constants, filters and branches, a check settles null or lets it pass. -/
theorem settles_or_passes (hflags : FlagsNull check) (hrank : check.rank ≤ 3) :
    settlesNull check .null = true ∨ inspect judge mode check .null = some .pass := by
  cases hsettles : settlesNull check .null with
  | true => exact Or.inl rfl
  | false =>
    rw [FlagsNull, hsettles, eq_comm, Bool.or_eq_false_iff] at hflags
    obtain ⟨homits, hnull⟩ := hflags
    refine Or.inr ?_
    cases check with
    | required => rfl
    | type => exact inspect_null_of_listed rfl homits hsettles
    | enumeration => exact inspect_null_of_listed rfl homits hsettles
    | implicitNull => cases hnull
    | _ => simp [Check.rank, Check.defaultPriority] at hrank

/-- What settles null stands before constants, filters and branches. -/
theorem rank_of_settles (hsettles : settlesNull check .null = true) : check.rank ≤ 3 := by
  cases check with
  | type | enumeration | implicitNull => simp [Check.rank, Check.defaultPriority]
  | _ => cases hsettles

/-! ## All checks -/

section

variable (hfilters : config.filters ⊆ Filters.standard)
include hfilters

/-- A run over null ends with null. -/
theorem runValidators_null_value : ∀ {validators : List Validator}, (∀ v ∈ validators, config.Admits v.check) →
    ∀ {outcome : Outcome}, runValidators graph mode judge name validators (some .null) = some outcome →
      outcome.value = some .null
  | [], _, _, h => by
    cases h
    rfl
  | validator :: rest, hadmits, outcome, h => by
    rw [List.forall_mem_cons] at hadmits
    simp only [runValidators, runCheck_null hfilters hadmits.1, Option.bind_eq_bind, Option.bind_eq_some_iff,
      Option.map_eq_some_iff] at h
    obtain ⟨_, ⟨verdict, -, rfl⟩, h⟩ := h
    cases verdict with
    | pass => exact runValidators_null_value hadmits.2 h
    | settle =>
      cases h
      rfl
    | fail failure =>
      simp only at h
      split at h
      · cases h
        rfl
      · obtain ⟨others, hothers, h⟩ := Option.bind_eq_some_iff.1 h
        cases h
        have hlast := runValidators_null_value hadmits.2 hothers
        exact hlast

theorem runValidators_null_passes : ∀ {validators : List Validator}, (∀ v ∈ validators, config.Admits v.check) →
    (∀ v ∈ validators, inspect judge mode v.check .null = some .pass) →
      runValidators graph mode judge name validators (some .null) = some { value := some .null }
  | [], _, _ => rfl
  | validator :: rest, hadmits, hpasses => by
    rw [List.forall_mem_cons] at hadmits hpasses
    have hcheck : runCheck graph mode judge validator.check (some .null) = some (.pass, some .null) := by
      rw [runCheck_null hfilters hadmits.1, hpasses.1]
      rfl
    rw [runValidators_of_pass hcheck]
    exact runValidators_null_passes hadmits.2 hpasses.2

/-- **The run ends at the first check that settles null**: none before it ranks higher, so null passes these. -/
theorem runValidators_null_settles : ∀ {validators : List Validator}, (∀ v ∈ validators, config.Admits v.check) →
    validators.Pairwise (fun earlier later => earlier.check.rank ≤ later.check.rank) →
    (∀ v ∈ validators, FlagsNull v.check) → (∃ v ∈ validators, settlesNull v.check .null = true) →
      runValidators graph mode judge name validators (some .null) = some { value := some .null }
  | [], _, _, _, ⟨_, hv, _⟩ => nomatch hv
  | validator :: rest, hadmits, hordered, hflags, ⟨v, hv, hsettles⟩ => by
    rw [List.forall_mem_cons] at hadmits hflags
    obtain ⟨hfirst, hordered⟩ := List.pairwise_cons.1 hordered
    have hrank : validator.check.rank ≤ 3 := by
      rcases List.mem_cons.1 hv with rfl | hv
      · exact rank_of_settles hsettles
      · exact Nat.le_trans (hfirst v hv) (rank_of_settles hsettles)
    cases hnow : settlesNull validator.check .null with
    | true =>
      simp only [runValidators, runCheck_null hfilters hadmits.1, inspect, hnow, if_true]
      rfl
    | false =>
      have hpasses : inspect judge mode validator.check .null = some .pass :=
        (settles_or_passes hflags.1 hrank).resolve_left (Bool.eq_false_iff.1 hnow)
      have hcheck : runCheck graph mode judge validator.check (some .null) = some (.pass, some .null) := by
        rw [runCheck_null hfilters hadmits.1, hpasses]
        rfl
      have hlater : ∃ w ∈ rest, settlesNull w.check .null = true := by
        rcases List.mem_cons.1 hv with rfl | hv
        · exact absurd hsettles (Bool.eq_false_iff.1 hnow)
        · exact ⟨v, hv, hsettles⟩
      rw [runValidators_of_pass hcheck]
      exact runValidators_null_settles hadmits.2 hordered hflags.2 hlater

/-- Where nothing settles null, it is a value like any other. -/
theorem accepted_null_iff : ∀ {validators : List Validator}, (∀ v ∈ validators, config.Admits v.check) →
    (∀ v ∈ validators, settlesNull v.check .null = false) →
      (Accepted (runValidators graph mode judge name validators (some .null)) ↔
        ∀ v ∈ validators, inspect judge mode v.check .null = some .pass)
  | [], _, _ => iff_of_true ⟨_, rfl, rfl⟩ fun _ hv => nomatch hv
  | validator :: rest, hadmits, hsettles => by
    rw [List.forall_mem_cons] at hadmits hsettles ⊢
    have hrest : Accepted (runValidators graph mode judge name rest (some .null)) ↔
        ∀ v ∈ rest, inspect judge mode v.check .null = some .pass := accepted_null_iff hadmits.2 hsettles.2
    rw [accepted_cons_iff hsettles.1, transform_null hfilters hadmits.1, ← hrest]
    cases inspect judge mode validator.check .null <;> simp

end
end Evaluation

namespace Property

open Evaluation

variable {config : Config} {property : Property}

/-- The marks of an optional property flag all its checks. -/
theorem FollowsMarks.flagsNull (h : property.FollowsMarks true) (hrequired : property.required = false)
    (hstrict : property.strict = false) (hrelaxed : property.relaxed = false) :
    ∀ v ∈ property.validators.toList, FlagsNull v.check := by
  intro v hv
  have htype := h.type v hv
  have henumeration := h.enumeration v hv
  have hnull := h.null v hv
  rw [hrequired, hstrict, hrelaxed] at htype henumeration hnull
  generalize v.check = check at htype henumeration hnull
  cases check with
  | type kinds flag =>
    rw [FlagsNull, settlesNull_type, htype kinds flag rfl]
    simp [Check.omitsNull, Check.isImplicitNull]
  | enumeration values flag =>
    rw [FlagsNull, settlesNull_enumeration, henumeration values flag rfl]
    simp [Check.omitsNull, Check.isImplicitNull]
  | implicitNull flag =>
    obtain rfl := hnull flag rfl
    rfl
  | _ => rfl

variable {graph : Graph} {mode : Mode} {judge : Judge}

/-- Null is absent to an arranged property that does not list it, and to one that has nothing to decide about null. -/
theorem Arranged.settles_or_passes (h : property.Arranged config)
    (hflags : ∀ v ∈ property.validators.toList, FlagsNull v.check)
    (habsent : property.validators.any Check.omitsNull = true ∨ property.validators.any decidesNull = false) :
    (∃ v ∈ property.validators.toList, Evaluation.settlesNull v.check .null = true) ∨
      ∀ v ∈ property.validators.toList, inspect judge mode v.check .null = some .pass := by
  have hsettles : ∀ v ∈ property.validators.toList, v.check.omitsNull = true ∨ v.check.isImplicitNull = true →
      Evaluation.settlesNull v.check .null = true := fun v hv hflag => by rw [hflags v hv, Bool.or_eq_true]; exact hflag
  rcases habsent with homits | hdecides
  · obtain ⟨v, hv, hcheck⟩ := Validators.any_eq_true.1 homits
    exact Or.inl ⟨v, hv, hsettles v hv (Or.inl hcheck)⟩
  · cases hnull : property.validators.any Check.isImplicitNull with
    | true =>
      obtain ⟨v, hv, hcheck⟩ := Validators.any_eq_true.1 hnull
      exact Or.inl ⟨v, hv, hsettles v hv (Or.inr hcheck)⟩
    | false =>
      have hcomposed : property.validators.any isComposed = false := by
        rw [← Bool.not_eq_true]
        intro hsome
        rcases h.composed hsome with hsome | hsome
        · exact nomatch hdecides.symm.trans hsome
        · exact nomatch hnull.symm.trans hsome
      refine Or.inr fun v hv => ?_
      exact inspect_null_of_tame (Validators.any_eq_false.1 hdecides v hv) (Validators.any_eq_false.1 hcomposed v hv)
        (Validators.any_eq_false.1 hnull v hv) (Validators.any_eq_false.1 h.custom v hv)

/-- Null is a value to one that lists it. -/
theorem Arranged.settlesNull_of_listed (h : property.Arranged config)
    (hflags : ∀ v ∈ property.validators.toList, FlagsNull v.check)
    (homits : property.validators.any Check.omitsNull = false)
    (hchoice : property.validators.any Check.isChoice = true) :
    ∀ v ∈ property.validators.toList, Evaluation.settlesNull v.check .null = false := by
  intro v hv
  have hdecides : property.validators.any decidesNull = true := by
    obtain ⟨w, hw, hcheck⟩ := Validators.any_eq_true.1 hchoice
    exact Validators.any_eq_true.2 ⟨w, hw, Check.decidesNull_of_isChoice hcheck⟩
  have hnull : property.validators.any Check.isImplicitNull = false := by
    rw [← Bool.not_eq_true]
    exact fun hsome => nomatch (h.exclusive hsome).symm.trans hdecides
  rw [hflags v hv, Validators.any_eq_false.1 homits v hv, Validators.any_eq_false.1 hnull v hv]
  rfl

end Property

namespace Session

open Evaluation

/-- **Null counts as absent.**  With the setting on, evaluation gives null back to an optional property.  It finds
nothing wrong if a check of the type or of enumerated values does not list null, or if there is neither of these and no
constant.  A property that lists null accepts it if and only if all its checks pass. -/
theorem evaluateProperty_null {config : Config} (hfilters : config.filters ⊆ Filters.standard)
    (hsetting : config.settings.implicitNull = true) {calls : List Call} {graph : Graph}
    (hgraph : (performAll config calls).graph = graph) {type : TypeId} {id : PropertyId}
    (hid : id ∈ (graph.entry type).properties) (hrequired : (graph.property id).required = false)
    (hstrict : (graph.property id).strict = false) (mode : Mode) :
    ((graph.property id).validators.any Check.omitsNull = true ∨ (graph.property id).validators.any decidesNull = false →
      graph.evaluateProperty mode id (some .null) = some { value := some .null }) ∧
    ((graph.property id).validators.any Check.omitsNull = false → (graph.property id).validators.any Check.isChoice = true →
      (Accepted (graph.evaluateProperty mode id (some .null)) ↔ ∀ v ∈ (graph.property id).validators.toList,
        inspect (graph.evaluateProperty mode) mode v.check .null = some .pass)) ∧
    ∀ outcome, graph.evaluateProperty mode id (some .null) = some outcome → outcome.value = some .null := by
  subst hgraph
  obtain ⟨hproperties, -, hlisted⟩ := arranged_performAll config calls
  have harranged := hproperties id
  have hmarks := ((orderly_performAll config calls).inStep id).followsMarks
  rw [hsetting] at hmarks
  have hflags := hmarks.flagsNull hrequired hstrict (hlisted type id hid).2
  rw [Graph.evaluateProperty_eq]
  refine ⟨fun habsent => ?_, fun homits hchoice => ?_, fun outcome => ?_⟩
  · rcases harranged.settles_or_passes hflags habsent with hsettles | hpasses
    · exact runValidators_null_settles hfilters harranged.admitted harranged.ranked.ordered hflags hsettles
    · exact runValidators_null_passes hfilters harranged.admitted hpasses
  · exact accepted_null_iff hfilters harranged.admitted (harranged.settlesNull_of_listed hflags homits hchoice)
  · exact runValidators_null_value hfilters harranged.admitted

/-- One member has branches, one a type that omits null, and one a type that lists it; both types go with a constant. -/
def nullable : Json :=
  .object [("type", .string "object"), ("properties", .object [
    ("a", .object [("anyOf", .array [.object [("type", .string "string")]]), ("filter", .string "trim")]),
    ("b", .object [("type", .string "string"), ("const", .string "s")]),
    ("c", .object [("type", .array [.string "string", .string "null"]), ("const", .string "s")])])]

def nullableRun : Except Halt TypeId × Session := process {} oneName ⟨"t", "", "T"⟩ nullable

set_option maxRecDepth 100000 in
theorem nullable_facts : nullableRun.1.toOption = some ⟨0⟩ ∧
    (∀ id ∈ [⟨1⟩, ⟨2⟩, ⟨3⟩], id ∈ (nullableRun.2.graph.type ⟨0⟩).properties ∧
      (nullableRun.2.graph.property id).required = false ∧ (nullableRun.2.graph.property id).strict = false) ∧
    (nullableRun.2.graph.property ⟨1⟩).validators.any isComposed = true ∧
    (nullableRun.2.graph.property ⟨1⟩).validators.any decidesNull = false ∧
    (nullableRun.2.graph.property ⟨2⟩).validators.any Check.isConstant = true ∧
    (nullableRun.2.graph.property ⟨2⟩).validators.any Check.omitsNull = true ∧
    (nullableRun.2.graph.property ⟨3⟩).validators.any Check.omitsNull = false ∧
    (nullableRun.2.graph.property ⟨3⟩).validators.any Check.isChoice = true ∧
    (property nullableRun.2.graph .collectAll 9 ⟨3⟩ (some .null)).any (!·.isValid) = true := by
  decide +kernel

theorem nullable_declined : ¬ Accepted (nullableRun.2.graph.evaluateProperty .collectAll ⟨3⟩ (some .null)) := by
  rintro ⟨outcome, houtcome, hvalid⟩
  obtain ⟨found, hfound, hinvalid⟩ := (Option.any_eq_true _ _).1 nullable_facts.2.2.2.2.2.2.2.2
  have hrun := evaluateProperty_eq_some_iff.2 ⟨9, hfound⟩
  obtain rfl := Option.some.inj (hrun.symm.trans houtcome)
  rw [hvalid] at hinvalid
  cases hinvalid

theorem performAll_single (config : Config) (source : Source) (value : Json) :
    performAll config [.process source value] = (process {} config source value).2 := rfl

/-- Null settles what has branches, and a type in front of a constant that would decline it.  Where the type lists null,
the constant does decline it. -/
theorem evaluateProperty_null_nullable :
    nullableRun.2.graph.evaluateProperty .collectAll ⟨1⟩ (some .null) = some { value := some .null } ∧
    nullableRun.2.graph.evaluateProperty .collectAll ⟨2⟩ (some .null) = some { value := some .null } ∧
    ¬ ∀ v ∈ (nullableRun.2.graph.property ⟨3⟩).validators.toList,
      inspect (nullableRun.2.graph.evaluateProperty .collectAll) .collectAll v.check .null = some .pass := by
  obtain ⟨-, hmembers, -, hdecides, -, homits, hlists, hchoice, -⟩ := nullable_facts
  have hgraph : (performAll oneName [.process ⟨"t", "", "T"⟩ nullable]).graph = nullableRun.2.graph :=
    congrArg Session.graph (performAll_single _ _ _)
  have hnull := fun (id : PropertyId) (hid : id ∈ [⟨1⟩, ⟨2⟩, ⟨3⟩]) => evaluateProperty_null (List.Subset.refl _) rfl
    hgraph (hmembers id hid).1 (hmembers id hid).2.1 (hmembers id hid).2.2 .collectAll
  refine ⟨(hnull ⟨1⟩ (by decide)).1 (Or.inr hdecides), (hnull ⟨2⟩ (by decide)).1 (Or.inl homits), fun hpasses => ?_⟩
  exact nullable_declined (((hnull ⟨3⟩ (by decide)).2.1 hlists hchoice).2 hpasses)

/-- A type that lists null makes it a value, which the constant declines. -/
theorem not_forall_null_accepted : ¬ ∀ (config : Config) (source : Source) (document : Json)
    (run : Except Halt TypeId × Session) (type : TypeId) (mode : Mode),
    config.filters ⊆ Filters.standard → config.settings.implicitNull = true →
    process {} config source document = run → run.1.toOption = some type →
    ∀ id ∈ (run.2.graph.type type).properties, (run.2.graph.property id).required = false →
      (run.2.graph.property id).strict = false →
      run.2.graph.evaluateProperty mode id (some .null) = some { value := some .null } := by
  intro h
  obtain ⟨hrun, hmembers, -⟩ := nullable_facts
  obtain ⟨hid, hrequired, hstrict⟩ := hmembers ⟨3⟩ (by decide)
  have hsettled := h oneName ⟨"t", "", "T"⟩ nullable nullableRun ⟨0⟩ .collectAll (List.Subset.refl _) rfl rfl hrun ⟨3⟩
    hid hrequired hstrict
  exact nullable_declined ⟨_, hsettled, rfl⟩

end Session
end SchemaTypes

import SchemaTypes.Proofs.Building.ItemLists
import SchemaTypes.Proofs.Building.Arranging
import SchemaTypes.Proofs.Building.Sheltering
import SchemaTypes.Proofs.Evaluation.GivenValue
/-!
# Arrays judged by place

A tuple judges the first items of an array, each by the position at its index, and what stands behind it judges the others
or counts all.  Together they judge each item once, by the one property that keeps its place (`Evaluation.judgeEach`): every
item takes the value of its own outcome, and is named where that is a failure (`Evaluation.failures`).  A position behind
the end of the array has nothing to object to.

That is so of every property with a tuple that calls leave, wherever it comes from, and of the properties of nodes that
list items in particular (`Session.items_judged_by_place`).
-/
namespace SchemaTypes
namespace Evaluation

variable {graph : Graph} {mode : Mode} {judge : Judge} {check : Check} {name : String}

/-! ## A value that is there stays there -/

theorem isSome_runCheck {value : Json} {verdict : Verdict} {left : Option Json}
    (h : runCheck graph mode judge check (some value) = some (verdict, left)) : left.isSome = true := by
  simp only [runCheck, Option.bind_eq_bind, Option.bind_eq_some_iff, Option.pure_def, Option.some.injEq,
    Prod.mk.injEq] at h
  obtain ⟨_, -, -, rfl⟩ := h
  rfl

theorem isSome_runValidators : ∀ {validators : List Validator} {value : Option Json} {outcome : Outcome},
    value.isSome = true → runValidators graph mode judge name validators value = some outcome →
      outcome.value.isSome = true
  | [], _, _, hvalue, h => by
    cases h
    exact hvalue
  | validator :: rest, value, outcome, hvalue, h => by
    obtain ⟨value, rfl⟩ := Option.isSome_iff_exists.1 hvalue
    simp only [runValidators, Option.bind_eq_bind, Option.bind_eq_some_iff] at h
    obtain ⟨⟨verdict, left⟩, hcheck, h⟩ := h
    have hleft := isSome_runCheck hcheck
    cases verdict with
    | pass => exact isSome_runValidators hleft h
    | settle =>
      cases h
      exact hleft
    | fail failure =>
      simp only at h
      split at h
      · cases h
        exact hleft
      · obtain ⟨others, hothers, h⟩ := Option.bind_eq_some_iff.1 h
        cases h
        have hlast := isSome_runValidators hleft hothers
        exact hlast

/-- Without a value nothing is wrong but that it is missing. -/
theorem runValidators_missing : ∀ {validators : List Validator}, (∀ v ∈ validators, v.check.isRequired = false) →
    runValidators graph mode judge name validators none = some { value := none }
  | [], _ => rfl
  | validator :: rest, hfree => by
    rw [List.forall_mem_cons] at hfree
    simp only [runValidators, runCheck, hfree.1, Bool.false_eq_true, if_false, Option.bind_eq_bind, Option.bind_some]
    exact runValidators_missing hfree.2

/-! ## Lists of answers -/

theorem mapM_eq_some_iff {α β : Type} {f : α → Option β} : ∀ {l : List α} {found : List β},
    l.mapM f = some found ↔ found.length = l.length ∧ ∀ (index : Nat) a, l[index]? = some a → f a = found[index]?
  | [], found => by
    rw [List.mapM_nil]
    constructor
    · intro h
      cases h
      exact ⟨rfl, fun _ _ h => nomatch h⟩
    · rintro ⟨hlength, -⟩
      rw [List.length_eq_zero_iff.1 hlength]
      rfl
  | a :: l, found => by
    rw [List.mapM_cons]
    simp only [Option.bind_eq_bind, Option.bind_eq_some_iff, Option.pure_def, Option.some.injEq, mapM_eq_some_iff]
    constructor
    · rintro ⟨b, hb, rest, ⟨hlength, hrest⟩, rfl⟩
      refine ⟨congrArg (· + 1) hlength, fun index x hx => ?_⟩
      cases index with
      | zero =>
        cases hx
        exact hb
      | succ index => exact hrest index x hx
    · rintro ⟨hlength, heach⟩
      cases found with
      | nil => cases hlength
      | cons b rest =>
        exact ⟨b, heach 0 a rfl, rest, ⟨Nat.succ.inj hlength, fun index x hx => heach (index + 1) x hx⟩, rfl⟩

theorem exists_mapM_iff {α β : Type} {f : α → Option β} {p : β → Prop} : ∀ {l : List α},
    (∃ found, l.mapM f = some found ∧ ∀ b ∈ found, p b) ↔ ∀ a ∈ l, ∃ b, f a = some b ∧ p b
  | [] => iff_of_true ⟨[], rfl, fun _ h => nomatch h⟩ fun _ h => nomatch h
  | a :: l => by
    rw [List.forall_mem_cons, ← exists_mapM_iff, List.mapM_cons]
    simp only [Option.bind_eq_bind, Option.bind_eq_some_iff, Option.pure_def, Option.some.injEq]
    constructor
    · rintro ⟨_, ⟨b, hb, rest, hrest, rfl⟩, hp⟩
      rw [List.forall_mem_cons] at hp
      exact ⟨⟨b, hb, hp.1⟩, rest, hrest, hp.2⟩
    · rintro ⟨⟨b, hb, hpb⟩, rest, hrest, hp⟩
      exact ⟨b :: rest, ⟨b, hb, rest, hrest, rfl⟩, List.forall_mem_cons.2 ⟨hpb, hp⟩⟩

/-! ## Judging part by part -/

/-- The failures among the outcomes, in order, each under a label with its index. -/
def failures (label : String) (offset : Nat) (outcomes : List Outcome) : List (Detail Violation) :=
  (outcomes.zipIdx offset).flatMap fun (outcome, index) =>
    if outcome.isValid then [] else [.failed (label ++ toString index) outcome.violations]

/-- The values of the outcomes. -/
def outputs (outcomes : List Outcome) : List Json := outcomes.filterMap (·.value)

variable {label : String} {offset : Nat} {first rest outcomes : List Outcome}

theorem failures_append : failures label offset (first ++ rest) =
    failures label offset first ++ failures label (offset + first.length) rest := by
  unfold failures
  rw [List.zipIdx_append, List.flatMap_append]

theorem failures_eq_nil_iff : failures label offset outcomes = [] ↔ ∀ outcome ∈ outcomes, outcome.isValid = true := by
  unfold failures
  rw [List.flatMap_eq_nil_iff]
  constructor
  · intro h outcome houtcome
    obtain ⟨index, hindex⟩ := List.getElem?_of_mem houtcome
    have hfound := h (outcome, offset + index) (List.mk_add_mem_zipIdx_iff_getElem?.2 hindex)
    simpa using hfound
  · exact fun h x hx => if_pos (h x.1 (List.fst_mem_of_mem_zipIdx hx))

theorem ofDetails_eq_pass_iff {details : List (Detail Violation)} : Verdict.ofDetails details = .pass ↔ details = [] := by
  cases details with
  | nil => exact iff_of_true rfl rfl
  | cons => exact iff_of_false nofun nofun

/-- Collecting all violations, every part is judged. -/
theorem survey_collectAll : ∀ (places : List (PropertyId × Option Json)) (offset : Nat),
    judge.survey .collectAll ((places.zipIdx offset).map fun place => ⟨label ++ toString place.2, place.1.1, place.1.2⟩) =
      (places.mapM fun place => judge place.1 place.2).map fun outcomes =>
        { values := outcomes.map (·.value), details := failures label offset outcomes }
  | [], _ => rfl
  | (id, value) :: places, offset => by
    rw [List.zipIdx_cons, List.map_cons, Judge.survey, List.mapM_cons, survey_collectAll places (offset + 1)]
    cases judge id value with
    | none => rfl
    | some outcome =>
      cases places.mapM fun place => judge place.1 place.2 with
      | none => rfl
      | some outcomes => rfl

/-! ### Values put back -/

theorem overwrite_missing : ∀ (items : List Json) (n : Nat), overwrite items (List.replicate n none) = items
  | [], 0 => rfl
  | [], _ + 1 => rfl
  | _ :: _, 0 => rfl
  | item :: items, n + 1 => by
    rw [List.replicate_succ, overwrite, overwrite_missing items n]
    rfl

/-- The first items take the values of their outcomes, and those without an outcome stay. -/
theorem overwrite_outcomes (n : Nat) : ∀ {outcomes : List Outcome} {items : List Json},
    (∀ outcome ∈ outcomes, outcome.value.isSome = true) → outcomes.length ≤ items.length →
      overwrite items (outcomes.map (·.value) ++ List.replicate n none) = outputs outcomes ++ items.drop outcomes.length
  | [], items, _, _ => overwrite_missing items n
  | outcome :: outcomes, [], _, hlength => absurd hlength (Nat.not_succ_le_zero _)
  | outcome :: outcomes, item :: items, hthere, hlength => by
    rw [List.forall_mem_cons] at hthere
    obtain ⟨value, hvalue⟩ := Option.isSome_iff_exists.1 hthere.1
    have hlast := overwrite_outcomes n hthere.2 (Nat.le_of_succ_le_succ hlength)
    rw [List.map_cons, List.cons_append, overwrite, hlast]
    simp [outputs, hvalue]

theorem map_some_outputs (hthere : ∀ outcome ∈ outcomes, outcome.value.isSome = true) :
    (outputs outcomes).map some = outcomes.map (·.value) := by
  induction outcomes with
  | nil => rfl
  | cons outcome outcomes ih =>
    rw [List.forall_mem_cons] at hthere
    obtain ⟨value, hvalue⟩ := Option.isSome_iff_exists.1 hthere.1
    simpa [outputs, hvalue] using ih hthere.2

theorem length_outputs (hthere : ∀ outcome ∈ outcomes, outcome.value.isSome = true) :
    (outputs outcomes).length = outcomes.length := by
  simpa using congrArg List.length (map_some_outputs hthere)

/-! ## Judging by place -/

/-- The outcome of an item: of the property that judges it, or the item as it is where none does. -/
def judgeAt (judge : Judge) (keeper : Option PropertyId) (item : Json) : Option Outcome :=
  match keeper with
  | some id => judge id (some item)
  | none => some { value := some item }

/-- The items of an array, each judged by the position at its index, and behind the positions by one property, if any. -/
def judgeEach (judge : Judge) (positions : List PropertyId) (behind : Option PropertyId) (items : List Json) :
    Option (List Outcome) :=
  (items.mapIdx fun index item => (positions[index]? <|> behind, item)).mapM fun place => judgeAt judge place.1 place.2

variable {positions : List PropertyId} {behind : Option PropertyId} {items : List Json}

/-- The positions judge the first items, and then comes what is behind them. -/
theorem judgeEach_eq : judgeEach judge positions behind items = do
    let first ← (positions.zip items).mapM fun place => judge place.1 (some place.2)
    let rest ← (items.drop positions.length).mapM (judgeAt judge behind)
    return first ++ rest := by
  have hfirst : (items.take positions.length).mapIdx (fun index item => (positions[index]? <|> behind, item)) =
      (positions.zip items).map fun place => (some place.1, place.2) := by
    refine List.ext_getElem? fun index => ?_
    rw [List.getElem?_mapIdx, List.getElem?_map, List.zip, List.getElem?_zipWith]
    cases hposition : positions[index]? with
    | none =>
      rw [List.getElem?_take_eq_none (List.getElem?_eq_none_iff.1 hposition)]
      rfl
    | some position =>
      obtain ⟨hlt, -⟩ := List.getElem?_eq_some_iff.1 hposition
      rw [List.getElem?_take_of_lt hlt]
      cases items[index]? <;> rfl
  have hrest : (items.drop positions.length).mapIdx
      (fun index item => (positions[index + (items.take positions.length).length]? <|> behind, item)) =
      (items.drop positions.length).map fun item => (behind, item) := by
    refine List.ext_getElem? fun index => ?_
    rw [List.getElem?_mapIdx, List.getElem?_map, List.getElem?_drop]
    cases hitem : items[positions.length + index]? with
    | none => rfl
    | some item =>
      obtain ⟨hlt, -⟩ := List.getElem?_eq_some_iff.1 hitem
      have hnone : positions[index + (items.take positions.length).length]? = none := by
        rw [List.getElem?_eq_none_iff, List.length_take]
        omega
      rw [hnone]
      rfl
  unfold judgeEach
  conv_lhs => rw [← List.take_append_drop positions.length items]
  rw [List.mapIdx_append, List.mapM_append, hfirst, hrest, List.mapM_map, List.mapM_map]
  rfl

/-! ### A tuple -/

theorem isSome_mapM {α : Type} {f : α → Option Outcome} {l : List α}
    (hthere : ∀ a outcome, f a = some outcome → outcome.value.isSome = true) (h : l.mapM f = some outcomes) :
    outcomes.length = l.length ∧ ∀ outcome ∈ outcomes, outcome.value.isSome = true := by
  obtain ⟨hlength, heach⟩ := mapM_eq_some_iff.1 h
  refine ⟨hlength, fun outcome houtcome => ?_⟩
  obtain ⟨index, hlt, hindex⟩ := List.getElem_of_mem houtcome
  have ha : l[index]? = some l[index] := List.getElem?_eq_getElem (hlength ▸ hlt)
  exact hthere _ outcome ((heach index _ ha).trans (List.getElem?_eq_some_iff.2 ⟨hlt, hindex⟩))

/-- A position behind the end of the array has nothing to object to. -/
theorem mapM_missing (hmissing : ∀ position ∈ positions, judge position none = some { value := none }) :
    (positions.mapM fun position => judge position none) = some (List.replicate positions.length { value := none }) := by
  refine mapM_eq_some_iff.2 ⟨List.length_replicate, fun index position hposition => ?_⟩
  obtain ⟨hlt, -⟩ := List.getElem?_eq_some_iff.1 hposition
  rw [List.getElem?_replicate_of_lt hlt]
  exact hmissing position (List.mem_of_getElem? hposition)

/-- Positions up to the end of the array go with items, and the others with none. -/
theorem places_eq : ∀ (positions : List PropertyId) (items : List Json),
    (positions.mapIdx fun index position => (position, items[index]?)) =
      ((positions.zip items).map fun place => (place.1, some place.2)) ++
        (positions.drop items.length).map fun position => (position, none)
  | [], _ => by simp
  | position :: positions, [] => by
    rw [List.mapIdx_cons]
    simpa using places_eq positions []
  | position :: positions, item :: items => by
    rw [List.mapIdx_cons]
    exact congrArg ((position, some item) :: ·) (places_eq positions items)

/-- Collecting all violations, a tuple judges the first items and puts back what becomes of them. -/
theorem transformTuple_eq (hmissing : ∀ position ∈ positions, judge position none = some { value := none })
    (hthere : ∀ id item outcome, judge id (some item) = some outcome → outcome.value.isSome = true) :
    transformTuple judge .collectAll positions items =
      ((positions.zip items).mapM fun place => judge place.1 (some place.2)).map fun first =>
        (.ofDetails (failures "Invalid tuple item #" 0 first), .array (outputs first ++ items.drop positions.length)) := by
  have hparts : (positions.zipIdx.map fun place =>
      (⟨"Invalid tuple item #" ++ toString place.2, place.1, items[place.2]?⟩ : Part)) =
      (positions.mapIdx fun index position => (position, items[index]?)).zipIdx.map fun place =>
        ⟨"Invalid tuple item #" ++ toString place.2, place.1.1, place.1.2⟩ := by
    refine List.ext_getElem? fun index => ?_
    simp only [List.getElem?_map, List.getElem?_zipIdx, List.getElem?_mapIdx, Nat.zero_add, Option.map_map]
    rfl
  have hsurveyed : transformTuple judge .collectAll positions items = do
      let survey ← judge.survey .collectAll (positions.zipIdx.map fun place =>
        ⟨"Invalid tuple item #" ++ toString place.2, place.1, items[place.2]?⟩)
      return (.ofDetails survey.details, .array (overwrite items survey.values)) := rfl
  have habsent : ((positions.drop items.length).mapM fun position => judge position none) =
      some (List.replicate (positions.drop items.length).length { value := none }) :=
    mapM_missing fun position hposition => hmissing position (List.mem_of_mem_drop hposition)
  rw [hsurveyed, hparts, survey_collectAll, places_eq, List.mapM_append, List.mapM_map, List.mapM_map]
  simp only [Function.comp_def]
  rw [habsent]
  cases hfirst : (positions.zip items).mapM fun place => judge place.1 (some place.2) with
  | none => rfl
  | some first =>
    obtain ⟨hlength, hvalues⟩ := isSome_mapM (fun place outcome => hthere place.1 place.2 outcome) hfirst
    rw [List.length_zip] at hlength
    have hfailures : failures "Invalid tuple item #" 0
        (first ++ List.replicate (positions.drop items.length).length { value := none }) =
        failures "Invalid tuple item #" 0 first := by
      rw [failures_append, failures_eq_nil_iff.2 fun outcome houtcome => List.eq_of_mem_replicate houtcome ▸ rfl,
        List.append_nil]
    have hdrop : items.drop first.length = items.drop positions.length := by
      rcases Nat.le_total positions.length items.length with hle | hle
      · rw [hlength, Nat.min_eq_left hle]
      · rw [hlength, Nat.min_eq_right hle, List.drop_length, List.drop_of_length_le hle]
    simp only [Option.bind_eq_bind, Option.bind_some, Option.pure_def, Option.map_some, hfailures, List.map_append,
      List.map_replicate]
    rw [overwrite_outcomes _ hvalues (by omega), hdrop]

/-- Collecting all violations, the check of the items behind a tuple judges those and puts back what becomes of them. -/
theorem transformItems_eq {item : PropertyId} (hthere : ∀ value outcome, judge item (some value) = some outcome →
      outcome.value.isSome = true) :
    transformItems judge .collectAll "Invalid additional item" item offset items =
      ((items.drop offset).mapM fun value => judge item (some value)).map fun rest =>
        (.ofDetails (failures "Invalid additional item #" offset rest), .array (items.take offset ++ outputs rest)) := by
  have hparts : ((items.drop offset).zipIdx.map fun place =>
      (⟨"Invalid additional item" ++ " #" ++ toString (offset + place.2), item, some place.1⟩ : Part)) =
      (((items.drop offset).map fun value => (item, some value)).zipIdx offset).map fun place =>
        ⟨"Invalid additional item #" ++ toString place.2, place.1.1, place.1.2⟩ := by
    refine List.ext_getElem? fun index => ?_
    simp only [List.getElem?_map, List.getElem?_zipIdx, Nat.zero_add, Option.map_map]
    rfl
  have hsurveyed : transformItems judge .collectAll "Invalid additional item" item offset items = do
      let survey ← judge.survey .collectAll ((items.drop offset).zipIdx.map fun place =>
        ⟨"Invalid additional item" ++ " #" ++ toString (offset + place.2), item, some place.1⟩)
      return (.ofDetails survey.details,
        .array (items.take offset ++ overwrite (items.drop offset) survey.values)) := rfl
  rw [hsurveyed, hparts, survey_collectAll, List.mapM_map]
  simp only [Function.comp_def]
  cases hrest : (items.drop offset).mapM fun value => judge item (some value) with
  | none => rfl
  | some rest =>
    obtain ⟨hlength, hvalues⟩ := isSome_mapM hthere hrest
    have hput := overwrite_outcomes 0 hvalues (Nat.le_of_eq hlength)
    rw [List.replicate_zero, List.append_nil, hlength, List.drop_length, List.append_nil] at hput
    simp only [Option.bind_eq_bind, Option.bind_some, Option.pure_def, Option.map_some, hput]

/-- The verdict of a check that there are no items behind a tuple. -/
def sizeVerdict (n : Nat) (items : List Json) : Verdict :=
  if n < items.length then .failWith "actual" (.ofNat items.length) else .pass

theorem sizeVerdict_eq_pass_iff {n : Nat} : sizeVerdict n items = .pass ↔ items.length ≤ n := by
  unfold sizeVerdict
  split
  · exact iff_of_false nofun (Nat.not_le_of_lt ‹_›)
  · exact iff_of_true rfl (Nat.le_of_not_lt ‹_›)

theorem transform_noAdditionalItems (graph : Graph) (mode : Mode) (judge : Judge) (n : Nat) (items : List Json) :
    transform graph mode judge (.noAdditionalItems n) (.array items) = some (sizeVerdict n items, .array items) := by
  have hinspect : inspectArray judge items (.noAdditionalItems n) = some (sizeVerdict n items) := by
    unfold sizeVerdict
    rw [inspectArray]
    split <;> rfl
  change (do return (← inspectArray judge items (.noAdditionalItems n), Json.array items)) = _
  rw [hinspect]
  rfl

/-! ### Checks one after the other -/

/-- Checks run on a value one after the other, with what each says. -/
def runBlock (graph : Graph) (judge : Judge) : List Check → Option Json → Option (List Verdict × Option Json)
  | [], value => some ([], value)
  | check :: checks, value => do
    let (verdict, value) ← runCheck graph .collectAll judge check value
    let (verdicts, value) ← runBlock graph judge checks value
    return (verdict :: verdicts, value)

/-- What is reported of checks. -/
def reports (name : String) (checks : List Check) (verdicts : List Verdict) : List Violation :=
  (checks.zip verdicts).flatMap fun (check, verdict) =>
    match verdict with
    | .fail failure => [failure.violation check name]
    | .pass | .settle => []

/-- What is asked by place never settles a value. -/
theorem not_settle_of_isTupled (htupled : check.isTupled = true) {value left : Option Json} :
    runCheck graph mode judge check value ≠ some (.settle, left) := by
  intro h
  cases value with
  | none =>
    simp only [runCheck, Option.some.injEq, Prod.mk.injEq] at h
    obtain ⟨hverdict, -⟩ := h
    split at hverdict <;> cases hverdict
  | some value =>
    simp only [runCheck, Option.bind_eq_bind, Option.bind_eq_some_iff, Option.pure_def, Option.some.injEq,
      Prod.mk.injEq] at h
    obtain ⟨⟨verdict, value'⟩, hverdict, rfl, -⟩ := h
    have hsettles : settlesNull check value = false := by cases check <;> first | rfl | cases htupled
    exact transform_ne_settle hsettles hverdict rfl

/-- **Checks by place** are all run, and all their failures reported. -/
theorem runValidators_block (name : String) (validators : List Validator) : ∀ {checks : List Check}
    (_ : ∀ c ∈ checks, c.isTupled = true) (value : Option Json),
    runValidators graph .collectAll judge name (checks.map Check.toValidator ++ validators) value =
      (runBlock graph judge checks value).bind fun result =>
        (runValidators graph .collectAll judge name validators result.2).map fun outcome =>
          { outcome with violations := reports name checks result.1 ++ outcome.violations }
  | [], _, value => (Option.map_id' ..).symm
  | check :: checks, htupled, value => by
    rw [List.forall_mem_cons] at htupled
    have hlater := runValidators_block name validators htupled.2
    rw [List.map_cons, List.cons_append, runValidators, runBlock]
    change (runCheck graph .collectAll judge check value >>= _) = _
    cases hcheck : runCheck graph .collectAll judge check value with
    | none => rfl
    | some result =>
      obtain ⟨verdict, middle⟩ := result
      cases verdict with
      | settle => exact absurd hcheck (not_settle_of_isTupled htupled.1)
      | pass =>
        change runValidators graph .collectAll judge name (checks.map Check.toValidator ++ validators) middle = _
        rw [hlater]
        cases hrest : runBlock graph judge checks middle with
        | none => simp [hrest]
        | some result => simp [hrest, reports]
      | fail failure =>
        change (runValidators graph .collectAll judge name (checks.map Check.toValidator ++ validators) middle).bind
          (fun others => some { others with violations := failure.violation check name :: others.violations }) = _
        rw [hlater]
        cases hrest : runBlock graph judge checks middle with
        | none => simp [hrest]
        | some result =>
          cases hlast : runValidators graph .collectAll judge name validators result.2 <;> simp [hrest, hlast, reports]

/-! ### A tuple and what is behind it -/

/-- The verdict of a tuple of so many positions. -/
def tupleVerdict (n : Nat) (outcomes : List Outcome) : Verdict :=
  .ofDetails (failures "Invalid tuple item #" 0 (outcomes.take n))

/-- The verdict of the check of the items behind it. -/
def behindVerdict (n : Nat) (outcomes : List Outcome) : Verdict :=
  .ofDetails (failures "Invalid additional item #" n (outcomes.drop n))

/-- Lists of which one goes up to an index and one starts there. -/
theorem take_drop_append {α : Type} {n length : Nat} {front back : List α} (hfront : front.length = min n length)
    (hback : back.length = length - n) : (front ++ back).take n = front ∧ (front ++ back).drop n = back := by
  rcases Nat.le_total n length with hle | hle
  · rw [Nat.min_eq_left hle] at hfront
    exact ⟨List.take_left' hfront, List.drop_left' hfront⟩
  · rw [Nat.min_eq_right hle] at hfront
    obtain rfl : back = [] := List.length_eq_zero_iff.1 (hback.trans (Nat.sub_eq_zero_of_le hle))
    rw [List.append_nil]
    exact ⟨List.take_of_length_le (hfront ▸ hle), List.drop_of_length_le (hfront ▸ hle)⟩

theorem outputs_append : outputs (first ++ rest) = outputs first ++ outputs rest := List.filterMap_append

theorem mapM_unjudged (items : List Json) : items.mapM (judgeAt judge none) =
    some (items.map fun item => { value := some item }) := List.mapM_pure

theorem outputs_unjudged (items : List Json) : outputs (items.map fun item => { value := some item }) = items := by
  simp [outputs, List.filterMap_map]

section

variable (hmissing : ∀ position ∈ positions, judge position none = some { value := none })
  (hthere : ∀ id item outcome, judge id (some item) = some outcome → outcome.value.isSome = true)

include hthere in
/-- There is an outcome for each item, with a value. -/
theorem judgeEach_spec (h : judgeEach judge positions behind items = some outcomes) :
    outcomes.length = items.length ∧ ∀ outcome ∈ outcomes, outcome.value.isSome = true := by
  have hspec := isSome_mapM (fun place outcome (houtcome : judgeAt judge place.1 place.2 = some outcome) => ?_) h
  · rw [List.length_mapIdx] at hspec
    exact hspec
  · unfold judgeAt at houtcome
    split at houtcome
    · exact hthere _ _ _ houtcome
    · cases houtcome
      rfl

include hmissing hthere

/-- A tuple judges the first items, and passes the others on. -/
theorem runCheck_tuple (graph : Graph) (items : List Json) :
    runCheck graph .collectAll judge (.tuple positions) (some (.array items)) =
      ((positions.zip items).mapM fun place => judge place.1 (some place.2)).map fun first =>
        (.ofDetails (failures "Invalid tuple item #" 0 first),
          some (.array (outputs first ++ items.drop positions.length))) := by
  have hrun : runCheck graph .collectAll judge (.tuple positions) (some (.array items)) =
      (transformTuple judge .collectAll positions items).map fun result => (result.1, some result.2) := by
    simp only [runCheck, transform]
    cases transformTuple judge .collectAll positions items <;> rfl
  rw [hrun, transformTuple_eq hmissing hthere, Option.map_map]
  rfl

/-- Where nothing judges the items behind it, a tuple leaves the outcomes of all. -/
theorem runCheck_tuple_alone (graph : Graph) (items : List Json) :
    runCheck graph .collectAll judge (.tuple positions) (some (.array items)) =
      (judgeEach judge positions none items).map fun outcomes =>
        (tupleVerdict positions.length outcomes, some (.array (outputs outcomes))) := by
  rw [runCheck_tuple hmissing hthere, judgeEach_eq, mapM_unjudged]
  cases hfirst : (positions.zip items).mapM fun place => judge place.1 (some place.2) with
  | none => rfl
  | some first =>
    obtain ⟨hlength, -⟩ := isSome_mapM (fun place outcome => hthere place.1 place.2 outcome) hfirst
    rw [List.length_zip] at hlength
    have hleft := outputs_unjudged (items.drop positions.length)
    have hback : ((items.drop positions.length).map fun item => ({ value := some item } : Outcome)).length =
        items.length - positions.length := by rw [List.length_map, List.length_drop]
    generalize ((items.drop positions.length).map fun item => ({ value := some item } : Outcome)) = rest at hleft hback
    simp only [Option.map_some, Option.bind_eq_bind, Option.bind_some, Option.pure_def, tupleVerdict,
      (take_drop_append hlength hback).1, outputs_append, hleft]

theorem runBlock_loose (graph : Graph) (items : List Json) :
    runBlock graph judge [.tuple positions] (some (.array items)) =
      (judgeEach judge positions none items).map fun outcomes =>
        ([tupleVerdict positions.length outcomes], some (.array (outputs outcomes))) := by
  rw [runBlock, runCheck_tuple_alone hmissing hthere]
  cases judgeEach judge positions none items <;> rfl

theorem runBlock_closed (graph : Graph) (items : List Json) :
    runBlock graph judge [.tuple positions, .noAdditionalItems positions.length] (some (.array items)) =
      (judgeEach judge positions none items).map fun outcomes =>
        ([tupleVerdict positions.length outcomes, sizeVerdict positions.length items],
          some (.array (outputs outcomes))) := by
  rw [runBlock, runCheck_tuple_alone hmissing hthere]
  cases houtcomes : judgeEach judge positions none items with
  | none => rfl
  | some outcomes =>
    obtain ⟨hlength, hvalues⟩ := judgeEach_spec hthere houtcomes
    have hsize : sizeVerdict positions.length (outputs outcomes) = sizeVerdict positions.length items := by
      unfold sizeVerdict
      rw [length_outputs hvalues, hlength]
    simp [runBlock, runCheck, transform_noAdditionalItems, hsize]

theorem runBlock_full (graph : Graph) (item : PropertyId) (items : List Json) :
    runBlock graph judge [.tuple positions, .additionalItems positions.length item] (some (.array items)) =
      (judgeEach judge positions (some item) items).map fun outcomes =>
        ([tupleVerdict positions.length outcomes, behindVerdict positions.length outcomes],
          some (.array (outputs outcomes))) := by
  rw [runBlock, runCheck_tuple hmissing hthere, judgeEach_eq]
  cases hfirst : (positions.zip items).mapM fun place => judge place.1 (some place.2) with
  | none => rfl
  | some first =>
    obtain ⟨hlength, hvalues⟩ := isSome_mapM (fun place outcome => hthere place.1 place.2 outcome) hfirst
    rw [List.length_zip] at hlength
    -- The tuple leaves the items behind it alone.
    have hmiddle := take_drop_append ((length_outputs hvalues).trans hlength) List.length_drop
    have hrun : runCheck graph .collectAll judge (.additionalItems positions.length item)
        (some (.array (outputs first ++ items.drop positions.length))) =
        ((items.drop positions.length).mapM (judgeAt judge (some item))).map fun rest =>
          (.ofDetails (failures "Invalid additional item #" positions.length rest),
            some (.array (outputs first ++ outputs rest))) := by
      change (transformItems judge .collectAll "Invalid additional item" item positions.length _ >>= _) = _
      rw [transformItems_eq fun value outcome => hthere item value outcome, hmiddle.1, hmiddle.2]
      change Option.bind (Option.map _ ((items.drop positions.length).mapM (judgeAt judge (some item)))) _ = _
      cases (items.drop positions.length).mapM (judgeAt judge (some item)) <;> rfl
    simp only [Option.map_some, Option.bind_eq_bind, Option.bind_some, runBlock, hrun]
    cases hrest : (items.drop positions.length).mapM (judgeAt judge (some item)) with
    | none => rfl
    | some rest =>
      obtain ⟨hlast, -⟩ := isSome_mapM (fun value outcome => hthere item value outcome) hrest
      have hsplit := take_drop_append hlength (hlast.trans List.length_drop)
      simp only [Option.map_some, Option.bind_some, Option.pure_def, tupleVerdict, behindVerdict, hsplit.1, hsplit.2,
        outputs_append]

end

/-! ### Item by item -/

/-- **Each item is judged once**, by the one property that keeps its place. -/
theorem judgeEach_eq_some_iff : judgeEach judge positions behind items = some outcomes ↔
    outcomes.length = items.length ∧ ∀ (index : Nat) item, items[index]? = some item →
      judgeAt judge (positions[index]? <|> behind) item = outcomes[index]? := by
  unfold judgeEach
  rw [mapM_eq_some_iff, List.length_mapIdx]
  simp only [List.getElem?_mapIdx, Option.map_eq_some_iff]
  refine and_congr_right fun _ => ⟨fun h index item hitem => h index _ ⟨item, hitem, rfl⟩, ?_⟩
  rintro h index _ ⟨item, hitem, rfl⟩
  exact h index item hitem

theorem verdicts_pass_iff {n : Nat} : tupleVerdict n outcomes = .pass ∧ behindVerdict n outcomes = .pass ↔
    ∀ outcome ∈ outcomes, outcome.isValid = true := by
  unfold tupleVerdict behindVerdict
  rw [ofDetails_eq_pass_iff, ofDetails_eq_pass_iff, failures_eq_nil_iff, failures_eq_nil_iff, ← List.forall_mem_append,
    List.take_append_drop]

/-- All items are accepted where they are judged. -/
theorem judgeEach_accepted_iff {item : PropertyId} :
    (∃ outcomes, judgeEach judge positions (some item) items = some outcomes ∧
      ∀ outcome ∈ outcomes, outcome.isValid = true) ↔
    ∀ (index : Nat) value, items[index]? = some value → Accepted (judge (positions.getD index item) (some value)) := by
  have hkeeper : ∀ index value, judgeAt judge (positions[index]? <|> some item) value =
      judge (positions.getD index item) (some value) := fun index value => by
    rw [List.getD_eq_getElem?_getD]
    cases positions[index]? <;> rfl
  unfold judgeEach
  rw [exists_mapM_iff]
  constructor
  · intro h index value hvalue
    have haccepted := h (positions[index]? <|> some item, value) (List.mem_iff_getElem?.2 ⟨index, by
      rw [List.getElem?_mapIdx, hvalue]
      rfl⟩)
    rwa [hkeeper] at haccepted
  · intro h place hplace
    obtain ⟨index, hindex⟩ := List.mem_iff_getElem?.1 hplace
    rw [List.getElem?_mapIdx, Option.map_eq_some_iff] at hindex
    obtain ⟨value, hvalue, rfl⟩ := hindex
    rw [hkeeper]
    exact h index value hvalue

/-- **A tuple and the check of the items behind it both pass** if and only if each item is accepted at its place. -/
theorem runBlock_full_pass_iff (hmissing : ∀ position ∈ positions, judge position none = some { value := none })
    (hthere : ∀ id item outcome, judge id (some item) = some outcome → outcome.value.isSome = true) (graph : Graph)
    (item : PropertyId) (items : List Json) :
    (∃ left, runBlock graph judge [.tuple positions, .additionalItems positions.length item] (some (.array items)) =
      some ([.pass, .pass], left)) ↔
    ∀ (index : Nat) value, items[index]? = some value → Accepted (judge (positions.getD index item) (some value)) := by
  rw [← judgeEach_accepted_iff, runBlock_full hmissing hthere]
  constructor
  · rintro ⟨left, hleft⟩
    obtain ⟨outcomes, houtcomes, heq⟩ := Option.map_eq_some_iff.1 hleft
    simp only [Prod.mk.injEq, List.cons.injEq, and_true] at heq
    exact ⟨outcomes, houtcomes, verdicts_pass_iff.1 heq.1⟩
  · rintro ⟨outcomes, houtcomes, hvalid⟩
    obtain ⟨hfirst, hbehind⟩ := verdicts_pass_iff.2 hvalid
    exact ⟨_, by rw [houtcomes, Option.map_some, hfirst, hbehind]⟩

end Evaluation

/-! ## In graphs -/

namespace Graph

open Evaluation

variable {graph : Graph} {positions : List PropertyId} {behind : Option PropertyId} {block : List Check}
  {verdicts : List Json → List Outcome → List Verdict}

/-- What the checks of a row make of an array.  They answer if and only if all items are judged at their places; then
they give these verdicts and leave the items' outcomes, for whatever checks come next. -/
structure Apportions (graph : Graph) (positions : List PropertyId) (behind : Option PropertyId) (block : List Check)
    (verdicts : List Json → List Outcome → List Verdict) : Prop where
  run : ∀ items, runBlock graph (graph.evaluateProperty .collectAll) block (some (.array items)) =
    (judgeEach (graph.evaluateProperty .collectAll) positions behind items).map fun outcomes =>
      (verdicts items outcomes, some (.array (outputs outcomes)))
  goesOn : ∀ name validators items, runValidators graph .collectAll (graph.evaluateProperty .collectAll) name
      (block.map Check.toValidator ++ validators) (some (.array items)) =
    (judgeEach (graph.evaluateProperty .collectAll) positions behind items).bind fun outcomes =>
      (runValidators graph .collectAll (graph.evaluateProperty .collectAll) name validators
        (some (.array (outputs outcomes)))).map fun last =>
          { last with violations := reports name block (verdicts items outcomes) ++ last.violations }
  /-- Each item is judged once, by the one property that keeps its place. -/
  once : ∀ items outcomes,
    judgeEach (graph.evaluateProperty .collectAll) positions behind items = some outcomes ↔
      outcomes.length = items.length ∧ ∀ (index : Nat) item, items[index]? = some item →
        judgeAt (graph.evaluateProperty .collectAll) (positions[index]? <|> behind) item = outcomes[index]?
  /-- It takes the value of its outcome. -/
  values : ∀ items outcomes,
    judgeEach (graph.evaluateProperty .collectAll) positions behind items = some outcomes →
      (outputs outcomes).map some = outcomes.map (·.value) ∧ (outputs outcomes).length = items.length

theorem isSome_evaluateProperty {id : PropertyId} {value : Json} {outcome : Outcome}
    (h : graph.evaluateProperty .collectAll id (some value) = some outcome) : outcome.value.isSome = true := by
  rw [evaluateProperty_eq] at h
  exact isSome_runValidators rfl h

theorem Apportions.of_run (hblock : Check.IsPartition block)
    (hrun : ∀ items, runBlock graph (graph.evaluateProperty .collectAll) block (some (.array items)) =
      (judgeEach (graph.evaluateProperty .collectAll) positions behind items).map fun outcomes =>
        (verdicts items outcomes, some (.array (outputs outcomes)))) :
    graph.Apportions positions behind block verdicts where
  run := hrun
  goesOn name validators items := by
    rw [runValidators_block name validators hblock.isTupled, hrun]
    cases judgeEach (graph.evaluateProperty .collectAll) positions behind items <;> rfl
  once _ _ := judgeEach_eq_some_iff
  values items outcomes houtcomes := by
    obtain ⟨hlength, hvalues⟩ := judgeEach_spec (fun _ _ _ => isSome_evaluateProperty) houtcomes
    exact ⟨map_some_outputs hvalues, (length_outputs hvalues).trans hlength⟩

/-- What the row of a property's checks by place makes of arrays. -/
structure JudgesByPlace (graph : Graph) (block : List Check) : Prop where
  /-- A position behind the end of an array has nothing to object to. -/
  missing : ∀ positions, .tuple positions ∈ block → ∀ position ∈ positions,
    graph.evaluateProperty .collectAll position none = some { value := none }
  loose : ∀ positions, block = [.tuple positions] →
    graph.Apportions positions none block fun _ outcomes => [tupleVerdict positions.length outcomes]
  /-- The items are counted from where the tuple ends. -/
  closed : ∀ positions n, block = [.tuple positions, .noAdditionalItems n] → n = positions.length ∧
    (graph.Apportions positions none block fun items outcomes => [tupleVerdict n outcomes, sizeVerdict n items]) ∧
    ∀ items, sizeVerdict n items = .pass ↔ items.length ≤ n
  /-- The items are judged from where the tuple ends, and both checks pass if and only if each item is accepted. -/
  full : ∀ positions n item, block = [.tuple positions, .additionalItems n item] → n = positions.length ∧
    (graph.Apportions positions (some item) block fun _ outcomes => [tupleVerdict n outcomes, behindVerdict n outcomes]) ∧
    ∀ items, (∃ left, runBlock graph (graph.evaluateProperty .collectAll) block (some (.array items)) =
        some ([.pass, .pass], left)) ↔
      ∀ (index : Nat) value, items[index]? = some value →
        Accepted (graph.evaluateProperty .collectAll (positions.getD index item) (some value))

/-- Whatever else a graph is like, rows of checks judge by place if no position asks for presence. -/
theorem judgesByPlace (hpartition : Check.IsPartition block) (hfree : ∀ positions, .tuple positions ∈ block →
      ∀ position ∈ positions, ∀ v ∈ (graph.property position).validators.toList, v.check.isRequired = false) :
    graph.JudgesByPlace block := by
  have hmissing : ∀ positions, .tuple positions ∈ block → ∀ position ∈ positions,
      graph.evaluateProperty .collectAll position none = some { value := none } := by
    intro positions hmem position hposition
    rw [evaluateProperty_eq]
    exact runValidators_missing (hfree positions hmem position hposition)
  have hthere : ∀ id value outcome, graph.evaluateProperty .collectAll id (some value) = some outcome →
      outcome.value.isSome = true := fun _ _ _ => isSome_evaluateProperty
  refine ⟨hmissing, fun positions hblock => ?_, fun positions n hblock => ?_, fun positions n item hblock => ?_⟩
  · subst hblock
    exact .of_run hpartition (runBlock_loose (hmissing positions List.mem_cons_self) hthere graph)
  · subst hblock
    obtain rfl : n = positions.length := by cases hpartition; rfl
    exact ⟨rfl, .of_run hpartition (runBlock_closed (hmissing positions List.mem_cons_self) hthere graph),
      fun _ => sizeVerdict_eq_pass_iff⟩
  · subst hblock
    obtain rfl : n = positions.length := by cases hpartition; rfl
    have hpositions := hmissing positions List.mem_cons_self
    exact ⟨rfl, .of_run hpartition (runBlock_full hpositions hthere graph item),
      runBlock_full_pass_iff hpositions hthere graph item⟩

end Graph

namespace Session

open Building Evaluation

variable {config : Config} {calls : List Call}

/-- Positions do not ask for presence, whichever way they came about. -/
theorem free_position {check : Check} (hcheck : (performAll config calls).graph.Carries check)
    (hplain : isComposed check = false) {child : PropertyId} (hchild : child ∈ check.children) :
    ∀ v ∈ ((performAll config calls).graph.property child).validators.toList, v.check.isRequired = false := by
  have hsheltered := ((sheltering_performAll config calls).houses hcheck).sheltered hplain child hchild
  refine ((orderly_performAll config calls).inStep child).followsMarks.absent ?_
  rw [hsheltered.relaxed, Bool.not_true, Bool.and_false]

/-- **Items are judged by place.**  After any calls, the checks by place of every property stand in one row.  The first
items of an array are judged by the positions of its tuple, and those behind them by one property, if there is a check of
them: all are accepted if and only if both checks pass, what is reported names the failing indexes, and each item takes the
value of its one outcome.

A node that declares arrays and lists their items gets a position for each of these nodes, built from it, and behind them
what `additionalItems` asks for, built from its node.  Wherever in a call such a node is built, its property has just these
checks by place, at the end of the call and after later ones. -/
theorem items_judged_by_place (config : Config) :
    (∀ (calls : List Call) (id : PropertyId), ∃ block, ((performAll config calls).graph.property id).Divided block) ∧
    (∀ (calls : List Call) (id : PropertyId) (block : List Check),
      ((performAll config calls).graph.property id).Divided block → (performAll config calls).graph.JudgesByPlace block) ∧
    ∀ (earlier later : List Call) (m m' t : Session) (bound : Nat) (site : Site) (node : Json) (id : PropertyId),
      Writes config.settings.implicitNull (performAll config earlier) m → node.get? "$ref" = none →
      DeclaresArray node → (Building.property bound site node).Runs config m id m' → Deeds config False m' t →
      ∃ block, AsksByPlace (BuiltBetween config (Building.property (bound - 1)) site.scope m m') node block ∧
        ((later.foldl (perform config) t).graph.property id).Divided block := by
  refine ⟨fun calls => (arranged_performAll config calls).parted, fun calls id block hdivided => ?_,
    fun _ _ _ _ _ _ _ _ _ hm hplain harray hbuilt hdeeds => divided_built hm hplain harray hbuilt hdeeds⟩
  refine Graph.judgesByPlace hdivided.partition fun positions hmem position hposition => ?_
  obtain ⟨v, hv, hcheck⟩ := (Validators.Splits.mem_iff hdivided rfl).2 hmem
  exact free_position (Or.inl ⟨id, v, hv, hcheck⟩) rfl hposition

/-- Whole numbers and words in turn, and truth values behind them. -/
def taggedNode : Json :=
  .object [("type", .string "array"), ("items", .array [.object [("type", .string "integer")],
    .object [("type", .string "string")]]), ("additionalItems", .object [("type", .string "boolean")])]

def taggedSite : Site := { scope := ⟨"t", "", "T"⟩, name := "p", required := false }

/-- The document is known, and a property of it is built. -/
def taggedRun : Except Halt PropertyId × Session :=
  (((Building.property 2 taggedSite taggedNode).run oneName).run).run
    (performAll oneName [.register ⟨"t", "", "T"⟩ taggedNode])

/-- It is a member of a document. -/
def tagged : Json := .object [("type", .string "object"), ("properties", .object [("p", taggedNode)])]

def taggedGraph : Graph := (performAll oneName [.process ⟨"t", "", "T"⟩ tagged]).graph

set_option maxRecDepth 100000 in
theorem tagged_facts : taggedRun.1.toOption = some ⟨3⟩ ∧
    ((taggedGraph.property ⟨3⟩).validators.toList.any fun v => match v.check with
      | .tuple positions => positions = [⟨0⟩, ⟨1⟩]
      | _ => false) = true ∧
    ((taggedGraph.property ⟨3⟩).validators.toList.any fun v => match v.check with
      | .additionalItems n item => n = 2 ∧ item = ⟨2⟩
      | _ => false) = true := by decide +kernel

/-- The checks of the member both pass if and only if each item is accepted at its place; and a node that has been built on
its own is divided as it says, also when later documents fail. -/
theorem items_judged_by_place_tagged :
    (∀ items, (∃ left, runBlock taggedGraph (taggedGraph.evaluateProperty .collectAll)
        [.tuple [⟨0⟩, ⟨1⟩], .additionalItems 2 ⟨2⟩] (some (.array items)) = some ([.pass, .pass], left)) ↔
      ∀ (index : Nat) value, items[index]? = some value →
        Accepted (taggedGraph.evaluateProperty .collectAll ([⟨0⟩, ⟨1⟩].getD index ⟨2⟩) (some value))) ∧
    taggedRun.1.toOption = some ⟨3⟩ ∧
    ∃ block, AsksByPlace (BuiltBetween oneName (Building.property 1) taggedSite.scope
        (performAll oneName [.register ⟨"t", "", "T"⟩ taggedNode]) taggedRun.2) taggedNode block ∧
      ((afterTwins.foldl (perform oneName) taggedRun.2).graph.property ⟨3⟩).Divided block := by
  obtain ⟨hbuilt, htuple, hbehind⟩ := tagged_facts
  obtain ⟨hdivided, hjudges, hnode⟩ := items_judged_by_place oneName
  refine ⟨?_, hbuilt, hnode [.register ⟨"t", "", "T"⟩ taggedNode] afterTwins _ taggedRun.2 taggedRun.2 2 taggedSite
    taggedNode ⟨3⟩ .refl rfl (Or.inl rfl) (eq_ok_of_toOption hbuilt) .refl⟩
  obtain ⟨block, hblock⟩ := hdivided [.process ⟨"t", "", "T"⟩ tagged] ⟨3⟩
  have hfirst : Check.tuple [⟨0⟩, ⟨1⟩] ∈ block := by
    obtain ⟨v, hv, hcheck⟩ := List.any_eq_true.1 htuple
    refine (Validators.Splits.mem_iff hblock rfl).1 ⟨v, hv, ?_⟩
    split at hcheck
    · rename_i heq
      rw [heq, of_decide_eq_true hcheck]
    · cases hcheck
  have hsecond : Check.additionalItems 2 ⟨2⟩ ∈ block := by
    obtain ⟨v, hv, hcheck⟩ := List.any_eq_true.1 hbehind
    refine (Validators.Splits.mem_iff hblock rfl).1 ⟨v, hv, ?_⟩
    split at hcheck
    · rename_i heq
      obtain ⟨rfl, rfl⟩ := of_decide_eq_true hcheck
      exact heq
    · cases hcheck
  obtain rfl : block = [.tuple [⟨0⟩, ⟨1⟩], .additionalItems 2 ⟨2⟩] := by
    rcases hblock.partition.of_mem hfirst with rfl | rfl | ⟨item, rfl⟩ <;> simp at hsecond
    rw [hsecond]
    rfl
  exact ((hjudges _ ⟨3⟩ _ hblock).full _ 2 ⟨2⟩ rfl).2.2

end Session
end SchemaTypes

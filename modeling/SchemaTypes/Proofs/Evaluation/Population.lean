import SchemaTypes.Proofs.Building.Branches
import SchemaTypes.Proofs.Building.Permanence
import SchemaTypes.Proofs.Evaluation.FailFast
/-!
# What compositions make of a member

A composition populates members from the branches that pass, and resets those that only failing branches know.  For one
member this is a function of what it has been before (`Evaluation.get?_populate`), and evaluating an object applies one
such function after the other, from the member of the input or its default on (`Evaluation.evaluateObject_member`).

Each composition knows its own branches only.  So a value that a passing branch of one composition has put in stays as
long as every later composition that knows the member has a passing branch for it, too
(`Session.Reached.populated_member`).  A later one whose branches for the member all fail resets it
(`Session.not_forall_populated_member`).
-/
namespace SchemaTypes

theorem Members.has_eq (members : Members) (name : String) : members.has name = (members.get? name).isSome := by
  induction members with
  | nil => rfl
  | cons member rest ih =>
    obtain ⟨n, value⟩ := member
    unfold Members.has Members.get? at ih ⊢
    rw [List.any_cons, ih, List.lookup_cons]
    by_cases hn : n = name
    · subst hn
      simp
    · rw [beq_false_of_ne hn, beq_false_of_ne (Ne.symm hn), Bool.false_or]

/-- The default of the last property of this name that has one. -/
def Graph.default? (graph : Graph) (ids : List PropertyId) (name : String) : Option Json :=
  ids.reverse.findSome? fun id => if (graph.property id).name = name then (graph.property id).default else none

namespace Evaluation

/-- How the branches of one composition have been judged. -/
abbrev Round := List (Branch × Outcome)

namespace Round

/-- Some branch that populates the name has passed. -/
def passes (round : Round) (name : String) : Bool :=
  round.any fun result => result.2.isValid && result.1.affected.contains name

/-- Some branch that populates the name has failed. -/
def fails (round : Round) (name : String) : Bool :=
  round.any fun result => !result.2.isValid && result.1.affected.contains name

/-- The value of the name in the output of the last passing branch that populates it and has it. -/
def output? (round : Round) (name : String) : Option Json :=
  round.reverse.findSome? fun result =>
    if result.2.isValid && result.1.affected.contains name then result.2.value.bind (·.get? name) else none

/-- What the composition makes of a member. -/
def settle (round : Round) (name : String) (member : Option Json) : Option Json :=
  (round.output? name).or
    (if round.fails name && !round.passes name then member.map fun _ => .null else member)

end Round

/-- What compositions make of a member, one after the other. -/
def settled (rounds : List Round) (name : String) (member : Option Json) : Option Json :=
  rounds.foldl (fun member round => round.settle name member) member

/-- How the branches of the compositions on an object are judged. -/
def rounds (judge : Judge) (input : Members) : List Validator → Option (List Round)
  | [] => some []
  | validator :: rest => match validator.check with
    | .composition _ branches true => do
      let outcomes ← judgeBranches judge branches (.object input)
      return branches.zip outcomes :: (← rounds judge input rest)
    | _ => rounds judge input rest

variable {name : String} {member : Option Json} {value : Json} {graph : Graph} {judge : Judge} {input model : Members}
  {found : Populated} {type : TypeId}

/-! ## One composition -/

theorem get?_takeOver (output : Option Json) : ∀ (affected : List String) (model : Members),
    (takeOver model affected output).get? name =
      (if affected.contains name then output.bind (·.get? name) else none).or (model.get? name)
  | [], _ => rfl
  | first :: rest, model => by
    have hrest := get?_takeOver output rest
    unfold takeOver at hrest ⊢
    rw [List.foldl_cons, hrest, List.contains_cons]
    by_cases hfirst : name = first
    · subst hfirst
      cases rest.contains name <;> cases output.bind (·.get? name) <;> simp [Members.get?_insert_self]
    · rw [beq_false_of_ne hfirst, Bool.false_or]
      congr 1
      split
      · exact Members.get?_insert_of_ne _ _ hfirst
      · rfl

theorem get?_reset (populated : List String) : ∀ (affected : List String) (model : Members),
    (reset model affected populated).get? name =
      if affected.contains name && !populated.contains name then (model.get? name).map fun _ => .null
      else model.get? name
  | [], _ => rfl
  | first :: rest, model => by
    have hrest := get?_reset populated rest
    unfold reset at hrest ⊢
    rw [List.foldl_cons, hrest, List.contains_cons]
    by_cases hfirst : name = first
    · subst hfirst
      rw [Members.has_eq, beq_self_eq_true, Bool.true_or, Bool.true_and]
      cases populated.contains name <;> cases hmember : model.get? name <;> simp [hmember, Members.get?_insert_self]
    · have hsame : (if !populated.contains first && model.has first then model.insert first .null
          else model).get? name = model.get? name := by
        split
        · exact Members.get?_insert_of_ne _ _ hfirst
        · rfl
      rw [beq_false_of_ne hfirst, Bool.false_or, hsame]

theorem Round.output?_append (first second : Round) :
    Round.output? (first ++ second) name = (second.output? name).or (first.output? name) := by
  unfold Round.output?
  rw [List.reverse_append, List.findSome?_append]

theorem Round.output?_cons (result : Branch × Outcome) (rest : Round) : Round.output? (result :: rest) name =
    (rest.output? name).or
      (if result.2.isValid && result.1.affected.contains name then result.2.value.bind (·.get? name) else none) := by
  rw [← List.singleton_append, Round.output?_append]
  congr 1
  unfold Round.output?
  rw [List.reverse_singleton, List.findSome?_singleton]

/-- What no passing branch populates, none puts out. -/
theorem Round.output?_eq_none {round : Round} (h : round.passes name = false) : round.output? name = none := by
  refine List.findSome?_eq_none_iff.2 fun result hresult => ?_
  exact if_neg (List.any_eq_false.1 h result (List.mem_reverse.1 hresult))

theorem get?_takeOvers : ∀ (round : Round) (model : Members),
    ((round.filter (·.2.isValid)).foldl (fun model result => takeOver model result.1.affected result.2.value)
      model).get? name = (round.output? name).or (model.get? name)
  | [], _ => rfl
  | result :: rest, model => by
    rw [Round.output?_cons, List.filter_cons]
    cases hvalid : result.2.isValid with
    | true =>
      rw [if_pos rfl, List.foldl_cons, get?_takeOvers rest, get?_takeOver, Bool.true_and, Option.or_assoc]
    | false =>
      rw [if_neg Bool.false_ne_true, get?_takeOvers rest, Bool.false_and, if_neg Bool.false_ne_true, Option.or_none]

theorem get?_resets (populated : List String) : ∀ (round : Round) (model : Members),
    ((round.filter (!·.2.isValid)).foldl (fun model result => reset model result.1.affected populated)
      model).get? name =
      if round.fails name && !populated.contains name then (model.get? name).map fun _ => .null else model.get? name
  | [], _ => rfl
  | result :: rest, model => by
    have hfails : Round.fails (result :: rest) name =
        (!result.2.isValid && result.1.affected.contains name || Round.fails rest name) := List.any_cons
    rw [hfails, List.filter_cons]
    cases result.2.isValid with
    | true => exact get?_resets populated rest model
    | false =>
      rw [Bool.not_false, if_pos rfl, List.foldl_cons, get?_resets populated rest, get?_reset]
      -- Once it is null, it stays null.
      cases result.1.affected.contains name <;> cases populated.contains name <;> cases Round.fails rest name <;>
        cases model.get? name <;> rfl

/-- **What a composition makes of a member**: the last passing branch that populates and has it decides; otherwise it is
reset if some branch that populates it has failed, and none has passed. -/
theorem get?_populate (round : Round) (model : Members) :
    (populate model round).get? name = round.settle name (model.get? name) := by
  have hpopulated : ((round.filter (·.2.isValid)).flatMap (·.1.affected)).contains name = round.passes name := by
    rw [List.contains_eq_any_beq, List.any_flatMap, List.any_filter]
    refine congrArg (List.any round) (funext fun result => ?_)
    rw [List.contains_eq_any_beq]
  unfold populate
  simp only
  rw [get?_resets, get?_takeOvers, hpopulated]
  unfold Round.settle
  cases hpasses : round.passes name with
  | true => rw [Bool.not_true, Bool.and_false, if_neg Bool.false_ne_true, if_neg Bool.false_ne_true]
  | false =>
    rw [Round.output?_eq_none hpasses]
    rfl

/-! ## All compositions -/

theorem settled_cons (round : Round) (rest : List Round) (member : Option Json) :
    settled (round :: rest) name member = settled rest name (round.settle name member) := rfl

theorem get?_populates : ∀ (rounds : List Round) (model : Members),
    (rounds.foldl populate model).get? name = settled rounds name (model.get? name)
  | [], _ => rfl
  | round :: rest, model => by
    rw [List.foldl_cons, get?_populates rest, get?_populate, settled_cons]

/-- Where no later composition resets or replaces it, a member stays. -/
theorem settled_eq_self {rounds : List Round} (houtput : Round.output? rounds.flatten name = none)
    (hkept : ∀ round ∈ rounds, round.fails name = true → round.passes name = true) :
    settled rounds name member = member := by
  induction rounds generalizing member with
  | nil => rfl
  | cons round rest ih =>
    rw [List.flatten_cons, Round.output?_append, Option.or_eq_none_iff] at houtput
    obtain ⟨hround, hrest⟩ := List.forall_mem_cons.1 hkept
    have hsettle : round.settle name member = member := by
      unfold Round.settle
      rw [houtput.2, Option.none_or, if_neg]
      rw [Bool.and_eq_true, Bool.not_eq_true']
      exact fun h => nomatch (hround h.1).symm.trans h.2
    rw [settled_cons, hsettle]
    exact ih houtput.1 hrest

/-- **The last value that a passing branch puts out survives**, if no composition for whose branches the name is lost
comes after one that has a passing branch for it. -/
theorem settled_of_output {rounds : List Round} (houtput : Round.output? rounds.flatten name = some value)
    (hkept : rounds.Pairwise fun earlier later =>
      earlier.passes name = true → later.fails name = true → later.passes name = true) :
    settled rounds name member = some value := by
  induction rounds generalizing member with
  | nil => cases houtput
  | cons round rest ih =>
    rw [List.flatten_cons, Round.output?_append] at houtput
    obtain ⟨hround, hrest⟩ := List.pairwise_cons.1 hkept
    rw [settled_cons]
    cases hlater : Round.output? rest.flatten name with
    | some later =>
      rw [hlater] at houtput
      exact ih (hlater.trans houtput) hrest
    | none =>
      rw [hlater, Option.none_or] at houtput
      have hpasses : round.passes name = true := by
        refine Bool.of_not_eq_false fun hnone => ?_
        rw [Round.output?_eq_none hnone] at houtput
        cases houtput
      rw [settled_eq_self hlater fun later hmem => hround later hmem hpasses]
      unfold Round.settle
      rw [houtput, Option.some_or]

/-- Without a value from a passing branch, the member stays or is reset. -/
theorem settled_of_no_output {rounds : List Round} (houtput : Round.output? rounds.flatten name = none) :
    settled rounds name member = member ∨ settled rounds name member = member.map fun _ => .null := by
  induction rounds generalizing member with
  | nil => exact Or.inl rfl
  | cons round rest ih =>
    rw [List.flatten_cons, Round.output?_append, Option.or_eq_none_iff] at houtput
    rw [settled_cons]
    unfold Round.settle
    rw [houtput.2, Option.none_or]
    split
    · refine Or.inr ((ih houtput.1).elim id fun h => h.trans ?_)
      rw [Option.map_map]
      rfl
    · exact ih houtput.1

/-- Without a passing branch, one that fails resets the member. -/
theorem settled_of_fails {rounds : List Round} (hnone : ∀ round ∈ rounds, round.passes name = false) :
    settled rounds name member =
      if rounds.any (·.fails name) then member.map fun _ => .null else member := by
  induction rounds generalizing member with
  | nil => rfl
  | cons round rest ih =>
    obtain ⟨hround, hrest⟩ := List.forall_mem_cons.1 hnone
    rw [settled_cons, ih hrest, List.any_cons]
    unfold Round.settle
    rw [Round.output?_eq_none hround, Option.none_or, hround]
    cases round.fails name <;> cases rest.any (·.fails name) <;> cases member <;> rfl

/-! ## The properties and checks of a type -/

theorem rounds_composition {validator : Validator} {rest : List Validator} {combinator : Combinator}
    {branches : List Branch} {outcomes : List Outcome} {all : List Round}
    (hcheck : validator.check = .composition combinator branches true)
    (hround : judgeBranches judge branches (.object input) = some outcomes)
    (hrest : rounds judge input rest = some all) :
    rounds judge input (validator :: rest) = some (branches.zip outcomes :: all) := by
  unfold rounds
  rw [hcheck]
  simp only
  rw [hround, hrest]
  rfl

theorem rounds_other {validator : Validator} (rest : List Validator)
    (hcheck : ∀ combinator branches, validator.check ≠ .composition combinator branches true) :
    rounds judge input (validator :: rest) = rounds judge input rest := by
  rw [rounds]
  split
  · rename_i heq
    exact absurd heq (hcheck _ _)
  · rfl

theorem rounds_of_evaluateTypeChecks {className : String} : ∀ {validators : List Validator} {model : Members}
    {found : Populated}, evaluateTypeChecks .collectAll judge className input validators model = some found →
    ∃ all, rounds judge input validators = some all ∧ found.model = all.foldl populate model
  | [], model, found, h => by
    obtain rfl := Option.some.inj h
    exact ⟨[], rfl, rfl⟩
  | validator :: rest, model, found, h => by
    obtain ⟨⟨verdict, changed⟩, hcheck, hrest⟩ := Option.bind_eq_some_iff.1 h
    -- Whatever the verdict, the checks that follow start from the changed model.
    have hlater : ∃ later, evaluateTypeChecks .collectAll judge className input rest changed = some later ∧
        found.model = later.model := by
      cases verdict with
      | pass => exact ⟨found, hrest, rfl⟩
      | settle => exact ⟨found, hrest, rfl⟩
      | fail failure =>
        simp only [reduceCtorEq, if_false] at hrest
        obtain ⟨later, hlater, heq⟩ := Option.bind_eq_some_iff.1 hrest
        obtain rfl := Option.some.inj heq
        exact ⟨later, hlater, rfl⟩
    obtain ⟨later, hlater, hmodel⟩ := hlater
    obtain ⟨all, hall, hlater⟩ := rounds_of_evaluateTypeChecks hlater
    rw [hmodel, hlater]
    unfold runTypeCheck at hcheck
    split at hcheck
    · rename_i hcomposition
      obtain ⟨outcomes, houtcomes, heq⟩ := Option.bind_eq_some_iff.1 hcheck
      obtain ⟨rfl, rfl⟩ := Prod.mk.inj (Option.some.inj heq)
      exact ⟨_, rounds_composition hcomposition houtcomes hall, rfl⟩
    · rename_i hother
      obtain ⟨_, _, heq⟩ := Option.bind_eq_some_iff.1 hcheck
      obtain ⟨rfl, rfl⟩ := Prod.mk.inj (Option.some.inj heq)
      exact ⟨all, (rounds_other rest hother).trans hall, rfl⟩

/-- Where nothing is checked about the properties of a name, its member is the input's, or the default. -/
theorem get?_evaluateProperties : ∀ {ids : List PropertyId} {model : Members} {start : Option Json} {found : Populated},
    (∀ id ∈ ids, (graph.property id).name = name → ∀ value outcome, judge id value = some outcome →
      outcome.value = value) →
    model.get? name = (input.get? name).or start →
    evaluateProperties graph .collectAll judge input ids model = some found →
    found.model.get? name = (input.get? name).or ((graph.default? ids name).or start)
  | [], model, start, found, _, hmodel, h => by
    obtain rfl := Option.some.inj h
    exact hmodel
  | id :: rest, model, start, found, hids, hmodel, h => by
    obtain ⟨hid, hrest⟩ := List.forall_mem_cons.1 hids
    obtain ⟨outcome, houtcome, hgoes⟩ := Option.bind_eq_some_iff.1 h
    simp only [stopsAt_collectAll, Bool.false_eq_true, if_false] at hgoes
    obtain ⟨later, hlater, heq⟩ := Option.bind_eq_some_iff.1 hgoes
    obtain rfl := Option.some.inj heq
    have hdefault : graph.default? (id :: rest) name = (graph.default? rest name).or
        (if (graph.property id).name = name then (graph.property id).default else none) := by
      unfold Graph.default?
      rw [List.reverse_cons, List.findSome?_append, List.findSome?_singleton]
    rw [hdefault, Option.or_assoc]
    change later.model.get? name = _
    refine get?_evaluateProperties hrest ?_ hlater
    by_cases hname : (graph.property id).name = name
    · have hvalue := hid hname _ _ houtcome
      rw [if_pos hname]
      unfold contribution
      rw [hvalue, hname]
      cases hinput : input.get? name with
      | some value => exact Members.get?_insert_self _ _ _
      | none =>
        rw [hinput] at hmodel
        cases (graph.property id).default with
        | some value => exact Members.get?_insert_self _ _ _
        | none => exact hmodel
    · rw [if_neg hname, Option.none_or, ← hmodel]
      split
      · exact Members.get?_insert_of_ne _ _ (Ne.symm hname)
      · rfl

/-- **What evaluating an object makes of a member** about whose properties nothing is checked: from the input's member
or the default on, what its compositions make of it one after the other. -/
theorem evaluateObject_member
    (hunchecked : ∀ id ∈ (graph.type type).properties, (graph.property id).name = name →
      ∀ value outcome, judge id value = some outcome → outcome.value = value)
    (h : evaluateObject graph .collectAll judge type input = some found) :
    ∃ all, rounds judge input (graph.type type).validators.toList = some all ∧ found.model.get? name =
      settled all name ((input.get? name).or (graph.default? (graph.type type).properties name)) := by
  obtain ⟨first, hfirst, hrest⟩ := Option.bind_eq_some_iff.1 h
  simp only [stopsAt_collectAll, Bool.false_eq_true, if_false] at hrest
  obtain ⟨second, hsecond, heq⟩ := Option.bind_eq_some_iff.1 hrest
  obtain rfl := Option.some.inj heq
  obtain ⟨all, hall, hmodel⟩ := rounds_of_evaluateTypeChecks hsecond
  refine ⟨all, hall, ?_⟩
  have hstart : first.model.get? name =
      (input.get? name).or ((graph.default? (graph.type type).properties name).or none) :=
    get?_evaluateProperties hunchecked Option.or_none.symm hfirst
  rw [Option.or_none] at hstart
  change second.model.get? name = _
  rw [hmodel, get?_populates, hstart]

/-- A property that runs no checks leaves the value alone. -/
theorem property_unchecked {mode : Mode} {id : PropertyId} (hunchecked : (graph.property id).validators.toList = []) :
    ∀ {bound : Nat} {value : Option Json} {outcome : Outcome}, property graph mode bound id value = some outcome →
      outcome.value = value
  | bound + 1, value, outcome, h => by
    simp only [property] at h
    rw [hunchecked] at h
    obtain rfl := Option.some.inj h
    rfl

/-- Judges that extend each other judge the branches alike. -/
theorem rounds_extends {base : Graph} {J K : Judge} (h : J.ExtendsOn base K) : ∀ {validators : List Validator},
    (∀ v ∈ validators, base.KnowsCheck v.check) → Extends (rounds J input validators) (rounds K input validators)
  | [], _ => .refl _
  | validator :: rest, hchecks => by
    obtain ⟨hcheck, hrest⟩ := List.forall_mem_cons.1 hchecks
    unfold rounds
    split
    · rename_i heq
      rw [heq] at hcheck
      refine (h.judgeBranches _ fun branch hbranch => hcheck.children _ (List.mem_map.2 ⟨branch, hbranch, rfl⟩)).bind
        fun outcomes => ?_
      exact (rounds_extends h hrest).andThen
    · exact rounds_extends h hrest

end Evaluation

namespace Session

open Evaluation

variable {config : Config} {ok : Reference.Documents → Prop} {s : Session} {type : TypeId} {name : String}
  {input : Members} {result : Result} {id : PropertyId}

/-! ## Runs -/

theorem Reached.agreeOn (h : Reached config ok s) : s.graph.AgreeOn s.graph s.graph :=
  h.not_unfinished.1.closed.agreeOn h.registered h.registered (.refl _)

/-- What some bound brings is what the property is evaluated to. -/
theorem Reached.extendsOn (h : Reached config ok s) (mode : Mode) (bound : Nat) :
    Judge.ExtendsOn s.graph (property s.graph mode bound) (s.graph.evaluateProperty mode) := fun id value hid _ ha =>
  deepen_eq_some (fun _ _ a hle hsome => h.agreeOn.judge hle id value hid a hsome) ha _

theorem Reached.rounds_eq (h : Reached config ok s) {mode : Mode} {bound : Nat} {all : List Round}
    (hall : rounds (property s.graph mode bound) input (s.graph.type type).validators.toList = some all) :
    rounds (s.graph.evaluateProperty mode) input (s.graph.type type).validators.toList = some all :=
  rounds_extends (h.extendsOn mode bound) (h.not_unfinished.1.closed.types _).checks all hall

/-- The member that the compositions of a type start from: the input's, or the default. -/
def startsWith (s : Session) (type : TypeId) (input : Members) (name : String) : Option Json :=
  (input.get? name).or (s.graph.default? (s.graph.type type).properties name)

/-- **What evaluation makes of a member that is only lifted** is what the compositions make of it, one after the
other. -/
theorem Reached.settled_member (h : Reached config ok s)
    (hlifted : ∀ id ∈ (s.graph.type type).properties, (s.graph.property id).name = name →
      (s.graph.property id).isLifted = true)
    (hrun : s.graph.evaluate .collectAll type (.object input) = some result) :
    ∃ all, rounds (s.graph.evaluateProperty .collectAll) input (s.graph.type type).validators.toList = some all ∧
      result.model.get? name = settled all name (s.startsWith type input name) := by
  obtain ⟨bound, hbound⟩ := exists_of_deepen hrun
  obtain ⟨found, hobject, heq⟩ := Option.bind_eq_some_iff.1 hbound
  obtain rfl := Option.some.inj heq
  obtain ⟨all, hall, hmember⟩ := evaluateObject_member (fun id hid hname _ _ houtcome =>
    property_unchecked (h.marked.unchecked id (hlifted id hid hname)).validators houtcome) hobject
  exact ⟨all, h.rounds_eq hall, hmember⟩

/-- **Populated members survive**, where no composition whose branches for the name have all failed comes after one that
has a passing branch for it.  Without a value that a passing branch puts out, the member is what it has started from, or
null in its place; and it is null if branches that populate it have failed and none has passed. -/
theorem Reached.populated_member (h : Reached config ok s)
    (hlifted : ∀ id ∈ (s.graph.type type).properties, (s.graph.property id).name = name →
      (s.graph.property id).isLifted = true)
    (hrun : s.graph.evaluate .collectAll type (.object input) = some result) :
    ∃ all, rounds (s.graph.evaluateProperty .collectAll) input (s.graph.type type).validators.toList = some all ∧
      (∀ value, Round.output? all.flatten name = some value → (all.Pairwise fun earlier later =>
          earlier.passes name = true → later.fails name = true → later.passes name = true) →
        result.model.get? name = some value) ∧
      (Round.output? all.flatten name = none →
        result.model.get? name = s.startsWith type input name ∨
          result.model.get? name = (s.startsWith type input name).map fun _ => .null) ∧
      ((∀ round ∈ all, round.passes name = false) → (∃ round ∈ all, round.fails name = true) →
        result.model.get? name = (s.startsWith type input name).map fun _ => .null) := by
  obtain ⟨all, hall, hmember⟩ := h.settled_member hlifted hrun
  rw [hmember]
  refine ⟨all, hall, fun value houtput hkept => settled_of_output houtput hkept, settled_of_no_output,
    fun hnone hfails => ?_⟩
  rw [settled_of_fails hnone, if_pos (List.any_eq_true.2 hfails)]

/-- Two compositions that know a member of the same name. -/
def contested : Json :=
  let declaring := fun word => Json.object [("properties", .object [("a", .object [("type", .string word)])])]
  .object [("type", .string "object"), ("allOf", .array [declaring "integer"]), ("anyOf", .array [declaring "string"])]

def contestedRun : Except Halt TypeId × Session := process {} oneName ⟨"t", "", "T"⟩ contested

/-- What the root makes of an object, and how its compositions are judged. -/
def contestedYields (members : Members) (p : Result → List Round → Bool) : Bool :=
  (Evaluation.run contestedRun.2.graph .collectAll
      (boundFor contestedRun.2.graph (Json.object members).depth) ⟨0⟩ (.object members)).any fun result =>
    (rounds (property contestedRun.2.graph .collectAll 9) members
      (contestedRun.2.graph.type ⟨0⟩).validators.toList).any (p result)

/-- The member is the text. -/
def isText (text : String) : Option Json → Bool
  | some (.string found) => found = text
  | _ => false

theorem eq_of_isText {text : String} {member : Option Json} (h : isText text member = true) :
    member = some (.string text) := by
  unfold isText at h
  split at h
  · rw [of_decide_eq_true h]
  · cases h

set_option maxRecDepth 100000 in
/-- A text fails the first branch and passes the second one, a number the other way round. -/
theorem contested_facts : contestedRun.1.toOption = some ⟨0⟩ ∧
    (∀ id ∈ (contestedRun.2.graph.type ⟨0⟩).properties, (contestedRun.2.graph.property id).isLifted = true) ∧
    contestedYields [("a", .string "x")] (fun _ all =>
      all.map (fun round => (round.passes "a", round.fails "a")) = [(false, true), (true, false)] &&
        isText "x" (Round.output? all.flatten "a")) = true ∧
    contestedYields [("a", .number (.integer 5))] (fun result all =>
      (Round.output? all.flatten "a").any (!·.isNull) && (result.model.get? "a").any Json.isNull) = true := by
  decide +kernel

theorem reached_contested : Reached oneName (fun _ => True) contestedRun.2 :=
  .process .initial trivial (eq_ok_of_toOption contested_facts.1)

theorem evaluates_contested {members : Members} {p : Result → List Round → Bool}
    (h : contestedYields members p = true) : ∃ result all,
    contestedRun.2.graph.evaluate .collectAll ⟨0⟩ (.object members) = some result ∧
      rounds (contestedRun.2.graph.evaluateProperty .collectAll) members
        (contestedRun.2.graph.type ⟨0⟩).validators.toList = some all ∧ p result all = true := by
  obtain ⟨result, hresult, hany⟩ := (Option.any_eq_true _ _).1 h
  obtain ⟨all, hall, hp⟩ := (Option.any_eq_true _ _).1 hany
  exact ⟨result, all, deepen_of_some hresult, reached_contested.rounds_eq hall, hp⟩

/-- The first composition resets the member, and the second one populates it. -/
theorem populated_member_contested : ∃ result,
    contestedRun.2.graph.evaluate .collectAll ⟨0⟩ (.object [("a", .string "x")]) = some result ∧
      result.model.get? "a" = some (.string "x") := by
  obtain ⟨_, hlifted, htext, _⟩ := contested_facts
  obtain ⟨result, all, hrun, hall, hjudged⟩ := evaluates_contested htext
  obtain ⟨hrounds, houtput⟩ := Bool.and_eq_true_iff.1 hjudged
  obtain ⟨all', hall', hsurvives, _⟩ := reached_contested.populated_member
    (fun id hid (_ : (contestedRun.2.graph.property id).name = "a") => hlifted id hid) hrun
  obtain rfl := Option.some.inj (hall.symm.trans hall')
  have hkept : (all.map fun round => (round.passes "a", round.fails "a")).Pairwise fun earlier later =>
      earlier.1 = true → later.2 = true → later.1 = true := by
    rw [of_decide_eq_true hrounds]
    decide
  exact ⟨result, hrun, hsurvives _ (eq_of_isText houtput) (List.pairwise_map.1 hkept)⟩

/-- **A populated member may be reset.**  The first composition has a passing branch for it, and the second one, which
does not know of that, has only a failing one. -/
theorem not_forall_populated_member : ¬ ∀ (config : Config) (s : Session) (type : TypeId) (name : String)
    (input : Members) (result : Result) (all : List Round) (value : Json), Reached config (fun _ => True) s →
    (∀ id ∈ (s.graph.type type).properties, (s.graph.property id).name = name →
      (s.graph.property id).isLifted = true) →
    s.graph.evaluate .collectAll type (.object input) = some result →
    rounds (s.graph.evaluateProperty .collectAll) input (s.graph.type type).validators.toList = some all →
    Round.output? all.flatten name = some value → result.model.get? name = some value := by
  intro h
  obtain ⟨_, hlifted, _, hnumber⟩ := contested_facts
  obtain ⟨result, all, hrun, hall, hjudged⟩ := evaluates_contested hnumber
  obtain ⟨houtput, hmember⟩ := Bool.and_eq_true_iff.1 hjudged
  obtain ⟨value, hvalue, hsome⟩ := (Option.any_eq_true _ _).1 houtput
  obtain ⟨member, hfound, hnull⟩ := (Option.any_eq_true _ _).1 hmember
  have hkept := h oneName contestedRun.2 ⟨0⟩ "a" _ result all value reached_contested (fun id hid _ => hlifted id hid)
    hrun hall hvalue
  obtain rfl := Option.some.inj (hfound.symm.trans hkept)
  rw [hnull] at hsome
  cases hsome

end Session
end SchemaTypes

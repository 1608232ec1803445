import SchemaTypes.Check.Validators
/-!
# The order of validators

A list of validators is put in order one arrival at a time, and by nothing but `add`.  So what the list says after any
operations is fixed by what has been added and not been removed (`survivors`): it is ascending by priority, and the
validators of one priority stand as they have come (`performAll_ordered`).

The list itself does not show this.  An arrival finds its place by comparing priorities, `sort` by comparing the numbers of
arrivals as well, and removals leave gaps between these.  Both go by one order in which the arrivals of a list are always
strictly ascending, later numbers being still to be given (`Ascending`).  There a bisection finds the place of an arrival
(`addByBisection_eq`), though it may miss it elsewhere, and nothing is left to be sorted.
-/
namespace SchemaTypes.Validators

variable {validators : Validators} {arrival first second : Arrival} {arrivals front back : List Arrival}

/-! ## Operations -/

/-- What can be done to a list of validators. -/
inductive Operation where
  | add (validator : Validator)
  | extend (others : List Validator)
  | retain (keep : Validator → Bool)
  | removeRequired
  | sort

def perform (validators : Validators) : Operation → Validators
  | .add validator => validators.add validator
  | .extend others => validators.extend others
  | .retain keep => validators.retain keep
  | .removeRequired => validators.removeRequired
  | .sort => validators.sort

/-- Operations one after the other, from nothing. -/
def performAll (operations : List Operation) : Validators := operations.foldl perform empty

/-- What an operation leaves of the validators that are there, in the order they have come. -/
def Operation.survivors (present : List Validator) : Operation → List Validator
  | .add validator => present ++ [validator]
  | .extend others => present ++ others
  | .retain keep => present.filter keep
  | .removeRequired => present.filter (!·.check.isRequired)
  | .sort => present

/-- What has been added and not been removed, in the order it has come. -/
def survivors (operations : List Operation) : List Validator := operations.foldl Operation.survivors []

/-! ## Places -/

/-- An order of arrivals is kept if those that an arrival is put behind come before it, and it before the others. -/
theorem pairwise_place {R : Arrival → Arrival → Prop} (htrans : ∀ a b c, R a b → R b c → R a c) :
    ∀ {arrivals : List Arrival}, arrivals.Pairwise R →
      (∀ other ∈ arrivals, other.validator.priority ≤ arrival.validator.priority → R other arrival) →
      (∀ other ∈ arrivals, arrival.validator.priority < other.validator.priority → R arrival other) →
      (place arrival arrivals).Pairwise R
  | [], _, _, _ => List.pairwise_singleton _ _
  | first :: rest, h, hbefore, hafter => by
    obtain ⟨hfirst, hrest⟩ := List.pairwise_cons.1 h
    unfold place
    split
    · rename_i hle
      refine List.pairwise_cons.2 ⟨fun other hother => ?_, pairwise_place htrans hrest
        (fun other hother => hbefore other (List.mem_cons_of_mem _ hother))
        fun other hother => hafter other (List.mem_cons_of_mem _ hother)⟩
      rcases List.mem_cons.1 ((place_perm arrival rest).mem_iff.1 hother) with rfl | hother
      · exact hbefore first List.mem_cons_self hle
      · exact hfirst other hother
    · rename_i hnot
      have hlow := hafter first List.mem_cons_self (Nat.lt_of_not_le hnot)
      refine List.pairwise_cons.2 ⟨fun other hother => ?_, h⟩
      rcases List.mem_cons.1 hother with rfl | hother
      · exact hlow
      · exact htrans _ _ _ hlow (hfirst other hother)

/-- An arrival goes behind a front part of no higher priorities, if a higher one comes next. -/
theorem place_append (arrival : Arrival)
    (hback : ∀ other ∈ back, arrival.validator.priority < other.validator.priority) :
    ∀ {front : List Arrival}, (∀ other ∈ front, other.validator.priority ≤ arrival.validator.priority) →
      place arrival (front ++ back) = front ++ arrival :: back
  | [], _ => by
    cases back with
    | nil => rfl
    | cons next rest => exact if_neg (Nat.not_le_of_lt (hback next List.mem_cons_self))
  | other :: front, hfront => by
    obtain ⟨hother, hfront⟩ := List.forall_mem_cons.1 hfront
    rw [List.cons_append, place, if_pos hother, place_append arrival hback hfront]
    rfl

/-- An ordered list falls into what an arrival is put behind and what it is put before. -/
theorem exists_split (priority : Nat) : ∀ {arrivals : List Arrival},
    arrivals.Pairwise (fun earlier later => earlier.validator.priority ≤ later.validator.priority) → ∃ front back,
      arrivals = front ++ back ∧ (∀ other ∈ front, other.validator.priority ≤ priority) ∧
        ∀ other ∈ back, priority < other.validator.priority
  | [], _ => ⟨[], [], rfl, fun _ h => (nomatch h), fun _ h => nomatch h⟩
  | first :: rest, h => by
    obtain ⟨hfirst, hrest⟩ := List.pairwise_cons.1 h
    by_cases hle : first.validator.priority ≤ priority
    · obtain ⟨front, back, rfl, hfront, hback⟩ := exists_split priority hrest
      exact ⟨first :: front, back, rfl, List.forall_mem_cons.2 ⟨hle, hfront⟩, hback⟩
    · refine ⟨[], first :: rest, rfl, fun _ h => (nomatch h), List.forall_mem_cons.2 ⟨Nat.lt_of_not_le hle, ?_⟩⟩
      exact fun other hother => Nat.lt_of_lt_of_le (Nat.lt_of_not_le hle) (hfirst other hother)

/-! ## The order that both comparisons go by -/

/-- Earlier by priority, and among equal priorities by arrival. -/
def Before (first second : Arrival) : Prop :=
  first.validator.priority < second.validator.priority ∨
    first.validator.priority = second.validator.priority ∧ first.number < second.number

theorem Before.priority_le (h : Before first second) : first.validator.priority ≤ second.validator.priority := by
  rcases h with hlt | ⟨heq, -⟩
  · exact Nat.le_of_lt hlt
  · exact Nat.le_of_eq heq

theorem Before.trans {third : Arrival} (h : Before first second) (h' : Before second third) : Before first third := by
  unfold Before at *
  omega

theorem Before.precedes (h : Before first second) : precedes first second = true := by
  unfold Validators.precedes
  rcases h with hlt | ⟨heq, hnumber⟩
  · simp [hlt]
  · simp [heq, Nat.le_of_lt hnumber]

/-- The arrivals are in order, and have come before the next one. -/
structure Ascending (validators : Validators) : Prop where
  ordered : validators.arrivals.Pairwise Before
  numbered : ∀ arrival ∈ validators.arrivals, arrival.number < validators.next

namespace Ascending

theorem empty : Ascending Validators.empty := ⟨.nil, fun _ h => nomatch h⟩

theorem priorities (h : validators.Ascending) : validators.arrivals.Pairwise fun earlier later =>
    earlier.validator.priority ≤ later.validator.priority := h.ordered.imp Before.priority_le

theorem add (h : validators.Ascending) (validator : Validator) : (validators.add validator).Ascending := by
  refine ⟨pairwise_place (R := Before) (fun _ _ _ => Before.trans) h.ordered (fun other hother hle => ?_)
    fun other _ hlt => Or.inl hlt, fun other hother => ?_⟩
  · rcases Nat.lt_or_eq_of_le hle with hlt | heq
    · exact Or.inl hlt
    · exact Or.inr ⟨heq, h.numbered other hother⟩
  · rcases List.mem_cons.1 ((place_perm _ _).mem_iff.1 hother) with rfl | hother
    · exact Nat.lt_succ_self _
    · exact Nat.lt_succ_of_lt (h.numbered other hother)

theorem retain (h : validators.Ascending) (keep : Validator → Bool) : (validators.retain keep).Ascending :=
  ⟨h.ordered.filter _, fun other hother => h.numbered other (List.mem_filter.1 hother).1⟩

/-- **What is in order stays as it is** when it is sorted. -/
theorem sort_eq (h : validators.Ascending) : validators.sort = validators := by
  unfold Validators.sort
  rw [List.mergeSort_of_pairwise (h.ordered.imp Before.precedes)]

end Ascending

/-! ## What stands in the list -/

/-- The validators of a priority. -/
def ofPriority (priority : Nat) (validators : List Validator) : List Validator :=
  validators.filter (·.priority = priority)

theorem ofPriority_append (priority : Nat) (first second : List Validator) :
    ofPriority priority (first ++ second) = ofPriority priority first ++ ofPriority priority second :=
  List.filter_append ..

theorem ofPriority_filter (priority : Nat) (keep : Validator → Bool) (present : List Validator) :
    ofPriority priority (present.filter keep) = (ofPriority priority present).filter keep := by
  unfold ofPriority
  rw [List.filter_filter, List.filter_filter]
  exact List.filter_congr fun validator _ => Bool.and_comm _ _

/-- The list is in order, and of each priority it has what is said to be there, as it has come. -/
structure Holds (validators : Validators) (present : List Validator) : Prop where
  ascending : validators.Ascending
  perm : validators.toList.Perm present
  sameOrder : ∀ priority, ofPriority priority validators.toList = ofPriority priority present

namespace Holds

variable {present : List Validator}

theorem empty : Holds Validators.empty [] := ⟨.empty, .nil, fun _ => rfl⟩

/-- Behind the place of an arrival there is none of its priority. -/
theorem add (h : validators.Holds present) (validator : Validator) :
    (validators.add validator).Holds (present ++ [validator]) := by
  refine ⟨h.ascending.add validator, ?_, fun priority => ?_⟩
  · exact (toList_add_perm validators validator).trans ((h.perm.cons validator).trans
      (List.perm_append_singleton validator present).symm)
  · obtain ⟨front, back, harrivals, hfront, hback⟩ := exists_split validator.priority h.ascending.priorities
    have hadded : (validators.add validator).toList =
        front.map (·.validator) ++ ([validator] ++ back.map (·.validator)) := by
      unfold Validators.add toList
      rw [harrivals, place_append ⟨validators.next, validator⟩ hback hfront, List.map_append]
      rfl
    have hbefore : validators.toList = front.map (·.validator) ++ back.map (·.validator) := by
      unfold toList
      rw [harrivals, List.map_append]
    have hcommute : ofPriority priority [validator] ++ ofPriority priority (back.map (·.validator)) =
        ofPriority priority (back.map (·.validator)) ++ ofPriority priority [validator] := by
      by_cases hsame : validator.priority = priority
      · have hnone : ofPriority priority (back.map (·.validator)) = [] := by
          refine List.filter_eq_nil_iff.2 fun other hother heq => ?_
          obtain ⟨arrival, harrival, rfl⟩ := List.mem_map.1 hother
          have hlt := hback arrival harrival
          rw [of_decide_eq_true heq, hsame] at hlt
          exact Nat.lt_irrefl _ hlt
        rw [hnone, List.append_nil, List.nil_append]
      · have hnone : ofPriority priority [validator] = [] := by
          unfold ofPriority
          simp [hsame]
        rw [hnone, List.append_nil, List.nil_append]
    rw [hadded, ofPriority_append, ofPriority_append, hcommute, ← List.append_assoc, ← ofPriority_append, ← hbefore,
      h.sameOrder priority, ofPriority_append]

theorem extend : ∀ (others : List Validator) {validators : Validators} {present : List Validator},
    validators.Holds present → (validators.extend others).Holds (present ++ others)
  | [], _, present, h => by
    rw [List.append_nil]
    exact h
  | validator :: others, _, present, h => by
    have hrest := extend others (h.add validator)
    rw [List.append_assoc] at hrest
    exact hrest

theorem retain (h : validators.Holds present) (keep : Validator → Bool) :
    (validators.retain keep).Holds (present.filter keep) := by
  refine ⟨h.ascending.retain keep, ?_, fun priority => ?_⟩
  · rw [toList_retain]
    exact h.perm.filter keep
  · rw [toList_retain, ofPriority_filter, ofPriority_filter, h.sameOrder priority]

/-- **One operation** does to the list what it does to what is there. -/
theorem perform (h : validators.Holds present) (operation : Operation) :
    (validators.perform operation).Holds (operation.survivors present) := by
  cases operation with
  | add validator => exact h.add validator
  | extend others => exact extend others h
  | retain keep => exact h.retain keep
  | removeRequired => exact h.retain (!·.check.isRequired)
  | sort =>
    change validators.sort.Holds present
    rw [h.ascending.sort_eq]
    exact h

end Holds

theorem holds_foldl : ∀ (operations : List Operation) {validators : Validators} {present : List Validator},
    validators.Holds present →
      (operations.foldl perform validators).Holds (operations.foldl Operation.survivors present)
  | [], _, _, h => h
  | operation :: operations, _, _, h => holds_foldl operations (h.perform operation)

/-! ## Finding the place by bisection -/

/-- Where halving the stretch between two positions ends.  If the condition holds up to some position between them and not
from there on, it ends at this one. -/
def bisect (condition : Arrival → Bool) (arrivals : List Arrival) (low high : Nat) : Nat :=
  if low < high then
    let middle := (low + high) / 2
    if arrivals[middle]?.any condition then bisect condition arrivals (middle + 1) high
    else bisect condition arrivals low middle
  else low
termination_by high - low

theorem bisect_eq {condition : Arrival → Bool} (hfront : ∀ other ∈ front, condition other = true)
    (hback : ∀ other ∈ back, condition other = false) (low high : Nat) (hlow : low ≤ front.length)
    (hhigh : front.length ≤ high) (hlength : high ≤ (front ++ back).length) :
    bisect condition (front ++ back) low high = front.length := by
  fun_induction bisect condition (front ++ back) low high with
  | case1 low high hlt middle hany ih =>
    refine ih (Nat.lt_of_not_le fun hle => ?_) hhigh hlength
    rw [List.getElem?_append_right hle] at hany
    obtain ⟨other, hother, hcondition⟩ := (Option.any_eq_true _ _).1 hany
    rw [hback other (List.mem_of_getElem? hother)] at hcondition
    cases hcondition
  | case2 low high hlt middle hnone ih =>
    refine ih hlow (Nat.le_of_not_lt fun hmiddle => ?_) (by omega)
    rw [List.getElem?_append_left hmiddle, List.getElem?_eq_getElem hmiddle] at hnone
    exact hnone (hfront _ (List.getElem_mem hmiddle))
  | case3 low high hnot => omega

/-- Add a validator at the place that a bisection of the priorities finds. -/
def addByBisection (validators : Validators) (validator : Validator) : Validators :=
  let index := bisect (·.validator.priority ≤ validator.priority) validators.arrivals 0 validators.arrivals.length
  { arrivals := validators.arrivals.take index ++ ⟨validators.next, validator⟩ :: validators.arrivals.drop index
    next := validators.next + 1 }

/-- **In an ordered list a bisection finds the place** of an arrival. -/
theorem Ascending.addByBisection_eq (h : validators.Ascending) (validator : Validator) :
    validators.addByBisection validator = validators.add validator := by
  obtain ⟨front, back, harrivals, hfront, hback⟩ := exists_split validator.priority h.priorities
  have hindex : bisect (·.validator.priority ≤ validator.priority) (front ++ back) 0 (front ++ back).length =
      front.length := by
    refine bisect_eq (fun other hother => decide_eq_true (hfront other hother)) (fun other hother => ?_) _ _
      (Nat.zero_le _) ?_ (Nat.le_refl _)
    · exact decide_eq_false (Nat.not_le_of_lt (hback other hother))
    · rw [List.length_append]
      exact Nat.le_add_right _ _
  unfold addByBisection Validators.add
  simp only [harrivals, hindex, List.take_left, List.drop_left]
  rw [place_append ⟨validators.next, validator⟩ hback hfront]

/-- The operations with every place found by bisection. -/
def performByBisection (validators : Validators) : Operation → Validators
  | .add validator => validators.addByBisection validator
  | .extend others => others.foldl addByBisection validators
  | operation => validators.perform operation

theorem Ascending.foldl_addByBisection : ∀ (others : List Validator) {validators : Validators}, validators.Ascending →
    others.foldl addByBisection validators = validators.extend others
  | [], _, _ => rfl
  | validator :: others, validators, h => by
    rw [List.foldl_cons, h.addByBisection_eq, foldl_addByBisection others (h.add validator)]
    rfl

theorem Ascending.performByBisection_eq (h : validators.Ascending) (operation : Operation) :
    validators.performByBisection operation = validators.perform operation := by
  cases operation with
  | add validator => exact h.addByBisection_eq validator
  | extend others => exact foldl_addByBisection others h
  | _ => rfl

theorem foldl_performByBisection : ∀ (operations : List Operation) {validators : Validators}
    {present : List Validator}, validators.Holds present →
      operations.foldl performByBisection validators = operations.foldl perform validators
  | [], _, _, _ => rfl
  | operation :: operations, _, _, h => by
    rw [List.foldl_cons, h.ascending.performByBisection_eq, foldl_performByBisection operations (h.perform operation)]
    rfl

/-! ## After any operations -/

/-- **The order is canonical.**  After any operations the list has what has been added and not been removed, ascending by
priority, and what is of one priority in the order it has come.  Sorting leaves the list as it is, and finding every place
by bisection comes to the same list. -/
theorem performAll_ordered (operations : List Operation) :
    (performAll operations).toList.Perm (survivors operations) ∧
      ((performAll operations).toList.Pairwise fun earlier later => earlier.priority ≤ later.priority) ∧
      (∀ priority, ofPriority priority (performAll operations).toList = ofPriority priority (survivors operations)) ∧
      (performAll operations).sort = performAll operations ∧
      operations.foldl performByBisection empty = performAll operations := by
  have h : (performAll operations).Holds (survivors operations) := holds_foldl operations .empty
  exact ⟨h.perm, List.pairwise_map.2 h.ascending.priorities, h.sameOrder, h.ascending.sort_eq,
    foldl_performByBisection operations .empty⟩

end SchemaTypes.Validators

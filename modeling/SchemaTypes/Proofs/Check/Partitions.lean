import SchemaTypes.Proofs.Check.Families
/-!
# Arrays by place

Three checks ask something of items by their places: a tuple of the first ones, and of those behind either that there are
none or that one property accepts them.  A property has at most one tuple, and behind it at most one check of the rest, from
where the tuple ends (`Check.IsPartition`).  These checks run one right after the other, and no others of their kind run
before or after them (`Validators.Splits`).

Whatever else is added finds its place before or behind them, and presence, null flags and relaxing do not concern them.
-/
namespace SchemaTypes

namespace Check

/-- What is asked of items by their places. -/
def isTupled : Check → Bool
  | .tuple _ | .noAdditionalItems _ | .additionalItems .. => true
  | _ => false

/-- What a property asks of items by their places: nothing, something of the first ones, or something of all. -/
inductive IsPartition : List Check → Prop where
  | none : IsPartition []
  | loose (positions : List PropertyId) : IsPartition [.tuple positions]
  | closed (positions : List PropertyId) : IsPartition [.tuple positions, .noAdditionalItems positions.length]
  | full (positions : List PropertyId) (item : PropertyId) :
    IsPartition [.tuple positions, .additionalItems positions.length item]

variable {c : Check} {block : List Check}

theorem shape_of_isTupled (h : c.isTupled = true) : c.shape? = some .array := by
  cases c <;> first | rfl | cases h

theorem isTupled_of_shape {kind : Kind} (h : c.shape? = some kind) (hkind : kind ≠ .array) : c.isTupled = false := by
  rw [← Bool.not_eq_true]
  exact fun htupled => hkind (Option.some.inj (h.symm.trans (shape_of_isTupled htupled)))

theorem isTupled_withNull (settles : Bool) (c : Check) : (c.withNull settles).isTupled = c.isTupled := by
  cases c <;> rfl

theorem defaultPriority_le (c : Check) : c.defaultPriority ≤ 99 := by
  cases c <;> simp [defaultPriority]

theorem IsPartition.isTupled (h : IsPartition block) : ∀ c ∈ block, c.isTupled = true := by
  cases h <;> simp [Check.isTupled]

theorem IsPartition.defaultPriority (h : IsPartition block) : ∀ c ∈ block, c.defaultPriority = 99 := fun c hc =>
  defaultPriority_of_shape (shape_of_isTupled (h.isTupled c hc))

/-- Where there is a tuple, it comes first. -/
theorem IsPartition.of_mem {positions : List PropertyId} (h : IsPartition block) (hmem : .tuple positions ∈ block) :
    block = [.tuple positions] ∨ block = [.tuple positions, .noAdditionalItems positions.length] ∨
      ∃ item, block = [.tuple positions, .additionalItems positions.length item] := by
  cases h with
  | none => cases hmem
  | loose =>
    obtain rfl : positions = _ := by simpa using hmem
    exact Or.inl rfl
  | closed =>
    obtain rfl : positions = _ := by simpa using hmem
    exact Or.inr (Or.inl rfl)
  | full _ item =>
    obtain rfl : positions = _ := by simpa using hmem
    exact Or.inr (Or.inr ⟨item, rfl⟩)

end Check

namespace Validators

variable {validators : Validators} {block : List Check} {check : Check}

/-- The validators of these checks by place stand in a row, and the others are no such checks. -/
structure Splits (validators : Validators) (block : List Check) : Prop where
  partition : Check.IsPartition block
  around : ∃ front back, validators.toList = front ++ block.map Check.toValidator ++ back ∧
    (∀ v ∈ front, v.priority ≤ 99 ∧ v.check.isTupled = false) ∧ ∀ v ∈ back, v.priority = 99 ∧ v.check.isTupled = false

theorem splits_empty : Splits {} [] := ⟨.none, [], [], rfl, fun _ h => (nomatch h), fun _ h => nomatch h⟩

theorem Splits.priority_le (h : validators.Splits block) : ∀ v ∈ validators.toList, v.priority ≤ 99 := by
  obtain ⟨front, back, hlist, hfront, hback⟩ := h.around
  intro v hv
  rw [hlist, List.mem_append, List.mem_append] at hv
  rcases hv with (hv | hv) | hv
  · exact (hfront v hv).1
  · obtain ⟨c, hc, rfl⟩ := List.mem_map.1 hv
    exact Nat.le_of_eq (h.partition.defaultPriority c hc)
  · exact Nat.le_of_eq (hback v hv).1

theorem Splits.mem_iff (h : validators.Splits block) (htupled : check.isTupled = true) :
    (∃ v ∈ validators.toList, v.check = check) ↔ check ∈ block := by
  obtain ⟨front, back, hlist, hfront, hback⟩ := h.around
  rw [hlist]
  constructor
  · rintro ⟨v, hv, rfl⟩
    rw [List.mem_append, List.mem_append] at hv
    rcases hv with (hv | hv) | hv
    · exact nomatch htupled.symm.trans (hfront v hv).2
    · obtain ⟨c, hc, rfl⟩ := List.mem_map.1 hv
      exact hc
    · exact nomatch htupled.symm.trans (hback v hv).2
  · exact fun hc => ⟨check.toValidator,
      List.mem_append_left _ (List.mem_append_right _ (List.mem_map_of_mem hc)), rfl⟩

/-! ## Additions -/

/-- What is put before all that runs later than an arrival takes its place there. -/
theorem place_append_of_lt (arrival : Arrival) {back : List Arrival}
    (hback : ∀ other ∈ back, arrival.validator.priority < other.validator.priority) : ∀ front : List Arrival,
    place arrival (front ++ back) = place arrival front ++ back
  | [] => by
    cases back with
    | nil => rfl
    | cons next rest => exact if_neg (Nat.not_le_of_lt (hback next List.mem_cons_self))
  | first :: rest => by
    rw [List.cons_append, place, place_append_of_lt arrival hback rest, place]
    split <;> rfl

/-- A check of its own is added before the row or behind it. -/
theorem Splits.addCheck (h : validators.Splits block) (hcheck : check.isTupled = false) :
    (validators.addCheck check).Splits block := by
  obtain ⟨front, back, hlist, hfront, hback⟩ := h.around
  rcases Nat.lt_or_eq_of_le check.defaultPriority_le with hlt | hlast
  · -- It runs earlier than the row, so it finds its place in the front part.
    rw [List.append_assoc] at hlist
    obtain ⟨first, second, harrivals, rfl, hsecond⟩ := List.map_eq_append_iff.1 hlist
    have hlater : ∀ v ∈ block.map Check.toValidator ++ back, check.defaultPriority < v.priority := by
      intro v hv
      rcases List.mem_append.1 hv with hv | hv
      · obtain ⟨c, hc, rfl⟩ := List.mem_map.1 hv
        exact Nat.lt_of_lt_of_eq hlt (h.partition.defaultPriority c hc).symm
      · exact Nat.lt_of_lt_of_eq hlt (hback v hv).1.symm
    have hplaced : place ⟨validators.next, check.toValidator⟩ (first ++ second) =
        place ⟨validators.next, check.toValidator⟩ first ++ second :=
      place_append_of_lt _ (fun other hother => hlater _ (hsecond ▸ List.mem_map_of_mem hother)) first
    refine ⟨h.partition, (place ⟨validators.next, check.toValidator⟩ first).map (·.validator), back, ?_, ?_, hback⟩
    · rw [List.append_assoc, ← hsecond, ← List.map_append, ← hplaced, ← harrivals]
      rfl
    · intro v hv
      obtain ⟨arrival, harrival, rfl⟩ := List.mem_map.1 hv
      rcases List.mem_cons.1 ((place_perm _ _).mem_iff.1 harrival) with rfl | harrival
      · exact ⟨check.defaultPriority_le, hcheck⟩
      · exact hfront _ (List.mem_map_of_mem harrival)
  · have hadded : (validators.addCheck check).toList = validators.toList ++ [check.toValidator] :=
      toList_add_last fun v hv => Nat.le_trans (h.priority_le v hv) (Nat.le_of_eq hlast.symm)
    refine ⟨h.partition, front, back ++ [check.toValidator], ?_, hfront, fun v hv => ?_⟩
    · rw [hadded, hlist, List.append_assoc]
    · rcases List.mem_append.1 hv with hv | hv
      · exact hback v hv
      · exact List.mem_singleton.1 hv ▸ ⟨hlast, hcheck⟩

/-- Checks that run last are added behind all others. -/
theorem toList_foldl_addCheck : ∀ {checks : List Check} {validators : Validators},
    (∀ v ∈ validators.toList, v.priority ≤ 99) → (∀ c ∈ checks, c.defaultPriority = 99) →
    (checks.foldl addCheck validators).toList = validators.toList ++ checks.map Check.toValidator
  | [], _, _, _ => (List.append_nil _).symm
  | c :: rest, validators, hle, hlast => by
    have hc := hlast c List.mem_cons_self
    have hadded : (validators.addCheck c).toList = validators.toList ++ [c.toValidator] :=
      toList_add_last fun v hv => Nat.le_trans (hle v hv) (Nat.le_of_eq hc.symm)
    have hle' : ∀ v ∈ (validators.addCheck c).toList, v.priority ≤ 99 := by
      intro v hv
      rcases mem_toList_add.1 hv with rfl | hv
      · exact Nat.le_of_eq hc
      · exact hle v hv
    rw [List.foldl_cons, toList_foldl_addCheck hle' fun d hd => hlast d (List.mem_cons_of_mem _ hd), hadded,
      List.append_assoc, List.map_cons]
    rfl

/-- Where nothing is asked by place yet, a whole row is added behind all others. -/
theorem Splits.addBlock (h : validators.Splits []) (hblock : Check.IsPartition block) :
    (block.foldl Validators.addCheck validators).Splits block := by
  obtain ⟨front, back, hlist, hfront, hback⟩ := h.around
  refine ⟨hblock, front ++ back, [], ?_, fun v hv => ?_, fun _ hv => absurd hv List.not_mem_nil⟩
  · rw [toList_foldl_addCheck h.priority_le hblock.defaultPriority, hlist]
    simp
  · rcases List.mem_append.1 hv with hv | hv
    · exact hfront v hv
    · exact ⟨Nat.le_of_eq (hback v hv).1, (hback v hv).2⟩

/-! ## Presence and null flags -/

theorem Splits.removeRequired (h : validators.Splits block) : validators.removeRequired.Splits block := by
  obtain ⟨front, back, hlist, hfront, hback⟩ := h.around
  have hkept : (block.map Check.toValidator).filter (!·.check.isRequired) = block.map Check.toValidator := by
    refine List.filter_eq_self.2 (List.forall_mem_map.2 fun c hc => ?_)
    rw [Bool.not_eq_true']
    exact Check.isRequired_of_shape (Check.shape_of_isTupled (h.partition.isTupled c hc))
  refine ⟨h.partition, front.filter (!·.check.isRequired), back.filter (!·.check.isRequired), ?_,
    fun v hv => hfront v (List.mem_filter.1 hv).1, fun v hv => hback v (List.mem_filter.1 hv).1⟩
  rw [toList_removeRequired, hlist, List.filter_append, List.filter_append, hkept]

theorem Splits.withNull (h : validators.Splits block) (settles : Bool) :
    (validators.mapChecks (Check.withNull settles)).Splits block := by
  obtain ⟨front, back, hlist, hfront, hback⟩ := h.around
  let settled : Validator → Validator := fun validator => { validator with check := validator.check.withNull settles }
  have hkept : (block.map Check.toValidator).map settled = block.map Check.toValidator := by
    rw [List.map_map]
    refine List.map_congr_left fun c hc => congrArg (Validator.mk · c.defaultPriority) ?_
    exact Check.withNull_of_shape (Check.shape_of_isTupled (h.partition.isTupled c hc)) settles
  refine ⟨h.partition, front.map settled, back.map settled, ?_, ?_, ?_⟩
  · rw [toList_mapChecks, hlist, List.map_append, List.map_append, hkept]
  · refine List.forall_mem_map.2 fun v hv => ⟨(hfront v hv).1, ?_⟩
    exact (Check.isTupled_withNull _ _).trans (hfront v hv).2
  · refine List.forall_mem_map.2 fun v hv => ⟨(hback v hv).1, ?_⟩
    exact (Check.isTupled_withNull _ _).trans (hback v hv).2

end Validators
end SchemaTypes

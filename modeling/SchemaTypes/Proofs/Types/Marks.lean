import SchemaTypes.Building.Compositions
import SchemaTypes.Proofs.Types.Demands
/-!
# Marks and validators in step

A property is in step if its validators say what its marks say: the presence check stands first if the marks ask
for one and nowhere otherwise, and null settles a check just where the marks let it.  Builders put the flags
there by formulas of their own, and relaxing, copying, filling in and lifting change marks and validators
together.  Each of these operations leaves a property in step, so stamping it again changes nothing
(`InStep.toList_stampRequired`).

All checks stand at their default priority.  That is what keeps the presence check in front: nothing but it has
priority one.
-/
namespace SchemaTypes

theorem Check.defaultPriority_withNull (settles : Bool) (check : Check) :
    (check.withNull settles).defaultPriority = check.defaultPriority := by
  cases check <;> rfl

theorem Check.one_lt_defaultPriority {check : Check} (h : check.isRequired = false) :
    1 < check.defaultPriority := by
  cases check with
  | required => cases h
  | _ => simp [Check.defaultPriority]

/-- A check other than presence, at its default priority, that null settles as it should. -/
structure Validator.IsRegular (validator : Validator) (settles : Bool) : Prop where
  required : validator.check.isRequired = false
  priority : validator.priority = validator.check.defaultPriority
  null : validator.check.withNull settles = validator.check

theorem Validator.IsRegular.one_lt {validator : Validator} {settles : Bool} (h : validator.IsRegular settles) :
    1 < validator.priority := h.priority ▸ Check.one_lt_defaultPriority h.required

namespace Validators

/-- What comes no earlier than the first one stays behind it. -/
theorem toList_add_of_le {validators : Validators} {first validator : Validator} {rest : List Validator}
    (h : validators.toList = first :: rest) (hle : first.priority ≤ validator.priority) :
    ∃ others, (validators.add validator).toList = first :: others ∧ others.Perm (validator :: rest) := by
  obtain ⟨arrivals, next⟩ := validators
  cases arrivals with
  | nil => cases h
  | cons arrival arrivals =>
    obtain ⟨rfl, rfl⟩ := List.cons.inj h
    refine ⟨(place ⟨next, validator⟩ arrivals).map (·.validator), ?_, ?_⟩
    · simp only [toList, add]
      rw [place, if_pos hle, List.map_cons]
    · exact (place_perm ⟨next, validator⟩ arrivals).map Arrival.validator

/-- What comes before all others goes in front. -/
theorem toList_add_of_lt {validators : Validators} {validator : Validator}
    (h : ∀ other ∈ validators.toList, validator.priority < other.priority) :
    (validators.add validator).toList = validator :: validators.toList := by
  obtain ⟨arrivals, next⟩ := validators
  cases arrivals with
  | nil => rfl
  | cons arrival arrivals =>
    have hlt := h arrival.validator List.mem_cons_self
    simp only [toList, add]
    rw [place, if_neg (Nat.not_le_of_lt hlt)]
    rfl

end Validators

namespace Property

/-- The presence check, if the marks ask for one. -/
def presence (property : Property) : List Validator :=
  if property.needsPresence then [Check.required.toValidator] else []

/-- The validators say what the marks say; `allowed` tells whether null settles optional values at all. -/
def InStep (property : Property) (allowed : Bool) : Prop :=
  ∃ rest, property.validators.toList = property.presence ++ rest ∧
    ∀ validator ∈ rest, validator.IsRegular (property.settlesNull allowed)

variable {property : Property} {allowed : Bool}

theorem InStep.of_empty (h : property.validators = {}) (hmarks : property.needsPresence = false) :
    property.InStep allowed := by
  refine ⟨[], ?_, fun _ hv => absurd hv List.not_mem_nil⟩
  rw [presence, h, hmarks]
  rfl

theorem inStep_default : (Inhabited.default : Property).InStep allowed := .of_empty rfl rfl

theorem InStep.priority (h : property.InStep allowed) :
    ∀ v ∈ property.validators.toList, v.priority = v.check.defaultPriority := by
  obtain ⟨rest, htoList, hrest⟩ := h
  intro v hv
  rw [htoList, List.mem_append, presence] at hv
  rcases hv with hv | hv
  · split at hv
    · rw [List.mem_singleton.1 hv]
      rfl
    · cases hv
  · exact (hrest v hv).priority

/-- Regular checks alone lack the presence check at most. -/
theorem inStep_of_regular (h : ∀ v ∈ property.validators.toList, v.IsRegular (property.settlesNull allowed)) :
    (if property.needsPresence then property.addCheck .required else property).InStep allowed := by
  split
  · rename_i hneeds
    refine ⟨property.validators.toList, ?_, h⟩
    change (property.validators.add Check.required.toValidator).toList = presence property ++ _
    rw [presence, if_pos hneeds]
    exact Validators.toList_add_of_lt fun other hother => (h other hother).one_lt
  · rename_i hneeds
    refine ⟨property.validators.toList, ?_, h⟩
    rw [presence, if_neg hneeds]
    rfl

/-- A check that null settles as it should keeps a property in step. -/
theorem InStep.addCheck (h : property.InStep allowed) {check : Check} (hrequired : check.isRequired = false)
    (hnull : check.withNull (property.settlesNull allowed) = check) : (property.addCheck check).InStep allowed := by
  obtain ⟨rest, htoList, hrest⟩ := h
  have hregular : check.toValidator.IsRegular (property.settlesNull allowed) := ⟨hrequired, rfl, hnull⟩
  have hmem : ∀ {others : List Validator}, others.Perm (check.toValidator :: rest) →
      ∀ v ∈ others, v.IsRegular (property.settlesNull allowed) := by
    intro others hperm v hv
    rcases List.mem_cons.1 (hperm.mem_iff.1 hv) with rfl | hv
    · exact hregular
    · exact hrest v hv
  have hpresence : (property.addCheck check).presence = property.presence := rfl
  unfold InStep
  rw [hpresence]
  rw [presence] at htoList ⊢
  split at htoList
  · rename_i hneeds
    rw [if_pos hneeds]
    obtain ⟨others, hadd, hperm⟩ := Validators.toList_add_of_le htoList (Nat.le_of_lt hregular.one_lt)
    exact ⟨others, hadd, hmem hperm⟩
  · rename_i hneeds
    rw [if_neg hneeds]
    refine ⟨_, rfl, hmem ?_⟩
    rw [List.nil_append] at htoList
    rw [← htoList]
    exact property.validators.toList_add_perm check.toValidator

/-- **Stamping puts a property in step**, whatever its marks and flags were. -/
theorem inStep_stampRequired (hpriority : ∀ v ∈ property.validators.toList, v.priority = v.check.defaultPriority)
    (required allowed : Bool) : (property.stampRequired required allowed).InStep allowed := by
  have hothers : ∀ v ∈ property.validators.removeRequired.toList,
      v.check.isRequired = false ∧ v.priority = v.check.defaultPriority := by
    intro v hv
    rw [Validators.toList_removeRequired, List.mem_filter] at hv
    exact ⟨by simpa using hv.2, hpriority v hv.1⟩
  generalize hsettles : settlesNull { property with required } allowed = settles
  have hregular : ∀ v ∈ property.validators.removeRequired.toList.map
      (fun v => { v with check := v.check.withNull settles }), v.IsRegular settles := by
    intro v hv
    obtain ⟨w, hw, rfl⟩ := List.mem_map.1 hv
    obtain ⟨hrequired, hw⟩ := hothers w hw
    refine ⟨?_, ?_, Check.withNull_withNull _ _ _⟩
    · exact (Check.isRequired_withNull _ _).trans hrequired
    · exact hw.trans (Check.defaultPriority_withNull _ _).symm
  -- The checks left are regular once their flags are set; presence goes in front by its priority.
  have hstamped : (property.stampRequired required allowed).settlesNull allowed = settles := hsettles
  refine ⟨_, ?_, fun v hv => hstamped ▸ hregular v hv⟩
  have hpresence : (property.stampRequired required allowed).presence =
      if needsPresence { property with required } then [Check.required.toValidator] else [] := rfl
  rw [hpresence]
  simp only [stampRequired]
  rw [Validators.toList_mapChecks]
  have hneeds : needsPresence { property with required, validators := property.validators.removeRequired } =
      needsPresence { property with required } := rfl
  have hsettles' : settlesNull { property with required, validators := property.validators.removeRequired } allowed =
      settles := hsettles
  rw [hneeds, hsettles']
  split
  · have hfront : (property.validators.removeRequired.addCheck .required).toList =
        Check.required.toValidator :: property.validators.removeRequired.toList :=
      Validators.toList_add_of_lt fun other hother => by
        obtain ⟨hrequired, hdefault⟩ := hothers other hother
        exact hdefault ▸ Check.one_lt_defaultPriority hrequired
    rw [hfront]
    rfl
  · rfl

/-- Without presence checks, the regular ones are left. -/
theorem toList_removeRequired {rest : List Validator} {settles : Bool}
    (htoList : property.validators.toList = property.presence ++ rest) (hrest : ∀ v ∈ rest, v.IsRegular settles) :
    property.validators.removeRequired.toList = rest := by
  have hkept : rest.filter (!·.check.isRequired) = rest :=
    List.filter_eq_self.2 fun v hv => by rw [(hrest v hv).required]; rfl
  rw [Validators.toList_removeRequired, htoList, List.filter_append, hkept, presence]
  split
  · rfl
  · rfl

/-- **A property in step is stamped already.** -/
theorem InStep.toList_stampRequired (h : property.InStep allowed) :
    (property.stampRequired property.required allowed).validators.toList = property.validators.toList := by
  obtain ⟨rest, htoList, hrest⟩ := h
  have hothers := toList_removeRequired htoList hrest
  have hfixed : rest.map (fun v => { v with check := v.check.withNull (property.settlesNull allowed) }) = rest := by
    refine (List.map_congr_left fun v hv => ?_).trans (List.map_id rest)
    rw [(hrest v hv).null]
    rfl
  have hneeds : needsPresence { property with validators := property.validators.removeRequired } =
      property.needsPresence := rfl
  have hsettles : settlesNull { property with validators := property.validators.removeRequired } allowed =
      property.settlesNull allowed := rfl
  simp only [stampRequired]
  rw [Validators.toList_mapChecks, hneeds, hsettles, htoList, presence]
  split
  · have hfront : (property.validators.removeRequired.addCheck .required).toList =
        Check.required.toValidator :: rest := by
      rw [← hothers]
      exact Validators.toList_add_of_lt fun other hother => (hrest other (hothers ▸ hother)).one_lt
    rw [hfront, List.map_cons, hfixed]
    rfl
  · rw [hothers, hfixed]
    rfl

/-- Where null settles nothing to begin with, the relaxed property is in step. -/
theorem InStep.relax (h : property.InStep allowed) (hsettles : property.settlesNull allowed = false) :
    property.relax.InStep allowed := by
  obtain ⟨rest, htoList, hrest⟩ := h
  have hnever : property.relax.settlesNull allowed = false := by
    simp [settlesNull, Property.relax]
  refine ⟨rest, ?_, fun v hv => by rw [hnever, ← hsettles]; exact hrest v hv⟩
  have hnone : property.relax.presence = [] := by
    simp [presence, needsPresence, Property.relax]
  rw [hnone, List.nil_append]
  exact toList_removeRequired htoList hrest

theorem settlesNull_of_required (h : property.required = true) : property.settlesNull allowed = false := by
  simp [settlesNull, h]

end Property

namespace Building

variable {definition : Property} {allowed : Bool}

theorem inStep_copied (h : definition.InStep allowed) (name identifier : String) (required : Bool) :
    (copied definition name identifier required allowed).InStep allowed := by
  unfold copied
  refine Property.inStep_stampRequired ?_ required allowed
  exact h.priority

theorem inStep_bound (h : definition.InStep allowed) (placeholder : Property) :
    (bound placeholder definition allowed).InStep allowed := by
  unfold bound
  refine Property.inStep_stampRequired ?_ placeholder.required allowed
  exact h.priority

theorem inStep_lifted (property : Property) (combinator : Combinator) :
    (lifted property combinator).InStep allowed := by
  unfold lifted Property.addDecorator
  split
  · exact .of_empty rfl rfl
  · exact .of_empty rfl rfl

end Building
end SchemaTypes

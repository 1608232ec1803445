import SchemaTypes.Proofs.Building.Calls
/-!
# Presence checks and null flags

What `Property.InStep` comes to for whoever reads validators: where the presence check stands, which null flags are
set, and that stamping a property with its own mark changes nothing.  It holds of every property after any calls.
-/
namespace SchemaTypes

/-- The validators say what the marks say, spelled out. -/
structure Property.FollowsMarks (property : Property) (implicitNull : Bool) : Prop where
  /-- Where presence is asked for, its check stands first and nowhere else. -/
  present : ((property.required || property.strict) && !property.relaxed) = true →
    ∃ rest, property.validators.toList = Check.required.toValidator :: rest ∧
      ∀ v ∈ rest, v.check.isRequired = false
  absent : ((property.required || property.strict) && !property.relaxed) = false →
    ∀ v ∈ property.validators.toList, v.check.isRequired = false
  type : ∀ v ∈ property.validators.toList, ∀ kinds flag, v.check = .type kinds flag →
    flag = (implicitNull && !property.required && !property.strict && !property.relaxed && !kinds.contains .null)
  enumeration : ∀ v ∈ property.validators.toList, ∀ values flag, v.check = .enumeration values flag →
    flag = (implicitNull && !property.required && !property.strict && !property.relaxed && !values.any Json.isNull)
  null : ∀ v ∈ property.validators.toList, ∀ flag, v.check = .implicitNull flag →
    flag = (implicitNull && !property.required && !property.strict && !property.relaxed)
  stamped : (property.stampRequired property.required implicitNull).validators.toList = property.validators.toList
  /-- But for its validators, a property is never changed by a stamp of its own mark. -/
  kept : { property.stampRequired property.required implicitNull with validators := property.validators } = property

namespace Property

variable {property : Property} {allowed : Bool}

/-- Null settles every check of a property in step as it should; presence is no exception. -/
theorem InStep.withNull (h : property.InStep allowed) :
    ∀ v ∈ property.validators.toList, v.check.withNull (property.settlesNull allowed) = v.check := by
  obtain ⟨rest, htoList, hrest⟩ := h
  intro v hv
  rw [htoList, List.mem_append, presence] at hv
  rcases hv with hv | hv
  · split at hv
    · rw [List.mem_singleton.1 hv]
      rfl
    · cases hv
  · exact (hrest v hv).null

theorem InStep.followsMarks (h : property.InStep allowed) : property.FollowsMarks allowed := by
  refine ⟨fun hneeds => ?_, fun hneeds => ?_, ?_, ?_, ?_, h.toList_stampRequired, rfl⟩
  · obtain ⟨rest, htoList, hrest⟩ := h
    refine ⟨rest, ?_, fun v hv => (hrest v hv).required⟩
    rw [htoList, presence, needsPresence, if_pos hneeds]
    rfl
  · obtain ⟨rest, htoList, hrest⟩ := h
    intro v hv
    rw [htoList, presence, needsPresence, if_neg (Bool.eq_false_iff.1 hneeds)] at hv
    exact (hrest v hv).required
  · intro v hv kinds flag hcheck
    have hnull := h.withNull v hv
    rw [hcheck] at hnull
    exact (Check.type.inj hnull).2.symm
  · intro v hv values flag hcheck
    have hnull := h.withNull v hv
    rw [hcheck] at hnull
    exact (Check.enumeration.inj hnull).2.symm
  · intro v hv flag hcheck
    have hnull := h.withNull v hv
    rw [hcheck] at hnull
    exact (Check.implicitNull.inj hnull).symm

end Property

/-- **Presence checks and null flags are in step with the marks** of every property, after any calls, failed ones
included. -/
theorem Session.followsMarks_performAll (config : Config) (calls : List Call) (id : PropertyId) :
    ((performAll config calls).graph.property id).FollowsMarks config.settings.implicitNull :=
  ((orderly_performAll config calls).inStep id).followsMarks

end SchemaTypes

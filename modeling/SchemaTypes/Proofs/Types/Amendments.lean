import SchemaTypes.Building.References
import SchemaTypes.Proofs.Types.Marks
/-!
# Copied or filled in

A copy of a definition takes over its content and is stamped for its site.  A placeholder is stamped first, may be
relaxed and described by its own words, and gets the content last.  Both ways lead to the same property, presence check
and null flags included (`Building.bound_matches`), as long as only what is required gets relaxed.

The reason is that a property in step has no choice: its content and its marks determine its validators
(`Property.InStep.toList_eq`).
-/
namespace SchemaTypes

/-- The validator with its null flag set or not. -/
def Validator.flagged (settles : Bool) (validator : Validator) : Validator :=
  { validator with check := validator.check.withNull settles }

namespace Property

/-- What a definition passes on to copies and placeholders, its description apart. -/
structure SameContent (a b : Property) : Prop where
  label : a.label = b.label
  default : a.default = b.default
  decorators : a.decorators = b.decorators
  nested : a.nested = b.nested
  strict : a.strict = b.strict
  demands : a.demands = b.demands

/-- What belongs to the site. -/
structure SameMarks (a b : Property) : Prop where
  name : a.name = b.name
  identifier : a.identifier = b.identifier
  required : a.required = b.required
  relaxed : a.relaxed = b.relaxed

/-- Made for a site, and not amended yet. -/
structure Bears (name identifier : String) (required : Bool) (property : Property) : Prop where
  name : property.name = name
  identifier : property.identifier = identifier
  required : property.required = required
  relaxed : property.relaxed = false

/-- All is the same but the numbers under which validators have arrived. -/
structure Matches (a b : Property) : Prop where
  marks : a.SameMarks b
  label : a.label = b.label
  default : a.default = b.default
  description : a.description = b.description
  decorators : a.decorators = b.decorators
  nested : a.nested = b.nested
  strict : a.strict = b.strict
  checks : a.validators.toList = b.validators.toList

variable {a b c property : Property} {allowed required : Bool} {name identifier : String}

theorem Bears.sameMarks (ha : Bears name identifier required a) (hb : Bears name identifier required b) :
    a.SameMarks b :=
  ⟨ha.name.trans hb.name.symm, ha.identifier.trans hb.identifier.symm, ha.required.trans hb.required.symm,
    ha.relaxed.trans hb.relaxed.symm⟩

theorem SameContent.refl (a : Property) : a.SameContent a := ⟨rfl, rfl, rfl, rfl, rfl, rfl⟩

theorem SameContent.symm (h : a.SameContent b) : b.SameContent a :=
  ⟨h.label.symm, h.default.symm, h.decorators.symm, h.nested.symm, h.strict.symm, h.demands.symm⟩

theorem SameContent.trans (h : a.SameContent b) (h' : b.SameContent c) : a.SameContent c :=
  ⟨h.label.trans h'.label, h.default.trans h'.default, h.decorators.trans h'.decorators, h.nested.trans h'.nested,
    h.strict.trans h'.strict, h.demands.trans h'.demands⟩

theorem SameMarks.trans (h : a.SameMarks b) (h' : b.SameMarks c) : a.SameMarks c :=
  ⟨h.name.trans h'.name, h.identifier.trans h'.identifier, h.required.trans h'.required, h.relaxed.trans h'.relaxed⟩

/-! ## Content and marks determine the validators -/

/-- **A property in step runs what it demands and what its marks say.** -/
theorem InStep.toList_eq (h : property.InStep allowed) : property.validators.toList =
    property.presence ++ property.demands.map (Validator.flagged (property.settlesNull allowed)) := by
  obtain ⟨rest, htoList, hrest⟩ := h
  have hothers := toList_removeRequired htoList hrest
  rw [Validators.toList_removeRequired] at hothers
  rw [htoList, demands, Validators.demands, hothers, List.map_map]
  congr 1
  refine ((List.map_congr_left fun v hv => ?_).trans (List.map_id rest)).symm
  change { v with check := (v.check.withNull false).withNull _ } = v
  rw [Check.withNull_withNull, (hrest v hv).null]

theorem InStep.matches (ha : a.InStep allowed) (hb : b.InStep allowed) (hmarks : a.SameMarks b)
    (hcontent : a.SameContent b) (hdescription : a.description = b.description) : a.Matches b := by
  refine ⟨hmarks, hcontent.label, hcontent.default, hdescription, hcontent.decorators, hcontent.nested,
    hcontent.strict, ?_⟩
  have hpresence : a.presence = b.presence := by
    unfold presence needsPresence
    rw [hmarks.required, hmarks.relaxed, hcontent.strict]
  have hsettles : a.settlesNull allowed = b.settlesNull allowed := by
    unfold settlesNull
    rw [hmarks.required, hmarks.relaxed, hcontent.strict]
  rw [ha.toList_eq, hb.toList_eq, hpresence, hsettles, hcontent.demands]

theorem Matches.content (h : a.Matches b) : a.SameContent b := by
  refine ⟨h.label, h.default, h.decorators, h.nested, h.strict, ?_⟩
  unfold Property.demands Validators.demands
  rw [h.checks]

theorem Matches.refl (a : Property) : a.Matches a := ⟨⟨rfl, rfl, rfl, rfl⟩, rfl, rfl, rfl, rfl, rfl, rfl, rfl⟩

theorem Matches.trans (h : a.Matches b) (h' : b.Matches c) : a.Matches c :=
  ⟨h.marks.trans h'.marks, h.label.trans h'.label, h.default.trans h'.default,
    h.description.trans h'.description, h.decorators.trans h'.decorators, h.nested.trans h'.nested,
    h.strict.trans h'.strict, h.checks.trans h'.checks⟩

/-! ## Amendments -/

/-- What may be done to a property that has been built for a site. -/
inductive Amendment where
  | relax
  | describe (text : String)

def amend (property : Property) : Amendment → Property
  | .relax => property.relax
  | .describe text => { property with description := some text }

def amended (property : Property) (amendments : List Amendment) : Property := amendments.foldl amend property

/-- The words of the last amendment that has some. -/
def words : List Amendment → Option String
  | [] => none
  | .relax :: rest => words rest
  | .describe text :: rest => words rest <|> some text

variable {amendments : List Amendment}

theorem sameContent_amended (property : Property) (amendments : List Amendment) :
    (property.amended amendments).SameContent property := by
  induction amendments generalizing property with
  | nil => exact .refl property
  | cons first rest ih =>
    refine (ih (property.amend first)).trans ?_
    cases first with
    | relax => exact ⟨rfl, rfl, rfl, rfl, rfl, demands_relax property⟩
    | describe => exact ⟨rfl, rfl, rfl, rfl, rfl, rfl⟩

theorem SameMarks.amended (h : a.SameMarks b) (amendments : List Amendment) :
    (a.amended amendments).SameMarks (b.amended amendments) := by
  induction amendments generalizing a b with
  | nil => exact h
  | cons first rest ih =>
    refine ih ?_
    cases first with
    | relax => exact ⟨h.name, h.identifier, rfl, rfl⟩
    | describe => exact ⟨h.name, h.identifier, h.required, h.relaxed⟩

theorem description_amended (property : Property) (amendments : List Amendment) :
    (property.amended amendments).description = (words amendments <|> property.description) := by
  induction amendments generalizing property with
  | nil => rfl
  | cons first rest ih =>
    refine (ih (property.amend first)).trans ?_
    cases first with
    | relax => rfl
    | describe text =>
      change (words rest <|> some text) = ((words rest <|> some text) <|> property.description)
      cases words rest <;> rfl

theorem relaxed_amended (property : Property) (h : .relax ∈ amendments) :
    (property.amended amendments).relaxed = true := by
  have hkept : ∀ (others : List Amendment) (property : Property), property.relaxed = true →
      (property.amended others).relaxed = true := by
    intro others
    induction others with
    | nil => exact fun _ h => h
    | cons first rest ih =>
      intro property hrelaxed
      refine ih _ ?_
      cases first with
      | relax => rfl
      | describe => exact hrelaxed
  obtain ⟨before, behind, rfl⟩ := List.append_of_mem h
  unfold amended
  rw [List.foldl_append]
  exact hkept behind _ rfl

/-- Amendments keep a property in step if none relaxes what null may settle. -/
theorem InStep.amended (h : property.InStep allowed)
    (hrelaxes : .relax ∈ amendments → property.settlesNull allowed = false) :
    (property.amended amendments).InStep allowed := by
  induction amendments generalizing property with
  | nil => exact h
  | cons first rest ih =>
    cases first with
    | relax =>
      refine ih (h.relax (hrelaxes List.mem_cons_self)) fun _ => ?_
      change (allowed && !false && !property.strict && !true) = false
      simp
    | describe => exact ih h fun hmem => hrelaxes (List.mem_cons_of_mem _ hmem)

end Property

namespace Building

open Property

variable {placeholder definition source : Property} {allowed : Bool} {name identifier : String} {required : Bool}
  {amendments : List Amendment}

theorem sameContent_bound (placeholder definition : Property) (allowed : Bool) :
    (bound placeholder definition allowed).SameContent definition :=
  ⟨rfl, rfl, rfl, rfl, rfl, demands_bound _ _ _⟩

theorem sameContent_copied (definition : Property) (name identifier : String) (required allowed : Bool) :
    (copied definition name identifier required allowed).SameContent definition :=
  ⟨rfl, rfl, rfl, rfl, rfl, demands_copied _ _ _ _ _⟩

theorem sameMarks_bound (placeholder definition : Property) (allowed : Bool) :
    (bound placeholder definition allowed).SameMarks placeholder := ⟨rfl, rfl, rfl, rfl⟩

/-- What a definition passes on is the same, and its validators are in step. -/
structure SameSource (allowed : Bool) (source definition : Property) : Prop where
  content : source.SameContent definition
  description : source.description = definition.description
  inStep : source.InStep allowed

theorem SameSource.refl (h : definition.InStep allowed) : SameSource allowed definition definition :=
  ⟨.refl definition, rfl, h⟩

theorem SameSource.trans {third : Property} (h : SameSource allowed source definition)
    (h' : SameSource allowed definition third) : SameSource allowed source third :=
  ⟨h.content.trans h'.content, h.description.trans h'.description, h.inStep⟩

/-- A definition that is filled in from itself passes on the same. -/
theorem sameSource_bound (h : definition.InStep allowed) :
    SameSource allowed (bound definition definition allowed) definition := by
  refine ⟨sameContent_bound _ _ _, ?_, inStep_bound h _⟩
  change (definition.description <|> definition.description) = definition.description
  cases definition.description <;> rfl

/-- From either source a placeholder is filled in with the same. -/
theorem bound_of_sameSource (placeholder : Property) (hsource : SameSource allowed source definition)
    (hstep : definition.InStep allowed) :
    (bound placeholder source allowed).Matches (bound placeholder definition allowed) := by
  refine (inStep_bound hsource.inStep _).matches (inStep_bound hstep _) ⟨rfl, rfl, rfl, rfl⟩ ?_ ?_
  · exact (sameContent_bound _ _ _).trans (hsource.content.trans (sameContent_bound _ _ _).symm)
  · change (placeholder.description <|> source.description) = (placeholder.description <|> definition.description)
    rw [hsource.description]

/-- Filling in once more changes nothing. -/
theorem bound_bound {filled : Property} (hfilled : filled.Matches (bound placeholder definition allowed))
    (hsource : SameSource allowed source definition) (hstep : definition.InStep allowed) :
    (bound filled source allowed).Matches (bound placeholder definition allowed) := by
  refine (inStep_bound hsource.inStep _).matches (inStep_bound hstep _) ?_ ?_ ?_
  · exact (sameMarks_bound _ _ _).trans hfilled.marks
  · exact (sameContent_bound _ _ _).trans (hsource.content.trans (sameContent_bound _ _ _).symm)
  · change (filled.description <|> source.description) = (placeholder.description <|> definition.description)
    rw [hfilled.description, hsource.description]
    change ((placeholder.description <|> definition.description) <|> definition.description) = _
    cases placeholder.description <;> cases definition.description <;> rfl

theorem bears_copied (source : Property) (name identifier : String) (required allowed : Bool) :
    Bears name identifier required (copied source name identifier required allowed) := ⟨rfl, rfl, rfl, rfl⟩

/-- **A placeholder that is filled in matches a copy** that is amended in the same way. -/
theorem bound_matches (hbears : Bears name identifier required placeholder)
    (hdescription : placeholder.description = none) (hrelaxes : .relax ∈ amendments → required = true)
    (hstep : definition.InStep allowed) (hsource : SameSource allowed source definition) :
    (bound (placeholder.amended amendments) definition allowed).Matches
      ((copied source name identifier required allowed).amended amendments) := by
  have hcopied := inStep_copied hsource.inStep name identifier required
  refine (inStep_bound hstep _).matches (hcopied.amended fun hmem => ?_) ?_ ?_ ?_
  · exact settlesNull_of_required (hrelaxes hmem)
  · exact (sameMarks_bound _ _ _).trans ((hbears.sameMarks (bears_copied _ _ _ _ _)).amended amendments)
  · refine (sameContent_bound _ _ _).trans (hsource.content.symm.trans ?_)
    exact (sameContent_copied source name identifier required allowed).symm.trans (sameContent_amended _ _).symm
  · change ((placeholder.amended amendments).description <|> definition.description) = _
    rw [description_amended, description_amended, hdescription]
    change ((words amendments <|> none) <|> definition.description) = (words amendments <|> source.description)
    rw [hsource.description]
    cases words amendments <;> rfl

/-- What is the same in content and marks stays so when it is amended in the same way. -/
theorem matches_amended {property : Property} (hbears : Bears name identifier required property)
    (hdescription : property.description = source.description) (hrelaxes : .relax ∈ amendments → required = true)
    (hstep : property.InStep allowed) (hcontent : property.SameContent source) (hsource : source.InStep allowed) :
    (property.amended amendments).Matches
      ((copied source name identifier required allowed).amended amendments) := by
  have hcopied := inStep_copied hsource name identifier required
  have hrequired : property.required = true → property.settlesNull allowed = false := settlesNull_of_required
  refine (hstep.amended fun hmem => hrequired (hbears.required.trans (hrelaxes hmem))).matches
    (hcopied.amended fun hmem => settlesNull_of_required (hrelaxes hmem)) ?_ ?_ ?_
  · exact (hbears.sameMarks (bears_copied _ _ _ _ _)).amended amendments
  · refine (sameContent_amended _ _).trans (hcontent.trans ?_)
    exact (sameContent_copied source name identifier required allowed).symm.trans (sameContent_amended _ _).symm
  · rw [description_amended, description_amended, hdescription]
    rfl

end Building
end SchemaTypes

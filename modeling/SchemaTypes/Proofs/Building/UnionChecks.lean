import SchemaTypes.Building.Unions
import SchemaTypes.Proofs.Building.KindChecks
/-!
# The checks of a union

A node without compositions and filters gets its `enum` and `const` checks between that of its type and those of its
kinds (`poses_applyValueKeywords`).  A union takes over the families of its members, one of each shape
(`Poses.mergeNew`, `Poses.mergeOld`).
-/
namespace SchemaTypes
namespace Building

open Build

variable {config : Config} {kind : Kind} {kinds : List Kind} {family checks others : List Check} {build : Builder}
  {site : Site} {node : Json} {members : Members} {property draft : Property} {keyword : String} {s s' : Session}

/-! ## Nodes with a type filled in -/

/-- Keywords without a type, a reference, filters, compositions and conditionals. -/
def Bare (members : Members) : Prop :=
  ∀ keyword ∈ "type" :: "$ref" :: "filter" :: Keyword.compositionWords, members.get? keyword = none

instance (members : Members) : Decidable (Bare members) := inferInstanceAs (Decidable (∀ keyword ∈ _, _))

/-- The node with these keywords and a type. -/
def typedAs (type : Json) (members : Members) : Json := .object (("type", type) :: members)

variable {type : Json}

theorem get?_typedAs (h : keyword ≠ "type") : (typedAs type members).get? keyword = members.get? keyword := by
  change List.lookup keyword _ = _
  rw [List.lookup_cons, beq_false_of_ne h]
  rfl

theorem Bare.get? (h : Bare members) (type : Json) (hkeyword : keyword ∈ "$ref" :: "filter" :: Keyword.compositionWords) :
    (typedAs type members).get? keyword = none := by
  refine (get?_typedAs ?_).trans (h keyword (List.mem_cons_of_mem _ hkeyword))
  rintro rfl
  exact absurd hkeyword (by decide)

theorem Bare.withoutCompositions (h : Bare members) (type : Json) :
    Keyword.withoutCompositions (typedAs type members) = typedAs type members := by
  refine congrArg Json.object (List.filter_eq_self.2 fun member hmember => ?_)
  rw [Bool.not_eq_true', ← Bool.not_eq_true]
  intro hcomposed
  have hword := List.contains_iff_mem.1 hcomposed
  have hnone : (("type", type) :: members).lookup member.1 = none :=
    h.get? type (List.mem_cons_of_mem _ (List.mem_cons_of_mem _ hword))
  have hother := List.lookup_eq_none_iff.1 hnone member hmember
  exact absurd hother (by simp)

/-! ## Keywords every property has -/

/-- What `enum` asks of a value that must be there. -/
def listedChecks (node : Json) : List Check :=
  match node.get? "enum" with
  | some (.array values) => [.enumeration (Json.distinct values) false]
  | _ => []

/-- What `enum` and `const` ask of a value that must be there. -/
def valueChecks (node : Json) : List Check := listedChecks node ++ ((node.get? "const").map .constant).toList

theorem mem_listedChecks {c : Check} (h : c ∈ listedChecks node) : ∃ values, c = .enumeration values false := by
  unfold listedChecks at h
  split at h
  · exact ⟨_, List.mem_singleton.1 h⟩
  · cases h

theorem mem_valueChecks {c : Check} (h : c ∈ valueChecks node) :
    (∃ values, c = .enumeration values false) ∨ ∃ value, c = .constant value := by
  rcases List.mem_append.1 h with h | h
  · exact Or.inl (mem_listedChecks h)
  · cases hconst : node.get? "const" with
    | none =>
      rw [hconst] at h
      cases h
    | some value =>
      rw [hconst] at h
      exact Or.inr ⟨value, List.mem_singleton.1 h⟩

/-- A value check runs before the family. -/
theorem Poses.addValueCheck {early : List Check} {c : Check} (h : Poses property (early ++ family))
    (hearly : ∀ d ∈ early, d.defaultPriority ≤ 3) (hfamily : ∀ d ∈ family, d.defaultPriority = 99)
    (hc : c.defaultPriority = 3) : Poses (property.addCheck c) (early ++ [c] ++ family) := by
  rw [List.append_assoc]
  refine h.addCheck (fun d hd => hc ▸ hearly d hd) fun d hd => ?_
  rw [hc, hfamily d hd]
  decide

/-- A strict property that is required is no different. -/
theorem Poses.stampStrict (h : Poses property (.required :: checks))
    (hregular : ∀ c ∈ checks, c.isRequired = false ∧ c.withNull false = c) (allowed : Bool) :
    Poses (Property.stampRequired { property with strict := true } true allowed) (.required :: checks) := by
  have hstrict : Poses { property with strict := true } (.required :: checks) := ⟨h.required, h.relaxed, h.toList⟩
  have hstamped := (hstrict.inStep hregular allowed).toList_stampRequired
  rw [hstrict.required] at hstamped
  exact ⟨rfl, h.relaxed, hstamped.trans h.toList⟩

theorem priority_early : ∀ c ∈ [Check.required, .type kinds false], c.defaultPriority ≤ 3 := by
  intro c hc
  rcases List.mem_cons.1 hc with rfl | hc
  · exact (by decide : 1 ≤ 3)
  · exact List.mem_singleton.1 hc ▸ (by decide : 2 ≤ 3)

/-- Checks of shapes, as families have them. -/
def Shaped (checks : List Check) : Prop := ∀ c ∈ checks, ∃ kind, c.shape? = some kind

theorem Shaped.priority (h : Shaped checks) : ∀ c ∈ checks, c.defaultPriority = 99 := fun c hc =>
  have ⟨_, hshape⟩ := h c hc
  Check.defaultPriority_of_shape hshape

theorem runs_enumeration? {name : String} {found : Option (List Json)}
    (h : (Keyword.enumeration? name node).Runs config s found s') :
    s' = s ∧ listedChecks node = (found.map (Check.enumeration · false)).toList := by
  unfold Keyword.enumeration? at h
  unfold listedChecks
  split at h
  · rename_i hget
    obtain ⟨rfl, rfl⟩ := runs_pure.1 h
    rw [hget]
    exact ⟨rfl, rfl⟩
  · exact absurd h not_runs_refuse
  · rename_i hget
    obtain ⟨rfl, rfl⟩ := runs_pure.1 h
    rw [hget]
    exact ⟨rfl, rfl⟩
  · exact absurd h not_runs_refuse

theorem poses_enumerate (htype : node.has "type" = true) (hshaped : Shaped family)
    (hposes : Poses property (.required :: .type kinds false :: family))
    (h : (enumerate property node true).Runs config s draft s') :
    Poses draft (.required :: .type kinds false :: (listedChecks node ++ family)) := by
  unfold enumerate at h
  obtain ⟨found, m, henum, hrest⟩ := runs_bind.1 h
  obtain ⟨rfl, hlisted⟩ := runs_enumeration? henum
  rw [hlisted]
  cases found with
  | none =>
    obtain ⟨rfl, rfl⟩ := runs_pure.1 hrest
    exact hposes
  | some values =>
    simp only at hrest
    rw [runs_bind_of_iff fun _ _ => runs_allowsNull, htype] at hrest
    simp only [Bool.not_true, Bool.and_false, Bool.false_and, if_true] at hrest
    rw [runs_read_bind] at hrest
    obtain ⟨rfl, rfl⟩ := runs_pure.1 hrest
    have hadded : Poses (property.addCheck (.enumeration values false))
        (.required :: .type kinds false :: .enumeration values false :: family) :=
      .addValueCheck (show Poses property ([.required, .type kinds false] ++ family) from hposes) priority_early
        hshaped.priority rfl
    refine hadded.stampStrict (fun c hc => ?_) _
    rcases List.mem_cons.1 hc with rfl | hc
    · exact ⟨rfl, rfl⟩
    · rcases List.mem_cons.1 hc with rfl | hc
      · exact ⟨rfl, rfl⟩
      · obtain ⟨kind, hshape⟩ := hshaped c hc
        exact ⟨Check.isRequired_of_shape hshape, Check.withNull_of_shape hshape false⟩

theorem poses_constant (hshaped : Shaped family)
    (hposes : Poses property (.required :: .type kinds false :: (listedChecks node ++ family))) :
    Poses (constant property node) (.required :: .type kinds false :: (valueChecks node ++ family)) := by
  unfold constant valueChecks
  cases node.get? "const" with
  | none =>
    rw [Option.map_none, Option.toList_none, List.append_nil]
    exact hposes
  | some value =>
    have hlisted : Poses property ([.required, .type kinds false] ++ listedChecks node ++ family) := hposes
    refine hlisted.addValueCheck (fun c hc => ?_) hshaped.priority rfl
    rcases List.mem_append.1 hc with hc | hc
    · exact priority_early c hc
    · obtain ⟨values, rfl⟩ := mem_listedChecks hc
      exact Nat.le_refl 3

/-- **The keywords every property has** put their checks between that of the type and those of the kinds. -/
theorem poses_applyValueKeywords (htype : node.has "type" = true) (hfilter : node.get? "filter" = none)
    (hshaped : Shaped family) (hposes : Poses property (.required :: .type kinds false :: family))
    (h : (applyValueKeywords property node true).Runs config s draft s') :
    s' = s ∧ Poses draft (.required :: .type kinds false :: (valueChecks node ++ family)) := by
  refine ⟨detached_applyValueKeywords.eq_of_runs h, ?_⟩
  unfold applyValueKeywords applyFilters at h
  rw [hfilter] at h
  obtain ⟨listed, m, henumerate, hrest⟩ := runs_bind.1 h
  have hdescribed : Poses (describe property node) (.required :: .type kinds false :: family) := by
    unfold describe
    split
    · exact ⟨hposes.required, hposes.relaxed, hposes.toList⟩
    · exact hposes
  have hconstant := poses_constant hshaped (poses_enumerate htype hshaped hdescribed henumerate)
  rw [runs_pure_bind] at hrest
  unfold applyDefault at hrest
  split at hrest
  · obtain ⟨rfl, rfl⟩ := runs_pure.1 hrest
    exact hconstant
  · split at hrest
    · obtain ⟨rfl, rfl⟩ := runs_pure.1 hrest
      exact ⟨hconstant.required, hconstant.relaxed, hconstant.toList⟩
    · exact absurd hrest not_runs_refuse

/-! ## Compositions -/

/-- Where there are none, compositions add nothing. -/
theorem applyCompositions_of_bare (hbare : Bare members) (hposes : Poses property checks)
    (hnone : ∀ c ∈ checks, isComposed c = false) :
    applyCompositions build site (typedAs type members) property = pure property := by
  have hbranches : ∀ (property : Property) (combinator : Combinator),
      addComposition build site (typedAs type members) property combinator = pure property := by
    intro property combinator
    have hget : (typedAs type members).get? combinator.keyword = none := by
      refine hbare.get? type (List.mem_cons_of_mem _ (List.mem_cons_of_mem _ ?_))
      cases combinator <;> decide
    unfold addComposition Keyword.branches?
    rw [hget]
    rfl
  have hfold : Combinator.all.foldlM (addComposition build site (typedAs type members)) property = pure property := by
    unfold Combinator.all
    simp only [List.foldlM_cons, List.foldlM_nil, hbranches, pure_bind]
  have hif : (typedAs type members).get? "if" = none := hbare.get? type (by decide)
  have hcomposed : property.validators.find? isComposed = none := by
    unfold Validators.find?
    rw [hposes.toList, List.find?_eq_none]
    intro c hc
    rw [List.map_map] at hc
    obtain ⟨d, hd, rfl⟩ := List.mem_map.1 hc
    exact Bool.not_eq_true _ ▸ hnone d hd
  unfold applyCompositions conditional?
  rw [hfold, pure_bind, hif, pure_bind]
  simp only [Option.map_none, Option.getD_none, hcomposed]
  rfl

theorem isComposed_of_shape {c : Check} (h : c.shape? = some kind) : isComposed c = false := by
  cases c <;> first | rfl | cases h

theorem isComposed_completed (hshaped : Shaped family) :
    ∀ c ∈ Check.required :: .type kinds false :: (valueChecks node ++ family), isComposed c = false := by
  intro c hc
  rcases List.mem_cons.1 hc with rfl | hc
  · rfl
  · rcases List.mem_cons.1 hc with rfl | hc
    · rfl
    · rcases List.mem_append.1 hc with hc | hc
      · rcases mem_valueChecks hc with ⟨values, rfl⟩ | ⟨value, rfl⟩ <;> rfl
      · obtain ⟨kind, hshape⟩ := hshaped c hc
        exact isComposed_of_shape hshape

/-! ## Taking members in -/

/-- Add a check of a member, unless the union has it. -/
def takeCheck (property : Property) (validator : Validator) : Property :=
  if validator.check.isRequired || validator.check.isType
      || property.validators.toList.any (sameDemand · validator) then property
  else { property with validators := property.validators.add validator }

theorem mergeChecks_eq (property member : Property) :
    mergeChecks property member = member.validators.toList.foldl takeCheck property := rfl

theorem sameDemand_self (validator : Validator) : sameDemand validator validator = true := by
  simp [sameDemand]

theorem takeCheck_of_mem {validator : Validator} (h : validator ∈ property.validators.toList) :
    takeCheck property validator = property := by
  have hany : property.validators.toList.any (sameDemand · validator) = true :=
    List.any_eq_true.2 ⟨validator, h, sameDemand_self validator⟩
  unfold takeCheck
  rw [hany, Bool.or_true, if_pos rfl]

/-- A check of a shape is added behind the others, if none of these is fingerprinted alike. -/
theorem Poses.takeCheck {c : Check} (h : Poses property checks) (hshaped : Shaped checks)
    (hc : c.shape? = some kind) (hnew : ∀ d ∈ checks, d.fingerprint ≠ c.fingerprint) :
    Poses (takeCheck property c.toValidator) (checks ++ [c]) := by
  have hany : property.validators.toList.any (sameDemand · c.toValidator) = false := by
    rw [h.toList, List.any_eq_false]
    intro v hv hsame
    obtain ⟨d, hd, rfl⟩ := List.mem_map.1 hv
    simp only [sameDemand, Bool.and_eq_true, beq_iff_eq] at hsame
    exact hnew d hd hsame.1.2
  have hrequired : c.toValidator.check.isRequired = false := Check.isRequired_of_shape hc
  have htype : c.toValidator.check.isType = false := Check.isType_of_shape hc
  unfold Building.takeCheck
  rw [hany, hrequired, htype]
  exact h.addLast fun d hd => Nat.le_of_eq ((hshaped.priority d hd).trans (Check.defaultPriority_of_shape hc).symm)

theorem Shaped.append (h : Shaped checks) (h' : Shaped others) : Shaped (checks ++ others) := fun c hc =>
  (List.mem_append.1 hc).elim (h c) (h' c)

theorem shaped_of_family (h : Check.IsFamily kind family) : Shaped family := fun c hc => ⟨_, h.shape c hc⟩

theorem Poses.takeChecks : ∀ {family checks : List Check} {property : Property}, Poses property checks →
    Shaped checks → Shaped family → (∀ c ∈ family, ∀ d ∈ checks, d.fingerprint ≠ c.fingerprint) →
    family.Pairwise (·.fingerprint ≠ ·.fingerprint) →
    Poses ((family.map Check.toValidator).foldl Building.takeCheck property) (checks ++ family)
  | [], checks, _, h, _, _, _, _ => (List.append_nil checks).symm ▸ h
  | c :: rest, checks, property, h, hshaped, hfamily, hnew, hpairwise => by
    obtain ⟨kind, hc⟩ := hfamily c List.mem_cons_self
    obtain ⟨hapart, hpairwise⟩ := List.pairwise_cons.1 hpairwise
    have hadded := h.takeCheck hshaped hc (hnew c List.mem_cons_self)
    have hlast : Shaped [c] := fun d hd => List.mem_singleton.1 hd ▸ ⟨kind, hc⟩
    rw [List.map_cons, List.foldl_cons, ← List.singleton_append, ← List.append_assoc]
    refine hadded.takeChecks (hshaped.append hlast) (fun d hd => hfamily d (List.mem_cons_of_mem _ hd))
      (fun d hd e he => ?_) hpairwise
    rcases List.mem_append.1 he with he | he
    · exact hnew d (List.mem_cons_of_mem _ hd) e he
    · exact List.mem_singleton.1 he ▸ hapart d hd

/-- Presence and type are not taken in. -/
theorem mergeChecks_of_poses (hmember : Poses draft (.required :: .type kinds false :: family)) :
    mergeChecks property draft = (family.map Check.toValidator).foldl takeCheck property := by
  rw [mergeChecks_eq, hmember.toList]
  rfl

/-- **A family of a new shape** is taken in as a whole. -/
theorem Poses.mergeNew (h : Poses property checks) (hshaped : Shaped checks)
    (hmember : Poses draft (.required :: .type kinds false :: family)) (hfamily : Check.IsFamily kind family)
    (hnew : ∀ c ∈ checks, c.shape? ≠ some kind.shape) : Poses (mergeChecks property draft) (checks ++ family) := by
  rw [mergeChecks_of_poses hmember]
  refine h.takeChecks hshaped (shaped_of_family hfamily) (fun c hc d hd heq => ?_) ?_
  · obtain ⟨other, hother⟩ := hshaped d hd
    have hplace := Check.place_eq_of_fingerprint_eq hother (hfamily.shape c hc) heq
    exact hnew d hd (Check.shape_eq_of_place_eq hother (hfamily.shape c hc) hplace ▸ hother)
  · refine List.Pairwise.imp_of_mem (fun {c d} hc hd hlt heq => ?_) hfamily.ordered
    exact Nat.ne_of_lt hlt (Check.place_eq_of_fingerprint_eq (hfamily.shape c hc) (hfamily.shape d hd) heq)

/-- **A family that is there already** is not taken in again. -/
theorem mergeOld (h : Poses property checks) (hmember : Poses draft (.required :: .type kinds false :: family))
    (hold : ∀ c ∈ family, c ∈ checks) : mergeChecks property draft = property := by
  rw [mergeChecks_of_poses hmember]
  have hmem : ∀ v ∈ family.map Check.toValidator, takeCheck property v = property := by
    refine List.forall_mem_map.2 fun c hc => takeCheck_of_mem ?_
    rw [h.toList]
    exact List.mem_map_of_mem (hold c hc)
  generalize family.map Check.toValidator = vs at hmem
  induction vs with
  | nil => rfl
  | cons v rest ih =>
    rw [List.foldl_cons, hmem v List.mem_cons_self]
    exact ih fun w hw => hmem w (List.mem_cons_of_mem _ hw)

/-- Presence and type are checked before what has been taken in. -/
theorem Poses.declare (h : Poses property checks) (hshaped : Shaped checks) (kinds : List Kind) :
    Poses ((property.addCheck .required).addCheck (.type kinds false)) (.required :: .type kinds false :: checks) := by
  have hpresent : Poses (property.addCheck .required) ([.required] ++ checks) :=
    .addCheck (show Poses property ([] ++ checks) from h) (fun _ hc => absurd hc List.not_mem_nil) fun c hc =>
      hshaped.priority c hc ▸ (by decide : 1 < 99)
  exact hpresent.addCheck (fun c hc => List.mem_singleton.1 hc ▸ (by decide : 1 ≤ 2)) fun c hc =>
    hshaped.priority c hc ▸ (by decide : 2 < 99)

/-- A member brings its label and its type, and then its checks are merged. -/
theorem Poses.dressed (h : Poses property checks) (member : Property) :
    ∃ dressed, Poses dressed checks ∧ addMember property member = mergeChecks dressed member := by
  unfold addMember
  split
  · refine ⟨_, ?_, rfl⟩
    exact ⟨h.required, h.relaxed, h.toList⟩
  · refine ⟨_, ?_, rfl⟩
    exact ⟨h.required, h.relaxed, h.toList⟩

end Building
end SchemaTypes

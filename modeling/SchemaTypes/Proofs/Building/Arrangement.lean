import SchemaTypes.Proofs.Building.KindChecks
import SchemaTypes.Proofs.Building.Refining
import SchemaTypes.Proofs.Check.ValidatorOrder
/-!
# How the checks of a property are arranged

Checks run by priority, and an enumeration before a constant, since keywords are read in this order (`Check.rank`).  What
decides about null has a lower rank than branches, and a property with branches has something that decides: a check of
its type or its values, or else the check of null made for this (`Property.Arranged`).

Drafts are what builders have in hand.  A draft has no checks but those of the keywords that have been read so far
(`Property.Drafted`): first those of presence, type and kind, then single ones, and branches last.  Whatever builds the
nodes inside, a draft becomes arranged, and relaxing, copying and filling in leave it so.
-/
namespace SchemaTypes

/-! ## Ranks -/

namespace Check

def isEnumeration : Check → Bool
  | .enumeration .. => true
  | _ => false

def isConstant : Check → Bool
  | .constant _ => true
  | _ => false

def isImplicitNull : Check → Bool
  | .implicitNull _ => true
  | _ => false

def isCustom : Check → Bool
  | .custom .. => true
  | _ => false

/-- Where a check stands among those of its property. -/
def rank : Check → Nat
  | .constant _ => 4
  | check => check.defaultPriority

variable {c d : Check}

/-- A constant is alone in having a rank other than its priority; it shares that with enumerations only. -/
theorem rank_cases (c : Check) :
    (c.isConstant = true ∧ c.defaultPriority = 3 ∧ c.rank = 4) ∨
      (c.rank = c.defaultPriority ∧ (c.rank = 3 → c.isEnumeration = true) ∧ c.rank ≠ 4) := by
  cases c with
  | constant => exact Or.inl ⟨rfl, rfl, rfl⟩
  | _ => simp [rank, defaultPriority, isEnumeration, isConstant]

theorem rank_le_of_lt (h : c.defaultPriority < d.defaultPriority) : c.rank ≤ d.rank := by
  rcases c.rank_cases with ⟨-, hc, hc'⟩ | ⟨hc, -⟩ <;> rcases d.rank_cases with ⟨-, hd, hd'⟩ | ⟨hd, -⟩ <;> omega

/-- Among equal priorities, only an enumeration has a place before another check. -/
theorem rank_le_of_le (h : c.defaultPriority ≤ d.defaultPriority)
    (hd : d.isEnumeration = false ∨ c.isConstant = false) : c.rank ≤ d.rank := by
  rcases c.rank_cases with ⟨hc, hpriority, hrank⟩ | ⟨hc, -⟩
  · have hplain : d.isEnumeration = false := hd.resolve_right fun hnot => nomatch hc.symm.trans hnot
    rcases d.rank_cases with ⟨-, -, hd'⟩ | ⟨hd', hthree, -⟩
    · omega
    · have hnot : d.rank ≠ 3 := fun heq => nomatch hplain.symm.trans (hthree heq)
      omega
  · rcases d.rank_cases with ⟨-, hd', hd''⟩ | ⟨hd', -⟩ <;> omega

theorem rank_withNull (settles : Bool) (c : Check) : (c.withNull settles).rank = c.rank := by
  cases c <;> rfl

end Check

namespace Validators

/-- All checks are at their default priorities, in the order of their ranks. -/
structure Ranked (validators : Validators) : Prop where
  priority : ∀ v ∈ validators.toList, v.priority = v.check.defaultPriority
  ordered : validators.toList.Pairwise fun earlier later => earlier.check.rank ≤ later.check.rank

/-- Some check is like this. -/
def any (validators : Validators) (p : Check → Bool) : Bool := validators.toList.any fun v => p v.check

variable {validators : Validators} {check : Check} {p : Check → Bool}

theorem any_eq_true : validators.any p = true ↔ ∃ v ∈ validators.toList, p v.check = true := List.any_eq_true

theorem any_eq_false : validators.any p = false ↔ ∀ v ∈ validators.toList, p v.check = false := by
  unfold any
  simp

theorem any_addCheck (validators : Validators) (check : Check) (p : Check → Bool) :
    (validators.addCheck check).any p = (p check || validators.any p) := by
  rw [Bool.eq_iff_iff, Bool.or_eq_true, any_eq_true, any_eq_true]
  constructor
  · rintro ⟨v, hv, hp⟩
    rcases mem_toList_add.1 hv with rfl | hv
    · exact Or.inl hp
    · exact Or.inr ⟨v, hv, hp⟩
  · rintro (hp | ⟨v, hv, hp⟩)
    · exact ⟨_, mem_toList_add.2 (Or.inl rfl), hp⟩
    · exact ⟨v, mem_toList_add.2 (Or.inr hv), hp⟩

theorem any_removeRequired (hp : p .required = false) (validators : Validators) :
    validators.removeRequired.any p = validators.any p := by
  rw [Bool.eq_iff_iff, any_eq_true, any_eq_true, toList_removeRequired]
  constructor
  · rintro ⟨v, hv, hpv⟩
    exact ⟨v, (List.mem_filter.1 hv).1, hpv⟩
  · rintro ⟨v, hv, hpv⟩
    refine ⟨v, List.mem_filter.2 ⟨hv, ?_⟩, hpv⟩
    cases hcheck : v.check with
    | required =>
      rw [hcheck, hp] at hpv
      cases hpv
    | _ => rfl

theorem any_mapChecks {f : Check → Check} (hf : ∀ check, p (f check) = p check) (validators : Validators) :
    (validators.mapChecks f).any p = validators.any p := by
  unfold any
  rw [toList_mapChecks, List.any_map]
  exact congrArg _ (funext fun v => hf v.check)

theorem isSome_find? (validators : Validators) (p : Check → Bool) :
    (validators.find? p).isSome = validators.any p := by
  unfold find? any
  rw [Bool.eq_iff_iff, List.find?_isSome, List.any_eq_true]
  simp

theorem ranked_empty : Ranked {} := ⟨fun _ hv => absurd hv List.not_mem_nil, .nil⟩

/-- A check that is no enumeration may be added at any time, and an enumeration before there is a constant. -/
theorem Ranked.addCheck (h : validators.Ranked)
    (hcheck : check.isEnumeration = false ∨ validators.any Check.isConstant = false) :
    (validators.addCheck check).Ranked := by
  have hrank : ∀ v ∈ validators.toList, v.priority ≤ check.defaultPriority → v.check.rank ≤ check.rank := by
    intro v hv hle
    rw [h.priority v hv] at hle
    exact Check.rank_le_of_le hle (hcheck.imp_right fun hnone => any_eq_false.1 hnone v hv)
  refine ⟨fun v hv => ?_, ?_⟩
  · rcases mem_toList_add.1 hv with rfl | hv
    · rfl
    · exact h.priority v hv
  · have hordered : validators.arrivals.Pairwise fun earlier later =>
        earlier.validator.check.rank ≤ later.validator.check.rank := by
      have hlist := h.ordered
      unfold toList at hlist
      rw [List.pairwise_map] at hlist
      exact hlist
    refine List.pairwise_map.2 (pairwise_place
      (R := fun earlier later => earlier.validator.check.rank ≤ later.validator.check.rank)
      (fun _ _ _ => Nat.le_trans) hordered (fun other hother hle => ?_) fun other hother hlt => Check.rank_le_of_lt ?_)
    · exact hrank other.validator (List.mem_map_of_mem hother) hle
    · rw [← h.priority other.validator (List.mem_map_of_mem hother)]
      exact hlt

theorem Ranked.removeRequired (h : validators.Ranked) : validators.removeRequired.Ranked := by
  refine ⟨fun v hv => ?_, ?_⟩
  · rw [toList_removeRequired] at hv
    exact h.priority v (List.mem_filter.1 hv).1
  · rw [toList_removeRequired]
    exact h.ordered.filter _

theorem Ranked.withNull (h : validators.Ranked) (settles : Bool) :
    (validators.mapChecks (Check.withNull settles)).Ranked := by
  refine ⟨fun v hv => ?_, ?_⟩
  · rw [toList_mapChecks] at hv
    obtain ⟨w, hw, rfl⟩ := List.mem_map.1 hv
    exact (h.priority w hw).trans (Check.defaultPriority_withNull _ _).symm
  · rw [toList_mapChecks, List.pairwise_map]
    refine h.ordered.imp fun hle => ?_
    rw [Check.rank_withNull, Check.rank_withNull]
    exact hle

end Validators

namespace Property

open Building

variable {config : Config} {property : Property} {p : Check → Bool} {check : Check}

/-! ## Stamping and relaxing -/

/-- Stamping changes flags and presence only. -/
theorem any_stampRequired (hrequired : p .required = false) (hnull : ∀ settles check, p (Check.withNull settles check) = p check)
    (property : Property) (required allowed : Bool) :
    (property.stampRequired required allowed).validators.any p = property.validators.any p := by
  simp only [stampRequired]
  rw [Validators.any_mapChecks (hnull _)]
  split
  · rw [Validators.any_addCheck, hrequired, Bool.false_or, Validators.any_removeRequired hrequired]
  · rw [Validators.any_removeRequired hrequired]

theorem ranked_stampRequired (h : property.validators.Ranked) (required allowed : Bool) :
    (property.stampRequired required allowed).validators.Ranked := by
  simp only [stampRequired]
  refine Validators.Ranked.withNull ?_ _
  split
  · exact h.removeRequired.addCheck (Or.inl rfl)
  · exact h.removeRequired

/-- The checks of a property in the graph: in order, none of a caller, and where there are branches there is a check
that decides about null.  The check of null is there for no other properties. -/
structure Arranged (config : Config) (property : Property) : Prop where
  ranked : property.validators.Ranked
  admitted : property.Admitted config
  custom : property.validators.any Check.isCustom = false
  composed : property.validators.any isComposed = true →
    property.validators.any decidesNull = true ∨ property.validators.any Check.isImplicitNull = true
  exclusive : property.validators.any Check.isImplicitNull = true → property.validators.any decidesNull = false

theorem arranged_of_empty (h : property.validators = {}) : property.Arranged config := by
  have hnone : ∀ p, property.validators.any p = false := fun p => by
    rw [h]
    rfl
  refine ⟨h ▸ Validators.ranked_empty, .of_empty ?_, hnone _, fun hsome => ?_, fun hsome => ?_⟩
  · rw [h]
    rfl
  · rw [hnone] at hsome
    cases hsome
  · rw [hnone] at hsome
    cases hsome

theorem Arranged.of_any {result : Property} (h : property.Arranged config) (hranked : result.validators.Ranked)
    (hadmitted : result.Admitted config)
    (hany : ∀ p : Check → Bool, p .required = false → (∀ settles check, p (Check.withNull settles check) = p check) →
      result.validators.any p = property.validators.any p) : result.Arranged config := by
  have hcustom := hany Check.isCustom rfl fun _ check => by cases check <;> rfl
  have hcomposed := hany isComposed rfl fun _ check => by cases check <;> rfl
  have hdecides := hany decidesNull rfl fun _ check => by cases check <;> rfl
  have hnull := hany Check.isImplicitNull rfl fun _ check => by cases check <;> rfl
  refine ⟨hranked, hadmitted, hcustom ▸ h.custom, ?_, ?_⟩
  · rw [hcomposed, hdecides, hnull]
    exact h.composed
  · rw [hnull, hdecides]
    exact h.exclusive

theorem Arranged.stampRequired (h : property.Arranged config) (required allowed : Bool) :
    (property.stampRequired required allowed).Arranged config :=
  h.of_any (ranked_stampRequired h.ranked required allowed) (h.admitted.stampRequired required allowed)
    fun _ hrequired hnull => any_stampRequired hrequired hnull property required allowed

theorem Arranged.relax (h : property.Arranged config) : property.relax.Arranged config :=
  h.of_any h.ranked.removeRequired h.admitted.relax fun _ hrequired _ =>
    Validators.any_removeRequired hrequired property.validators

theorem Arranged.copied (h : property.Arranged config) (name identifier : String) (required allowed : Bool) :
    (copied property name identifier required allowed).Arranged config := by
  unfold Building.copied
  have hnamed : ({ property with name, identifier, relaxed := false } : Property).Arranged config :=
    ⟨h.ranked, h.admitted, h.custom, h.composed, h.exclusive⟩
  exact hnamed.stampRequired required allowed

/-- A placeholder gets the checks of its definition. -/
theorem Arranged.bound (h : property.Arranged config) (placeholder : Property) (allowed : Bool) :
    (bound placeholder property allowed).Arranged config := by
  unfold Building.bound
  refine Arranged.stampRequired ?_ placeholder.required allowed
  exact ⟨h.ranked, h.admitted, h.custom, h.composed, h.exclusive⟩

theorem arranged_lifted (property : Property) (combinator : Combinator) :
    (lifted property combinator).Arranged config := by
  refine arranged_of_empty ?_
  unfold lifted addDecorator
  split
  · rfl
  · rfl

/-! ## Drafts -/

/-- A property in the making that has only such checks. -/
structure Drafted (config : Config) (p : Check → Bool) (property : Property) : Prop where
  ranked : property.validators.Ranked
  admitted : property.Admitted config
  only : ∀ v ∈ property.validators.toList, p v.check = true
  relaxed : property.relaxed = false

end Property

namespace Check

/-- Presence, the type, and what is asked of a kind. -/
def isPlain : Check → Bool
  | .enumeration .. | .constant _ | .implicitNull _ | .composition .. | .conditional .. | .filter .. | .custom .. =>
    false
  | _ => true

/-- What keywords ask for without branches. -/
def isSingle : Check → Bool
  | .implicitNull _ | .composition .. | .conditional .. | .custom .. => false
  | _ => true

/-- What keywords ask for. -/
def isSpelled : Check → Bool
  | .implicitNull _ | .custom .. => false
  | _ => true

theorem isSingle_of_isPlain {check : Check} (h : check.isPlain = true) : check.isSingle = true := by
  cases check <;> first | rfl | cases h

theorem isSpelled_of_isSingle {check : Check} (h : check.isSingle = true) : check.isSpelled = true := by
  cases check <;> first | rfl | cases h

theorem admits_of_isPlain {config : Config} {check : Check} (h : check.isPlain = true) : config.Admits check := by
  cases check with
  | filter => cases h
  | _ => trivial

theorem isPlain_of_shape {check : Check} {kind : Kind} (h : check.shape? = some kind) : check.isPlain = true := by
  cases check <;> first | rfl | cases h

end Check

namespace Property.Drafted

open Building

variable {config : Config} {p q : Check → Bool} {property : Property} {check : Check}

theorem mono (h : property.Drafted config p) (hpq : ∀ check, p check = true → q check = true) :
    property.Drafted config q :=
  ⟨h.ranked, h.admitted, fun v hv => hpq v.check (h.only v hv), h.relaxed⟩

/-- The validators are what counts. -/
theorem of_validators {result : Property} (h : property.Drafted config p)
    (hvalidators : result.validators = property.validators) (hrelaxed : result.relaxed = property.relaxed) :
    result.Drafted config p :=
  ⟨hvalidators ▸ h.ranked, fun v hv => h.admitted v (hvalidators ▸ hv), fun v hv => h.only v (hvalidators ▸ hv),
    hrelaxed.trans h.relaxed⟩

theorem of_empty (h : property.validators = {}) (hrelaxed : property.relaxed = false) : property.Drafted config p := by
  refine ⟨h ▸ Validators.ranked_empty, .of_empty (h ▸ rfl), fun v hv => ?_, hrelaxed⟩
  rw [h] at hv
  exact absurd hv List.not_mem_nil

theorem any_eq_false (h : property.Drafted config p) (hpq : ∀ check, p check = true → q check = false) :
    property.validators.any q = false := Validators.any_eq_false.2 fun v hv => hpq v.check (h.only v hv)

theorem addCheck (h : property.Drafted config p) (hadmits : config.Admits check) (hcheck : p check = true)
    (horder : check.isEnumeration = false ∨ property.validators.any Check.isConstant = false) :
    (property.addCheck check).Drafted config p := by
  refine ⟨h.ranked.addCheck horder, h.admitted.addCheck hadmits, fun v hv => ?_, h.relaxed⟩
  rcases Validators.mem_toList_add.1 hv with rfl | hv
  · exact hcheck
  · exact h.only v hv

theorem addPlain (h : property.Drafted config Check.isPlain) (hcheck : check.isPlain = true) :
    (property.addCheck check).Drafted config Check.isPlain := by
  refine h.addCheck (Check.admits_of_isPlain hcheck) hcheck (Or.inl ?_)
  cases check with
  | enumeration => cases hcheck
  | _ => rfl

theorem addDecorator (h : property.Drafted config p) (decorator : Decorator) :
    (property.addDecorator decorator).Drafted config p := by
  unfold Property.addDecorator
  split
  · exact h
  · exact h.of_validators rfl rfl

/-- Without branches there is no question about null. -/
theorem arranged (h : property.Drafted config Check.isSingle) : property.Arranged config := by
  have hnone : ∀ q : Check → Bool, (∀ check, check.isSingle = true → q check = false) →
      property.validators.any q = false := fun q hq => h.any_eq_false hq
  refine ⟨h.ranked, h.admitted, hnone _ fun check hcheck => ?_, fun hsome => ?_, fun hsome => ?_⟩
  · cases check <;> first | rfl | cases hcheck
  · rw [hnone isComposed fun check hcheck => by cases check <;> first | rfl | cases hcheck] at hsome
    cases hsome
  · rw [hnone Check.isImplicitNull fun check hcheck => by cases check <;> first | rfl | cases hcheck] at hsome
    cases hsome

/-- With branches, the check of null is added where nothing else decides about null. -/
theorem arranged_composed (h : property.Drafted config Check.isSpelled) (enabled : Bool) :
    (if property.validators.any isComposed && !property.validators.any decidesNull then
      property.addCheck (.implicitNull enabled) else property).Arranged config := by
  have hcustom : property.validators.any Check.isCustom = false := h.any_eq_false fun check hcheck => by
    cases check <;> first | rfl | cases hcheck
  have hnull : property.validators.any Check.isImplicitNull = false := h.any_eq_false fun check hcheck => by
    cases check <;> first | rfl | cases hcheck
  split
  · rename_i hneeds
    rw [Bool.and_eq_true, Bool.not_eq_true'] at hneeds
    have hadd : ∀ q, (property.addCheck (.implicitNull enabled)).validators.any q =
        (q (.implicitNull enabled) || property.validators.any q) := Validators.any_addCheck _ _
    refine ⟨h.ranked.addCheck (Or.inl rfl), h.admitted.addCheck trivial, ?_, fun _ => Or.inr ?_, fun _ => ?_⟩
    · rw [hadd, hcustom]
      rfl
    · rw [hadd]
      rfl
    · rw [hadd, hneeds.2]
      rfl
  · rename_i hnot
    refine ⟨h.ranked, h.admitted, hcustom, fun hcomposed => Or.inl ?_, fun hsome => ?_⟩
    · rw [hcomposed, Bool.true_and, Bool.not_eq_true', Bool.not_eq_false] at hnot
      exact hnot
    · rw [hnull] at hsome
      cases hsome

end Property.Drafted

/-! ## What builders make of drafts -/

namespace Building

open Build Property

variable {config : Config} {build : Builder} {site : Site} {scope : Scope} {draft part : Property} {node : Json}
  {name : String} {required : Bool} {type : TypeId} {p : Check → Bool}

theorem drafted_newProperty : Gives config (newProperty name required) (Drafted config p) := by
  unfold newProperty
  split
  · exact keeps_pure (.of_empty rfl rfl)
  · exact keeps_refuse

theorem drafted_present (h : draft.Drafted config Check.isPlain) :
    (if required then draft.addCheck .required else draft).Drafted config Check.isPlain := by
  split
  · exact h.addPlain rfl
  · exact h

theorem drafted_presentProperty : Gives config (presentProperty site) (Drafted config Check.isPlain) := by
  unfold presentProperty
  exact drafted_newProperty.bind fun property hproperty => keeps_pure (drafted_present hproperty)

/-- What is asked of a kind has a shape, so it is plain. -/
theorem drafted_addKindChecks (h : draft.Drafted config Check.isPlain) (kind : Kind) :
    Gives config (addKindChecks build scope kind draft node) (Drafted config Check.isPlain) := by
  obtain ⟨x, heq, hgives⟩ : ∃ x : String → Build (List Check),
      (∀ property, addKindChecks build scope kind property node =
        x property.name >>= fun checks => pure (checks.foldl Property.addCheck property)) ∧
      ∀ name, Gives config (x name) (Check.IsFamily kind) := exists_adds_addKindChecks kind
  rw [heq]
  refine (hgives draft.name).bind fun checks hchecks => keeps_pure ?_
  exact List.foldlRecOn checks _ h fun property hproperty check hcheck =>
    hproperty.addPlain (Check.isPlain_of_shape (hchecks.shape check hcheck))

theorem drafted_ofKind (kind : Kind) : Gives config (ofKind build site node kind) (Drafted config Check.isPlain) := by
  unfold ofKind
  refine drafted_presentProperty.bind fun property hproperty => gives_after fun allowed => ?_
  refine drafted_addKindChecks (Drafted.addPlain ?_ rfl) kind
  exact hproperty.of_validators rfl rfl

theorem drafted_instanceProperty :
    Gives config (instanceProperty name type required) (Drafted config Check.isPlain) := by
  unfold instanceProperty
  refine gives_after fun graph => (drafted_newProperty (p := Check.isPlain)).bind fun fresh hfresh =>
    gives_after fun allowed => keeps_pure ?_
  refine (Drafted.addPlain (drafted_present (Drafted.addDecorator ?_ _)) rfl).addPlain rfl
  exact hfresh.of_validators rfl rfl

theorem drafted_materialize : Gives config (materialize build site node type) (Drafted config Check.isPlain) := by
  unfold materialize
  exact gives_after fun _ => gives_after fun _ => gives_after fun _ => drafted_instanceProperty

theorem drafted_member (kind : Kind) : Gives config (member build site node kind) (Drafted config Check.isPlain) := by
  unfold member
  split
  · exact gives_after fun _ => drafted_materialize
  · exact drafted_ofKind kind

theorem drafted_mergeChecks (h : draft.Drafted config Check.isPlain) (hpart : part.Drafted config Check.isPlain) :
    (mergeChecks draft part).Drafted config Check.isPlain := by
  unfold mergeChecks
  refine List.foldlRecOn part.validators.toList _ h fun property hproperty validator hvalidator => ?_
  split
  · exact hproperty
  · have hdefault : validator = validator.check.toValidator :=
      congrArg (Validator.mk validator.check) (hpart.ranked.priority validator hvalidator)
    rw [hdefault]
    exact hproperty.addPlain (hpart.only validator hvalidator)

theorem drafted_addMember (h : draft.Drafted config Check.isPlain) (hpart : part.Drafted config Check.isPlain) :
    (addMember draft part).Drafted config Check.isPlain := by
  unfold addMember
  refine drafted_mergeChecks ?_ hpart
  simp only
  split
  · exact h.of_validators rfl rfl
  · exact h.of_validators rfl rfl

/-! ### Keywords every property has -/

theorem drafted_describe (h : draft.Drafted config p) : (describe draft node).Drafted config p := by
  unfold describe
  split
  · exact h.of_validators rfl rfl
  · exact h

/-- The draft has no constant yet, so that the enumeration comes before it. -/
theorem drafted_enumerate (h : draft.Drafted config Check.isPlain) :
    Gives config (enumerate draft node required) (Drafted config Check.isSingle) := by
  have hsingle := h.mono fun _ => Check.isSingle_of_isPlain
  have hconstant : draft.validators.any Check.isConstant = false := h.any_eq_false fun check hcheck => by
    cases check <;> first | rfl | cases hcheck
  unfold enumerate
  refine gives_after fun found => ?_
  cases found with
  | none => exact keeps_pure hsingle
  | some values =>
    refine gives_after fun allowed => ?_
    have hadded : (draft.addCheck (.enumeration values (allowed && !values.any Json.isNull))).Drafted config
        Check.isSingle := hsingle.addCheck trivial rfl (Or.inr hconstant)
    simp only
    split
    · refine gives_after fun known => keeps_pure ⟨?_, ?_, fun v hv => ?_, h.relaxed⟩
      · exact ranked_stampRequired (by exact hadded.ranked) _ _
      · exact Admitted.stampRequired (by exact hadded.admitted) _ _
      · have hnone : ∀ v ∈ (Property.stampRequired { draft.addCheck (.enumeration values
            (allowed && !values.any Json.isNull)) with strict := true } required
            known.settings.implicitNull).validators.toList, (!v.check.isSingle) = false := by
          rw [← Validators.any_eq_false (p := fun check => !check.isSingle), any_stampRequired rfl fun _ check => by
            cases check <;> rfl]
          refine hadded.any_eq_false fun check hcheck => ?_
          rw [hcheck]
          rfl
        simpa using hnone v hv
    · exact keeps_pure hadded

theorem drafted_constant (h : draft.Drafted config Check.isSingle) :
    (constant draft node).Drafted config Check.isSingle := by
  unfold constant
  split
  · exact h.addCheck trivial rfl (Or.inl rfl)
  · exact h

theorem drafted_applyFilter {entry : Json} (h : draft.Drafted config Check.isSingle) :
    Gives config (applyFilter draft entry) (Drafted config Check.isSingle) := by
  have hread : Gives config (read : Build Config) (· = config) :=
    fun _ _ => ⟨fun _ _ hrun => ⟨trivial, (runs_read.1 hrun).1⟩, fun _ _ _ => trivial⟩
  unfold applyFilter
  refine gives_after fun found => hread.bind fun known hknown => ?_
  subst hknown
  split
  · exact keeps_refuse
  · rename_i filter hfilter
    split
    · exact keeps_pure (h.addCheck ⟨filter, List.mem_of_find?_eq_some hfilter, rfl, rfl⟩ rfl (Or.inl rfl))
    · exact keeps_refuse

theorem drafted_applyFilters (h : draft.Drafted config Check.isSingle) :
    Gives config (applyFilters draft node) (Drafted config Check.isSingle) := by
  unfold applyFilters
  split
  · exact keeps_pure h
  · exact keeps_foldlM (fun _ _ hfiltered => drafted_applyFilter hfiltered) h
  · exact drafted_applyFilter h

theorem drafted_applyDefault (h : draft.Drafted config p) :
    Gives config (applyDefault draft node) (Drafted config p) := by
  unfold applyDefault
  split
  · exact keeps_pure h
  · split
    · exact keeps_pure (h.of_validators rfl rfl)
    · exact keeps_refuse

theorem drafted_applyValueKeywords (h : draft.Drafted config Check.isPlain) :
    Gives config (applyValueKeywords draft node required) (Drafted config Check.isSingle) := by
  unfold applyValueKeywords
  refine (drafted_enumerate (drafted_describe h)).bind fun valued hvalued => ?_
  exact (drafted_applyFilters (drafted_constant hvalued)).bind fun _ hfiltered => drafted_applyDefault hfiltered

/-! ### Branches -/

theorem drafted_inferLabel (h : draft.Drafted config p) (labels : List (Option TypeLabel)) :
    (inferLabel draft labels).Drafted config p := by
  unfold inferLabel
  split
  · split
    · exact (h.addDecorator _).of_validators rfl rfl
    · exact h
  · exact h

theorem drafted_inferEnumeration (h : draft.Drafted config p) (values : List Json) :
    (inferEnumeration draft values).Drafted config p := by
  unfold inferEnumeration
  simp only
  split
  · exact h.of_validators rfl rfl
  · exact h.addDecorator _

theorem drafted_addComposition (h : draft.Drafted config Check.isSpelled) (combinator : Combinator) :
    Gives config (addComposition build site node draft combinator) (Drafted config Check.isSpelled) := by
  unfold addComposition
  refine gives_after fun found => ?_
  split
  · exact keeps_pure h
  · refine gives_after fun _ => gives_after fun ids => gives_after fun graph => keeps_pure ?_
    refine Drafted.addCheck ?_ trivial rfl (Or.inl rfl)
    split
    · exact drafted_inferLabel h _
    · exact h

/-- What is conditional is a conditional. -/
theorem gives_conditional? {buildBranch : Json → Build PropertyId} {onObject : Bool} :
    Gives config (conditional? buildBranch name node onObject) fun found =>
      ∀ check, found = some check → ∃ condition consequent alternative,
        check = .conditional condition consequent alternative onObject := by
  unfold conditional?
  split
  · exact keeps_pure fun _ hnone => nomatch hnone
  · split
    · refine gives_after fun _ => gives_after fun _ => gives_after fun _ => keeps_pure fun check heq => ?_
      exact ⟨_, _, _, (Option.some.inj heq).symm⟩
    · exact gives_after fun _ => keeps_pure fun _ hnone => nomatch hnone

/-- **Compositions leave a property arranged.** -/
theorem arranged_applyCompositions (h : draft.Drafted config Check.isSingle) :
    Gives config (applyCompositions build site node draft) fun result =>
      result.Arranged config ∧ result.relaxed = false := by
  unfold applyCompositions
  refine Keeps.bind (q := Drafted config Check.isSpelled) (keeps_foldlM (fun _ combinator hcomposed =>
    drafted_addComposition hcomposed combinator) (h.mono fun _ => Check.isSpelled_of_isSingle)) fun composed hcomposed => ?_
  refine gives_conditional?.bind fun conditional hconditional => ?_
  have hadded : ((conditional.map composed.addCheck).getD composed).Drafted config Check.isSpelled := by
    cases conditional with
    | none => exact hcomposed
    | some check =>
      obtain ⟨_, _, _, rfl⟩ := hconditional check rfl
      exact hcomposed.addCheck trivial rfl (Or.inl rfl)
  generalize (conditional.map composed.addCheck).getD composed = result at hadded
  have harranged := fun enabled => hadded.arranged_composed enabled
  simp only [← Option.not_isSome, Validators.isSome_find?]
  split
  · rename_i hneeds
    refine gives_after fun allowed => keeps_pure ⟨?_, hadded.relaxed⟩
    have hresult := harranged (allowed && !result.strict)
    rw [if_pos hneeds] at hresult
    exact hresult
  · rename_i hnot
    refine keeps_pure ⟨?_, hadded.relaxed⟩
    have hresult := harranged false
    rw [if_neg hnot] at hresult
    exact hresult

end Building
end SchemaTypes

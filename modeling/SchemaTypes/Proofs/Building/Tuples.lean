import SchemaTypes.Proofs.Building.Arrangement
import SchemaTypes.Proofs.Building.UnionMembers
import SchemaTypes.Proofs.Check.Partitions
/-!
# What a node asks of items by their places

A node whose `items` is a list of nodes gets a tuple, and behind it what `additionalItems` asks of the rest.  No other
keyword asks for such checks, so a draft keeps what it is divided into (`Property.Divided`) whatever else is read: the
keywords every property has, compositions, and the other keywords of arrays.  A union names each kind once.  It takes over
the checks of an array member as they are, since nothing else in it is fingerprinted like these.
-/
namespace SchemaTypes

open Building

namespace Property

variable {property result : Property} {block : List Check} {check : Check}

/-- What the property asks of items by their places. -/
def Divided (block : List Check) (property : Property) : Prop := property.validators.Splits block

/-- Checks by place, if there are any, stand in a row. -/
def Parted (property : Property) : Prop := ∃ block, property.Divided block

theorem Divided.of_validators (h : property.Divided block) (hvalidators : result.validators = property.validators) :
    result.Divided block := by
  unfold Divided
  rw [hvalidators]
  exact h

theorem divided_of_empty (h : property.validators = {}) : property.Divided [] := by
  unfold Divided
  rw [h]
  exact Validators.splits_empty

theorem Divided.addCheck (h : property.Divided block) (hcheck : check.isTupled = false) :
    (property.addCheck check).Divided block := Validators.Splits.addCheck h hcheck

theorem Divided.addDecorator (h : property.Divided block) (decorator : Decorator) :
    (property.addDecorator decorator).Divided block := by
  unfold Property.addDecorator
  split
  · exact h
  · exact h.of_validators rfl

theorem Divided.stampRequired (h : property.Divided block) (required allowed : Bool) :
    (property.stampRequired required allowed).Divided block := by
  refine Validators.Splits.withNull ?_ _
  split
  · exact (Validators.Splits.removeRequired h).addCheck rfl
  · exact Validators.Splits.removeRequired h

theorem Divided.relax (h : property.Divided block) : property.relax.Divided block := Validators.Splits.removeRequired h

theorem Divided.copied (h : property.Divided block) (name identifier : String) (required allowed : Bool) :
    (copied property name identifier required allowed).Divided block := by
  unfold Building.copied
  refine Divided.stampRequired ?_ required allowed
  exact h.of_validators rfl

theorem Divided.bound (h : property.Divided block) (placeholder : Property) (allowed : Bool) :
    (bound placeholder property allowed).Divided block := by
  unfold Building.bound
  refine Divided.stampRequired ?_ placeholder.required allowed
  exact h.of_validators rfl

theorem divided_lifted (property : Property) (combinator : Combinator) : (lifted property combinator).Divided [] := by
  unfold lifted
  exact (divided_of_empty rfl).addDecorator _

/-- A whole row of checks by place is added at once. -/
theorem Divided.addBlock (h : property.Divided []) (hblock : Check.IsPartition block) :
    (block.foldl Property.addCheck property).Divided block := by
  have hvalidators : ∀ (checks : List Check) (property : Property),
      (checks.foldl Property.addCheck property).validators = checks.foldl Validators.addCheck property.validators := by
    intro checks
    induction checks with
    | nil => exact fun _ => rfl
    | cons c rest ih => exact fun property => ih (property.addCheck c)
  unfold Divided
  rw [hvalidators]
  exact Validators.Splits.addBlock h hblock

end Property

/-- What is known of a result in any session is known besides. -/
theorem Build.keeps_and {α : Type} {config : Config} {I : Session → Prop} {x : Build α} {q r : α → Prop}
    (h : Keeps config I x r) (hx : Gives config x q) : Keeps config I x fun a => r a ∧ q a := fun s hs =>
  ⟨fun a s' hrun => ⟨((h s hs).1 a s' hrun).1, ((h s hs).1 a s' hrun).2, ((hx s trivial).1 a s' hrun).2⟩, (h s hs).2⟩

namespace Building

open Build Property

variable {config : Config} {build : Builder} {site : Site} {scope : Scope} {draft part : Property} {node : Json}
  {name keyword : String} {required : Bool} {type : TypeId} {block : List Check}

/-! ## Drafts -/

theorem divided_newProperty : Gives config (newProperty name required) (Divided []) := by
  unfold newProperty
  split
  · exact keeps_pure (divided_of_empty rfl)
  · exact keeps_refuse

theorem divided_present (h : draft.Divided block) :
    (if required then draft.addCheck .required else draft).Divided block := by
  split
  · exact h.addCheck rfl
  · exact h

theorem divided_presentProperty : Gives config (presentProperty site) (Divided []) := by
  unfold presentProperty
  exact divided_newProperty.bind fun property hproperty => keeps_pure (divided_present hproperty)

theorem divided_instanceProperty : Gives config (instanceProperty name type required) (Divided []) := by
  unfold instanceProperty
  refine gives_after fun graph => divided_newProperty.bind fun fresh hfresh => gives_after fun allowed => keeps_pure ?_
  refine ((divided_present (Divided.addDecorator ?_ _)).addCheck rfl).addCheck rfl
  exact hfresh.of_validators rfl

/-! ### Keywords every property has -/

theorem divided_describe (h : draft.Divided block) : (describe draft node).Divided block := by
  unfold describe
  split
  · exact h.of_validators rfl
  · exact h

theorem divided_enumerate (h : draft.Divided block) : Gives config (enumerate draft node required) (Divided block) := by
  unfold enumerate
  refine gives_after fun found => ?_
  cases found with
  | none => exact keeps_pure h
  | some values =>
    refine gives_after fun allowed => ?_
    have hadded : (draft.addCheck (.enumeration values (allowed && !values.any Json.isNull))).Divided block :=
      h.addCheck rfl
    simp only
    split
    · refine gives_after fun known => keeps_pure (Divided.stampRequired ?_ _ _)
      exact hadded.of_validators rfl
    · exact keeps_pure hadded

theorem divided_constant (h : draft.Divided block) : (constant draft node).Divided block := by
  unfold constant
  split
  · exact h.addCheck rfl
  · exact h

theorem divided_applyFilter {entry : Json} (h : draft.Divided block) :
    Gives config (applyFilter draft entry) (Divided block) := by
  unfold applyFilter
  refine gives_after fun found => gives_after fun known => ?_
  split
  · exact keeps_refuse
  · split
    · exact keeps_pure (h.addCheck rfl)
    · exact keeps_refuse

theorem divided_applyFilters (h : draft.Divided block) : Gives config (applyFilters draft node) (Divided block) := by
  unfold applyFilters
  split
  · exact keeps_pure h
  · exact keeps_foldlM (fun _ _ hfiltered => divided_applyFilter hfiltered) h
  · exact divided_applyFilter h

theorem divided_applyDefault (h : draft.Divided block) : Gives config (applyDefault draft node) (Divided block) := by
  unfold applyDefault
  split
  · exact keeps_pure h
  · split
    · exact keeps_pure (h.of_validators rfl)
    · exact keeps_refuse

theorem divided_applyValueKeywords (h : draft.Divided block) :
    Gives config (applyValueKeywords draft node required) (Divided block) := by
  unfold applyValueKeywords
  refine (divided_enumerate (divided_describe h)).bind fun valued hvalued => ?_
  exact (divided_applyFilters (divided_constant hvalued)).bind fun _ hfiltered => divided_applyDefault hfiltered

/-! ### Branches -/

theorem divided_inferLabel (h : draft.Divided block) (labels : List (Option TypeLabel)) :
    (inferLabel draft labels).Divided block := by
  unfold inferLabel
  split
  · split
    · exact (h.addDecorator _).of_validators rfl
    · exact h
  · exact h

theorem divided_inferEnumeration (h : draft.Divided block) (values : List Json) :
    (inferEnumeration draft values).Divided block := by
  unfold inferEnumeration
  simp only
  split
  · exact h.of_validators rfl
  · exact h.addDecorator _

theorem divided_addComposition (h : draft.Divided block) (combinator : Combinator) :
    Gives config (addComposition build site node draft combinator) (Divided block) := by
  unfold addComposition
  refine gives_after fun found => ?_
  split
  · exact keeps_pure h
  · refine gives_after fun _ => gives_after fun ids => gives_after fun graph => keeps_pure ?_
    refine Divided.addCheck ?_ rfl
    split
    · exact divided_inferLabel h _
    · exact h

theorem divided_applyCompositions (h : draft.Divided block) :
    Gives config (applyCompositions build site node draft) (Divided block) := by
  unfold applyCompositions
  refine Keeps.bind (q := Divided block)
    (keeps_foldlM (fun _ combinator hcomposed => divided_addComposition hcomposed combinator) h) fun composed hcomposed => ?_
  refine gives_conditional?.bind fun conditional hconditional => ?_
  have hadded : ((conditional.map composed.addCheck).getD composed).Divided block := by
    cases conditional with
    | none => exact hcomposed
    | some check =>
      obtain ⟨_, _, _, rfl⟩ := hconditional check rfl
      exact hcomposed.addCheck rfl
  simp only
  split
  · exact gives_after fun allowed => keeps_pure (hadded.addCheck rfl)
  · exact keeps_pure hadded

/-! ## Arrays -/

theorem parted_addTuple {items : List Json} (h : draft.Divided []) :
    Gives config (addTuple build scope draft items node) Parted := by
  unfold addTuple
  refine gives_after fun positions => ?_
  simp only
  split
  · exact keeps_pure ⟨_, h.addBlock (.loose positions)⟩
  · exact keeps_pure ⟨_, h.addBlock (.loose positions)⟩
  · exact keeps_pure ⟨_, h.addBlock (.closed positions)⟩
  · exact gives_after fun item => keeps_pure ⟨_, h.addBlock (.full positions item)⟩
  · exact keeps_malformed

theorem parted_addItems (h : draft.Divided []) : Gives config (addItems build scope draft node) Parted := by
  unfold addItems
  split
  · exact keeps_pure ⟨[], h⟩
  · exact parted_addTuple h
  · exact gives_after fun _ => keeps_pure ⟨[], h.addCheck rfl⟩

theorem divided_addContains (h : draft.Divided block) :
    Gives config (addContains build scope draft node) (Divided block) := by
  unfold addContains
  split
  · exact keeps_pure h
  · exact gives_after fun id => keeps_pure (h.addCheck rfl)

theorem divided_addCount (h : draft.Divided block) {check : Nat → Check} (hcheck : ∀ n, (check n).isTupled = false) :
    Gives config (addCount draft node keyword check) (Divided block) := by
  unfold addCount
  refine gives_after fun found => ?_
  cases found with
  | none => exact keeps_pure h
  | some n => exact keeps_pure (h.addCheck (hcheck n))

theorem divided_distinct (h : draft.Divided block) (unique : Bool) :
    (if unique then draft.addCheck .uniqueItems else draft).Divided block := by
  split
  · exact h.addCheck rfl
  · exact h

theorem parted_addArrayChecks (h : draft.Divided []) : Gives config (addArrayChecks build scope draft node) Parted := by
  unfold addArrayChecks
  refine (divided_addCount h fun _ => rfl).bind fun least hleast => ?_
  refine (divided_addCount hleast fun _ => rfl).bind fun most hmost => gives_after fun unique => ?_
  refine (parted_addItems (divided_distinct hmost unique)).bind fun parted ⟨block, hparted⟩ => ?_
  exact (divided_addContains hparted).imp fun _ hresult => ⟨block, hresult⟩

/-! ## All kinds -/

/-- Values of other kinds have no items. -/
theorem divided_addKindChecks {kind : Kind} (hkind : kind ≠ .array) (h : draft.Divided []) :
    Gives config (addKindChecks build scope kind draft node) (Divided []) := by
  obtain ⟨x, heq, hgives⟩ : ∃ x : String → Build (List Check),
      (∀ property, addKindChecks build scope kind property node =
        x property.name >>= fun checks => pure (checks.foldl Property.addCheck property)) ∧
      ∀ name, Gives config (x name) (Check.IsFamily kind) := exists_adds_addKindChecks kind
  have hshape : kind.shape ≠ .array := by
    cases kind <;> first | exact absurd rfl hkind | exact nofun
  rw [heq]
  refine (hgives draft.name).bind fun checks hchecks => keeps_pure ?_
  exact List.foldlRecOn checks _ h fun property hproperty check hcheck =>
    hproperty.addCheck (Check.isTupled_of_shape (hchecks.shape check hcheck) hshape)

/-- The draft of a kind, before its own checks. -/
theorem divided_typed {kind : Kind} {settles : Bool} (h : draft.Divided block) :
    (Property.addCheck { draft with label := some (labelOf kind) } (.type [kind] settles)).Divided block :=
  Divided.addCheck (h.of_validators rfl) rfl

theorem divided_ofKind {kind : Kind} (hkind : kind ≠ .array) :
    Gives config (ofKind build site node kind) (Divided []) := by
  unfold ofKind
  refine divided_presentProperty.bind fun property hproperty => gives_after fun allowed => ?_
  exact divided_addKindChecks hkind (divided_typed hproperty)

theorem parted_ofKind (kind : Kind) : Gives config (ofKind build site node kind) Parted := by
  by_cases hkind : kind = .array
  · subst hkind
    unfold ofKind
    refine divided_presentProperty.bind fun property hproperty => gives_after fun allowed => ?_
    exact parted_addArrayChecks (divided_typed hproperty)
  · exact (divided_ofKind hkind).imp fun _ hdivided => ⟨[], hdivided⟩

end Building

/-! ## Unions -/

namespace Check

variable {c d : Check} {block : List Check}

theorem isTupled_iff_place (c : Check) : c.isTupled = true ↔ 12 ≤ c.place ∧ c.place ≤ 14 := by
  cases c with
  | minimum limit exclusive => cases exclusive <;> simp [isTupled, place]
  | maximum limit exclusive => cases exclusive <;> simp [isTupled, place]
  | _ => simp [isTupled, place]

theorem IsPartition.pairwise_place (h : IsPartition block) : block.Pairwise (·.place ≠ ·.place) := by
  cases h <;> simp [place]

end Check

namespace Property

variable {draft part : Property} {block : List Check} {v : Validator} {c : Check} {kind : Kind}

/-- Presence, the type or a check of a shape, at its own priority. -/
def Forms (v : Validator) : Prop := v = v.check.toValidator ∧
  (v.check.isRequired = true ∨ v.check.isType = true ∨ ∃ kind, v.check.shape? = some kind)

def Formed (property : Property) : Prop := ∀ v ∈ property.validators.toList, Forms v

/-- A member of a union, and what it asks by place. -/
structure Supplies (block : List Check) (part : Property) : Prop where
  divided : part.Divided block
  formed : part.Formed

/-- There are only checks of shapes, none of presence and type. -/
def OfShapes (draft : Property) : Prop := ∀ v ∈ draft.validators.toList, ∃ kind, v.check.shape? = some kind

/-- A union that takes members over, and what it asks by place. -/
structure Collects (block : List Check) (draft : Property) : Prop where
  divided : draft.Divided block
  shaped : draft.OfShapes

theorem Formed.addCheck (h : draft.Formed) (hc : Forms c.toValidator) : (draft.addCheck c).Formed := by
  intro v hv
  rcases Validators.mem_toList_add.1 hv with rfl | hv
  · exact hc
  · exact h v hv

theorem Collects.of_validators {result : Property} (h : draft.Collects block)
    (hvalidators : result.validators = draft.validators) : result.Collects block :=
  ⟨h.divided.of_validators hvalidators, fun v hv => h.shaped v (hvalidators ▸ hv)⟩

theorem collects_of_empty (h : draft.validators = {}) : draft.Collects [] := by
  refine ⟨divided_of_empty h, fun v hv => ?_⟩
  rw [h] at hv
  exact absurd hv List.not_mem_nil

theorem OfShapes.addCheck (h : draft.OfShapes) (hc : c.shape? = some kind) : (draft.addCheck c).OfShapes := by
  intro v hv
  rcases Validators.mem_toList_add.1 hv with rfl | hv
  · exact ⟨kind, hc⟩
  · exact h v hv

/-- A check of a shape is taken over if no other one has its place. -/
theorem takeCheck_new (h : draft.OfShapes) (hc : c.shape? = some kind)
    (hnew : ∀ v ∈ draft.validators.toList, v.check.place ≠ c.place) :
    takeCheck draft c.toValidator = draft.addCheck c := by
  have hany : draft.validators.toList.any (sameDemand · c.toValidator) = false := by
    refine List.any_eq_false.2 fun v hv hsame => ?_
    simp only [sameDemand, Bool.and_eq_true, beq_iff_eq] at hsame
    obtain ⟨other, hother⟩ := h v hv
    exact hnew v hv (Check.place_eq_of_fingerprint_eq hother hc hsame.1.2)
  have hrequired : c.toValidator.check.isRequired = false := Check.isRequired_of_shape hc
  have htype : c.toValidator.check.isType = false := Check.isType_of_shape hc
  unfold takeCheck
  rw [hany, hrequired, htype]
  rfl

theorem foldl_takeCheck_new : ∀ {checks : List Check} {draft : Property}, draft.OfShapes →
    (∀ c ∈ checks, ∃ kind, c.shape? = some kind) → checks.Pairwise (·.place ≠ ·.place) →
    (∀ c ∈ checks, ∀ v ∈ draft.validators.toList, v.check.place ≠ c.place) →
    (checks.map Check.toValidator).foldl takeCheck draft = checks.foldl Property.addCheck draft
  | [], _, _, _, _, _ => rfl
  | c :: rest, draft, hshaped, hchecks, hpairwise, hnew => by
    obtain ⟨kind, hc⟩ := hchecks c List.mem_cons_self
    obtain ⟨hapart, hpairwise⟩ := List.pairwise_cons.1 hpairwise
    rw [List.map_cons, List.foldl_cons, takeCheck_new hshaped hc (hnew c List.mem_cons_self)]
    refine foldl_takeCheck_new (hshaped.addCheck hc) (fun d hd => hchecks d (List.mem_cons_of_mem _ hd)) hpairwise
      fun d hd v hv => ?_
    rcases Validators.mem_toList_add.1 hv with rfl | hv
    · exact hapart d hd
    · exact hnew d (List.mem_cons_of_mem _ hd) v hv

theorem Collects.takeCheck (h : draft.Collects block) (hforms : Forms v) (hv : v.check.isTupled = false) :
    (takeCheck draft v).Collects block := by
  unfold Building.takeCheck
  split
  · exact h
  · rename_i hkept
    simp only [Bool.or_eq_true, not_or, Bool.not_eq_true] at hkept
    obtain ⟨hdefault, hcases⟩ := hforms
    obtain ⟨kind, hshape⟩ : ∃ kind, v.check.shape? = some kind := by
      rcases hcases with hrequired | htype | hshape
      · exact nomatch hrequired.symm.trans hkept.1.1
      · exact nomatch htype.symm.trans hkept.1.2
      · exact hshape
    rw [hdefault]
    exact ⟨h.divided.addCheck hv, h.shaped.addCheck hshape⟩

theorem Collects.takeChecks {vs : List Validator} (h : draft.Collects block)
    (hvs : ∀ v ∈ vs, Forms v ∧ v.check.isTupled = false) : (vs.foldl Building.takeCheck draft).Collects block :=
  List.foldlRecOn vs _ h fun _ hdraft v hv => hdraft.takeCheck (hvs v hv).1 (hvs v hv).2

/-- A row of checks by place is taken over as it is, where there is none yet. -/
theorem Collects.takeBlock (h : draft.Collects []) (hblock : Check.IsPartition block) :
    ((block.map Check.toValidator).foldl Building.takeCheck draft).Collects block := by
  have hshaped : ∀ c ∈ block, ∃ kind, c.shape? = some kind := fun c hc =>
    ⟨.array, Check.shape_of_isTupled (hblock.isTupled c hc)⟩
  rw [foldl_takeCheck_new h.shaped hshaped hblock.pairwise_place fun c hc v hv hplace => ?_]
  · refine ⟨h.divided.addBlock hblock, ?_⟩
    exact List.foldlRecOn block _ h.shaped fun _ hdraft c hc =>
      hdraft.addCheck (Check.shape_of_isTupled (hblock.isTupled c hc))
  · -- What the union has so far is not asked by place.
    have htupled : v.check.isTupled = true := by
      rw [Check.isTupled_iff_place, hplace, ← Check.isTupled_iff_place]
      exact hblock.isTupled c hc
    exact absurd ((Validators.Splits.mem_iff h.divided htupled).1 ⟨v, hv, rfl⟩) List.not_mem_nil

/-- The one member that asks something by place brings it in. -/
theorem Collects.merge {before : List Check} (h : draft.Collects before) (hpart : part.Supplies block)
    (hone : before = [] ∨ block = []) : (mergeChecks draft part).Collects (before ++ block) := by
  obtain ⟨front, back, hlist, hfront, hback⟩ := hpart.divided.around
  have hforms : ∀ v ∈ front ++ block.map Check.toValidator ++ back, Forms v := hlist ▸ hpart.formed
  have hfirst : (front.foldl Building.takeCheck draft).Collects before := h.takeChecks fun v hv =>
    ⟨hforms v (List.mem_append_left _ (List.mem_append_left _ hv)), (hfront v hv).2⟩
  have hmiddle : ((block.map Check.toValidator).foldl Building.takeCheck
      (front.foldl Building.takeCheck draft)).Collects (before ++ block) := by
    rcases hone with rfl | rfl
    · exact hfirst.takeBlock hpart.divided.partition
    · rw [List.append_nil]
      exact hfirst
  rw [mergeChecks_eq, hlist, List.foldl_append, List.foldl_append]
  exact hmiddle.takeChecks fun v hv => ⟨hforms v (List.mem_append_right _ hv), (hback v hv).2⟩

theorem Collects.addMember {before : List Check} (h : draft.Collects before) (hpart : part.Supplies block)
    (hone : before = [] ∨ block = []) : (addMember draft part).Collects (before ++ block) := by
  unfold Building.addMember
  refine Collects.merge ?_ hpart hone
  simp only
  split
  · exact h.of_validators rfl
  · exact h.of_validators rfl

end Property

namespace Building

open Build Property

variable {config : Config} {build : Builder} {site : Site} {scope : Scope} {draft part : Property} {node : Json}
  {name : String} {required : Bool} {type : TypeId} {kind : Kind} {c : Check}

/-! ### Members -/

theorem collects_newProperty : Gives config (newProperty name required) (Collects []) := by
  unfold newProperty
  split
  · exact keeps_pure (collects_of_empty rfl)
  · exact keeps_refuse

theorem formed_newProperty : Gives config (newProperty name required) Formed := by
  unfold newProperty
  split
  · exact keeps_pure fun _ hv => absurd hv List.not_mem_nil
  · exact keeps_refuse

theorem formed_present (h : draft.Formed) : (if required then draft.addCheck .required else draft).Formed := by
  split
  · exact h.addCheck ⟨rfl, Or.inl rfl⟩
  · exact h

theorem formed_instanceProperty : Gives config (instanceProperty name type required) Formed := by
  unfold instanceProperty
  refine gives_after fun graph => formed_newProperty.bind fun fresh hfresh => gives_after fun allowed => keeps_pure ?_
  refine ((formed_present ?_).addCheck ⟨rfl, Or.inr (Or.inl rfl)⟩).addCheck ⟨rfl, Or.inr (Or.inr ⟨.object, rfl⟩)⟩
  unfold Property.addDecorator
  split
  · exact hfresh
  · exact hfresh

theorem formed_ofKind (kind : Kind) : Gives config (ofKind build site node kind) Formed := by
  obtain ⟨x, heq, hgives⟩ : ∃ x : String → Build (List Check),
      (∀ property, addKindChecks build site.scope kind property node =
        x property.name >>= fun checks => pure (checks.foldl Property.addCheck property)) ∧
      ∀ name, Gives config (x name) (Check.IsFamily kind) := exists_adds_addKindChecks kind
  have hpresent : Gives config (presentProperty site) Formed := by
    unfold presentProperty
    exact formed_newProperty.bind fun property hproperty => keeps_pure (formed_present hproperty)
  unfold ofKind
  refine hpresent.bind fun property hproperty => gives_after fun allowed => ?_
  simp only
  rw [heq]
  refine (hgives _).bind fun checks hchecks => keeps_pure ?_
  have htyped : (Property.addCheck { property with label := some (labelOf kind) }
      (.type [kind] (allowed && kind != .null))).Formed := by
    refine Formed.addCheck ?_ ⟨rfl, Or.inr (Or.inl rfl)⟩
    exact hproperty
  exact List.foldlRecOn checks _ htyped fun _ hdraft check hcheck =>
    hdraft.addCheck ⟨rfl, Or.inr (Or.inr ⟨_, hchecks.shape check hcheck⟩)⟩

theorem supplies_instanceProperty : Gives config (instanceProperty name type required) (Supplies []) :=
  Keeps.imp (keeps_and divided_instanceProperty formed_instanceProperty) fun _ h => ⟨h.1, h.2⟩

theorem supplies_materialize : Gives config (materialize build site node type) (Supplies []) := by
  unfold materialize
  exact gives_after fun _ => gives_after fun _ => gives_after fun _ => supplies_instanceProperty

theorem supplies_member (hkind : kind ≠ .array) : Gives config (member build site node kind) (Supplies []) := by
  unfold member
  split
  · exact gives_after fun type => supplies_materialize
  · exact Keeps.imp (keeps_and (divided_ofKind hkind) (formed_ofKind kind)) fun _ h => ⟨h.1, h.2⟩

theorem supplies_member_array : Gives config (member build site node .array) fun part => ∃ block, part.Supplies block :=
  Keeps.imp (keeps_and (parted_ofKind .array) (formed_ofKind .array)) fun _ ⟨⟨block, hdivided⟩, hformed⟩ =>
    ⟨block, hdivided, hformed⟩

theorem gives_unionKinds {types : List Json} : Gives config (unionKinds name types) fun kinds => kinds.Nodup ∧
    ∀ kind, kind ∈ kinds ↔ ∃ word, .string word ∈ types ∧ Kind.ofKeyword? word = some kind :=
  fun _ _ => ⟨fun _ _ hrun => ⟨trivial, (runs_unionKinds hrun).2⟩, fun _ _ _ => trivial⟩

/-- The members of a union are added one after the other. -/
abbrev addMembers (build : Builder) (site : Site) (node : Json) (kinds : List Kind) (draft : Property) : Build Property :=
  kinds.foldlM (fun property kind => return addMember property (← member build site node kind)) draft

theorem addMembers_around {front back : List Kind} :
    addMembers build site node (front ++ kind :: back) draft = (do
      let first ← addMembers build site node front draft
      addMembers build site node back (addMember first (← member build site node kind))) := by
  unfold addMembers
  rw [List.foldlM_append]
  simp only [List.foldlM_cons, bind_assoc, pure_bind]

/-- **Members of a union** that are not arrays leave what it asks by place. -/
theorem collects_members : ∀ {kinds : List Kind} {draft : Property} {block : List Check}, .array ∉ kinds →
    draft.Collects block → Gives config (addMembers build site node kinds draft) (Collects block)
  | [], draft, block, _, h => by
    unfold addMembers
    rw [List.foldlM_nil]
    exact keeps_pure h
  | kind :: rest, draft, block, hkinds, h => by
    obtain ⟨hkind, hrest⟩ := not_or.1 (mt List.mem_cons.2 hkinds)
    unfold addMembers
    rw [List.foldlM_cons, bind_assoc]
    refine (supplies_member (Ne.symm hkind)).bind fun part hpart => ?_
    have htaken := h.addMember hpart (Or.inr rfl)
    rw [List.append_nil] at htaken
    rw [pure_bind]
    exact collects_members hrest htaken

/-- The one array among the members brings in what it asks by place. -/
theorem parted_members {kinds : List Kind} (hnodup : kinds.Nodup) (h : draft.Collects []) :
    Gives config (addMembers build site node kinds draft) fun result => ∃ block, result.Collects block := by
  by_cases harray : .array ∈ kinds
  · obtain ⟨front, back, rfl⟩ := List.append_of_mem harray
    have hrest : .array ∉ front ++ back := (List.nodup_cons.1 (List.nodup_middle.1 hnodup)).1
    rw [addMembers_around]
    refine (collects_members (fun hmem => hrest (List.mem_append_left _ hmem)) h).bind fun first hfirst => ?_
    refine supplies_member_array.bind fun part ⟨block, hpart⟩ => ?_
    exact (collects_members (fun hmem => hrest (List.mem_append_right _ hmem))
      (hfirst.addMember hpart (Or.inl rfl))).imp fun _ hresult => ⟨block, hresult⟩
  · exact (collects_members harray h).imp fun _ hresult => ⟨[], hresult⟩

end Building
end SchemaTypes

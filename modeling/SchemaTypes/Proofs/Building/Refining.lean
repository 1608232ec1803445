import SchemaTypes.Proofs.Building.Deeds
import SchemaTypes.Proofs.Building.Detached
/-!
# Keywords refine drafts

What reads keywords leaves the session alone, and what it makes of a draft refines it (`Property.Refines`): the label
it has and the type it holds stay, and the filters it gets are those of the configuration.
-/
namespace SchemaTypes

namespace Build

/-- Success leaves the session alone and answers as the postcondition says. -/
def Tells (config : Config) {α : Type} (x : Build α) (q : α → Prop) : Prop :=
  ∀ ⦃s a s'⦄, x.Runs config s a s' → s' = s ∧ q a

variable {α β : Type} {config : Config} {x : Build α} {f : α → Build β} {q : α → Prop} {r : β → Prop}

theorem tells_pure {a : α} (h : q a) : Tells config (pure a) q := by
  intro s b s' hrun
  obtain ⟨rfl, rfl⟩ := runs_pure.1 hrun
  exact ⟨rfl, h⟩

theorem tells_refuse {fault : SchemaFault} : Tells config (refuse fault) q :=
  fun _ _ _ hrun => absurd hrun not_runs_refuse

theorem tells_malformed {property reason : String} : Tells config (malformed property reason) q := tells_refuse

theorem Detached.tells (h : Detached x) : Tells config x fun _ => True := fun _ _ _ hrun => ⟨h.eq_of_runs hrun, trivial⟩

theorem Tells.bind (hx : Tells config x q) (hf : ∀ a, q a → Tells config (f a) r) : Tells config (x >>= f) r := by
  intro s b s' hrun
  obtain ⟨a, m, hxrun, hfrun⟩ := runs_bind.1 hrun
  obtain ⟨rfl, ha⟩ := hx hxrun
  exact hf a ha hfrun

/-- A first part whose result does not matter. -/
theorem Detached.andTells (hx : Detached x) (hf : ∀ a, Tells config (f a) r) : Tells config (x >>= f) r :=
  hx.tells.bind fun a _ => hf a

theorem Tells.imp {q' : α → Prop} (h : Tells config x q) (hqq' : ∀ a, q a → q' a) : Tells config x q' := by
  intro s a s' hrun
  obtain ⟨rfl, ha⟩ := h hrun
  exact ⟨rfl, hqq' a ha⟩

theorem tells_read : Tells config (read : Build Config) (· = config) :=
  fun _ _ _ hrun => ⟨(runs_read.1 hrun).2, (runs_read.1 hrun).1⟩

theorem tells_foldlM {f : β → α → Build β} (h : ∀ b a, r b → Tells config (f b a) r) : ∀ {l : List α} {b : β}, r b →
    Tells config (l.foldlM f b) r
  | [], b, hb => by
    rw [List.foldlM_nil]
    exact tells_pure hb
  | a :: l, b, hb => by
    rw [List.foldlM_cons]
    exact (h b a hb).bind fun _ hb' => tells_foldlM h hb'

theorem tells_newProperty {name : String} {required : Bool} : Tells config (newProperty name required) fun property =>
    property.nested = none ∧ property.label = none ∧ property.validators.toList = [] ∧ property.isLifted = false := by
  unfold newProperty
  split
  · exact tells_pure ⟨rfl, rfl, rfl, rfl⟩
  · exact tells_refuse

theorem tells_presentProperty {site : Site} : Tells config (presentProperty site) (Property.Flat config) := by
  unfold presentProperty
  refine tells_newProperty.bind fun property hproperty => tells_pure ?_
  obtain ⟨hnested, _, hempty, hown⟩ := hproperty
  split
  · exact ⟨hnested, (Property.Admitted.of_empty hempty).addCheck trivial, hown⟩
  · exact ⟨hnested, .of_empty hempty, hown⟩

end Build

namespace Building

open Build

variable {config : Config} {draft : Property} {node : Json} {name keyword : String} {required : Bool} {check : Check}

theorem refines_addCheck (h : config.Admits check) : draft.Refines config (draft.addCheck check) :=
  ⟨fun _ hlabel => hlabel, rfl, fun hadmitted => hadmitted.addCheck h, rfl⟩

/-- One more check behind others. -/
theorem refines_addCheck_of {result : Property} (hrefines : draft.Refines config result) (h : config.Admits check) :
    draft.Refines config (result.addCheck check) := hrefines.trans (refines_addCheck h)

theorem refines_addDecorator {decorator : Decorator} (h : decorator.isTransferred = false) :
    draft.Refines config (draft.addDecorator decorator) := by
  unfold Property.addDecorator
  split
  · exact .refl config draft
  · refine ⟨fun _ hlabel => hlabel, rfl, fun hadmitted => hadmitted, ?_⟩
    simp [Property.isLifted, h]

/-! ## Keywords every property has -/

theorem refines_describe : draft.Refines config (describe draft node) := by
  unfold describe
  split
  · exact ⟨fun _ hlabel => hlabel, rfl, fun hadmitted => hadmitted, rfl⟩
  · exact .refl config draft

theorem refines_constant : draft.Refines config (constant draft node) := by
  unfold constant
  split
  · exact refines_addCheck trivial
  · exact .refl config draft

theorem tells_enumerate : Tells config (enumerate draft node required) (draft.Refines config) := by
  unfold enumerate
  refine Keyword.detached_enumeration?.andTells fun found => ?_
  cases found with
  | none => exact tells_pure (.refl config draft)
  | some values =>
    refine detached_allowsNull.andTells fun allowed => ?_
    simp only
    split
    · refine detached_read.andTells fun _ => tells_pure ⟨fun _ hlabel => hlabel, rfl, fun hadmitted => ?_, rfl⟩
      exact Property.Admitted.stampRequired (by exact hadmitted.addCheck trivial) _ _
    · exact tells_pure (refines_addCheck trivial)

/-- The filter that is looked up is one of the configuration. -/
theorem tells_applyFilter {entry : Json} : Tells config (applyFilter draft entry) (draft.Refines config) := by
  unfold applyFilter
  refine detached_filterEntry.andTells fun found => tells_read.bind fun known hknown => ?_
  subst hknown
  split
  · exact tells_refuse
  · rename_i filter hfilter
    split
    · refine tells_pure (refines_addCheck ⟨filter, ?_, rfl, rfl⟩)
      exact List.mem_of_find?_eq_some hfilter
    · exact tells_refuse

theorem tells_applyFilters : Tells config (applyFilters draft node) (draft.Refines config) := by
  unfold applyFilters
  split
  · exact tells_pure (.refl config draft)
  · exact tells_foldlM (fun result entry hresult => tells_applyFilter.imp fun _ h => hresult.trans h)
      (.refl config draft)
  · exact tells_applyFilter

theorem tells_applyDefault : Tells config (applyDefault draft node) (draft.Refines config) := by
  unfold applyDefault
  split
  · exact tells_pure (.refl config draft)
  · split
    · exact tells_pure ⟨fun _ hlabel => hlabel, rfl, fun hadmitted => hadmitted, rfl⟩
    · exact tells_refuse

theorem tells_applyValueKeywords :
    Tells config (applyValueKeywords draft node required) (draft.Refines config) := by
  unfold applyValueKeywords
  refine tells_enumerate.bind fun valued hvalued => ?_
  refine tells_applyFilters.bind fun filtered hfiltered => ?_
  refine tells_applyDefault.imp fun result hresult => ?_
  exact ((refines_describe.trans hvalued).trans (refines_constant.trans hfiltered)).trans hresult

/-! ## Strings and numbers -/

theorem tells_addPattern : Tells config (addPattern draft node) (draft.Refines config) := by
  unfold addPattern
  split
  · exact tells_pure (.refl config draft)
  · exact Keyword.detached_pattern.andTells fun _ => tells_pure (refines_addCheck trivial)
  · exact tells_malformed

theorem tells_addCount {check : Nat → Check} (hcheck : ∀ n, config.Admits (check n)) :
    Tells config (addCount draft node keyword check) (draft.Refines config) := by
  unfold addCount
  refine Keyword.detached_count?.andTells fun found => ?_
  cases found with
  | none => exact tells_pure (.refl config draft)
  | some n => exact tells_pure (refines_addCheck (hcheck n))

theorem tells_addStringChecks : Tells config (addStringChecks draft node) (draft.Refines config) := by
  unfold addStringChecks
  refine detached_refuseFormat.andTells fun _ => tells_addPattern.bind fun patterned hpatterned => ?_
  refine (tells_addCount fun _ => by trivial).bind fun bounded hbounded => ?_
  refine (tells_addCount fun _ => by trivial).imp fun result hresult => ?_
  exact (hpatterned.trans hbounded).trans hresult

theorem tells_addBound {exclusiveKeyword : String} {check : Number → Bool → Check}
    (hcheck : ∀ limit exclusive, config.Admits (check limit exclusive)) :
    Tells config (addBound draft node keyword exclusiveKeyword check) (draft.Refines config) := by
  unfold addBound
  refine Keyword.detached_number?.andTells fun found => ?_
  cases found with
  | none =>
    simp only
    split
    · exact tells_pure (.refl config draft)
    · exact tells_pure (.refl config draft)
    · exact tells_pure (refines_addCheck (hcheck _ true))
    · exact tells_malformed
  | some limit =>
    simp only
    split
    · exact tells_pure (refines_addCheck (hcheck limit false))
    · exact tells_pure (refines_addCheck (hcheck limit _))
    · exact tells_pure ((refines_addCheck (hcheck _ true)).trans (refines_addCheck (hcheck limit false)))
    · exact tells_malformed

theorem tells_addNumberChecks : Tells config (addNumberChecks draft node) (draft.Refines config) := by
  unfold addNumberChecks
  refine (tells_addBound fun _ _ => by trivial).bind fun bounded hbounded => ?_
  refine (tells_addBound fun _ _ => by trivial).bind fun within hwithin => ?_
  refine Keyword.detached_number?.andTells fun found => ?_
  cases found with
  | none => exact tells_pure (hbounded.trans hwithin)
  | some divisor => exact tells_pure (refines_addCheck_of (hbounded.trans hwithin) trivial)

/-! ## Labels -/

/-- A label that is not there yet may be taken over from branches. -/
theorem refines_inferLabel (hlabel : draft.label = none) (labels : List (Option TypeLabel)) :
    draft.Refines config (inferLabel draft labels) := by
  have hnot : ∀ label, draft.label ≠ some label := fun label h => nomatch hlabel.symm.trans h
  unfold inferLabel
  split
  · split
    · refine (refines_addDecorator rfl).trans ⟨fun label h => ?_, rfl, fun hadmitted => hadmitted, rfl⟩
      unfold Property.addDecorator at h
      split at h
      · exact absurd h (hnot label)
      · exact absurd h (hnot label)
    · exact .refl config draft
  · exact .refl config draft

theorem flat_inferEnumeration (h : draft.Flat config) (values : List Json) :
    (inferEnumeration draft values).Flat config := by
  unfold inferEnumeration
  simp only
  split
  · exact ⟨h.nested, h.admitted, h.own⟩
  · exact h.refines (refines_addDecorator rfl)

/-! ## Copies -/

theorem passesTo_copied (definition : Property) (name identifier : String) (required allowed : Bool) :
    definition.PassesTo config (copied definition name identifier required allowed) := by
  unfold copied
  exact ⟨rfl, rfl, fun h => Property.Admitted.stampRequired (by exact h) required allowed⟩

/-- A placeholder that is filled in takes over from its definition. -/
theorem passesTo_bound (placeholder definition : Property) (allowed : Bool) :
    definition.PassesTo config (bound placeholder definition allowed) := by
  unfold bound
  exact ⟨rfl, rfl, fun h => Property.Admitted.stampRequired (by exact h) placeholder.required allowed⟩

/-- A lifted property goes by the label of the branch's, and nothing is checked about it. -/
theorem passesTo_lifted (source : Property) (combinator : Combinator) :
    source.PassesTo config (lifted source combinator) := by
  unfold lifted Property.addDecorator
  split
  · exact ⟨rfl, rfl, fun _ => .of_empty rfl⟩
  · exact ⟨rfl, rfl, fun _ => .of_empty rfl⟩

/-- The instance of a type is labelled with the class that the type is generated as. -/
theorem runs_instanceProperty {type : TypeId} {property : Property} {s s' : Session}
    (h : (instanceProperty name type required).Runs config s property s') : s' = s ∧
      property.Admitted config ∧ property.nested = some type ∧
      property.label = some (.single (s.graph.className type)) ∧ property.isLifted = false := by
  unfold instanceProperty at h
  rw [runs_graph_bind] at h
  obtain ⟨fresh, m, hnew, hrest⟩ := runs_bind.1 h
  obtain ⟨rfl, _, _, hempty, hown⟩ := tells_newProperty hnew
  rw [runs_bind_of_iff fun _ _ => runs_allowsNull] at hrest
  generalize hbase : ({ fresh with label := some (.single (m.graph.className type)), nested := some type } :
    Property) = base at hrest
  simp only at hrest
  obtain ⟨rfl, rfl⟩ := runs_pure.1 hrest
  have hdecorated : base.Refines config (base.addDecorator (.instantiates type)) := refines_addDecorator rfl
  have hpresent : base.Refines config (if required then (base.addDecorator (.instantiates type)).addCheck .required
      else base.addDecorator (.instantiates type)) := by
    split
    · exact refines_addCheck_of hdecorated trivial
    · exact hdecorated
  have htype : config.Admits (.type [.object] (config.settings.implicitNull && !required)) := trivial
  have hinstance : config.Admits (.instanceOf type) := trivial
  have hall := refines_addCheck_of (refines_addCheck_of hpresent htype) hinstance
  subst hbase
  exact ⟨rfl, hall.admitted (.of_empty hempty), hall.nested, hall.label _ rfl, hall.lifted.trans hown⟩

end Building
end SchemaTypes

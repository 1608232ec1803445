import SchemaTypes.Building.Nodes
import SchemaTypes.Proofs.Building.Runs
/-!
# What does not look at the session

Keywords are read, and drafts of properties made from them, without a look at the session: such a computation has one
outcome in all sessions, and leaves them alone (`Build.Detached`).  So it keeps whatever holds of a session, and two
runs of it agree.  If it has no result, a fault is why, and never the recursion bound.
-/
namespace SchemaTypes

namespace Build

/-- The configuration alone decides the outcome, and the session stays as it is. -/
def Detached {α : Type} (x : Build α) : Prop :=
  ∀ config : Config, ∃ outcome : Except Halt α,
    outcome ≠ .error .exhausted ∧ ∀ s : Session, ((x.run config).run).run s = (outcome, s)

variable {α β : Type} {config : Config} {s s' : Session} {x : Build α} {f : α → Build β}

theorem detached_pure {a : α} : Detached (pure a : Build α) := fun _ => ⟨.ok a, nofun, fun _ => rfl⟩

theorem detached_refuse {fault : SchemaFault} : Detached (refuse fault : Build α) :=
  fun _ => ⟨.error (.refused fault), nofun, fun _ => rfl⟩

theorem detached_malformed {property reason : String} : Detached (malformed property reason : Build α) :=
  detached_refuse

theorem detached_read : Detached (read : Build Config) := fun config => ⟨.ok config, nofun, fun _ => rfl⟩

theorem Detached.bind (hx : Detached x) (hf : ∀ a, Detached (f a)) : Detached (x >>= f) := by
  intro config
  obtain ⟨outcome, hnot, houtcome⟩ := hx config
  cases outcome with
  | ok a =>
    obtain ⟨result, hresult, hrun⟩ := hf a config
    refine ⟨result, hresult, fun s => ?_⟩
    rw [run_bind, houtcome]
    exact hrun s
  | error halt =>
    refine ⟨.error halt, fun heq => ?_, fun s => ?_⟩
    · cases heq
      exact hnot rfl
    · rw [run_bind, houtcome]

theorem detached_mapM {f : β → Build α} : ∀ {l : List β}, (∀ b ∈ l, Detached (f b)) → Detached (l.mapM f)
  | [], _ => by
    rw [List.mapM_nil]
    exact detached_pure
  | b :: l, h => by
    rw [List.mapM_cons]
    exact (h b List.mem_cons_self).bind fun _ =>
      (detached_mapM fun x hx => h x (List.mem_cons_of_mem _ hx)).bind fun _ => detached_pure

theorem detached_foldlM {f : α → β → Build α} (h : ∀ a b, Detached (f a b)) : ∀ {l : List β} {a : α},
    Detached (l.foldlM f a)
  | [], _ => by
    rw [List.foldlM_nil]
    exact detached_pure
  | b :: l, a => by
    rw [List.foldlM_cons]
    exact (h a b).bind fun _ => detached_foldlM h

theorem Detached.eq_of_runs (h : Detached x) {a : α} (hrun : x.Runs config s a s') : s' = s := by
  obtain ⟨outcome, _, houtcome⟩ := h config
  unfold Runs at hrun
  rw [houtcome] at hrun
  exact (congrArg Prod.snd hrun).symm

theorem Detached.eq_of_halts (h : Detached x) {halt : Halt} (hhalts : x.Halts config s halt s') : s' = s := by
  obtain ⟨outcome, _, houtcome⟩ := h config
  unfold Halts at hhalts
  rw [houtcome] at hhalts
  exact (congrArg Prod.snd hhalts).symm

theorem Detached.not_exhausted (h : Detached x) : ¬ x.Halts config s .exhausted s' := by
  obtain ⟨outcome, hnot, houtcome⟩ := h config
  unfold Halts
  rw [houtcome]
  exact fun heq => hnot (congrArg Prod.fst heq)

/-- Runs from any two sessions have the same result. -/
theorem Detached.unique (h : Detached x) {t t' : Session} {a b : α} (hrun : x.Runs config s a s')
    (hrun' : x.Runs config t b t') : a = b := by
  obtain ⟨outcome, _, houtcome⟩ := h config
  unfold Runs at hrun hrun'
  rw [houtcome] at hrun hrun'
  cases hrun
  cases hrun'
  rfl

theorem detached_allowsNull {required : Bool} : Detached (allowsNull required) := by
  unfold allowsNull
  exact detached_read.bind fun _ => detached_pure

theorem detached_newProperty {name : String} {required : Bool} : Detached (newProperty name required) := by
  unfold newProperty
  split
  · exact detached_pure
  · exact detached_refuse

theorem detached_presentProperty {site : Site} : Detached (presentProperty site) := by
  unfold presentProperty
  exact detached_newProperty.bind fun _ => detached_pure

end Build

open Build

namespace Keyword

variable {name keyword : String} {node : Json}

theorem detached_count? : Detached (count? name node keyword) := by
  unfold count?
  split
  · exact detached_pure
  · split
    · exact detached_pure
    · exact detached_malformed

theorem detached_number? : Detached (number? name node keyword) := by
  unfold number?
  split
  · exact detached_pure
  · exact detached_pure
  · exact detached_malformed

theorem detached_flag : Detached (flag name node keyword) := by
  unfold flag
  split
  · exact detached_pure
  · exact detached_pure
  · exact detached_malformed

theorem detached_members? : Detached (members? name node keyword) := by
  unfold members?
  split
  · exact detached_pure
  · exact detached_pure
  · exact detached_malformed

theorem detached_strings {reason : String} {values : List Json} : Detached (strings name reason values) := by
  unfold strings
  refine detached_mapM fun value _ => ?_
  split
  · exact detached_pure
  · exact detached_malformed

theorem detached_requiredNames : Detached (requiredNames name node) := by
  unfold requiredNames
  split
  · exact detached_pure
  · exact detached_strings
  · exact detached_malformed

theorem detached_pattern {source : String} : Detached (pattern name source) := by
  unfold pattern
  split
  · exact detached_pure
  · exact detached_refuse

theorem detached_enumeration? : Detached (enumeration? name node) := by
  unfold enumeration?
  split
  · exact detached_pure
  · exact detached_refuse
  · exact detached_pure
  · exact detached_malformed

theorem detached_branches? {combinator : Combinator} : Detached (branches? name node combinator) := by
  unfold branches?
  split
  · exact detached_pure
  · exact detached_pure
  · exact detached_pure
  · exact detached_malformed

theorem detached_normalize : Detached (normalize name node) := by
  unfold normalize
  split
  · exact detached_pure
  · exact detached_pure
  · exact detached_malformed

end Keyword

namespace Building

variable {name keyword : String} {node : Json} {property : Property} {required : Bool}

/-! ## Keywords every property has -/

theorem detached_enumerate : Detached (enumerate property node required) := by
  unfold enumerate
  refine Keyword.detached_enumeration?.bind fun found => ?_
  split
  · exact detached_pure
  · refine detached_allowsNull.bind fun allowed => ?_
    split
    · exact detached_read.bind fun _ => detached_pure
    · exact detached_pure

theorem detached_filterEntry {entry : Json} : Detached (filterEntry property entry) := by
  unfold filterEntry
  split
  · exact detached_pure
  · split
    · exact detached_pure
    · exact detached_malformed
  · exact detached_malformed

theorem detached_applyFilter {entry : Json} : Detached (applyFilter property entry) := by
  unfold applyFilter
  refine detached_filterEntry.bind fun found => detached_read.bind fun config => ?_
  split
  · exact detached_refuse
  · split
    · exact detached_pure
    · exact detached_refuse

theorem detached_applyFilters : Detached (applyFilters property node) := by
  unfold applyFilters
  split
  · exact detached_pure
  · exact detached_foldlM fun _ _ => detached_applyFilter
  · exact detached_applyFilter

theorem detached_applyDefault : Detached (applyDefault property node) := by
  unfold applyDefault
  split
  · exact detached_pure
  · split
    · exact detached_pure
    · exact detached_refuse

theorem detached_applyValueKeywords : Detached (applyValueKeywords property node required) := by
  unfold applyValueKeywords
  exact detached_enumerate.bind fun _ => detached_applyFilters.bind fun _ => detached_applyDefault

/-! ## Strings and numbers -/

theorem detached_refuseFormat : Detached (refuseFormat property node) := by
  unfold refuseFormat
  split
  · exact detached_pure
  · exact detached_refuse
  · exact detached_refuse

theorem detached_addPattern : Detached (addPattern property node) := by
  unfold addPattern
  split
  · exact detached_pure
  · exact Keyword.detached_pattern.bind fun _ => detached_pure
  · exact detached_malformed

theorem detached_addCount {check : Nat → Check} : Detached (addCount property node keyword check) := by
  unfold addCount
  refine Keyword.detached_count?.bind fun found => ?_
  split
  · exact detached_pure
  · exact detached_pure

theorem detached_addStringChecks : Detached (addStringChecks property node) := by
  unfold addStringChecks
  exact detached_refuseFormat.bind fun _ => detached_addPattern.bind fun _ =>
    detached_addCount.bind fun _ => detached_addCount

theorem detached_addBound {exclusiveKeyword : String} {check : Number → Bool → Check} :
    Detached (addBound property node keyword exclusiveKeyword check) := by
  unfold addBound
  refine Keyword.detached_number?.bind fun limit => ?_
  simp only
  split
  · exact detached_pure
  · exact detached_pure
  · exact detached_pure
  · exact detached_malformed

theorem detached_addNumberChecks : Detached (addNumberChecks property node) := by
  unfold addNumberChecks
  refine detached_addBound.bind fun _ => detached_addBound.bind fun _ => Keyword.detached_number?.bind fun found => ?_
  split
  · exact detached_pure
  · exact detached_pure

/-! ## Unions -/

theorem detached_unionKinds {types : List Json} : Detached (unionKinds name types) := by
  unfold unionKinds
  refine (detached_foldlM fun kinds type => ?_).bind fun kinds => ?_
  · split
    · split
      · exact detached_pure
      · exact detached_refuse
    · exact detached_malformed
  · split
    · exact detached_malformed
    · exact detached_pure

end Building
end SchemaTypes

import SchemaTypes.Building.Nodes
import SchemaTypes.Proofs.Building.TandemRuns
/-!
# Keywords in tandem

Keywords read the node, and of a draft no more than its traits, so they succeed on both sides or on neither, and take
corresponding drafts to corresponding ones.  What a fault calls the property may differ.
-/
namespace SchemaTypes
namespace Building
namespace Tandem

open Build

variable {t : Tandem} {C : Prop} {name name' keyword : String} {node : Json} {required : Bool} {a b : Property}

/-! ## Reading -/

theorem goes_count? : t.Goes C (Keyword.count? name node keyword) (Keyword.count? name' node keyword)
    fun _ => Eq := by
  unfold Keyword.count?
  split
  · exact goes_pure rfl
  · split
    · exact goes_pure rfl
    · exact goes_malformed

theorem goes_number? : t.Goes C (Keyword.number? name node keyword) (Keyword.number? name' node keyword)
    fun _ => Eq := by
  unfold Keyword.number?
  split
  · exact goes_pure rfl
  · exact goes_pure rfl
  · exact goes_malformed

theorem goes_flag : t.Goes C (Keyword.flag name node keyword) (Keyword.flag name' node keyword) fun _ => Eq := by
  unfold Keyword.flag
  split
  · exact goes_pure rfl
  · exact goes_pure rfl
  · exact goes_malformed

theorem goes_members? : t.Goes C (Keyword.members? name node keyword) (Keyword.members? name' node keyword)
    fun _ => Eq := by
  unfold Keyword.members?
  split
  · exact goes_pure rfl
  · exact goes_pure rfl
  · exact goes_malformed

theorem goes_strings {reason : String} : ∀ {values : List Json} {C : Prop},
    t.Goes C (Keyword.strings name reason values) (Keyword.strings name' reason values) fun _ => Eq
  | [], _ => goes_pure rfl
  | value :: rest, C => by
    unfold Keyword.strings
    rw [List.mapM_cons, List.mapM_cons]
    refine Goes.read ?_ fun C' text _ => Goes.read goes_strings fun _ texts _ => goes_pure rfl
    split
    · exact goes_pure rfl
    · exact goes_malformed

theorem goes_requiredNames : t.Goes C (Keyword.requiredNames name node) (Keyword.requiredNames name' node)
    fun _ => Eq := by
  unfold Keyword.requiredNames
  split
  · exact goes_pure rfl
  · exact goes_strings
  · exact goes_malformed

theorem goes_pattern {source : String} : t.Goes C (Keyword.pattern name source) (Keyword.pattern name' source)
    fun _ => Eq := by
  unfold Keyword.pattern
  split
  · exact goes_pure rfl
  · exact goes_refuse

theorem goes_enumeration? : t.Goes C (Keyword.enumeration? name node) (Keyword.enumeration? name' node)
    fun _ => Eq := by
  unfold Keyword.enumeration?
  split
  · exact goes_pure rfl
  · exact goes_refuse
  · exact goes_pure rfl
  · exact goes_malformed

theorem goes_branches? {combinator : Combinator} :
    t.Goes C (Keyword.branches? name node combinator) (Keyword.branches? name' node combinator) fun _ => Eq := by
  unfold Keyword.branches?
  split
  · exact goes_pure rfl
  · exact goes_pure rfl
  · exact goes_pure rfl
  · exact goes_malformed

theorem goes_normalize : t.Goes C (Keyword.normalize name node) (Keyword.normalize name' node) fun _ => Eq := by
  unfold Keyword.normalize
  split
  · exact goes_pure rfl
  · exact goes_pure rfl
  · exact goes_malformed

theorem goes_allowsNull : t.Goes C (allowsNull required) (allowsNull required) fun _ => Eq :=
  goes_detached detached_allowsNull

/-! ## New drafts -/

/-- Both names have an identifier, or neither does. -/
def Named (name name' : String) : Prop := Naming.HasIdentifier name ↔ Naming.HasIdentifier name'

theorem named_refl (name : String) : Named name name := Iff.rfl

theorem named_of {name name' : String} (h : Naming.HasIdentifier name) (h' : Naming.HasIdentifier name') :
    Named name name' := iff_of_true h h'

/-- A draft declares no kinds before its type check is added. -/
theorem goes_newProperty (h : Named name name') :
    t.Goes C (newProperty name required) (newProperty name' required)
      fun C' a b => t.Drafts C' a b ∧ a.declaredKinds? = none := by
  unfold Named Naming.HasIdentifier at h
  unfold newProperty
  cases hname : Naming.identifier? name with
  | none =>
    rw [hname] at h
    have hnone : Naming.identifier? name' = none := Option.not_isSome_iff_eq_none.1 fun hsome => nomatch h.2 hsome
    rw [hnone]
    exact goes_refuse
  | some identifier =>
    rw [hname] at h
    obtain ⟨identifier', hname'⟩ := Option.isSome_iff_exists.1 (h.1 rfl)
    rw [hname']
    exact goes_pure ⟨drafts_new _ _ _ _ _, rfl⟩

theorem declaredKinds?_present {property : Property} (h : property.declaredKinds? = none) (required : Bool) :
    (if required then property.addCheck .required else property).declaredKinds? = none := by
  split
  · exact (Property.declaredKinds?_add rfl).trans h
  · exact h

theorem goes_presentProperty {site site' : Site} (hname : Named site.name site'.name)
    (hrequired : site'.required = site.required) :
    t.Goes C (presentProperty site) (presentProperty site')
      fun C' a b => t.Drafts C' a b ∧ a.declaredKinds? = none := by
  unfold presentProperty
  rw [hrequired]
  exact (goes_newProperty hname).bind fun C' a b _ h =>
    goes_pure ⟨h.1.present site.required, declaredKinds?_present h.2 _⟩

/-! ## Keywords every property has -/

theorem drafts_describe (h : t.Drafts C a b) : t.Drafts C (describe a node) (describe b node) := by
  unfold describe
  split
  · exact h.revise rfl rfl fun hkin => ⟨hkin.default, hkin.lifted, hkin.nested, hkin.validators⟩
  · exact h

theorem drafts_constant (h : t.Drafts C a b) : t.Drafts C (constant a node) (constant b node) := by
  unfold constant
  split
  · exact h.addLeaf rfl rfl rfl
  · exact h

theorem goes_enumerate (h : t.Drafts C a b) :
    t.Goes C (enumerate a node required) (enumerate b node required) t.Drafts := by
  unfold enumerate
  refine Goes.read goes_enumeration? fun C' found hC => ?_
  cases found with
  | none => exact goes_pure (h.mono hC)
  | some values =>
    refine Goes.read goes_allowsNull fun C'' allowed hC' => ?_
    have hadded : t.Drafts C'' (a.addCheck (.enumeration values (allowed && !values.any Json.isNull)))
        (b.addCheck (.enumeration values (allowed && !values.any Json.isNull))) :=
      (h.mono fun hc => hC (hC' hc)).addLeaf rfl rfl rfl
    simp only
    split
    · exact Goes.read (goes_detached detached_read) fun _ config hC'' =>
        goes_pure ((hadded.mono hC'').strictly.stampRequired required config.settings.implicitNull)
    · exact goes_pure hadded

theorem goes_filterEntry {entry : Json} : t.Goes C (filterEntry a entry) (filterEntry b entry) fun _ => Eq := by
  unfold filterEntry
  split
  · exact goes_pure rfl
  · split
    · exact goes_pure rfl
    · exact goes_malformed
  · exact goes_malformed

theorem goes_applyFilter {entry : Json} (h : t.Drafts C a b) :
    t.Goes C (applyFilter a entry) (applyFilter b entry) t.Drafts := by
  unfold applyFilter
  refine Goes.read goes_filterEntry fun C' found hC => ?_
  refine Goes.read (goes_detached detached_read) fun C'' config hC' => ?_
  rw [h.declaredKinds?_eq]
  split
  · exact goes_refuse
  · split
    · exact goes_pure ((h.mono fun hc => hC (hC' hc)).addLeaf rfl rfl rfl)
    · exact goes_refuse

theorem goes_applyFilters (h : t.Drafts C a b) :
    t.Goes C (applyFilters a node) (applyFilters b node) t.Drafts := by
  unfold applyFilters
  split
  · exact goes_pure h
  · exact goes_foldlM h fun entry _ C' a b _ h => goes_applyFilter h
  · exact goes_applyFilter h

theorem goes_applyDefault (h : t.Drafts C a b) :
    t.Goes C (applyDefault a node) (applyDefault b node) t.Drafts := by
  have hfits : ∀ value, fitsDefault a value = fitsDefault b value := by
    intro value
    unfold fitsDefault
    rw [h.declaredKinds?_eq, h.isNullable_eq]
  unfold applyDefault
  simp only [hfits]
  split
  · exact goes_pure h
  · split
    · exact goes_pure (h.revise rfl rfl fun hkin => ⟨rfl, hkin.lifted, hkin.nested, hkin.validators⟩)
    · exact goes_refuse

theorem goes_applyValueKeywords (h : t.Drafts C a b) :
    t.Goes C (applyValueKeywords a node required) (applyValueKeywords b node required) t.Drafts := by
  unfold applyValueKeywords
  refine (goes_enumerate (drafts_describe h)).bind fun C' a b _ h => ?_
  exact (goes_applyFilters (drafts_constant h)).bind fun C' a b _ h => goes_applyDefault h

/-! ## Strings and numbers -/

theorem goes_refuseFormat : t.Goes C (refuseFormat a node) (refuseFormat b node) fun _ _ _ => True := by
  unfold refuseFormat
  split
  · exact goes_pure trivial
  · exact goes_refuse
  · exact goes_refuse

theorem goes_addPattern (h : t.Drafts C a b) : t.Goes C (addPattern a node) (addPattern b node) t.Drafts := by
  unfold addPattern
  split
  · exact goes_pure h
  · exact Goes.read goes_pattern fun C' pattern hC => goes_pure ((h.mono hC).addLeaf rfl rfl rfl)
  · exact goes_malformed

theorem goes_addCount (h : t.Drafts C a b) {check : Nat → Check} (htype : ∀ n, (check n).isType = false)
    (hchildren : ∀ n, (check n).children = []) (htypes : ∀ n, (check n).types = []) :
    t.Goes C (addCount a node keyword check) (addCount b node keyword check) t.Drafts := by
  unfold addCount
  refine Goes.read goes_count? fun C' found hC => ?_
  split
  · exact goes_pure ((h.mono hC).addLeaf (htype _) (hchildren _) (htypes _))
  · exact goes_pure (h.mono hC)

theorem goes_addStringChecks (h : t.Drafts C a b) :
    t.Goes C (addStringChecks a node) (addStringChecks b node) t.Drafts := by
  unfold addStringChecks
  refine goes_refuseFormat.andThen fun C' _ _ hC => (goes_addPattern (h.mono hC)).bind fun C'' a b _ h => ?_
  refine (goes_addCount h (fun _ => rfl) (fun _ => rfl) fun _ => rfl).bind fun _ a b _ h => ?_
  exact goes_addCount h (fun _ => rfl) (fun _ => rfl) fun _ => rfl

theorem goes_addBound (h : t.Drafts C a b) {exclusiveKeyword : String} {check : Number → Bool → Check}
    (htype : ∀ limit exclusive, (check limit exclusive).isType = false)
    (hchildren : ∀ limit exclusive, (check limit exclusive).children = [])
    (htypes : ∀ limit exclusive, (check limit exclusive).types = []) :
    t.Goes C (addBound a node keyword exclusiveKeyword check) (addBound b node keyword exclusiveKeyword check)
      t.Drafts := by
  unfold addBound
  refine Goes.read goes_number? fun C' limit? hC => ?_
  replace h := h.mono hC
  have hleaf : ∀ {a b : Property}, t.Drafts C' a b → ∀ limit exclusive,
      t.Drafts C' (a.addCheck (check limit exclusive)) (b.addCheck (check limit exclusive)) :=
    fun h limit exclusive => h.addLeaf (htype limit exclusive) (hchildren limit exclusive) (htypes limit exclusive)
  cases limit? with
  | none =>
    simp only
    split
    · exact goes_pure h
    · exact goes_pure h
    · exact goes_pure (hleaf h _ _)
    · exact goes_malformed
  | some limit =>
    simp only
    split
    · exact goes_pure (hleaf h _ _)
    · exact goes_pure (hleaf h _ _)
    · exact goes_pure (hleaf (hleaf h _ _) _ _)
    · exact goes_malformed

theorem goes_addNumberChecks (h : t.Drafts C a b) :
    t.Goes C (addNumberChecks a node) (addNumberChecks b node) t.Drafts := by
  unfold addNumberChecks
  refine (goes_addBound h (fun _ _ => rfl) (fun _ _ => rfl) fun _ _ => rfl).bind fun _ a b _ h => ?_
  refine (goes_addBound h (fun _ _ => rfl) (fun _ _ => rfl) fun _ _ => rfl).bind fun _ a b _ h => ?_
  refine Goes.read goes_number? fun C' found hC => ?_
  split
  · exact goes_pure ((h.mono hC).addLeaf rfl rfl rfl)
  · exact goes_pure (h.mono hC)

/-! ## Inferred types -/

theorem drafts_inferEnumeration (h : t.Drafts C a b) (values : List Json) :
    t.Drafts C (inferEnumeration a values) (inferEnumeration b values) := by
  unfold inferEnumeration
  simp only
  split
  · exact h.relabel rfl
  · exact h.addDecorator rfl rfl

theorem recast_inferLabel (a : Property) (labels : List (Option TypeLabel)) : Recast a (inferLabel a labels) := by
  unfold inferLabel
  split
  · split
    · rename_i first _ _
      have hhint : Recast a (a.addDecorator (.typeHint first.names)) := recast_addDecorator a rfl
      exact ⟨hhint.default, hhint.lifted, hhint.nested, hhint.validators, hhint.strict⟩
    · exact ⟨rfl, rfl, rfl, rfl, rfl⟩
  · exact ⟨rfl, rfl, rfl, rfl, rfl⟩

end Tandem
end Building
end SchemaTypes

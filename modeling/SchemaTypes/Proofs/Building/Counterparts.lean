import SchemaTypes.Proofs.Building.DraftPairs
import SchemaTypes.Proofs.Reference.Parts
/-!
# Building a plain node twice

Whatever builds the property of a plain node does the same in both runs, up to the names of the enclosing classes and
the bounds of the recursion (`parallel_property`).
-/
namespace SchemaTypes
namespace Building

open Build

/-- Two builders that give plain nodes properties that repeat each other. -/
structure Parallel (build build' : Builder) : Prop where
  confined : Confined build
  confined' : Confined build'
  twins : ∀ (p : Pairing) (known : List TypeId) (site site' : Site) (node : Json), site'.name = site.name →
    site'.required = site.required → Plain node → p.Twins known (build site node) (build' site' node) fun _ => p.Ids

namespace Pairing

variable {p : Pairing} {known : List TypeId} {build build' : Builder} {site site' : Site} {scope scope' : Scope}
  {node : Json} {a b : Property} {name name' keyword : String} {pair : TypeId × TypeId}

theorem twins_nested (hb : Parallel build build') (hplain : Plain node) :
    p.Twins known (Build.nested build scope name node) (Build.nested build' scope' name node) fun _ => p.Ids := by
  unfold Build.nested
  refine (hb.twins p known ⟨scope, name, true, false⟩ ⟨scope', name, true, false⟩ node rfl rfl hplain).bind
    fun id id' hids => ?_
  exact (twins_relax hids).andThen fun _ _ => twins_pure hids

theorem map_of_forall₂ {ids ids' : List PropertyId} (h : List.Forall₂ p.Ids ids ids') :
    ids' = ids.map (·.shifted p.offset) ∧ ∀ id ∈ ids, p.floor ≤ id.index := by
  induction h with
  | nil => exact ⟨rfl, fun _ hid => absurd hid List.not_mem_nil⟩
  | cons hids _ ih =>
    exact ⟨congrArg₂ List.cons hids.1 ih.1, List.forall_mem_cons.2 ⟨hids.2, ih.2⟩⟩

/-! ## Arrays -/

theorem drafts_addChild (h : p.Drafts known a b) {id id' : PropertyId} (hids : p.Ids id id')
    {check : PropertyId → Check} (hshifted : (check id).shifted p.offset = check (id.shifted p.offset))
    (hchildren : (check id).children = [id]) (htypes : (check id).types = []) :
    p.Drafts known (a.addCheck (check id)) (b.addCheck (check id')) := by
  rw [hids.1, ← hshifted]
  refine h.addCheck (fun child hchild => ?_) fun type htype => absurd htype (htypes ▸ List.not_mem_nil)
  rw [hchildren] at hchild
  exact List.mem_singleton.1 hchild ▸ hids.2

theorem twins_addTuple (hb : Parallel build build') (h : p.Drafts known a b) {items : List Json}
    (hitems : ∀ item ∈ items, Plain item) (hplain : Plain node) :
    p.Twins known (addTuple build scope a items node) (addTuple build' scope' b items node)
      fun _ => p.Drafts known := by
  obtain rfl := h.eq
  unfold addTuple
  rw [Property.shifted_name]
  refine Twins.bind (twins_mapM fun x hx =>
    twins_nested hb (hitems x.1 (List.fst_mem_of_mem_zipIdx hx))) fun ids ids' hids => ?_
  obtain ⟨rfl, hinner⟩ := map_of_forall₂ hids
  have htuple : p.Drafts known (a.addCheck (.tuple ids)) _ :=
    h.addCheck hinner fun type htype => absurd htype List.not_mem_nil
  simp only [List.length_map]
  split
  · exact twins_pure htuple
  · exact twins_pure htuple
  · exact twins_pure (htuple.addLeaf rfl rfl)
  · rename_i members hget
    have hmembers : Plain (.object members) := hplain.hands (.value (by decide) hget)
    exact (twins_nested hb hmembers).bind fun id id' hids => twins_pure (drafts_addChild htuple hids rfl rfl rfl)
  · exact twins_malformed

theorem twins_addItems (hb : Parallel build build') (h : p.Drafts known a b) (hplain : Plain node) :
    p.Twins known (addItems build scope a node) (addItems build' scope' b node) fun _ => p.Drafts known := by
  unfold addItems
  split
  · exact twins_pure h
  · rename_i items hget
    exact twins_addTuple hb h (fun item hitem => hplain.hands (.item hget hitem)) hplain
  · rename_i item _ hget
    obtain rfl := h.eq
    rw [Property.shifted_name]
    refine (twins_nested hb (hplain.hands (.value (by decide) hget))).bind fun id id' hids => ?_
    exact twins_pure (drafts_addChild h hids rfl rfl rfl)

theorem twins_addContains (hb : Parallel build build') (h : p.Drafts known a b) (hplain : Plain node) :
    p.Twins known (addContains build scope a node) (addContains build' scope' b node) fun _ => p.Drafts known := by
  obtain rfl := h.eq
  unfold addContains
  rw [Property.shifted_name]
  split
  · exact twins_pure h
  · rename_i item hget
    refine (twins_nested hb (hplain.hands (.value (by decide) hget))).bind fun id id' hids => ?_
    exact twins_pure (drafts_addChild h hids rfl rfl rfl)

theorem twins_addArrayChecks (hb : Parallel build build') (h : p.Drafts known a b) (hplain : Plain node) :
    p.Twins known (addArrayChecks build scope a node) (addArrayChecks build' scope' b node)
      fun _ => p.Drafts known := by
  unfold addArrayChecks
  refine (twins_addCount h (fun _ => rfl) fun _ => rfl).bind fun a b h => ?_
  refine (twins_addCount h (fun _ => rfl) fun _ => rfl).bind fun a b h => ?_
  obtain rfl := h.eq
  rw [Property.shifted_name]
  refine Twins.read (twins_detached Keyword.detached_flag) fun unique => ?_
  have hunique : p.Drafts known (if unique then a.addCheck .uniqueItems else a)
      (if unique then (a.shifted p.offset).addCheck .uniqueItems else a.shifted p.offset) := by
    split
    · exact h.addLeaf rfl rfl
    · exact h
  exact (twins_addItems hb hunique hplain).bind fun a b h => twins_addContains hb h hplain

theorem twins_addKindChecks (hb : Parallel build build') (h : p.Drafts known a b) (hplain : Plain node) (kind : Kind) :
    p.Twins known (addKindChecks build scope kind a node) (addKindChecks build' scope' kind b node)
      fun _ => p.Drafts known := by
  unfold addKindChecks
  split
  · exact twins_addStringChecks h
  · exact twins_addNumberChecks h
  · exact twins_addNumberChecks h
  · exact twins_addArrayChecks hb h hplain
  · exact twins_pure h
  · exact twins_pure h
  · exact twins_pure h

theorem twins_ofKind (hb : Parallel build build') (hname : site'.name = site.name)
    (hrequired : site'.required = site.required) (hplain : Plain node) (kind : Kind) :
    p.Twins known (ofKind build site node kind) (ofKind build' site' node kind) fun _ => p.Drafts known := by
  unfold ofKind
  refine (twins_presentProperty hname hrequired).bind fun a b h => ?_
  rw [hrequired]
  refine Twins.read (twins_detached detached_allowsNull) fun allowed => ?_
  exact twins_addKindChecks hb ((h.relabel _).addLeaf rfl rfl) hplain kind

/-! ## Compositions on a property -/

theorem twins_noteIfEmpty {combinator : Combinator} {branches : List Json} :
    p.Twins known (noteIfEmpty combinator name branches) (noteIfEmpty combinator name' branches) fun _ _ _ => True := by
  unfold noteIfEmpty
  split
  · exact twins_notify rfl rfl
  · exact twins_pure trivial

theorem twins_branch (hb : Parallel build build') (hname : site'.name = site.name)
    (hrequired : site'.required = site.required) (hplain : Plain node) :
    p.Twins known (branch build site node) (branch build' site' node) fun _ => p.Ids := by
  unfold branch
  rw [hname, hrequired]
  refine (hb.twins p known ⟨site.scope, site.name, true, false⟩ ⟨site'.scope, site.name, true, false⟩ node rfl rfl
    hplain).bind fun id id' hids => ?_
  simp only
  split
  · exact (twins_relax hids).andThen fun _ _ => twins_pure hids
  · exact twins_pure hids

theorem twins_branches? {combinator : Combinator} :
    p.Twins known (Keyword.branches? name node combinator) (Keyword.branches? name' node combinator)
      fun _ found found' => found = found' ∧
        ∀ nodes, found = some nodes → ∀ inner ∈ nodes, Hands node (Keyword.inheritType node inner) := by
  have hkeyword : combinator ≠ .not → combinator.keyword ∈ ["allOf", "anyOf", "oneOf"] := by
    cases combinator <;> decide
  unfold Keyword.branches?
  split
  · exact twins_pure ⟨rfl, nofun⟩
  · rename_i inner hget
    refine twins_pure ⟨rfl, fun nodes heq other hother => ?_⟩
    cases heq
    rw [List.mem_singleton.1 hother]
    exact .branch (by decide) hget
  · rename_i nodes hnot hget
    refine twins_pure ⟨rfl, fun others heq inner hinner => ?_⟩
    cases heq
    exact .branches (hkeyword fun heq => hnot heq) hget hinner
  · exact twins_malformed

/-- A composition is added to both, whichever label the branches share. -/
theorem drafts_addComposition (h : p.Drafts known a b) (combinator : Combinator) {ids : List PropertyId}
    (hinner : ∀ id ∈ ids, p.floor ≤ id.index) (infers : Bool) (labels : List (Option TypeLabel)) :
    p.Drafts known
      ((if infers then inferLabel a labels else a).addCheck (.composition combinator (ids.map (⟨·, []⟩)) false))
      ((if infers then inferLabel b labels else b).addCheck
        (.composition combinator ((ids.map (·.shifted p.offset)).map (⟨·, []⟩)) false)) := by
  have hlabelled : p.Drafts known (if infers then inferLabel a labels else a)
      (if infers then inferLabel b labels else b) := by
    split
    · exact drafts_inferLabel h labels
    · exact h
  have hshifted : (Check.composition combinator (ids.map (⟨·, []⟩)) false).shifted p.offset =
      .composition combinator ((ids.map (·.shifted p.offset)).map (⟨·, []⟩)) false := by
    simp only [Check.shifted, List.map_map]
    rfl
  rw [← hshifted]
  refine hlabelled.addCheck (fun child hchild => ?_) fun type htype => absurd htype List.not_mem_nil
  obtain ⟨branch, hbranch, rfl⟩ := List.mem_map.1 hchild
  obtain ⟨id, hid, rfl⟩ := List.mem_map.1 hbranch
  exact hinner id hid

theorem twins_addComposition (hb : Parallel build build') (hname : site'.name = site.name)
    (hrequired : site'.required = site.required) (h : p.Drafts known a b) (hplain : Plain node)
    (combinator : Combinator) :
    p.Twins known (addComposition build site node a combinator) (addComposition build' site' node b combinator)
      fun _ => p.Drafts known := by
  obtain rfl := h.eq
  unfold addComposition
  rw [hname]
  refine twins_branches?.bind fun found found' hfound => ?_
  obtain ⟨rfl, hnodes⟩ := hfound
  cases found with
  | none => exact twins_pure h
  | some nodes =>
    refine twins_noteIfEmpty.andThen fun _ _ => ?_
    refine Twins.bind (twins_mapM fun inner hinner =>
      twins_branch hb hname hrequired (hplain.hands (hnodes nodes rfl inner hinner))) fun ids ids' hids => ?_
    obtain ⟨rfl, hinner⟩ := map_of_forall₂ hids
    have hadded := drafts_addComposition h combinator hinner (a.label.isNone && combinator != .not)
    refine twins_graph_bind (fun _ => keeps_graph.andThen fun graph => keeps_pure ?_)
      (fun _ => keeps_graph.andThen fun graph => keeps_pure ?_) fun graph graph' hpictures => twins_pure ?_
    · exact ⟨known, List.Subset.refl _, _, hadded _⟩
    · exact ⟨known, List.Subset.refl _, _, hadded _⟩
    · have hlabels : (ids.map (·.shifted p.offset)).map (fun id => (graph'.property id).label) =
          ids.map fun id => (graph.property id).label := by
        rw [List.map_map]
        refine List.map_congr_left fun id hid => ?_
        exact (congrArg Property.label (hpictures.property id _ ⟨rfl, hinner id hid⟩)).trans
          (Property.shifted_label _ _)
      rw [hlabels]
      exact hadded _

/-- The check of `if` that both runs come to. -/
def Conditionals (p : Pairing) (check check' : Check) : Prop :=
  check' = check.shifted p.offset ∧ (∀ child ∈ check.children, p.floor ≤ child.index) ∧ check.types = []

theorem twins_conditional? {buildBranch buildBranch' : Json → Build PropertyId} {onObject : Bool}
    (hbuild : ∀ inner keyword, keyword ∈ ["if", "then", "else"] → node.get? keyword = some inner →
      p.Twins known (buildBranch inner) (buildBranch' inner) fun _ => p.Ids) :
    p.Twins known (conditional? buildBranch name node onObject) (conditional? buildBranch' name' node onObject)
      fun _ => Option.Rel p.Conditionals := by
  unfold conditional?
  split
  · exact twins_pure .none
  · rename_i condition hcondition
    split
    · refine (hbuild condition "if" (by decide) hcondition).bind fun id id' hids => ?_
      refine Twins.bind (twins_option_mapM fun inner hinner => hbuild inner "then" (by decide) hinner)
        fun consequent consequent' hconsequent => ?_
      refine Twins.bind (twins_option_mapM fun inner hinner => hbuild inner "else" (by decide) hinner)
        fun alternative alternative' halternative => twins_pure (.some ?_)
      have hoption : ∀ {o o' : Option PropertyId}, Option.Rel p.Ids o o' →
          o' = o.map (·.shifted p.offset) ∧ ∀ id ∈ o, p.floor ≤ id.index := by
        intro o o' ho
        cases ho with
        | none => exact ⟨rfl, nofun⟩
        | some hids => exact ⟨congrArg some hids.1, fun id hid => Option.some.inj hid ▸ hids.2⟩
      obtain ⟨rfl, hinner⟩ := hoption hconsequent
      obtain ⟨rfl, hinner'⟩ := hoption halternative
      refine ⟨by rw [hids.1]; rfl, fun child hchild => ?_, rfl⟩
      rcases List.mem_cons.1 hchild with rfl | hchild
      · exact hids.2
      · rcases List.mem_append.1 hchild with hchild | hchild
        · exact hinner child (Option.mem_toList.1 hchild)
        · exact hinner' child (Option.mem_toList.1 hchild)
    · exact (twins_notify rfl rfl).andThen fun _ _ => twins_pure .none

theorem isComposed_shifted (offset : Nat) (check : Check) : isComposed (check.shifted offset) = isComposed check := by
  cases check <;> rfl

theorem decidesNull_shifted (offset : Nat) (check : Check) :
    decidesNull (check.shifted offset) = decidesNull check := by
  cases check <;> rfl

theorem twins_applyCompositions (hb : Parallel build build') (hname : site'.name = site.name)
    (hrequired : site'.required = site.required) (h : p.Drafts known a b) (hplain : Plain node) :
    p.Twins known (applyCompositions build site node a) (applyCompositions build' site' node b)
      fun _ => p.Drafts known := by
  unfold applyCompositions
  refine Twins.bind (twins_foldlM h fun combinator _ a b h =>
    twins_addComposition hb hname hrequired h hplain combinator) fun a b h => ?_
  rw [hrequired]
  refine (twins_conditional? fun inner keyword hkeyword hget =>
    twins_branch hb hname hrequired (hplain.hands (.branch (List.mem_cons_of_mem _ hkeyword) hget))).bind
    fun conditional conditional' hconditional => ?_
  have hadded : p.Drafts known ((conditional.map a.addCheck).getD a) ((conditional'.map b.addCheck).getD b) := by
    cases hconditional with
    | none => exact h
    | some hcheck =>
      obtain ⟨rfl, hchildren, htypes⟩ := hcheck
      exact h.addCheck hchildren fun type htype => absurd htype (htypes ▸ List.not_mem_nil)
  simp only
  generalize (conditional.map a.addCheck).getD a = composed at hadded
  generalize (conditional'.map b.addCheck).getD b = composed' at hadded
  obtain rfl := hadded.eq
  simp only [Property.shifted, Validators.find?_mapChecks _ _ (isComposed_shifted p.offset),
    Validators.find?_mapChecks _ _ (decidesNull_shifted p.offset), Option.isSome_map, Option.isNone_map]
  split
  · exact Twins.read (twins_detached detached_allowsNull) fun allowed => twins_pure (hadded.addLeaf rfl rfl)
  · exact twins_pure hadded

end Pairing
end Building
end SchemaTypes

import SchemaTypes.Building.Objects
import SchemaTypes.Proofs.Building.Courses
/-!
# Checks on an object

Most checks that an object's type gets run behind all others and populate no property (`Check.Silent`).  Building
them does nothing but build the nodes inside, add the checks and notify.  What survives these three survives all of the
keywords that bring such checks (`Abides`).
-/
namespace SchemaTypes

namespace Check

/-- The names of the enclosing object that the branches of a check populate. -/
def populated : Check → List String
  | .composition _ branches true => branches.flatMap (·.affected)
  | _ => []

/-- The check runs behind all others, and it populates nothing. -/
structure Silent (check : Check) : Prop where
  last : check.defaultPriority = 99
  populated : check.populated = []

end Check

namespace Building

open Build

section

variable {config : Config} {I : Session → Prop} {name : String} {node : Json}

theorem keeps_noteIfEmpty (hnotify : ∀ notice : Notice, notice.isWarning = true →
    Keeps config I (Build.notify notice) fun _ => True) {combinator : Combinator} {branches : List Json} :
    Keeps config I (noteIfEmpty combinator name branches) fun _ => True := by
  unfold noteIfEmpty
  split
  · exact hnotify _ rfl
  · exact keeps_pure trivial

theorem keeps_conditional? (hnotify : ∀ notice : Notice, notice.isWarning = true →
    Keeps config I (Build.notify notice) fun _ => True) {buildBranch : Json → Build PropertyId} {onObject : Bool}
    (hbuild : ∀ inner, Keeps config I (buildBranch inner) fun _ => True) :
    Keeps config I (conditional? buildBranch name node onObject) fun conditional =>
      ∀ check, conditional = some check → check.Silent := by
  unfold conditional?
  split
  · exact keeps_pure fun _ hnone => nomatch hnone
  · split
    · refine (hbuild _).andThen fun _ => (keeps_option_mapM hbuild).andThen fun _ => ?_
      refine (keeps_option_mapM hbuild).andThen fun _ => keeps_pure fun check heq => ?_
      cases heq
      exact ⟨rfl, rfl⟩
    · exact (hnotify _ rfl).andThen fun _ => keeps_pure fun _ hnone => nomatch hnone

end

/-- The invariant survives the building of nodes inside, silent checks on the type, and warnings. -/
structure Abides (config : Config) (I : Session → Prop) (build : Builder) (type : TypeId) : Prop where
  node : ∀ (site : Site) (node : Json), Keeps config I (build site node) fun _ => True
  nested : ∀ (scope : Scope) (name : String) (node : Json),
    Keeps config I (Build.nested build scope name node) fun _ => True
  addTypeCheck : ∀ check : Check, check.Silent → Keeps config I (Build.addTypeCheck type check) fun _ => True
  notify : ∀ notice : Notice, notice.isWarning = true → Keeps config I (Build.notify notice) fun _ => True

namespace Abides

variable {config : Config} {I : Session → Prop} {build : Builder} {scope : Scope} {node : Json} {type : TypeId}
  {name keyword : String}

theorem addPatternProperty (h : Abides config I build type) {before : List (Pattern × String)}
    {member : String × Json} :
    Keeps config I (Building.addPatternProperty build scope type before member) fun _ => True := by
  obtain ⟨source, inner⟩ := member
  unfold Building.addPatternProperty
  simp only
  refine Keyword.detached_pattern.keeps.andThen fun pattern => ?_
  split
  · exact keeps_refuse_bind
  · refine (h.nested _ _ _).andThen fun _ => ?_
    exact (h.addTypeCheck _ ⟨rfl, rfl⟩).andThen fun _ => keeps_pure trivial

theorem addOpenProperties (h : Abides config I build type) :
    Keeps config I (Building.addOpenProperties build scope type node) fun _ => True := by
  unfold Building.addOpenProperties
  refine keeps_graph.andThen fun graph => Keyword.detached_members?.keeps.andThen fun found => ?_
  simp only
  refine (keeps_foldlM (fun before member _ => h.addPatternProperty) trivial).andThen fun patterns => ?_
  split
  · exact keeps_pure trivial
  · exact keeps_pure trivial
  · exact h.addTypeCheck _ ⟨rfl, rfl⟩
  · exact (h.nested _ _ _).andThen fun _ => h.addTypeCheck _ (by exact ⟨rfl, rfl⟩)
  · exact keeps_malformed

theorem addPropertyNames (h : Abides config I build type) :
    Keeps config I (Building.addPropertyNames build scope type node) fun _ => True := by
  unfold Building.addPropertyNames
  split
  · exact keeps_pure trivial
  · exact (h.nested _ _ _).andThen fun _ => h.addTypeCheck _ (by exact ⟨rfl, rfl⟩)

theorem addPropertyCounts (h : Abides config I build type) :
    Keeps config I (Building.addPropertyCounts scope type node) fun _ => True := by
  unfold Building.addPropertyCounts
  refine Keyword.detached_count?.keeps.andThen fun least => ?_
  split
  · refine (h.addTypeCheck _ ⟨rfl, rfl⟩).andThen fun _ => Keyword.detached_count?.keeps.andThen fun most => ?_
    split
    · exact h.addTypeCheck _ ⟨rfl, rfl⟩
    · exact keeps_pure trivial
  · refine Keyword.detached_count?.keeps.andThen fun most => ?_
    split
    · exact h.addTypeCheck _ ⟨rfl, rfl⟩
    · exact keeps_pure trivial

theorem addDependency (h : Abides config I build type) {member : String × Json} :
    Keeps config I (Building.addDependency build scope type member) fun _ => True := by
  obtain ⟨trigger, dependency⟩ := member
  unfold Building.addDependency
  simp only
  split
  · exact Keyword.detached_strings.keeps.andThen fun _ => h.addTypeCheck _ (by exact ⟨rfl, rfl⟩)
  · exact keeps_pure trivial
  · exact (h.nested _ _ _).andThen fun _ => h.addTypeCheck _ (by exact ⟨rfl, rfl⟩)
  · exact (h.nested _ _ _).andThen fun _ => h.addTypeCheck _ (by exact ⟨rfl, rfl⟩)
  · exact keeps_malformed

theorem addDependencies (h : Abides config I build type) :
    Keeps config I (Building.addDependencies build scope type node keyword) fun _ => True := by
  unfold Building.addDependencies
  refine Keyword.detached_members?.keeps.andThen fun found => ?_
  split
  · exact keeps_forM fun _ _ => h.addDependency
  · exact keeps_pure trivial

/-- The conditional of an object. -/
theorem addConditional (h : Abides config I build type) (site : Site) :
    Keeps config I (do
      let conditional ← conditional? (fun inner => build site (Keyword.withObjectType inner)) name node true
      match conditional with
      | some check => Build.addTypeCheck type check
      | none => return ()) fun _ => True := by
  refine (keeps_conditional? h.notify fun inner => h.node _ _).bind fun conditional hsilent => ?_
  split
  · rename_i check
    exact h.addTypeCheck check (hsilent check rfl)
  · exact keeps_pure trivial

end Abides
end Building
end SchemaTypes

import Mathlib.Logic.Relation
import Mathlib.Order.RelClasses
import SchemaTypes.Proofs.Building.Collapse
/-!
# Redirects end at every write

Between calls a redirect leads to its end in one step.  In the middle of a call types are looked up, too, for the
signature of a type that is being finished and through the types its properties mention.  No write closes a circle of
redirects: the one that adds a redirect leads it to a type that stands for itself and is another one
(`Session.Write.redirectsEnd`).  And a way without a circle is no longer than there are types, so looking a type up
ends where no redirect goes on (`Graph.RedirectsEnd.stands`).
-/
namespace SchemaTypes

namespace Graph

variable {graph : Graph}

/-- The type is redirected to the other one. -/
def Redirects (graph : Graph) (id target : TypeId) : Prop := (graph.entry id).redirect = some target

/-- Following redirects ends, from every type. -/
def RedirectsEnd (graph : Graph) : Prop := WellFounded fun target id => graph.Redirects id target

theorem RedirectsEnd.not_circular (h : graph.RedirectsEnd) {id target : TypeId}
    (hredirects : graph.Redirects id target) : ¬ Relation.ReflTransGen graph.Redirects target id := by
  intro hback
  have hcircle : Relation.TransGen graph.Redirects id id := .head' hredirects hback
  have hswapped := Relation.transGen_swap.2 hcircle
  exact h.transGen.asymmetric id id hswapped hswapped

/-- By induction on the types that are left to pass.  One that is passed is not met again. -/
theorem RedirectsEnd.stands_follow (h : graph.RedirectsEnd) (n : Nat) (id : TypeId) (left : List TypeId)
    (hlength : left.length = n)
    (hleft : ∀ other, Relation.ReflTransGen graph.Redirects id other → (graph.entry other).redirect ≠ none →
      other ∈ left) : (graph.entry (graph.follow n id)).redirect = none := by
  induction n generalizing id left with
  | zero =>
    obtain rfl := List.length_eq_zero_iff.1 hlength
    exact Classical.not_not.1 fun hredirect => absurd (hleft id .refl hredirect) List.not_mem_nil
  | succ n ih =>
    rw [follow]
    split
    · rename_i target hredirect
      have hid : id ∈ left := hleft id .refl (hredirect ▸ Option.some_ne_none target)
      refine ih target (left.erase id) ?_ fun other hreach hother => ?_
      · rw [List.length_erase_of_mem hid, hlength]
        rfl
      · have hne : other ≠ id := fun heq => h.not_circular hredirect (heq ▸ hreach)
        exact (List.mem_erase_of_ne hne).2 (hleft other (.head hredirect hreach) hother)
    · assumption

theorem hasType_of_redirect {id : TypeId} (hredirect : (graph.entry id).redirect ≠ none) : graph.HasType id :=
  Nat.lt_of_not_le fun hle => hredirect (congrArg ObjectType.redirect (Session.entry_of_le hle))

/-- **A lookup ends where no redirect goes on.** -/
theorem RedirectsEnd.stands (h : graph.RedirectsEnd) (id : TypeId) :
    (graph.entry (graph.canonical id)).redirect = none :=
  h.stands_follow _ id graph.typeIds (by simp [typeIds]) fun _ _ hredirect =>
    mem_typeIds.2 (hasType_of_redirect hredirect)

/-- A redirect more, to another type that is not redirected. -/
theorem RedirectsEnd.add (h : graph.RedirectsEnd) {later : Graph} {id target : TypeId} (hne : target ≠ id)
    (hstands : (graph.entry target).redirect = none)
    (hkept : ∀ other, other ≠ id → (later.entry other).redirect = (graph.entry other).redirect)
    (hid : (later.entry id).redirect = none ∨ (later.entry id).redirect = some target) : later.RedirectsEnd := by
  have htarget : Acc (fun target id => later.Redirects id target) target := by
    refine Acc.intro _ fun next hnext => ?_
    rw [Redirects, hkept target hne, hstands] at hnext
    cases hnext
  refine ⟨fun id' => h.induction id' fun other ih => Acc.intro _ fun next hnext => ?_⟩
  by_cases heq : other = id
  · subst heq
    rcases hid with hnone | hsome
    · cases hnone.symm.trans hnext
    · obtain rfl : target = next := Option.some.inj (hsome.symm.trans hnext)
      exact htarget
  · exact ih next ((hkept other heq).symm.trans hnext)

theorem RedirectsEnd.congr (h : graph.RedirectsEnd) {later : Graph}
    (hkept : ∀ id, (later.entry id).redirect = (graph.entry id).redirect) : later.RedirectsEnd :=
  Subrelation.wf (fun {_ id} hredirects => (hkept id).symm.trans hredirects) h

end Graph

namespace Session

variable {config : Config} {allowed : Bool} {s s' : Session}

theorem Write.redirectsEnd (h : Write allowed s s') (hs : s.graph.RedirectsEnd) : s'.graph.RedirectsEnd := by
  have hchange : ∀ (id : TypeId) (f : ObjectType → ObjectType), (∀ type, (f type).redirect = type.redirect) →
      (s.graph.modifyType id f).RedirectsEnd := by
    refine fun id f hf => hs.congr fun other => ?_
    rw [entry_modifyType_eq]
    split
    · exact hf _
    · rfl
  cases h with
  | reserve =>
    refine hs.congr fun id => ?_
    change ((s.graph.reserve _ _ _).2.entry id).redirect = _
    rw [entry_reserve_eq]
    split
    · rename_i heq
      rw [entry_of_le (Nat.le_of_eq heq.symm)]
      rfl
    · rfl
  | describe id => exact hchange id _ fun _ => rfl
  | enlist id => exact hchange id _ fun _ => rfl
  | demand id => exact hchange id _ fun _ => rfl
  | @finish _ _ id _ _ hrun =>
    cases concludes_finish hrun with
    | kept => exact hs.congr fun other => (entry_signing _ _ _ other).2.2
    | first => exact hs.congr fun other => (entry_signing _ _ _ other).2.2
    | @duplicate existing _ _ hne =>
      refine hs.add hne (hs.stands existing) (fun other hother => ?_) ?_
      · exact congrArg ObjectType.redirect (entry_modifyType_of_other _ _ hother)
      · change ((redirecting _ _ _ _).entry id).redirect = none ∨ ((redirecting _ _ _ _).entry id).redirect = _
        rw [entry_modifyType_eq]
        split
        · exact Or.inr rfl
        · rename_i hnot
          refine Or.inl (congrArg ObjectType.redirect (entry_of_le ?_))
          exact Nat.le_of_not_lt fun hlt => hnot ⟨rfl, hlt⟩
  | _ => exact hs

/-- **Following redirects ends**, after any calls, whichever of them failed, and at every write that comes next. -/
theorem redirectsEnd_writes {calls : List Call} (h : Writes config.settings.implicitNull (performAll config calls) s) :
    s.graph.RedirectsEnd := by
  have hregistered := (collapsed_performAll config calls).toRegistered
  refine h.keeps (fun _ _ hwrite hm => hwrite.redirectsEnd hm) ⟨fun id => Acc.intro _ fun target htarget => ?_⟩
  refine Acc.intro _ fun next hnext => ?_
  cases (hregistered.redirects id target htarget).1.symm.trans hnext

end Session
end SchemaTypes

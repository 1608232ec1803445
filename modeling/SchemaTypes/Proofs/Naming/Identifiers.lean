import SchemaTypes.Naming.ClassName
import SchemaTypes.Types.Graph
/-!
# Names that have an identifier

A name has an identifier exactly if it has a letter or a digit (`hasIdentifier_iff`), so whatever contains such a name
has one too.  A strategy hands identifiers down if a class inside a class with an identifier has one; the standard
strategy does, since it names the enclosing class first (`carries_standard`).
-/
namespace SchemaTypes.Naming

def HasIdentifier (name : String) : Prop := (identifier? name).isSome = true

instance (name : String) : Decidable (HasIdentifier name) := inferInstanceAs (Decidable (_ = true))

theorem wordsFrom_eq_nil_iff : ∀ (current rest : List Char),
    wordsFrom current rest = [] ↔ current = [] ∧ ∀ c ∈ rest, Text.isAlphanumeric c = false
  | current, [] => by
    rw [wordsFrom]
    cases current <;> simp
  | current, c :: rest => by
    rw [wordsFrom]
    by_cases hc : Text.isAlphanumeric c = true
    · rw [if_pos hc, wordsFrom_eq_nil_iff (c :: current) rest]
      simp [hc]
    · rw [if_neg hc]
      cases current with
      | nil =>
        rw [List.isEmpty_nil, if_pos rfl, wordsFrom_eq_nil_iff [] rest]
        simp [hc]
      | cons => simp

theorem hasIdentifier_iff {name : String} :
    HasIdentifier name ↔ ∃ c ∈ name.toList, Text.isAlphanumeric c = true := by
  have hwords : HasIdentifier name ↔ words name.toList ≠ [] := by
    unfold HasIdentifier identifier?
    split
    · rename_i hnil
      simp [hnil]
    · rename_i hsome
      exact ⟨fun _ h => hsome h, fun _ => rfl⟩
  rw [hwords, words, Ne, wordsFrom_eq_nil_iff]
  simp

theorem HasIdentifier.append_left {name : String} (h : HasIdentifier name) (more : String) :
    HasIdentifier (name ++ more) := by
  obtain ⟨c, hc, halphanumeric⟩ := hasIdentifier_iff.1 h
  exact hasIdentifier_iff.2 ⟨c, String.toList_append ▸ List.mem_append_left _ hc, halphanumeric⟩

/-- What begins with a letter. -/
theorem hasIdentifier_of_head {name : String} {c : Char} {rest : List Char} (hname : name.toList = c :: rest)
    (hc : Text.isAlphanumeric c = true) (more : String) : HasIdentifier (name ++ more) :=
  HasIdentifier.append_left (hasIdentifier_iff.2 ⟨c, hname ▸ List.mem_cons_self, hc⟩) more

/-! ## Class names -/

/-- A class inside a class with an identifier has one. -/
def Strategy.Carries (strategy : Strategy) : Prop :=
  ∀ property node merged enclosing, HasIdentifier enclosing → HasIdentifier (strategy property node merged enclosing)

theorem carries_standard : Strategy.Carries standard := by
  intro property node merged enclosing h
  unfold standard
  simp only
  split
  · rename_i hempty
    obtain ⟨c, hc, _⟩ := hasIdentifier_iff.1 h
    rw [String.isEmpty_iff.1 hempty] at hc
    exact absurd hc List.not_mem_nil
  · rw [String.append_assoc, String.append_assoc]
    exact h.append_left _

/-- Classes inside the class get identifiers.  The empty name stands for the top of a document. -/
def Strategy.CarriesInto (strategy : Strategy) (enclosing : String) : Prop :=
  ∀ property node merged, HasIdentifier (strategy property node merged enclosing)

theorem Strategy.Carries.into {strategy : Strategy} {enclosing : String} (h : strategy.Carries)
    (henclosing : HasIdentifier enclosing) : strategy.CarriesInto enclosing :=
  fun property node merged => h property node merged enclosing henclosing

/-- A number behind a class name leaves it an identifier. -/
theorem HasIdentifier.candidate {className : String} (h : HasIdentifier className) (n : Nat) :
    HasIdentifier (Graph.candidate className n) := by
  unfold Graph.candidate
  split
  · exact h
  · rw [String.append_assoc]
    exact h.append_left _

theorem HasIdentifier.freeName {className : String} (h : HasIdentifier className) (graph : Graph)
    (namespaceName : String) : HasIdentifier (graph.freeName namespaceName className).className := by
  unfold Graph.freeName
  simp only
  cases hfind : ((List.range (graph.types.size + 1)).map fun n =>
      (⟨namespaceName, Graph.candidate className n⟩ : TypeName)).find? (!graph.isTaken ·) with
  | none => exact h
  | some name =>
    obtain ⟨n, _, rfl⟩ := List.mem_map.1 (List.mem_of_find?_eq_some hfind)
    exact h.candidate n

end SchemaTypes.Naming

import Mathlib.Data.List.Nodup
import Mathlib.Data.List.Perm.Subperm
import SchemaTypes.Proofs.Building.Calls
import SchemaTypes.Proofs.Building.Duplicates
/-!
# No two types have the same name

A type is named when it is reserved, with the first candidate whose text no other type has.  There is one, since there
are more candidates than types (`Graph.freeName_eq`), and nothing later changes a name (`Write.typeNames`).  So in every
session that calls lead to, the failed ones included, all reserved types have names of their own, those that were
redirected and those that a fault has left unfinished too (`typeNames_nodup`).
-/
namespace SchemaTypes

namespace Graph

variable {graph : Graph} {namespaceName className : String}

/-- The names of all reserved types, in order. -/
def typeNames (graph : Graph) : List TypeName := graph.types.toList.map (·.name)

/-- The texts that are taken. -/
def keys (graph : Graph) : List String := graph.typeNames.map TypeName.key

theorem length_keys (graph : Graph) : graph.keys.length = graph.types.size := by
  simp [keys, typeNames]

theorem isTaken_iff {name : TypeName} : graph.isTaken name = true ↔ name.key ∈ graph.keys := by
  unfold isTaken keys typeNames
  rw [← Array.any_toList, List.any_eq_true, List.map_map, List.mem_map]
  simp only [decide_eq_true_eq, Function.comp_apply]

/-! ## Candidates -/

theorem candidate_injective (className : String) : Function.Injective (candidate className) := by
  intro n m h
  unfold candidate at h
  -- Every numbered candidate is longer than the class name.
  have hlonger : ∀ k : Nat, className ≠ className ++ "_" ++ toString (k + 1) := fun k heq => by
    have hlength := congrArg String.length heq
    simp only [String.length_append] at hlength
    have hmark : ("_" : String).length = 1 := rfl
    omega
  split at h <;> split at h
  · omega
  · exact absurd h (hlonger m)
  · exact absurd h.symm (hlonger n)
  · have hchars := congrArg String.toList h
    simp only [String.toList_append] at hchars
    have hnumber := congrArg (Nat.ofDigitChars 10 · 0) (List.append_cancel_left hchars)
    simpa [Nat.toString_eq_ofList_toDigits] using hnumber

theorem key_injective (namespaceName : String) :
    Function.Injective fun className => (⟨namespaceName, className⟩ : TypeName).key := by
  intro a b h
  have hchars := congrArg String.toList h
  simp only [TypeName.key, String.toList_append] at hchars
  exact String.toList_inj.1 (List.append_cancel_left hchars)

/-- Of more candidates than types, one is free. -/
theorem exists_free (graph : Graph) (namespaceName className : String) :
    ∃ n ∈ List.range (graph.types.size + 1), graph.isTaken ⟨namespaceName, candidate className n⟩ = false := by
  by_contra hnone
  rw [not_exists] at hnone
  let key := fun n => (⟨namespaceName, candidate className n⟩ : TypeName).key
  have hdistinct : ((List.range (graph.types.size + 1)).map key).Nodup :=
    List.Nodup.map ((key_injective namespaceName).comp (candidate_injective className)) List.nodup_range
  have htaken : (List.range (graph.types.size + 1)).map key ⊆ graph.keys := by
    intro text htext
    obtain ⟨n, hn, rfl⟩ := List.mem_map.1 htext
    exact isTaken_iff.1 (Bool.of_not_eq_false fun hfree => hnone n ⟨hn, hfree⟩)
  have hlength := (List.subperm_of_subset hdistinct htaken).length_le
  rw [List.length_map, List.length_range, length_keys] at hlength
  omega

/-- **The search for a name ends**: at the first candidate that is not taken, after at most as many others as there are
types. -/
theorem freeName_eq (graph : Graph) (namespaceName className : String) : ∃ n ≤ graph.types.size,
    graph.freeName namespaceName className = ⟨namespaceName, candidate className n⟩ ∧
      graph.isTaken ⟨namespaceName, candidate className n⟩ = false ∧
      ∀ m < n, graph.isTaken ⟨namespaceName, candidate className m⟩ = true := by
  unfold freeName
  simp only [List.find?_map]
  cases hfound : (List.range (graph.types.size + 1)).find?
      ((!graph.isTaken ·) ∘ fun n => (⟨namespaceName, candidate className n⟩ : TypeName)) with
  | none =>
    obtain ⟨n, hn, hfree⟩ := exists_free graph namespaceName className
    have htaken := List.find?_eq_none.1 hfound n hn
    simp [hfree] at htaken
  | some n =>
    rw [List.find?_range_eq_some] at hfound
    obtain ⟨hfree, hn, hfirst⟩ := hfound
    refine ⟨n, Nat.le_of_lt_succ (List.mem_range.1 hn), rfl, by simpa using hfree, fun m hm => ?_⟩
    simpa using hfirst m hm

/-- The text of a new name is not taken. -/
theorem key_freeName (graph : Graph) (namespaceName className : String) :
    (graph.freeName namespaceName className).key ∉ graph.keys := by
  obtain ⟨n, _, hname, hfree, _⟩ := freeName_eq graph namespaceName className
  rw [hname, ← isTaken_iff, hfree]
  exact Bool.false_ne_true

/-! ## Names stay -/

theorem typeNames_modifyType (graph : Graph) (id : TypeId) {f : ObjectType → ObjectType}
    (hf : ∀ type, (f type).name = type.name) : (graph.modifyType id f).typeNames = graph.typeNames := by
  unfold typeNames modifyType
  rw [Array.toList_modify]
  refine List.ext_getElem? fun index => ?_
  rw [List.getElem?_map, List.getElem?_map, List.getElem?_modify]
  cases graph.types.toList[index]? with
  | none => rfl
  | some type =>
    simp only [Option.map_eq_map, Option.map_some, Option.some.injEq]
    split
    · exact hf type
    · rfl

theorem typeNames_reserve (graph : Graph) (namespaceName className : String) (isRoot : Bool) :
    (graph.reserve namespaceName className isRoot).2.typeNames =
      graph.typeNames ++ [graph.freeName namespaceName className] := by
  simp [reserve, typeNames]

end Graph

namespace Session

variable {config : Config} {allowed : Bool} {s s' : Session}

/-- **A write leaves all names as they are**, and at most adds one that is free. -/
theorem Write.typeNames (h : Write allowed s s') : s'.graph.typeNames = s.graph.typeNames ∨
    ∃ namespaceName className, s'.graph.typeNames =
      s.graph.typeNames ++ [s.graph.freeName namespaceName className] := by
  cases h with
  | reserve namespaceName className isRoot => exact .inr ⟨_, _, Graph.typeNames_reserve _ _ _ _⟩
  | describe => exact .inl (Graph.typeNames_modifyType _ _ fun _ => rfl)
  | enlist => exact .inl (Graph.typeNames_modifyType _ _ fun _ => rfl)
  | demand => exact .inl (Graph.typeNames_modifyType _ _ fun _ => rfl)
  | finish _ hrun =>
    obtain ⟨_, _, _, _, hgraph⟩ := runs_finish hrun
    rw [hgraph]
    exact .inl (Graph.typeNames_modifyType _ _ fun _ => rfl)
  | _ => exact .inl rfl

theorem Write.nodup_keys (h : Write allowed s s') (hs : s.graph.keys.Nodup) : s'.graph.keys.Nodup := by
  unfold Graph.keys at *
  rcases h.typeNames with heq | ⟨namespaceName, className, heq⟩
  · rw [heq]
    exact hs
  · rw [heq, List.map_append, List.map_singleton]
    refine hs.append (List.nodup_singleton _) (List.disjoint_singleton.2 ?_)
    exact Graph.key_freeName _ _ _

theorem Writes.nodup_keys (h : Writes allowed s s') (hs : s.graph.keys.Nodup) : s'.graph.keys.Nodup :=
  h.keeps (fun _ _ hwrite => hwrite.nodup_keys) hs

theorem Writes.typeNames (h : Writes allowed s s') : s.graph.typeNames <+: s'.graph.typeNames := by
  refine h.keeps (P := fun m => s.graph.typeNames <+: m.graph.typeNames) (fun m m' hwrite hm => ?_) List.prefix_rfl
  rcases hwrite.typeNames with heq | ⟨_, _, heq⟩
  · exact heq ▸ hm
  · exact heq ▸ hm.trans (List.prefix_append _ _)

theorem perform_typeNames (h : s.Orderly config) (call : Call) :
    s.graph.typeNames <+: (s.perform config call).graph.typeNames := by
  cases call with
  | register source value => exact List.prefix_rfl
  | process source value => exact (h.writes_process source value).typeNames

theorem Orderly.nodup_keys (h : s.Orderly config) (hs : s.graph.keys.Nodup) (call : Call) :
    (s.perform config call).graph.keys.Nodup := by
  cases call with
  | register source value => exact hs
  | process source value => exact (h.writes_process source value).nodup_keys hs

/-- Calls keep the names there are, and keep them apart. -/
theorem performs_typeNames (calls : List Call) (h : s.Orderly config) (hs : s.graph.keys.Nodup) :
    (calls.foldl (perform config) s).graph.keys.Nodup ∧
      s.graph.typeNames <+: (calls.foldl (perform config) s).graph.typeNames := by
  have hperform : ∀ m call, (m.Orderly config ∧ m.graph.keys.Nodup ∧ s.graph.typeNames <+: m.graph.typeNames) →
      (perform config m call).Orderly config ∧ (perform config m call).graph.keys.Nodup ∧
        s.graph.typeNames <+: (perform config m call).graph.typeNames := fun m call ⟨horderly, hkeys, hnames⟩ =>
    ⟨horderly.perform call, horderly.nodup_keys hkeys call, hnames.trans (perform_typeNames horderly call)⟩
  exact (keeps_performs hperform calls s ⟨h, hs, List.prefix_rfl⟩).2

/-- **Every type has a name of its own**: after all calls, whichever of them failed, and at every write that comes next,
no two reserved types have the same name, not even the same text for it.  No name is changed or taken back, and the
search for a new one ends in every graph. -/
theorem typeNames_nodup (config : Config) (calls more : List Call) :
    (∀ m, Writes config.settings.implicitNull (performAll config calls) m →
      m.graph.typeNames.Nodup ∧ m.graph.keys.Nodup ∧ (performAll config calls).graph.typeNames <+: m.graph.typeNames) ∧
    (performAll config calls).graph.typeNames <+: (performAll config (calls ++ more)).graph.typeNames ∧
    ∀ (graph : Graph) (namespaceName className : String), ∃ n ≤ graph.types.size,
      graph.freeName namespaceName className = ⟨namespaceName, Graph.candidate className n⟩ ∧
        graph.isTaken ⟨namespaceName, Graph.candidate className n⟩ = false ∧
        ∀ m < n, graph.isTaken ⟨namespaceName, Graph.candidate className m⟩ = true := by
  have hall : (performAll config calls).graph.keys.Nodup :=
    (performs_typeNames calls ⟨closed_initial, fun _ => Property.inStep_default⟩ List.nodup_nil).1
  refine ⟨fun m hm => ?_, ?_, Graph.freeName_eq⟩
  · have hkeys := hm.nodup_keys hall
    exact ⟨List.Nodup.of_map _ hkeys, hkeys, hm.typeNames⟩
  · rw [performAll_append]
    exact (performs_typeNames more (orderly_performAll config calls) hall).2

/-- The first of these types takes the name that the second twin would have, and the last document fails. -/
def namesakes : List Call :=
  let broken := Json.object [("type", .string "object"), ("properties", .object
    [("x", .object [("type", .string "object")]), ("y", .object [("type", .string "none")])])]
  [.process ⟨"a", "", "N_2"⟩ (.object [("type", .string "object")]), .process ⟨"b", "", "T"⟩ twins,
    .process ⟨"c", "", "N"⟩ broken]

set_option maxRecDepth 100000 in
/-- A name that is one by nature is told apart from numbered ones. -/
theorem typeNames_nodup_namesakes : (performAll oneName namesakes).graph.typeNames.map TypeName.className =
    ["N_2", "T", "N", "N_3", "N_4", "N_5"] ∧ (performAll oneName namesakes).graph.typeNames.Nodup :=
  ⟨by decide +kernel, ((typeNames_nodup oneName namesakes []).1 _ .refl).1⟩

end Session
end SchemaTypes

import SchemaTypes.Proofs.Building.Process
import SchemaTypes.Proofs.Types.Redirects
/-!
# Duplicates

A type is finished once.  Its signature is recorded then, and if an earlier type has the same one it is
redirected to that; so a redirect joins two types of one recorded signature, and the other one is not redirected
itself (`Session.Registered`).  How sound that is depends on what equal signatures say.  If types of one signature
are alike, evaluation cannot tell the redirects of any run (`Reached.run_withoutRedirects`).
-/
namespace SchemaTypes

/-- Types that record one signature are alike. -/
def Graph.FaithfulSignatures (graph : Graph) : Prop :=
  ∀ a b text, (graph.entry a).signature = some text → (graph.entry b).signature = some text → graph.AlikeTypes a b

namespace Session

/-- What is known under a signature has it and stands for itself; redirects join types of one signature. -/
structure Registered (session : Session) : Prop where
  signatures : ∀ text id, (text, id) ∈ session.signatures →
    (session.graph.entry id).signature = some text ∧ (session.graph.entry id).redirect = none
  redirects : ∀ id target, (session.graph.entry id).redirect = some target →
    (session.graph.entry target).redirect = none ∧
      ∃ text, (session.graph.entry id).signature = some text ∧ (session.graph.entry target).signature = some text

variable {tidy : Prop} {allowed : Bool} {floor : Nat} {s s' : Session}

/-- Being registered is about the signatures known and what each type is known by. -/
theorem Registered.congr (h : s.Registered) (hsignatures : s'.signatures = s.signatures)
    (hentry : ∀ id, (s'.graph.entry id).signature = (s.graph.entry id).signature ∧
      (s'.graph.entry id).redirect = (s.graph.entry id).redirect) : s'.Registered := by
  refine ⟨fun text id hmem => ?_, fun id target hredirect => ?_⟩
  · rw [hsignatures] at hmem
    rw [(hentry id).1, (hentry id).2]
    exact h.signatures text id hmem
  · rw [(hentry id).2] at hredirect
    rw [(hentry target).2, (hentry id).1, (hentry target).1]
    exact h.redirects id target hredirect

theorem Registered.finish (h : s.Registered) {config : Config} {id target : TypeId}
    (hlt : id.index < s.graph.types.size) (hnone : (s.graph.entry id).signature = none)
    (hrun : (Building.finish id).Runs config s target s') : s'.Registered := by
  obtain ⟨redirect, hfinishes, _, _, hgraph⟩ := runs_finish hrun
  have hunredirected : (s.graph.entry id).redirect = none := by
    rcases hredirect : (s.graph.entry id).redirect with _ | other
    · rfl
    · obtain ⟨_, text, hsignature, _⟩ := h.redirects id other hredirect
      rw [hnone] at hsignature
      cases hsignature
  have hself := (congrArg (Graph.entry · id) hgraph).trans (entry_modifyType _ _ hlt)
  have hother : ∀ other, other ≠ id → s'.graph.entry other = s.graph.entry other := by
    intro other hne
    rw [hgraph, entry_modifyType_of_ne]
    exact fun heq => hne (by cases other; cases id; exact congrArg _ heq)
  have hsignature : (s'.graph.entry id).signature = some (s.graph.signature id) :=
    congrArg ObjectType.signature hself
  have hredirect : (s'.graph.entry id).redirect = redirect := by
    refine (congrArg ObjectType.redirect hself).trans ?_
    simp [hunredirected]
  have hknown : ∀ text other, (text, other) ∈ s.signatures → other ≠ id := by
    rintro text other hmem rfl
    rw [(h.signatures text other hmem).1] at hnone
    cases hnone
  have hold : ∀ text other, (text, other) ∈ s.signatures →
      (s'.graph.entry other).signature = some text ∧ (s'.graph.entry other).redirect = none := by
    intro text other hmem
    rw [hother other (hknown text other hmem)]
    exact h.signatures text other hmem
  have hredirects : ∀ other target, other ≠ id → (s'.graph.entry other).redirect = some target →
      (s'.graph.entry target).redirect = none ∧ ∃ text, (s'.graph.entry other).signature = some text ∧
        (s'.graph.entry target).signature = some text := by
    intro other target hne hsome
    rw [hother other hne] at hsome ⊢
    obtain ⟨hstands, text, htext, htext'⟩ := h.redirects other target hsome
    have hne' : target ≠ id := by
      rintro rfl
      rw [hnone] at htext'
      cases htext'
    rw [hother target hne']
    exact ⟨hstands, text, htext, htext'⟩
  generalize hs' : s'.signatures = signatures at hfinishes
  cases hfinishes with
  | kept =>
    refine ⟨fun text other hmem => hold text other (hs' ▸ hmem), fun other target hsome => ?_⟩
    by_cases heq : other = id
    · subst heq
      rw [hredirect] at hsome
      cases hsome
    · exact hredirects other target heq hsome
  | first =>
    refine ⟨fun text other hmem => ?_, fun other target hsome => ?_⟩
    · rw [hs', List.mem_append, List.mem_singleton] at hmem
      rcases hmem with hmem | heq
      · exact hold text other hmem
      · obtain ⟨rfl, rfl⟩ := Prod.mk.inj heq
        exact ⟨hsignature, hredirect⟩
    · by_cases heq : other = id
      · subst heq
        rw [hredirect] at hsome
        cases hsome
      · exact hredirects other target heq hsome
  | @duplicate existing hexisting hne =>
    have hmem := Building.mem_of_lookup hexisting
    have hcanonical : s.graph.canonical existing = existing := Graph.follow_eq_self (h.signatures _ _ hmem).2 _
    refine ⟨fun text other hmem => hold text other (hs' ▸ hmem), fun other target hsome => ?_⟩
    by_cases heq : other = id
    · subst heq
      rw [hredirect, hcanonical] at hsome
      cases hsome
      obtain ⟨htext, hstands⟩ := hold _ _ hmem
      exact ⟨hstands, _, hsignature, htext⟩
    · exact hredirects other target heq hsome

theorem Step.registered (h : Step tidy allowed floor s s') (hs : s.Registered) : s'.Registered := by
  cases h with
  | reserve namespaceName className isRoot =>
    refine hs.congr rfl fun id => ?_
    change ((s.graph.reserve namespaceName className isRoot).2.entry id).signature = _ ∧
      ((s.graph.reserve namespaceName className isRoot).2.entry id).redirect = _
    rcases Nat.lt_trichotomy id.index s.graph.types.size with hlt | heq | hgt
    · rw [entry_reserve_of_lt _ _ _ _ hlt]
      exact ⟨rfl, rfl⟩
    · simp [Graph.reserve, Graph.entry, heq]
      exact ⟨rfl, rfl⟩
    · simp [Graph.reserve, Graph.entry, Array.getElem?_push, Nat.ne_of_gt hgt]
  | change _ hf => exact hs.congr rfl (hf.entry s.graph _)
  | finish _ hlt hnone hrun => exact hs.finish hlt hnone hrun
  | complete =>
    refine hs.congr (signatures_foldl_bindOne _ _ _) fun id => ?_
    unfold completed Graph.entry
    rw [types_foldl_bindOne]
    exact ⟨rfl, rfl⟩
  | _ => exact hs.congr rfl fun _ => ⟨rfl, rfl⟩

/-- A type is generated as what it is redirected to, and otherwise as itself. -/
theorem Registered.canonical_eq (h : s.Registered) (id : TypeId) :
    s.graph.canonical id = (s.graph.entry id).redirect.getD id := by
  rcases hredirect : (s.graph.entry id).redirect with _ | target
  · exact Graph.follow_eq_self hredirect _
  · have hlt : id.index < s.graph.types.size := by
      rcases Nat.lt_or_ge id.index s.graph.types.size with hlt | hge
      · exact hlt
      · simp [Graph.entry, Array.getElem?_eq_none hge] at hredirect
    obtain ⟨n, hn⟩ : ∃ n, s.graph.types.size = n + 1 := ⟨_, (Nat.succ_pred_eq_of_pos (Nat.zero_lt_of_lt hlt)).symm⟩
    unfold Graph.canonical
    rw [hn, Graph.follow, hredirect]
    exact Graph.follow_eq_self (h.redirects id target hredirect).1 n

/-- Faithful signatures make every redirect one between alike types. -/
theorem Registered.redirectsAlike (h : s.Registered) (hfaithful : s.graph.FaithfulSignatures) :
    s.graph.RedirectsAlike := by
  intro id
  rw [h.canonical_eq]
  rcases hredirect : (s.graph.entry id).redirect with _ | target
  · exact .refl s.graph id
  · obtain ⟨_, text, htext, htext'⟩ := h.redirects id target hredirect
    exact hfaithful target id text htext' htext

theorem Opened.registered {stored start : Session} (h : Opened stored start) (hs : stored.Registered) :
    start.Registered := by
  obtain ⟨namespaceName, className, hgraph⟩ := h.graph
  have hstep : Step False false 0 stored (stored.withGraph
      (stored.graph.reserve namespaceName className true).2) := .reserve namespaceName className true
  refine (hstep.registered hs).congr h.signatures fun id => ?_
  rw [hgraph]
  exact ⟨rfl, rfl⟩

variable {config : Config} {ok : Reference.Documents → Prop}

theorem Reached.resting (h : Reached config ok s) : s.Resting := by
  induction h with
  | initial => exact fun key type hpending => nomatch hpending.choose_spec
  | register source value _ ih => exact ih
  | process _ _ hrun ih =>
    obtain ⟨_, _, _, hrest⟩ := Building.runs_document False ih (fun hfalse => hfalse.elim) hrun
    exact hrest

theorem Reached.registered (h : Reached config ok s) : s.Registered := by
  induction h with
  | initial => exact ⟨fun _ _ hmem => absurd hmem List.not_mem_nil, fun _ _ hredirect => nomatch hredirect⟩
  | register source value _ ih => exact ih.congr rfl fun _ => ⟨rfl, rfl⟩
  | process hreached _ hrun ih =>
    obtain ⟨start, hopened, hsteps, _⟩ :=
      Building.runs_document False hreached.resting (fun hfalse => hfalse.elim) hrun
    have hstart := hopened.registered (ih.congr rfl fun _ => ⟨rfl, rfl⟩)
    exact hsteps.keeps (P := Registered) (fun _ _ hstep hm => hstep.registered hm) hstart

/-- **Evaluation cannot tell the redirects of a run** whose signatures are faithful: with and without them, every
type ends within the same bound, with the same model and the same validity. -/
theorem Reached.run_withoutRedirects (h : Reached config ok s) (hfaithful : s.graph.FaithfulSignatures)
    (mode : Mode) (bound : Nat) (id : TypeId) (value : Json) :
    Option.Rel Evaluation.Result.Like (Evaluation.run s.graph mode bound id value)
      (Evaluation.run s.graph.withoutRedirects mode bound id value) :=
  (h.registered.redirectsAlike hfaithful).run mode bound id value

/-! ## A redirect that is harmless, and one that is not -/

theorem eq_ok_of_toOption {α : Type} {a : α} : ∀ {run : Except Halt α × Session},
    run.1.toOption = some a → run = (.ok a, run.2)
  | (.ok _, _), h => by
    cases h
    rfl

/-- The property that a definition is built as, if it is. -/
def built? (s : Session) (key : DefinitionKey) : Option PropertyId :=
  match s.definition? key with
  | some (.built id) => some id
  | _ => none

theorem definition?_of_built? {s : Session} {key : DefinitionKey} {id : PropertyId} (h : s.built? key = some id) :
    s.definition? key = some (.built id) := by
  unfold built? at h
  split at h
  · rename_i found hfound
    rw [hfound, Option.some.inj h]
  · cases h

/-- Every object's class goes by one name, which is numbered on. -/
def oneName : Config := { naming := fun _ _ _ _ => "N" }

/-- Two properties that hold an object about which nothing is said. -/
def twins : Json :=
  .object [("type", .string "object"), ("properties", .object
    [("x", .object [("type", .string "object")]), ("y", .object [("type", .string "object")])])]

def twinsRun : Except Halt TypeId × Session := process {} oneName ⟨"t", "", "T"⟩ twins

set_option maxRecDepth 100000 in
/-- The type of the second twin is redirected to that of the first, and evaluates alike either way. -/
theorem run_withoutRedirects_twins :
    twinsRun.1.toOption = some ⟨0⟩ ∧ (twinsRun.2.graph.entry ⟨2⟩).redirect = some ⟨1⟩ ∧
      Option.Rel Evaluation.Result.Like
        (Evaluation.run twinsRun.2.graph .collectAll 9 ⟨2⟩ (.object []))
        (Evaluation.run twinsRun.2.graph.withoutRedirects .collectAll 9 ⟨2⟩ (.object [])) := by
  have hfacts : twinsRun.1.toOption = some ⟨0⟩ ∧ (twinsRun.2.graph.entry ⟨2⟩).redirect = some ⟨1⟩ ∧
      twinsRun.2.graph.types.size = 3 ∧
      (twinsRun.2.graph.entry ⟨0⟩).signature ≠ (twinsRun.2.graph.entry ⟨1⟩).signature ∧
      (twinsRun.2.graph.entry ⟨1⟩).signature = (twinsRun.2.graph.entry ⟨2⟩).signature ∧
      (twinsRun.2.graph.entry ⟨1⟩).properties = [] ∧ (twinsRun.2.graph.entry ⟨2⟩).properties = [] ∧
      (twinsRun.2.graph.entry ⟨1⟩).validators.toList.length = 0 ∧
      (twinsRun.2.graph.entry ⟨2⟩).validators.toList.length = 0 := by decide +kernel
  obtain ⟨hok, hredirect, hsize, hroot, htwin, hfirst, hsecond, hfirst', hsecond'⟩ := hfacts
  have hknown : ∀ id text, (twinsRun.2.graph.entry id).signature = some text →
      id = ⟨0⟩ ∨ id = ⟨1⟩ ∨ id = ⟨2⟩ := by
    rintro ⟨index⟩ text hsignature
    have hlt : index < twinsRun.2.graph.types.size := lt_of_signature (hsignature ▸ Option.some_ne_none text)
    rw [hsize] at hlt
    match index, hlt with
    | 0, _ => exact Or.inl rfl
    | 1, _ => exact Or.inr (Or.inl rfl)
    | 2, _ => exact Or.inr (Or.inr rfl)
  have htwins : ∀ a b : TypeId, a = ⟨1⟩ ∨ a = ⟨2⟩ → b = ⟨1⟩ ∨ b = ⟨2⟩ → twinsRun.2.graph.AlikeTypes a b := by
    rintro a b (rfl | rfl) (rfl | rfl) <;> exact .of_empty (by assumption) (by assumption) (by assumption) (by assumption)
  have hfaithful : twinsRun.2.graph.FaithfulSignatures := by
    intro a b text ha hb
    rcases hknown a text ha with rfl | ha' <;> rcases hknown b text hb with rfl | hb'
    · exact .refl _ _
    · rcases hb' with rfl | rfl
      · exact absurd (ha.trans hb.symm) hroot
      · exact absurd ((ha.trans hb.symm).trans htwin.symm) hroot
    · rcases ha' with rfl | rfl
      · exact absurd (hb.trans ha.symm) hroot
      · exact absurd ((hb.trans ha.symm).trans htwin.symm) hroot
    · exact htwins a b ha' hb'
  have hreached : Reached oneName (fun _ => True) twinsRun.2 :=
    .process .initial trivial (eq_ok_of_toOption hok)
  exact ⟨hok, hredirect, hreached.run_withoutRedirects hfaithful .collectAll 9 ⟨2⟩ (.object [])⟩

/-- Two objects that ask for different names once `a` is there: for `b` and `c`, and for one name that spells
these with a comma between them. -/
def joinedNames : Json :=
  let requiring := fun names => Json.object
    [("type", .string "object"), ("dependencies", .object [("a", .ofStrings names)])]
  .object [("type", .string "object"), ("properties", .object
    [("x", requiring ["b", "c"]), ("y", requiring ["b, c"])])]

def joinedNamesRun : Except Halt TypeId × Session := process {} oneName ⟨"t", "", "T"⟩ joinedNames

/-- A value that has `a` and the one name. -/
def joinedNamesValue : Json := .object [("a", .ofNat 1), ("b, c", .ofNat 2)]

set_option maxRecDepth 100000 in
/-- **Signatures are not faithful as such.**  The text that is hashed joins names by commas, so the second object
passes for a duplicate of the first and rejects what it accepts on its own. -/
theorem not_forall_run_withoutRedirects : ¬ ∀ (config : Config) (s : Session) (mode : Mode) (bound : Nat)
    (id : TypeId) (value : Json) (a b : Evaluation.Result), Reached config (fun _ => True) s →
    Evaluation.run s.graph mode bound id value = some a →
    Evaluation.run s.graph.withoutRedirects mode bound id value = some b → a.isValid = b.isValid := by
  intro h
  have hfacts : joinedNamesRun.1.toOption = some ⟨0⟩ ∧
      (Evaluation.run joinedNamesRun.2.graph .collectAll 9 ⟨2⟩ joinedNamesValue).map (·.isValid) = some false ∧
      (Evaluation.run joinedNamesRun.2.graph.withoutRedirects .collectAll 9 ⟨2⟩ joinedNamesValue).map
        (·.isValid) = some true := by decide +kernel
  obtain ⟨hok, hwith, hwithout⟩ := hfacts
  obtain ⟨a, ha, hinvalid⟩ := Option.map_eq_some_iff.1 hwith
  obtain ⟨b, hb, hvalid⟩ := Option.map_eq_some_iff.1 hwithout
  have hsame := h oneName joinedNamesRun.2 .collectAll 9 ⟨2⟩ joinedNamesValue a b
    (.process .initial trivial (eq_ok_of_toOption hok)) ha hb
  rw [hinvalid, hvalid] at hsame
  cases hsame

end Session
end SchemaTypes

import SchemaTypes.Proofs.Building.Collapse
import SchemaTypes.Proofs.Building.Leftovers
import SchemaTypes.Proofs.Evaluation.Fixpoint
import SchemaTypes.Proofs.Rendering.Endurance
/-!
# Later calls change no earlier result

What a call has handed out, the calls after it leave as it is (`enduresIn_performs`), and a type that was handed out
leads only to what was handed out with it or before.  So the root of a processed document evaluates every value to the
same model and report, and is written the same, whatever is registered or processed afterwards, with success or
without (`process_permanent`).
-/
namespace SchemaTypes

namespace Graph.AgreeOn

open Evaluation

variable {base graph other : Graph}

/-- Graphs that agree on a known property judge by it alike. -/
theorem evaluateProperty_eq (h : base.AgreeOn graph other) (mode : Mode) {id : PropertyId} (hid : base.HasProperty id)
    (value : Option Json) : graph.evaluateProperty mode id value = other.evaluateProperty mode id value := by
  refine Option.ext fun outcome => ?_
  rw [evaluateProperty_eq_some_iff, evaluateProperty_eq_some_iff]
  constructor
  · rintro ⟨bound, hbound⟩
    exact ⟨bound, h.judge (Nat.le_refl _) id value hid outcome hbound⟩
  · rintro ⟨bound, hbound⟩
    exact ⟨bound, h.symm.judge (Nat.le_refl _) id value hid outcome hbound⟩

theorem evaluate_eq (h : base.AgreeOn graph other) (mode : Mode) {type : TypeId} (htype : base.HasType type)
    (value : Json) : graph.evaluate mode type value = other.evaluate mode type value := by
  refine Option.ext fun result => ?_
  rw [evaluate_eq_some_iff, evaluate_eq_some_iff]
  exact exists_congr fun bound => by rw [h.run_eq mode bound htype value]

end Graph.AgreeOn

namespace Session

variable {s later : Session} {config : Config} {calls : List Call} {source : Source} {value : Json} {root : TypeId}

/-- **What a call finds, it leaves as it is**, also if it fails. -/
theorem enduresIn_perform (config : Config) (s : Session) (call : Call) :
    s.graph.EnduresIn (s.perform config call).graph := by
  cases call with
  | register source value => exact .refl _
  | process source value =>
    have hmoves := moves_process config s source value
    have hsince : Since { s.register source value with definitions := [] } (s.register source value) :=
      ⟨.refl _, fun _ _ _ hpending => nomatch hpending⟩
    exact (hmoves.since hsince).endures

theorem enduresIn_of_process {result : Except Halt TypeId} (h : s.process config source value = (result, later)) :
    s.graph.EnduresIn later.graph := by
  have hendures : s.graph.EnduresIn (s.process config source value).2.graph :=
    enduresIn_perform config s (.process source value)
  rwa [h] at hendures

theorem enduresIn_performs (config : Config) (calls : List Call) (s : Session) :
    s.graph.EnduresIn (calls.foldl (Session.perform config) s).graph := by
  induction calls generalizing s with
  | nil => exact .refl _
  | cons call calls ih => exact (enduresIn_perform config s call).trans (ih _)

/-- Sessions with settled redirects agree on what endures from one to the other. -/
theorem Closed.agreeOn (hclosed : s.Closed) (hs : s.Registered) (hlater : later.Registered)
    (hendures : s.graph.EnduresIn later.graph) : s.graph.AgreeOn s.graph later.graph where
  property id hid := (hendures.property id hid).symm
  entry id hid := (hendures.entry id hid).symm
  canonical id hid := by rw [hs.canonical_eq, hlater.canonical_eq, hendures.entry id hid]
  knows id _ := hclosed.properties id
  knowsType id _ := hclosed.types id
  hasCanonical id hid := hclosed.canonical hid

theorem performAll_process (h : (performAll config calls).process config source value = (.ok root, s)) :
    performAll config (calls ++ [.process source value]) = s := by
  rw [performAll_append]
  exact congrArg Prod.snd h

/-- Later calls leave what a call has built a document into, and all that it leads to. -/
theorem agreeOn_process (h : (performAll config calls).process config source value = (.ok root, s))
    (others : List Call) : s.graph.AgreeOn s.graph (others.foldl (perform config) s).graph := by
  obtain rfl := performAll_process h
  have hlater := (collapsed_performAll config ((calls ++ [.process source value]) ++ others)).toRegistered
  rw [performAll_append] at hlater
  exact (orderly_performAll config _).closed.agreeOn (collapsed_performAll config _).toRegistered hlater
    (enduresIn_performs config others _)

/-- **Later calls change no earlier result.**  After them the root of a processed document evaluates as right after its
own call, to the same model and report, and is written the same in every format. -/
theorem process_permanent (h : (performAll config calls).process config source value = (.ok root, s))
    (others : List Call) :
    (∀ mode bound input, Evaluation.run (others.foldl (perform config) s).graph mode bound root input =
      Evaluation.run s.graph mode bound root input) ∧
    (∀ mode input result, s.graph.evaluate mode root input = some result →
      (others.foldl (perform config) s).graph.evaluate mode root input = some result) ∧
    ∀ format : Format, format.render (others.foldl (perform config) s).graph root = format.render s.graph root := by
  have hroot : s.graph.HasType root := ((orderly_performAll config calls).asFinished_process h).2
  have hagree := agreeOn_process h others
  refine ⟨fun mode bound input => (hagree.run_eq mode bound hroot input).symm, fun mode input result hresult => ?_,
    fun format => (hagree.render_eq (.refl _) (enduresIn_performs config others s).grows hroot format).symm⟩
  exact (hagree.evaluate_eq mode hroot input).symm.trans hresult

/-- The document of the twins is replaced by one at fault. -/
def afterTwins : List Call := [.process ⟨"t", "", "T"⟩ unknownType]

set_option maxRecDepth 100000 in
/-- What the twins' document was built into stays, though a later document of its key fails. -/
theorem process_permanent_twins : twinsRun.1.toOption = some ⟨0⟩ ∧
    (twinsRun.2.process oneName ⟨"t", "", "T"⟩ unknownType).1.toOption = none ∧
    (∀ mode bound input, Evaluation.run (afterTwins.foldl (perform oneName) twinsRun.2).graph mode bound ⟨0⟩ input =
      Evaluation.run twinsRun.2.graph mode bound ⟨0⟩ input) ∧
    ∀ format : Format, format.render (afterTwins.foldl (perform oneName) twinsRun.2).graph ⟨0⟩ =
      format.render twinsRun.2.graph ⟨0⟩ := by
  have hfacts : twinsRun.1.toOption = some ⟨0⟩ ∧
      (twinsRun.2.process oneName ⟨"t", "", "T"⟩ unknownType).1.toOption = none := by decide +kernel
  obtain ⟨hok, hfails⟩ := hfacts
  have hrun : (performAll oneName []).process oneName ⟨"t", "", "T"⟩ twins = (.ok ⟨0⟩, twinsRun.2) :=
    eq_ok_of_toOption hok
  obtain ⟨hevaluates, _, hrenders⟩ := process_permanent hrun afterTwins
  exact ⟨hok, hfails, hevaluates, hrenders⟩

end Session
end SchemaTypes

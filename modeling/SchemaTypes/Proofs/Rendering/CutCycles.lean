import SchemaTypes.Proofs.Building.Completion
import SchemaTypes.Proofs.Building.Integrity
import SchemaTypes.Proofs.Building.RedirectEnds
import SchemaTypes.Proofs.Rendering.Descents
/-!
# Cycles are cut

A canonical text and an outline write what a descent comes upon, each entry by itself (`Descent.Entry.text`,
`Descent.Entry.lines`).  So both are finite however properties reach themselves, neither opens a property below itself,
and where a way down is cut short, the marker is that of a property on it (`Session.rendering_ends`).
-/
namespace SchemaTypes

namespace Graph

/-- A property's text up to its validators. -/
def headText (graph : Graph) (current : TypeId) (property : Property) : String :=
  property.name ++ ":" ++ toString property.required ++ ":" ++ property.labelText ++ ":"
    ++ ((property.default.map Json.text).getD "") ++ ":"
    ++ ((property.nested.map (graph.typeText current)).getD "") ++ "["

/-- A validator's text up to the children of its check. -/
def checkText (graph : Graph) (current : TypeId) (validator : Validator) : String :=
  "(" ++ toString validator.priority ++ "|" ++ validator.check.fingerprint
    ++ (match nullFlag? validator.check with
        | some flag => "|null=" ++ toString flag
        | none => "")
    ++ String.join (validator.check.types.map fun id => "|" ++ graph.typeText current id)

end Graph

namespace Descent

variable {graph : Graph} {current : TypeId}

/-! ## Canonical texts -/

/-- A property of the type itself has a line of its own, a child stands in braces. -/
def opening (depth : Nat) : String := if depth = 1 then "" else "\x7b"

def closing (depth : Nat) : String := if depth = 1 then "\n" else "\x7d"

/-- What an entry comes to in a canonical text. -/
def Entry.text (graph : Graph) (current : TypeId) (entry : Entry) : String :=
  match entry.event with
  | .opened depth id => opening depth ++ graph.headText current (graph.property id)
  | .cut depth _ => opening depth ++ "<cycle>" ++ closing depth
  | .check _ validator => graph.checkText current validator
  | .endCheck => ")"
  | .closed depth => "]" ++ closing depth
  | .own _ => "base:"

def textOf (graph : Graph) (current : TypeId) (entries : List Entry) : String :=
  String.join (entries.map (Entry.text graph current))

theorem textOf_cons (entry : Entry) (entries : List Entry) :
    textOf graph current (entry :: entries) = entry.text graph current ++ textOf graph current entries :=
  String.join_cons

theorem textOf_append (entries entries' : List Entry) :
    textOf graph current (entries ++ entries') = textOf graph current entries ++ textOf graph current entries' := by
  unfold textOf
  rw [List.map_append, String.join_append]

theorem textOf_singleton (entry : Entry) : textOf graph current [entry] = entry.text graph current := by
  simp [textOf, String.join_cons]

theorem textOf_flatMap {α : Type} {course : α → List Entry} {text : α → String} (l : List α)
    (h : ∀ a ∈ l, textOf graph current (course a) = text a) :
    textOf graph current (l.flatMap course) = String.join (l.map text) := by
  induction l with
  | nil => rfl
  | cons a l ih =>
    rw [List.flatMap_cons, textOf_append, h a List.mem_cons_self, ih fun b hb => h b (List.mem_cons_of_mem _ hb),
      List.map_cons, String.join_cons]

theorem textOf_checkCourse {child : PropertyId → List Entry} {text : PropertyId → String} (path : List PropertyId)
    (depth : Nat) (validator : Validator)
    (h : ∀ id, textOf graph current (child id) = "\x7b" ++ text id ++ "\x7d") :
    textOf graph current (checkCourse path depth child validator) = graph.validatorText current text validator := by
  rw [checkCourse, textOf_append, textOf_cons, textOf_singleton, textOf_flatMap _ fun id _ => h id]
  rfl

/-- **The entries of a property are its text**, between braces or on a line. -/
theorem textOf_propertyCourse (graph : Graph) (current : TypeId) (path : List PropertyId) (depth : Nat)
    (id : PropertyId) : textOf graph current (propertyCourse graph path depth id) =
    opening depth ++ graph.propertyText current (graph.unopened path) id ++ closing depth := by
  induction path, depth, id using propertyCourse.induct graph with
  | case1 path depth id hopen ih =>
    have hchild : ∀ child, textOf graph current (propertyCourse graph (id :: path) (depth + 2) child) =
        "\x7b" ++ graph.propertyText current (graph.unopened (id :: path)) child ++ "\x7d" := fun child => by
      have hdepth : depth + 2 ≠ 1 := by omega
      rw [ih child, opening, closing, if_neg hdepth, if_neg hdepth]
    have hchecks := textOf_flatMap (graph.property id).validators.toList fun v _ =>
      textOf_checkCourse (id :: path) (depth + 1) v hchild
    rw [propertyCourse, dif_pos hopen, textOf_append, textOf_cons, textOf_singleton, hchecks, Graph.propertyText,
      dif_pos hopen, Graph.erase_unopened]
    simp only [Entry.text, Graph.headText, String.append_assoc]
  | case2 path depth id hnot =>
    rw [propertyCourse, dif_neg hnot, textOf_singleton, Graph.propertyText, dif_neg hnot]
    rfl

/-- **The entries of a type are its canonical text.** -/
theorem textOf_typeCourse (graph : Graph) (id : TypeId) :
    textOf graph (graph.canonical id) (typeCourse graph (graph.entry id)) = graph.canonicalText id := by
  have hproperties := textOf_flatMap (graph.entry id).properties fun property _ =>
    textOf_propertyCourse graph (graph.canonical id) [] 1 property
  have hchecks := textOf_flatMap (graph.entry id).validators.toList fun v _ =>
    textOf_checkCourse [] 2 v (textOf_propertyCourse graph (graph.canonical id) [] 3)
  rw [typeCourse, textOf_append, textOf_cons, hproperties, hchecks]
  simp only [Graph.unopened_nil, Graph.canonicalText, Entry.text, opening, closing, String.empty_append, if_pos,
    String.append_assoc]

/-! ## Outlines -/

/-- What an entry comes to in an outline. -/
def Entry.lines (graph : Graph) (entry : Entry) : List String :=
  match entry.event with
  | .opened depth id =>
    Outline.headLine depth (graph.property id) ::
      ((graph.property id).description.toList.map fun text => Outline.indent depth ++ "  // " ++ text)
      ++ (graph.property id).decorators.map fun decorator =>
          Outline.indent depth ++ "  @" ++ Outline.decoratorLabel graph decorator
  | .cut depth id => [Outline.headLine depth (graph.property id), Outline.indent depth ++ "  (recursive)"]
  | .check depth validator =>
    [Outline.indent depth ++ "[" ++ toString validator.priority ++ "] " ++ Outline.checkLabel graph validator.check]
  | .own validators => if validators.isEmpty then [] else ["  object:"]
  | .endCheck | .closed _ => []

def linesOf (graph : Graph) (entries : List Entry) : List String := entries.flatMap (Entry.lines graph)

theorem linesOf_flatMap {α : Type} {course : α → List Entry} {lines : α → List String} (l : List α)
    (h : ∀ a ∈ l, linesOf graph (course a) = lines a) : linesOf graph (l.flatMap course) = l.flatMap lines := by
  unfold linesOf
  rw [List.flatMap_assoc]
  exact flatMap_congr_left h

theorem linesOf_checkCourse {child : PropertyId → List Entry} {lines : PropertyId → List String}
    (path : List PropertyId) (depth : Nat) (validator : Validator) (h : ∀ id, linesOf graph (child id) = lines id) :
    linesOf graph (checkCourse path depth child validator) = Outline.validatorLines graph depth lines validator := by
  have hchildren := linesOf_flatMap validator.check.children fun id _ => h id
  unfold linesOf at hchildren
  simp [linesOf, checkCourse, Entry.lines, Outline.validatorLines, hchildren]

/-- **The entries of a property are its lines.** -/
theorem linesOf_propertyCourse (graph : Graph) (path : List PropertyId) (depth : Nat) (id : PropertyId) :
    linesOf graph (propertyCourse graph path depth id) =
      Outline.propertyLines graph (graph.unopened path) depth id := by
  induction path, depth, id using propertyCourse.induct graph with
  | case1 path depth id hopen ih =>
    have hchecks := linesOf_flatMap (graph.property id).validators.toList fun v _ =>
      linesOf_checkCourse (id :: path) (depth + 1) v ih
    unfold linesOf at hchecks
    rw [propertyCourse, dif_pos hopen, Outline.propertyLines, dif_pos hopen, Graph.erase_unopened]
    simp [linesOf, Entry.lines, hchecks]
  | case2 path depth id hnot =>
    rw [propertyCourse, dif_neg hnot, Outline.propertyLines, dif_neg hnot]
    rfl

/-- The lines of an outline above the properties. -/
def heading (graph : Graph) (id : TypeId) : List String :=
  ("class " ++ (graph.type id).name.qualified)
    :: ((graph.type id).description.toList.map fun text => "  // " ++ text)
    ++ ((graph.usedTypes id).map fun name => "  uses " ++ name)

/-- **The entries of a type are the lines of its outline.** -/
theorem linesOf_typeCourse (graph : Graph) (id : TypeId) :
    heading graph id ++ linesOf graph (typeCourse graph (graph.type id)) = Outline.typeLines graph id := by
  have hproperties := linesOf_flatMap (graph.type id).properties fun property _ =>
    linesOf_propertyCourse graph [] 1 property
  have hchecks := linesOf_flatMap (graph.type id).validators.toList fun v _ =>
    linesOf_checkCourse [] 2 v (linesOf_propertyCourse graph [] 3)
  have hnone : (graph.type id).validators.isEmpty = true → (graph.type id).validators.toList = [] := fun hempty =>
    List.map_eq_nil_iff.2 (List.isEmpty_iff.1 hempty)
  unfold linesOf at hproperties hchecks
  rw [linesOf, typeCourse, List.flatMap_append, List.flatMap_cons, hproperties, hchecks, Graph.unopened_nil]
  unfold heading Outline.typeLines Entry.lines
  simp only [List.append_assoc]
  split
  · rename_i hempty
    rw [hnone hempty]
    rfl
  · rfl

end Descent

namespace Session

open Descent

/-- **Canonical texts and outlines end, whatever properties reach themselves.**  After any calls, whichever of them
failed, and at every write that comes next, looking up types ends and so does gathering what a type uses.  For each type
the steps of a descent, which nothing but the path of open properties stops, come to an end.  What they have written by
then is the canonical text, and in lines below a heading it is the outline.  Each entry stands on a way down from the
type that has opened no property twice, and a property that is cut short is on that way already. -/
theorem rendering_ends (config : Config) (calls : List Call) {m : Session}
    (hm : Writes config.settings.implicitNull (performAll config calls) m) (id : TypeId) :
    let graph := m.graph
    graph.RedirectsEnd ∧ (∀ type, (graph.entry (graph.canonical type)).redirect = none) ∧
    (WellFounded fun later walk => Walk.Step graph [] walk later) ∧
    (∃ entries, IsCourse graph (graph.entry id) entries ∧
      graph.canonicalText id = textOf graph (graph.canonical id) entries) ∧
    ∃ entries, IsCourse graph (graph.type id) entries ∧
      Outline.render graph id = String.join ((heading graph id ++ linesOf graph entries).map (· ++ "\n")) := by
  intro graph
  have hclosed : m.Closed := (hm.intact (intact_performs config calls)).toClosed
  have hredirects : graph.RedirectsEnd := redirectsEnd_writes hm
  have hentry : IsCourse graph (graph.entry id) (typeCourse graph (graph.entry id)) :=
    isCourse_typeCourse hclosed.properties (hclosed.types id)
  have htype : IsCourse graph (graph.type id) (typeCourse graph (graph.type id)) :=
    isCourse_typeCourse hclosed.properties (hclosed.types (graph.canonical id))
  refine ⟨hredirects, hredirects.stands, Walk.wellFounded_step graph [],
    ⟨_, hentry, (textOf_typeCourse graph id).symm⟩, _, htype, ?_⟩
  rw [linesOf_typeCourse]
  rfl

/-- The graph of rows whose items are rows. -/
def rowsGraph : Graph := (performAll oneName [.process ⟨"t", "", "T"⟩ rows]).graph

set_option maxRecDepth 100000 in
/-- Rows within rows are cut where they are met again. -/
theorem rendering_ends_rows :
    (∃ entries, IsCourse rowsGraph (rowsGraph.entry ⟨0⟩) entries ∧
      rowsGraph.canonicalText ⟨0⟩ = textOf rowsGraph (rowsGraph.canonical ⟨0⟩) entries) ∧
    rowsGraph.canonicalText ⟨0⟩ =
      "x:false:array::[(2|type is array (implicit null)|null=true)(99|items\x7bitem of array a:false:array::" ++
        "[(2|type is array|null=false)(99|items\x7b<cycle>\x7d)]\x7d)]\nbase:" ∧
    ∃ entries, IsCourse rowsGraph (rowsGraph.type ⟨0⟩) entries ∧
      Outline.render rowsGraph ⟨0⟩ =
        String.join ((heading rowsGraph ⟨0⟩ ++ linesOf rowsGraph entries).map (· ++ "\n")) ∧
      linesOf rowsGraph entries =
        ["  x: array", "    [2] type is array (implicit null)", "    [99] items", "      item of array a: array",
          "        [2] type is array", "        [99] items", "          item of array a: array",
          "            (recursive)"] := by
  have hlines : linesOf rowsGraph (typeCourse rowsGraph (rowsGraph.type ⟨0⟩)) =
      ["  x: array", "    [2] type is array (implicit null)", "    [99] items", "      item of array a: array",
        "        [2] type is array", "        [99] items", "          item of array a: array",
        "            (recursive)"] := by decide +kernel
  obtain ⟨-, -, -, htext, entries, hcourse, hrender⟩ :=
    rendering_ends oneName [.process ⟨"t", "", "T"⟩ rows] .refl ⟨0⟩
  have hclosed : (performAll oneName [.process ⟨"t", "", "T"⟩ rows]).Closed := (intact_performs oneName _).toClosed
  have heq : entries = typeCourse rowsGraph (rowsGraph.type ⟨0⟩) :=
    hcourse.unique (isCourse_typeCourse hclosed.properties (hclosed.types _))
  exact ⟨htext, by decide +kernel, entries, hcourse, hrender, heq ▸ hlines⟩

end Session
end SchemaTypes

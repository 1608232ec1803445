import SchemaTypes.Proofs.Building.TypePairs
/-!
# One node at two places

An object node that stands at two places is built twice, and the second type is found to be a duplicate of the first
if the node is plain (`Session.builds_one_type`): it spells no references, and no object in it combines schemas.
Otherwise the name of a class comes into the signature, and two types may remain.
-/
namespace SchemaTypes
namespace Building

open Build

variable {config : Config} {site : Site} {node : Json} {key : Option DefinitionKey} {s : Session}

namespace Pairing

/-- Two runs begin, the second some time after the first. -/
def start (config : Config) {s t : Session} (past : Session) (h : s.Recalls t) : Pairing where
  config
  first := { s with definitions := [] }
  second := { t with definitions := [] }
  past
  filling := []
  grows := h.grows

theorem stands_start {s t : Session} (past : Session) (h : s.Recalls t) (hs : s.Collapsed) (ht : t.Collapsed)
    (hpast : past.Recalls t) : (start config past h).Stands s t :=
  ⟨Course.passes_ofDocument config s, Course.passes_ofDocument config t, hs, ht, hpast⟩

/-- Nothing has been added yet that could differ. -/
theorem matches_start {s t : Session} (past : Session) (h : s.Recalls t) : (start config past h).Matches [] s t := by
  have hnone : ∀ (graph : Graph) (id : PropertyId), graph.properties.size ≤ id.index → graph.property id = default :=
    fun graph id hid => by
      unfold Graph.property
      rw [Array.getD_eq_getD_getElem?, Array.getElem?_eq_none hid]
      rfl
  have hoffset : t.graph.properties.size = s.graph.properties.size + (start config past h).offset :=
    (Nat.add_sub_cancel' h.grows.properties).symm
  refine ⟨⟨hoffset, fun id hid => ?_, fun id hid child hchild => ?_⟩, fun id hid type htype => ?_,
    fun _ htype => absurd htype List.not_mem_nil, fun _ hpair => absurd hpair List.not_mem_nil,
    fun _ hpair => absurd hpair List.not_mem_nil, fun _ hpair => absurd hpair List.not_mem_nil⟩
  · have hid' : t.graph.properties.size ≤ (id.shifted (start config past h).offset).index :=
      hoffset ▸ Nat.add_le_add_right hid _
    rw [hnone s.graph id hid, hnone t.graph _ hid']
    exact (Property.shifted_of_empty _ _ rfl).symm
  · rw [hnone s.graph id hid] at hchild
    exact absurd hchild List.not_mem_nil
  · rw [hnone s.graph id hid] at htype
    exact absurd htype List.not_mem_nil

end Pairing

/-- The type of a plain object node is found again whenever the node is built again. -/
theorem typeOf_once {bound bound' : Nat} {site' : Site} {key' : Option DefinitionKey} {type type' : TypeId}
    {m t m' : Session} (hs : s.Collapsed) (hobject : Keyword.isObject node = true) (hplain : Plain node)
    (h : (typeOf (property bound) site node key).Runs config s type m) (hbetween : m.Precedes t)
    (h' : (typeOf (property bound') site' node key').Runs config t type' m') : type' = type ∧ m.Registers type := by
  have hst : s.Precedes t := ((confined_property bound).precedes_typeOf h).trans hbetween
  have htwins : (Pairing.start config m hst.recalls).Twins [] (typeOf (property bound) site node key)
      (typeOf (property bound') site' node key') fun known type type' => type = type' ∧ type ∈ known :=
    Pairing.twins_typeOf (parallel_property bound bound') hplain (hplain.get?_eq_none hobject)
      (unbegun_outside s key) (unbegun_outside t key')
  obtain ⟨known, _, hmatches, rfl, hknown⟩ := htwins.both s t type type' m m'
    (Pairing.stands_start m hst.recalls hs (hst.collapsed hs) hbetween.recalls) (Pairing.matches_start m hst.recalls)
    h h' (.refl m)
  exact ⟨rfl, hmatches.known type hknown⟩

end Building

namespace Session

open Building

/-- **A plain object node has one type.**  Whichever properties are built from it in a run, at whatever places, hold
types that are generated as one from then on. -/
theorem builds_one_type {config : Config} {node : Json} {s s' t t' : Session} {id id' : PropertyId}
    (hobject : Keyword.isObject node = true) (hplain : Plain node) (hstart : Precedes {} s)
    (h : Builds config node s id s') (hbetween : Precedes s' t) (h' : Builds config node t id' t') :
    ∃ type, (s'.graph.property id).nested = some type ∧ (t'.graph.property id').nested = some type ∧
      ∀ later, Precedes t' later → later.graph.canonical type = type := by
  obtain ⟨bound, site, key, hrun⟩ := h.runs hobject hplain.get?_reference
  obtain ⟨bound', site', key', hrun'⟩ := h'.runs hobject hplain.get?_reference
  obtain ⟨type, m, htype, hs, hm, hnested⟩ := runs_objectAs (confined_property bound) hrun
  obtain ⟨type', m', htype', ht, hm', hnested'⟩ := runs_objectAs (confined_property bound') hrun'
  obtain ⟨rfl, hregisters⟩ :=
    typeOf_once (hstart.collapsed collapsed_initial) hobject hplain htype (hm.trans hbetween) htype'
  refine ⟨type', hnested, hnested', fun later hlater => ?_⟩
  have hrest : m.Precedes later := hm.trans (hbetween.trans (ht.trans (hm'.trans hlater)))
  have hall : Precedes {} later := hstart.trans (hs.trans hrest)
  have hcollapsed := hall.collapsed collapsed_initial
  exact hcollapsed.toRegistered.canonical_of_registers (hrest.recalls.registers hregisters)

/-- An object that holds another one. -/
def folder : Json :=
  .object [("type", .string "object"), ("properties", .object [("owner", .object [("type", .string "object")])])]

theorem plain_folder : Plain folder := by
  have howner : Plain (.object [("type", .string "object")]) := by
    refine plain_of_properties rfl (fun keyword hkeyword => ?_) fun _ hget => nomatch hget
    simp only [List.mem_cons, not_or] at hkeyword
    change List.lookup keyword [("type", _)] = none
    rw [List.lookup_cons, beq_false_of_ne hkeyword.1]
    rfl
  refine plain_of_properties (by decide) (fun keyword hkeyword => ?_) fun properties hget property hmem => ?_
  · simp only [List.mem_cons, not_or] at hkeyword
    change List.lookup keyword [("type", _), ("properties", _)] = none
    rw [List.lookup_cons, beq_false_of_ne hkeyword.1, List.lookup_cons, beq_false_of_ne hkeyword.2.1]
    rfl
  · cases hget
    exact List.mem_singleton.1 hmem ▸ howner

/-- The object as a property of a class, by a name. -/
def folderAt (s : Session) (className name : String) : Except Halt PropertyId × Session :=
  (((property 2 ⟨⟨"t", "", className⟩, name, false, false⟩ folder).run oneName).run).run s

def folderFirst : Session := (folderAt {} "T" "x").2

def folderAgain : Session := (folderAt folderFirst "U" "y").2

set_option maxRecDepth 100000 in
/-- The second property holds the type that was made for the first. -/
theorem builds_one_type_folder : (folderFirst.graph.property ⟨1⟩).nested = some ⟨0⟩ ∧
    (folderAgain.graph.property ⟨3⟩).nested = some ⟨0⟩ ∧
      ∀ later, Precedes folderAgain later → later.graph.canonical ⟨0⟩ = ⟨0⟩ := by
  have hfacts : (folderAt {} "T" "x").1.toOption = some ⟨1⟩ ∧
      (folderAt folderFirst "U" "y").1.toOption = some ⟨3⟩ ∧
      (folderFirst.graph.property ⟨1⟩).nested = some ⟨0⟩ := by decide +kernel
  obtain ⟨hfirst, hagain, hheld⟩ := hfacts
  obtain ⟨type, hnested, hnested', hlater⟩ := builds_one_type (by decide) plain_folder .refl
    (.part (eq_ok_of_toOption hfirst)) .refl (.part (eq_ok_of_toOption hagain))
  obtain rfl : (⟨0⟩ : TypeId) = type := Option.some.inj (hheld.symm.trans hnested)
  exact ⟨hnested, hnested', hlater⟩

/-! ## Objects that combine schemas -/

/-- The type that a property of a type holds, as it is generated. -/
def heldBy (session : Session) (type : TypeId) (name : String) : Option TypeId :=
  (session.graph.findProperty? type name).bind fun id =>
    (session.graph.property id).nested.map session.graph.canonical

/-- Two properties of one node. -/
def pair (node : Json) : Json :=
  .object [("type", .string "object"), ("properties", .object [("x", node), ("y", node)])]

/-- An object, and no string. -/
def noString : Json := .object [("type", .string "object"), ("not", .object [("type", .string "string")])]

def noStringRun : Except Halt TypeId × Session := process {} oneName ⟨"t", "", "T"⟩ (pair noString)

set_option maxRecDepth 100000 in
/-- **A branch of an object brings its class name into the signature.**  The branch is a property that is called by
the name of the class it belongs to, and names of properties take part. -/
theorem not_forall_heldBy_pair : ¬ ∀ (config : Config) (source : Source) (node : Json) (root : TypeId) (s : Session),
    Keyword.isObject node = true → Building.references node = [] →
    process {} config source (pair node) = (.ok root, s) → s.heldBy root "x" = s.heldBy root "y" := by
  intro h
  have hfacts : noStringRun.1.toOption = some ⟨0⟩ ∧ noStringRun.2.heldBy ⟨0⟩ "x" = some ⟨1⟩ ∧
      noStringRun.2.heldBy ⟨0⟩ "y" = some ⟨2⟩ := by decide +kernel
  obtain ⟨hok, hx, hy⟩ := hfacts
  have hsame := h oneName ⟨"t", "", "T"⟩ noString ⟨0⟩ noStringRun.2 (by decide) (by decide) (eq_ok_of_toOption hok)
  rw [hx, hy] at hsame
  cases hsame

end Session

/-! ## Objects that refer to themselves -/

mutual
/-- The value with every reference in it leading to one place. -/
def Json.referringTo (reference : String) : Json → Json
  | .array items => .array (referringToOfItems reference items)
  | .object members => .object (referringToOfMembers reference members)
  | other => other
def Json.referringToOfItems (reference : String) : List Json → List Json
  | [] => []
  | item :: rest => item.referringTo reference :: referringToOfItems reference rest
def Json.referringToOfMembers (reference : String) : List (String × Json) → List (String × Json)
  | [] => []
  | (name, value) :: rest =>
    (name, if name = "$ref" then .string reference else value.referringTo reference) ::
      referringToOfMembers reference rest
end

namespace Session

/-- Two definitions of one node, each referring to itself, and a property of each. -/
def pairOfDefinitions (node : Json) : Json :=
  .object [("type", .string "object"),
    ("definitions", .object [("X", node.referringTo "#/definitions/X"), ("Y", node.referringTo "#/definitions/Y")]),
    ("properties", .object [("x", .object [("$ref", .string "#/definitions/X")]),
      ("y", .object [("$ref", .string "#/definitions/Y")])])]

/-- An object that may hold one more of its kind. -/
def link : Json :=
  .object [("type", .string "object"), ("properties", .object [("next", .object [("$ref", .string "")])])]

def linkRun : Except Halt TypeId × Session := process {} oneName ⟨"t", "", "T"⟩ (pairOfDefinitions link)

set_option maxRecDepth 100000 in
/-- **A reference back brings its class name into the signature.**  The property that stands for it is declared with
the name of the class that is being built, and declared types take part. -/
theorem not_forall_heldBy_pairOfDefinitions : ¬ ∀ (config : Config) (source : Source) (node : Json) (root : TypeId)
    (s : Session), Keyword.isObject node = true →
    process {} config source (pairOfDefinitions node) = (.ok root, s) → s.heldBy root "x" = s.heldBy root "y" := by
  intro h
  have hfacts : linkRun.1.toOption = some ⟨0⟩ ∧ linkRun.2.heldBy ⟨0⟩ "x" = some ⟨1⟩ ∧
      linkRun.2.heldBy ⟨0⟩ "y" = some ⟨2⟩ := by decide +kernel
  obtain ⟨hok, hx, hy⟩ := hfacts
  have hsame := h oneName ⟨"t", "", "T"⟩ link ⟨0⟩ linkRun.2 (by decide) (eq_ok_of_toOption hok)
  rw [hx, hy] at hsame
  cases hsame

end Session
end SchemaTypes

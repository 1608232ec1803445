import SchemaTypes.Proofs.Building.Coherence
import SchemaTypes.Proofs.Building.Recurrences
/-!
# One type for every reference to an object

A definition whose node is an object answers for one type from the moment it is begun: the type that has been reserved
for it while it is in progress, and what is generated for that type once it is built (`Session.Answers`).  Whatever a
reference to it finds, the property it gets stands for that type.  So two references to one object hold one type in the
end, be it that one of them has begun the definition, was met while that was built, or found it built
(`Session.refer_one_type`).

The calls must not replace a document by another one, and what opens a definition anew must not come between the two:
processing a document reserves a type of its own for the root, whatever its definition answered for before.
-/
namespace SchemaTypes

namespace Session

open Building

variable {config : Config} {opens : DefinitionKey → Prop} {stores : Session → Source → Json → Prop}
  {s m s' t t' later : Session} {key : DefinitionKey} {id id' : PropertyId} {source : Source} {value : Json}
  {type other : TypeId}

/-- The definition is in progress with the type, or built and holds what is generated for it. -/
def Answers (s : Session) (key : DefinitionKey) (type : TypeId) : Prop :=
  s.InProgress key (some type) ∨ ∃ definition, s.definition? key = some (.built definition) ∧ s.Embodies definition type

/-- The property holds the type, or what is generated for it. -/
def Bears (s : Session) (id : PropertyId) (type : TypeId) : Prop :=
  (s.graph.property id).nested = some type ∨ s.Embodies id type

/-- What every passage leaves alone. -/
structure Steady (s : Session) : Prop where
  collapsed : s.Collapsed
  placed : s.Placed
  distinct : Distinct s.documents

theorem Passages.steady (h : Passages config opens stores {} s) : s.Steady := ⟨h.collapsed, h.placed, h.distinct⟩

theorem Passage.steady (h : Passage config opens stores s s') (hs : s.Steady) : s'.Steady :=
  ⟨h.precedes.collapsed hs.collapsed, h.placed hs.placed, h.distinct hs.distinct⟩

/-! ## Passages keep what is answered -/

theorem Registered.canonical_canonical (h : s.Registered) (type : TypeId) :
    s.graph.canonical (s.graph.canonical type) = s.graph.canonical type := by
  rw [h.canonical_eq type]
  cases hredirect : (s.graph.entry type).redirect with
  | none => rw [Option.getD_none, h.canonical_eq, hredirect, Option.getD_none]
  | some target => exact Graph.follow_eq_self (h.redirects type target hredirect).1 _

theorem Passage.canonical (h : Passage config opens stores s s') (hs : s.Collapsed)
    (hfinished : (s.graph.entry type).signature ≠ none) : s'.graph.canonical type = s.graph.canonical type := by
  rw [(h.precedes.collapsed hs).toRegistered.canonical_eq, hs.toRegistered.canonical_eq, h.entry hfinished]

theorem Embodies.passage (h : s.Embodies id type) (hs : s.Steady) (hpassage : Passage config opens stores s s') :
    s'.Embodies id type := by
  refine ⟨(hpassage.entry h.signature).symm ▸ h.signature, ?_⟩
  rw [hpassage.canonical hs.collapsed h.signature]
  exact hpassage.nested hs.placed h.nested

theorem Bears.passage (h : s.Bears id type) (hs : s.Steady) (hpassage : Passage config opens stores s s') :
    s'.Bears id type :=
  h.imp (hpassage.nested hs.placed) fun hembodies => hembodies.passage hs hpassage

/-- **A definition goes on answering for its type**, unless it is opened anew. -/
theorem Answers.passage (h : s.Answers key type) (hs : s.Steady)
    (hpassage : Passage config (fun opened => opened ≠ key) stores s s') : s'.Answers key type := by
  have hsame : s'.definition? key = s.definition? key → s'.Answers key type := by
    rintro hdefinition
    refine h.imp (fun ⟨waiting, hpending⟩ => ⟨waiting, hdefinition ▸ hpending⟩) ?_
    rintro ⟨definition, hbuilt, hembodies⟩
    exact ⟨definition, hdefinition ▸ hbuilt, hembodies.passage hs hpassage⟩
  have hall := hpassage
  cases hpassage with
  | deed hdeed =>
    cases hdeed.turn key with
    | same hdefinition => exact hsame hdefinition
    | begun hnone =>
      rcases h with ⟨_, hpending⟩ | ⟨_, hbuilt, _⟩
      · cases hnone.symm.trans hpending
      · cases hnone.symm.trans hbuilt
    | awaited hwaits =>
      rcases h with ⟨_, hpending⟩ | ⟨_, hbuilt, _⟩
      · cases hwaits.symm.trans hpending
      · cases hwaits.symm.trans hbuilt
    | completed hfound _ _ hembodies hset =>
      rcases h with ⟨_, hpending⟩ | ⟨_, hbuilt, _⟩
      · cases hfound.symm.trans hpending
        exact Or.inr ⟨_, hset, (hembodies type rfl).passage hs hall⟩
      · cases hfound.symm.trans hbuilt
  | store => exact hsame rfl
  | root hne =>
    refine hsame ?_
    rw [definition?_setDefinition, if_neg (Ne.symm hne)]

/-- What every passage between steady sessions keeps, passages keep. -/
theorem Passages.steadily {P : Session → Prop}
    (hpassage : ∀ m m', m.Steady → Passage config opens stores m m' → P m → P m')
    (h : Passages config opens stores s s') (hs : s.Steady) (hP : P s) : P s' :=
  (h.keeps (P := fun m => m.Steady ∧ P m)
    (fun m m' hlast hm => ⟨hlast.steady hm.1, hpassage m m' hm.1 hlast hm.2⟩) ⟨hs, hP⟩).2

theorem Passages.embodies (h : Passages config opens stores s s') (hs : s.Steady) (hid : s.Embodies id type) :
    s'.Embodies id type :=
  h.steadily (P := (·.Embodies id type)) (fun _ _ hm hpassage hembodies => hembodies.passage hm hpassage) hs hid

theorem Passages.bears (h : Passages config opens stores s s') (hs : s.Steady) (hid : s.Bears id type) :
    s'.Bears id type :=
  h.steadily (P := (·.Bears id type)) (fun _ _ hm hpassage hbears => hbears.passage hm hpassage) hs hid

theorem Passages.answers (h : Passages config (fun opened => opened ≠ key) stores s s') (hs : s.Steady)
    (hkey : s.Answers key type) : s'.Answers key type :=
  h.steadily (P := (·.Answers key type)) (fun _ _ hm hpassage hanswers => hanswers.passage hm hpassage) hs hkey

theorem Passages.canonical (h : Passages config opens stores s s') (hs : s.Steady)
    (hfinished : (s.graph.entry type).signature ≠ none) : s'.graph.canonical type = s.graph.canonical type := by
  refine (h.steadily (P := fun m => (m.graph.entry type).signature ≠ none ∧
    m.graph.canonical type = s.graph.canonical type) (fun m m' hm hpassage hP => ?_) hs ⟨hfinished, rfl⟩).2
  exact ⟨(hpassage.entry hP.1).symm ▸ hP.1, (hpassage.canonical hm.collapsed hP.1).trans hP.2⟩

/-- A definition answers for one type, from then on. -/
theorem Answers.canonical_eq (h : s.Answers key type) (h' : s.Answers key other) (hs : s.Steady)
    (hlater : Passages config opens stores s later) : later.graph.canonical type = later.graph.canonical other := by
  rcases h with ⟨_, hpending⟩ | ⟨definition, hbuilt, hembodies⟩ <;>
    rcases h' with ⟨_, hpending'⟩ | ⟨definition', hbuilt', hembodies'⟩
  · cases hpending.symm.trans hpending'
    rfl
  · cases hpending.symm.trans hbuilt'
  · cases hbuilt.symm.trans hpending'
  · cases hbuilt.symm.trans hbuilt'
    rw [hlater.canonical hs hembodies.signature, hlater.canonical hs hembodies'.signature]
    exact Option.some.inj (hembodies.nested.symm.trans hembodies'.nested)

/-- What a property bears is what is generated for the type it holds. -/
theorem Bears.canonical_eq (h : s.Bears id type) (hs : s.Registered) :
    ∃ held, (s.graph.property id).nested = some held ∧ s.graph.canonical held = s.graph.canonical type := by
  rcases h with hnested | hembodies
  · exact ⟨type, hnested, rfl⟩
  · exact ⟨_, hembodies.nested, hs.canonical_canonical type⟩

/-! ## Documents that are not replaced by others -/

/-- The document is the one already stored under its key, if there is one. -/
def KeepsContents (s : Session) (source : Source) (value : Json) : Prop :=
  ∀ document, s.documents.get? source.key = some document → document.value = value

theorem KeepsContents.nodeAt? (h : s.KeepsContents source value) {node : Json}
    (hnode : Building.nodeAt? s.documents key = some node) :
    Building.nodeAt? (s.register source value).documents key = some node := by
  unfold Building.nodeAt? at hnode ⊢
  obtain ⟨document, hdocument, hlookup⟩ := Option.bind_eq_some_iff.1 hnode
  by_cases hkey : key.document = source.key
  · rw [hkey] at hdocument ⊢
    rw [← h document hdocument]
    exact (congrArg (Option.bind · _) (Reference.Documents.get?_insert_self s.documents _)).trans hlookup
  · have hkept : (s.register source value).documents.get? key.document = some document :=
      (Reference.Documents.get?_insert_of_ne s.documents _ hkey).trans hdocument
    exact (congrArg (Option.bind · _) hkept).trans hlookup

theorem Passage.nodeAt? (h : Passage config opens KeepsContents s s') {node : Json}
    (hnode : Building.nodeAt? s.documents key = some node) : Building.nodeAt? s'.documents key = some node := by
  cases h with
  | deed hdeed => exact hdeed.documents.symm ▸ hnode
  | store hkeeps => exact hkeeps.nodeAt? hnode
  | root => exact hnode

/-- A definition that has been begun has a node, and answers for a type if the node is an object. -/
def Answered (s : Session) : Prop :=
  ∀ key, s.definition? key ≠ none → ∃ node, Building.nodeAt? s.documents key = some node ∧
    (Keyword.isObject node = true → ∃ type, s.Answers key type)

theorem Passage.answered (h : Passage config (fun _ => True) KeepsContents s s') (hsteady : s.Steady)
    (hs : s.Answered) : s'.Answered := by
  intro key hbegun
  -- A definition that is not opened goes on as it was.
  have hkeeps : s.definition? key ≠ none → (∀ type, s.Answers key type → s'.Answers key type) →
      ∃ node, Building.nodeAt? s'.documents key = some node ∧
        (Keyword.isObject node = true → ∃ type, s'.Answers key type) := by
    intro hknown hanswers
    obtain ⟨node, hnode, hobject⟩ := hs key hknown
    refine ⟨node, h.nodeAt? hnode, fun h => ?_⟩
    obtain ⟨type, htype⟩ := hobject h
    exact ⟨type, hanswers type htype⟩
  have hnodes : ∀ node, Building.nodeAt? s.documents key = some node →
      Building.nodeAt? s'.documents key = some node := fun node => h.nodeAt?
  cases h with
  | deed hdeed =>
    have hpassage : Passage config (fun opened => opened ≠ key) KeepsContents s s' := .deed hdeed
    cases hdeed.turn key with
    | begun _ hnode htype hset =>
      refine ⟨_, hnodes _ hnode, fun hobject => ?_⟩
      obtain ⟨type, rfl⟩ := Option.isSome_iff_exists.1 (htype.trans hobject)
      exact ⟨type, Or.inl ⟨[], hset⟩⟩
    | same hsame => exact hkeeps (hsame ▸ hbegun) fun type htype => htype.passage hsteady hpassage
    | awaited hwaits =>
      exact hkeeps (hwaits ▸ Option.some_ne_none _) fun type htype => htype.passage hsteady hpassage
    | completed hfound =>
      exact hkeeps (hfound ▸ Option.some_ne_none _) fun type htype => htype.passage hsteady hpassage
  | @store source value hcontents =>
    have hpassage : Passage config (fun opened => opened ≠ key) KeepsContents s (s.register source value) :=
      .store hcontents
    exact hkeeps hbegun fun type htype => htype.passage hsteady hpassage
  | @root opened type node _ hnode hu =>
    by_cases hkey : opened = key
    · subst hkey
      refine ⟨node, hnode, fun _ => ⟨type, Or.inl ⟨[], ?_⟩⟩⟩
      rw [definition?_setDefinition, if_pos rfl]
    · have hpassage : Passage config (fun opened => opened ≠ key) KeepsContents s
          (s.setDefinition opened (.inProgress (some type) [])) := .root hkey hnode hu
      rw [definition?_setDefinition, if_neg (Ne.symm hkey)] at hbegun
      exact hkeeps hbegun fun type htype => htype.passage hsteady hpassage

theorem Passages.answered (h : Passages config (fun _ => True) KeepsContents {} s) : s.Answered := by
  induction h with
  | refl => exact fun _ hbegun => absurd rfl hbegun
  | tail hstart hlast ih => exact hlast.answered (Passages.steady hstart) ih

theorem Passages.nodeAt? (h : Passages config opens KeepsContents s s') {node : Json}
    (hnode : Building.nodeAt? s.documents key = some node) : Building.nodeAt? s'.documents key = some node :=
  h.keeps (P := fun m => Building.nodeAt? m.documents key = some node)
    (fun _ _ hpassage hm => hpassage.nodeAt? hm) hnode

/-! ## References -/

variable {bound bound' : Nat} {site site' : Site} {reference reference' : String} {target target' : Target}

theorem ready_refer (hs : s.Steady) (site : Site) (reference : String) :
    (Trail.mk config False site.scope.document [reference] []).Ready s :=
  ⟨hs.distinct, hs.collapsed, fun hfalse => hfalse.elim, fun hfalse => hfalse.elim, fun hfalse => hfalse.elim,
    fun hfalse => hfalse.elim, fun _ hmem => absurd hmem List.not_mem_nil⟩

/-- Whatever it leads to, a reference does deeds. -/
theorem deeds_refer (hs : s.Steady) (h : (refer (property bound) site reference).Runs config s id s') :
    Deeds config False s s' := by
  have hmakes : (Trail.mk config False site.scope.document [reference] []).Makes
      (refer (property bound) site reference) :=
    Trail.makes_refer (fun _ => Trail.accepts_property bound _) rfl List.mem_cons_self
  exact (hmakes (ready_refer hs site reference) h).1.deeds

/-- **A reference to an object gets a property that bears the type its definition answers for.** -/
theorem refer_answers (hs : Passages config (fun _ => True) KeepsContents {} s)
    (htarget : targetIn? s.documents site.scope.document reference = some target)
    (hobject : Keyword.isObject target.node = true) (h : (refer (property bound) site reference).Runs config s id s') :
    ∃ type, s'.Answers target.key type ∧ s'.Bears id type := by
  have hsteady := hs.steady
  have hready : (Trail.mk config False site.scope.document [reference] []).Ready s := ready_refer hsteady site reference
  have hnode := nodeAt?_target hs.distinct htarget
  obtain ⟨found, hfound, hcases⟩ := runs_refer h
  cases htarget.symm.trans hfound
  have hknown : s.definition? target.key ≠ none → ∃ type, s.Answers target.key type := by
    intro hbegun
    obtain ⟨node, hnode', hanswers⟩ := hs.answered target.key hbegun
    cases hnode.symm.trans hnode'
    exact hanswers hobject
  -- A copy of what is built bears what that embodies.
  have hcopies : ∀ {m : Session} {definition : PropertyId} {type : TypeId}, m.Steady →
      m.definition? target.key = some (.built definition) → m.Embodies definition type →
      (copy definition site).Runs config m id s' → ∃ type, s'.Answers target.key type ∧ s'.Bears id type := by
    intro m definition type hm hbuilt hembodies hcopy
    obtain ⟨hafter, hnested, _⟩ := Trail.after_copy ⟨config, False, "", [], []⟩ hbuilt hcopy
    have hpassages : Passages config (fun opened => opened ≠ target.key) KeepsContents m s' :=
      Deeds.passages hafter.deeds
    have hlater := hpassages.embodies hm hembodies
    refine ⟨type, hpassages.answers hm (Or.inr ⟨definition, hbuilt, hembodies⟩), Or.inr ?_⟩
    exact ⟨hlater.signature, by
      rw [hnested, hembodies.nested, Deeds.canonical hafter.deeds hm.collapsed hembodies.signature]⟩
  rcases hcases with ⟨definition, hbuilt, hcopy⟩ | ⟨known, waiting, hpending, hplaceholder⟩ |
    ⟨hnone, definition, m, hdefine, hcopy⟩
  · obtain ⟨type, ⟨_, hpending⟩ | ⟨_, hbuilt', hembodies⟩⟩ := hknown (hbuilt ▸ Option.some_ne_none _)
    · cases hbuilt.symm.trans hpending
    · cases hbuilt.symm.trans hbuilt'
      exact hcopies hsteady hbuilt hembodies hcopy
  · obtain ⟨type, hanswers⟩ := hknown (hpending ▸ Option.some_ne_none _)
    obtain ⟨hafter, hnested, _⟩ := Trail.after_placeholder hready rfl List.mem_cons_self htarget hpending hplaceholder
    have hpassages : Passages config (fun opened => opened ≠ target.key) KeepsContents s s' :=
      Deeds.passages hafter.deeds
    refine ⟨type, hpassages.answers hsteady hanswers, Or.inl ?_⟩
    rcases hanswers with ⟨_, hpending'⟩ | ⟨_, hbuilt, _⟩
    · cases hpending.symm.trans hpending'
      exact hnested
    · cases hpending.symm.trans hbuilt
  · obtain ⟨hafter, hbuilt, hembodies⟩ := Trail.runs_define (Trail.accepts_property bound _) hready List.mem_cons_self
      htarget hnone hdefine
    obtain ⟨type, hembodies⟩ := hembodies hobject
    have hpassages : Passages config (fun _ => True) KeepsContents s m := Deeds.passages hafter.deeds
    exact hcopies (Passages.steady (hs.trans hpassages)) hbuilt hembodies hcopy

/-- **References to one object get one type**, whichever of them is done first and whatever it finds, if no document is
replaced by another one and the object is not opened as a root between them. -/
theorem refer_one_type (hs : Passages config (fun _ => True) KeepsContents {} s)
    (ht : Passages config (fun _ => True) KeepsContents {} t)
    (htarget : targetIn? s.documents site.scope.document reference = some target)
    (htarget' : targetIn? t.documents site'.scope.document reference' = some target')
    (hkey : target'.key = target.key) (hobject : Keyword.isObject target.node = true)
    (h : (refer (property bound) site reference).Runs config s id s')
    (h' : (refer (property bound') site' reference').Runs config t id' t')
    (hbetween : Passages config (fun opened => opened ≠ target.key) KeepsContents s' t')
    (hlater : Passages config (fun _ => True) KeepsContents t' later) :
    ∃ a b, (later.graph.property id).nested = some a ∧ (later.graph.property id').nested = some b ∧
      later.graph.canonical a = later.graph.canonical b := by
  have hdeeds := deeds_refer hs.steady h
  have hdeeds' := deeds_refer ht.steady h'
  have hsteady : s'.Steady := Passages.steady (hs.trans hdeeds.passages)
  have hsteady' : t'.Steady := Passages.steady (ht.trans hdeeds'.passages)
  -- Both references lead to the same node.
  have hobject' : Keyword.isObject target'.node = true := by
    have hnode := hbetween.nodeAt? (hdeeds.documents.symm ▸ nodeAt?_target hs.distinct htarget)
    have hnode' := nodeAt?_target ht.distinct htarget'
    rw [hdeeds'.documents, ← hkey, hnode'] at hnode
    exact Option.some.inj hnode ▸ hobject
  obtain ⟨type, hanswers, hbears⟩ := refer_answers hs htarget hobject h
  obtain ⟨other, hanswers', hbears'⟩ := refer_answers ht htarget' hobject' h'
  -- The definition goes on answering for the type up to where the second reference is done.
  have hcanonical := (hbetween.answers hsteady hanswers).canonical_eq (hkey ▸ hanswers') hsteady' hlater
  have hregistered := (hlater.precedes.collapsed hsteady'.collapsed).toRegistered
  obtain ⟨a, ha, hheld⟩ := (hlater.bears hsteady' (hbetween.bears hsteady hbears)).canonical_eq hregistered
  obtain ⟨b, hb, hheld'⟩ := (hlater.bears hsteady' hbears').canonical_eq hregistered
  exact ⟨a, b, ha, hb, hheld.trans (hcanonical.trans hheld'.symm)⟩

/-- A document that defines an object. -/
def definingObject : Session := register {} ⟨"d", "", "D"⟩ (defining "object")

/-- A reference to the object, from a property of another document. -/
def referTo (s : Session) (name : String) : Except Halt PropertyId × Session :=
  (((refer (property 2) ⟨⟨"b", "", "B"⟩, name, true, false⟩ "d#/definitions/n").run oneName).run).run s

set_option maxRecDepth 100000 in
/-- The second reference finds the object built and gets its type. -/
theorem refer_one_type_object : ∃ a b,
    ((referTo (referTo definingObject "x").2 "y").2.graph.property ⟨1⟩).nested = some a ∧
    ((referTo (referTo definingObject "x").2 "y").2.graph.property ⟨2⟩).nested = some b ∧
    (referTo (referTo definingObject "x").2 "y").2.graph.canonical a =
      (referTo (referTo definingObject "x").2 "y").2.graph.canonical b := by
  have hfacts : (referTo definingObject "x").1.toOption = some ⟨1⟩ ∧
      (referTo (referTo definingObject "x").2 "y").1.toOption = some ⟨2⟩ ∧
      ((targetIn? definingObject.documents "b" "d#/definitions/n").any fun target =>
        target.key = ⟨"d", "/definitions/n"⟩ && Keyword.isObject target.node) = true ∧
      ((targetIn? (referTo definingObject "x").2.documents "b" "d#/definitions/n").any fun target =>
        target.key = ⟨"d", "/definitions/n"⟩) = true := by decide +kernel
  obtain ⟨hfirst, hsecond, htarget, htarget'⟩ := hfacts
  rw [Option.any_eq_true] at htarget htarget'
  obtain ⟨target, htarget, hobject⟩ := htarget
  obtain ⟨target', htarget', hkey'⟩ := htarget'
  rw [Bool.and_eq_true, decide_eq_true_eq] at hobject
  rw [decide_eq_true_eq] at hkey'
  have hs : Passages oneName (fun _ => True) KeepsContents {} definingObject :=
    .single (.store fun document hdocument => nomatch hdocument)
  have hrun : (refer (property 2) ⟨⟨"b", "", "B"⟩, "x", true, false⟩ "d#/definitions/n").Runs oneName definingObject ⟨1⟩
      (referTo definingObject "x").2 := eq_ok_of_toOption hfirst
  have hrun' : (refer (property 2) ⟨⟨"b", "", "B"⟩, "y", true, false⟩ "d#/definitions/n").Runs oneName
      (referTo definingObject "x").2 ⟨2⟩ (referTo (referTo definingObject "x").2 "y").2 := eq_ok_of_toOption hsecond
  have ht : Passages oneName (fun _ => True) KeepsContents {} (referTo definingObject "x").2 :=
    hs.trans (deeds_refer hs.steady hrun).passages
  -- The runs come first: they tell the sites at which the targets are looked up.
  refine refer_one_type hs ht ?_ ?_ (hkey'.trans hobject.1.symm) hobject.2 hrun hrun'
    (deeds_refer ht.steady hrun').passages .refl
  · exact htarget
  · exact htarget'

/-- An object about which nothing is said. -/
def blank : Json := .object [("type", .string "object")]

/-- An object with a property that refers to a document. -/
def referring (document : String) : Json :=
  .object [("type", .string "object"), ("properties", .object [("x", .object [("$ref", .string document)])])]

def referredFirst : Except Halt TypeId × Session :=
  (register {} ⟨"a", "", "A"⟩ blank).process oneName ⟨"b", "", "B"⟩ (referring "a")

def referredRoot : Except Halt TypeId × Session := referredFirst.2.process oneName ⟨"a", "", "A"⟩ blank

def referredAgain : Except Halt TypeId × Session := referredRoot.2.process oneName ⟨"c", "", "C"⟩ (referring "a")

set_option maxRecDepth 100000 in
/-- **Processing a document gives its root a type of its own**, though a reference to it has already been answered.
Later references get the new one. -/
theorem not_forall_heldBy_referring : ¬ ∀ (config : Config) (a b c : Source) (node : Json) (first root again : TypeId)
    (s t later : Session), Keyword.isObject node = true →
    (register {} a node).process config b (referring a.key) = (.ok first, s) →
    s.process config a node = (.ok root, t) → t.process config c (referring a.key) = (.ok again, later) →
    later.heldBy first "x" = later.heldBy again "x" := by
  intro h
  have hfacts : referredFirst.1.toOption = some ⟨0⟩ ∧ referredRoot.1.toOption = some ⟨2⟩ ∧
      referredAgain.1.toOption = some ⟨3⟩ ∧ referredAgain.2.heldBy ⟨0⟩ "x" = some ⟨1⟩ ∧
      referredAgain.2.heldBy ⟨3⟩ "x" = some ⟨2⟩ := by decide +kernel
  obtain ⟨hfirst, hroot, hagain, hx, hy⟩ := hfacts
  have hsame := h oneName ⟨"a", "", "A"⟩ ⟨"b", "", "B"⟩ ⟨"c", "", "C"⟩ blank ⟨0⟩ ⟨2⟩ ⟨3⟩
    referredFirst.2 referredRoot.2 referredAgain.2 (by decide) (eq_ok_of_toOption hfirst) (eq_ok_of_toOption hroot)
    (eq_ok_of_toOption hagain)
  rw [hx, hy] at hsame
  cases hsame

end Session
end SchemaTypes

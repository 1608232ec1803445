import SchemaTypes.Proofs.Building.Agreement
import SchemaTypes.Proofs.Reference.Targets
/-!
# Chains of definitions

A definition that is met while others are being built is built inside them, so nested definitions form chains.
`propertyAlong` builds like `property`, and keeps the chain on the way: it stops where a definition is about to begin
along a chain that is not permitted.  It never does, if a chain is permitted that has no key twice and only targets of
references written in stored documents.  For a definition on the chain is in progress, and what is in progress is not
begun again.

So between two definitions building goes down a node, and with each definition a target is used up.  The recursion bound
allows for that, and processing ends with a type or with a fault, whatever the session (`process_ends`).
-/
namespace SchemaTypes

namespace Building

open Build

/-- The definition that building a node begins: the one it refers to, if nobody has begun that. -/
def begins? (session : Session) (scope : Scope) (node : Json) : Option DefinitionKey := do
  let reference ← node.stringAt? "$ref"
  let target ← target? session.documents scope reference
  if (session.definition? target.key).isSome then none else some target.key

/-- The property of a node inside a chain of definitions, which goes on in what the node begins. -/
def propertyAlong (permitted : List DefinitionKey → Bool) : (bound : Nat) → (chain : List DefinitionKey) → Builder
  | 0, _ => fun _ _ => throw Halt.exhausted
  | bound + 1, chain => fun site node => do
    match begins? (← get) site.scope node with
    | none => nodeProperty (propertyAlong permitted bound chain) site node
    | some key =>
      if permitted (key :: chain) then nodeProperty (propertyAlong permitted bound (key :: chain)) site node
      else throw Halt.exhausted

/-- The root type of a stored document. -/
def rootType (build : Builder) (source : Source) (value : Json) : Build TypeId := do
  let scope : Scope :=
    { document := source.key, namespaceName := source.namespaceName, className := "" }
  let (root, key) ← rootOf source scope value
  let type ← Build.reserve source.namespaceName source.className true
  let className := ((← Build.graph).entry type).name.className
  if let some key := key then
    modify (·.setDefinition key (.inProgress (some type) []))
  fill build { scope with className } type root
  let type ← finish type
  if let some key := key then
    let definition ← Build.addProperty (← instanceProperty className type true)
    complete key definition
  return type

/-- A document, built by the builder for the stored documents. -/
def documentBy (builder : Reference.Documents → Builder) (source : Source) (value : Json) : Build TypeId := do
  modify fun session => { session with
    documents := session.documents.insert ⟨source.key, source.namespaceName, value⟩ }
  rootType (builder (← get).documents) source value

theorem document_eq (source : Source) (value : Json) :
    document source value = documentBy (fun documents => property (recursionBound documents)) source value := rfl

/-- Every key is there once, and a reference written in a stored document names it. -/
def Chained (documents : Reference.Documents) (root : String) (chain : List DefinitionKey) : Prop :=
  chain.Nodup ∧ ∀ key ∈ chain, key ∈ targets documents root

instance (documents : Reference.Documents) (root : String) (chain : List DefinitionKey) :
    Decidable (Chained documents root chain) := inferInstanceAs (Decidable (_ ∧ _))

/-- A chain is no longer than there are targets. -/
theorem Chained.length_le {documents : Reference.Documents} {root : String} {chain : List DefinitionKey}
    (h : Chained documents root chain) : chain.length ≤ (targets documents root).length :=
  (List.subperm_of_subset h.1 h.2).length_le

def permits (documents : Reference.Documents) (root : String) (chain : List DefinitionKey) : Bool :=
  decide (Chained documents root chain)

/-- Builds along chains that are permitted, under the recursion bound. -/
def along (root : String) (documents : Reference.Documents) : Builder :=
  propertyAlong (permits documents root) (recursionBound documents) []

/-! ## What a node begins -/

section Nodes

variable {s : Session} {scope : Scope} {node : Json} {key : DefinitionKey}

theorem begins?_of_target {text : String} {target : Target} (hget : node.get? "$ref" = some (.string text))
    (htarget : targetIn? s.documents scope.document text = some target) (hnone : s.definition? target.key = none) :
    begins? s scope node = some target.key := by
  unfold begins?
  have hstring : node.stringAt? "$ref" = some text := by
    unfold Json.stringAt?
    rw [hget]
    rfl
  rw [hstring, Option.bind_eq_bind, Option.bind_some, target?_eq, htarget, Option.bind_eq_bind, Option.bind_some, hnone]
  rfl

theorem target_of_begins? (h : begins? s scope node = some key) :
    ∃ text target, node.get? "$ref" = some (.string text) ∧
      targetIn? s.documents scope.document text = some target ∧ s.definition? target.key = none ∧
      target.key = key := by
  obtain ⟨text, htext, h⟩ := Option.bind_eq_some_iff.1 h
  obtain ⟨target, htarget, h⟩ := Option.bind_eq_some_iff.1 h
  obtain ⟨value, hvalue, hstring⟩ := Option.bind_eq_some_iff.1 htext
  split at h
  · cases h
  · rename_i hnot
    refine ⟨text, target, ?_, htarget, by simpa using hnot, Option.some.inj h⟩
    cases value with
    | string found =>
      cases hstring
      exact hvalue
    | _ => cases hstring

end Nodes

/-! ## Along the chain -/

namespace Chain

variable {chain : Chain} {root : String}

/-- The levels that are left below a node on the chain, if each target may still be as deep as a document. -/
def remaining (chain : Chain) (root : String) (node : Json) : Nat :=
  ((targets chain.documents root).length - chain.keys.length) * (depthOf chain.documents + 3) + node.levels

/-- What begins along a chain is new to it. -/
theorem chained_extend {s : Session} {key : DefinitionKey} (hs : chain.Holds s)
    (hchain : Chained chain.documents root chain.keys) (hkey : key ∈ targets chain.documents root)
    (hnone : s.definition? key = none) : Chained chain.documents root (chain.extend key).keys := by
  refine ⟨List.nodup_cons.2 ⟨fun hmem => ?_, hchain.1⟩, List.forall_mem_cons.2 ⟨hkey, hchain.2⟩⟩
  have hbegun := hs.begun key hmem
  rw [hnone] at hbegun
  cases hbegun

/-- A definition uses a target up, which makes room for its node. -/
theorem remaining_extend {key : DefinitionKey} {inner : Json} (node : Json)
    (hchain : Chained chain.documents root (chain.extend key).keys)
    (hlevels : inner.levels ≤ depthOf chain.documents + 3) :
    (chain.extend key).remaining root inner < chain.remaining root node := by
  have hlength : chain.keys.length + 1 ≤ (targets chain.documents root).length := hchain.length_le
  have hroom : (targets chain.documents root).length - chain.keys.length =
      ((targets chain.documents root).length - (chain.keys.length + 1)) + 1 := by omega
  have hnode := one_le_levels node
  change ((targets chain.documents root).length - (chain.keys.length + 1)) * (depthOf chain.documents + 3) +
    inner.levels < _
  unfold remaining
  rw [hroom, Nat.succ_mul]
  omega

/-- Building along the chain is building, if the bound allows for what is left. -/
def Follows (root : String) (bound : Nat) (chain : Chain) : Prop := ∀ (site : Site) (node : Json),
  Covered chain.documents root site.scope.document node → chain.remaining root node ≤ bound →
    chain.Agrees (property bound site node)
      (propertyAlong (permits chain.documents root) bound chain.keys site node) fun _ => True

theorem Follows.shares {bound : Nat} {document : String} {node : Json} (h : Follows root bound chain)
    (hmild : Mild node) (hobject : node.isObject = true) (hcovered : Covered chain.documents root document node)
    (hroom : chain.remaining root node ≤ bound + 1) :
    chain.Shares document node (property bound)
      (propertyAlong (permits chain.documents root) bound chain.keys) := by
  rintro site inner rfl hinner
  refine h site inner (hcovered.subset (references_of_entrusts hinner)) ?_
  have hlevels := levels_of_entrusts hinner hmild hobject
  unfold remaining at hroom ⊢
  omega

/-- A definition is built along the chain that it extends. -/
theorem Follows.define {bound : Nat} {place text : String} {node : Json} {target : Target}
    (hextended : Chained chain.documents root (chain.extend target.key).keys)
    (h : Follows root bound (chain.extend target.key)) (htarget : targetIn? chain.documents place text = some target)
    (hroom : chain.remaining root node ≤ bound + 1) :
    chain.Agrees (Building.define (property bound) target)
      (Building.define (propertyAlong (permits chain.documents root) bound (target.key :: chain.keys)) target)
      fun _ => True := by
  have hcovered : Covered (chain.extend target.key).documents root target.key.document target.node :=
    covered_target htarget
  have hleft := Nat.lt_of_lt_of_le (remaining_extend node hextended (levels_target htarget)) hroom
  refine agrees_define (fun hobject => ?_) fun site hsite => ?_
  · exact h.shares (mild_of_isObject hobject) (isObject_of_isObject hobject) hcovered (Nat.le_of_lt hleft)
  · exact h site target.node (hsite ▸ hcovered) (Nat.le_of_lt_succ hleft)

theorem follows_step {bound : Nat}
    (h : ∀ chain : Chain, Chained chain.documents root chain.keys → Follows root bound chain)
    (hchain : Chained chain.documents root chain.keys) {site : Site} {node : Json} {s : Session} (hs : chain.Holds s)
    (hcovered : Covered chain.documents root site.scope.document node)
    (hroom : chain.remaining root node ≤ bound + 1) :
    Build.Agrees chain.config (· = s) (nodeProperty (property bound) site node)
      (match begins? s site.scope node with
        | none => nodeProperty (propertyAlong (permits chain.documents root) bound chain.keys) site node
        | some key =>
          if permits chain.documents root (key :: chain.keys) then
            nodeProperty (propertyAlong (permits chain.documents root) bound (key :: chain.keys)) site node
          else throw Halt.exhausted) fun _ s' => chain.Holds s' ∧ True := by
  cases hbegins : begins? s site.scope node with
  | none =>
    cases hreference : (writtenOut node).get? "$ref" with
    | none =>
      have hwritten : chain.remaining root (writtenOut node) ≤ bound + 1 :=
        Nat.le_trans (Nat.add_le_add_left (levels_writtenOut node) _) hroom
      have hagrees : chain.Agrees (nodeProperty (property bound) site node)
          (nodeProperty (propertyAlong (permits chain.documents root) bound chain.keys) site node) fun _ => True :=
        agrees_nodeProperty_of_none hreference fun hobject hmild =>
          (h chain hchain).shares hmild hobject (hcovered.subset (references_writtenOut node)) hwritten
      exact fun t ht => hagrees t (ht ▸ hs)
    | some reference =>
      refine agrees_nodeProperty_of_some hreference hs fun text target heq htarget hnone => ?_
      subst heq
      exact nomatch hbegins.symm.trans (begins?_of_target (get?_writtenOut hreference) (hs.documents ▸ htarget) hnone)
  | some key =>
    obtain ⟨text, target, hget, htarget, hnone, rfl⟩ := target_of_begins? hbegins
    rw [hs.documents] at htarget
    have hextended := chained_extend hs hchain (hcovered text (mem_references_of_get hget) target htarget) hnone
    have hpermitted : permits chain.documents root (target.key :: chain.keys) = true := decide_eq_true hextended
    simp only
    rw [if_pos hpermitted]
    have hreference : (writtenOut node).get? "$ref" = some (.string text) := by
      rw [writtenOut_of_get? hget, hget]
    refine agrees_nodeProperty_of_some hreference hs fun other found heq hfound _ => ?_
    cases heq
    cases htarget.symm.trans hfound
    exact (h (chain.extend target.key) hextended).define hextended htarget hroom

/-- **Building along a chain is building.** -/
theorem follows : ∀ (bound : Nat) (chain : Chain), Chained chain.documents root chain.keys → Follows root bound chain
  | 0, chain, _ => by
    intro site node _ hroom
    have hnode := one_le_levels node
    unfold remaining at hroom
    omega
  | bound + 1, chain, hchain => by
    -- How the chain goes on from the node is decided by the session that the node is met in.
    intro site node hcovered hroom s hs
    have hstep := follows_step (follows bound) hchain hs hcovered hroom s rfl
    exact ⟨(run_bind _ _ _ _).trans hstep.1, hstep.2⟩

/-! ## Documents -/

/-- The root of a document is an object in a stored document. -/
theorem agrees_rootOf {source : Source} {value : Json} {scope : Scope}
    (hstored : ∃ stored ∈ chain.documents, stored.key = source.key ∧ stored.value = value) :
    chain.Agrees (rootOf source scope value) (rootOf source scope value) fun found =>
      Mild found.1 ∧ found.1.isObject = true ∧ Covered chain.documents source.key source.key found.1 ∧
        found.1.levels ≤ depthOf chain.documents + 3 := by
  unfold rootOf
  split
  · refine agrees_locate.bind fun target htarget => ?_
    split
    · rename_i hobject
      refine agrees_pure ⟨mild_of_isObject hobject, isObject_of_isObject hobject, ?_, levels_target htarget⟩
      obtain ⟨stored, hmem, _, hnode⟩ := targetIn?_spec htarget
      exact covered_of_written hmem (references_subset_lookup hnode) (List.mem_cons_of_mem _ List.mem_cons_self)
    · exact agrees_refuse
  · split
    · rename_i hobject
      obtain ⟨stored, hmem, hkey, rfl⟩ := hstored
      obtain ⟨hmild, hobject⟩ := mild_of_root hobject
      refine agrees_pure ⟨hmild, hobject, covered_of_written hmem (List.Subset.refl _) (hkey ▸ List.mem_cons_self), ?_⟩
      exact Nat.le_trans (levels_le_depth _) (Nat.add_le_add_right (depth_le_depthOf hmem) 3)
    · exact agrees_refuse

/-- The root's type is made by builders that agree on what the root entrusts to them. -/
theorem agrees_rootType {build build' : Builder} {source : Source} {value : Json}
    (hstored : ∃ stored ∈ chain.documents, stored.key = source.key ∧ stored.value = value)
    (hb : ∀ node, Mild node → node.isObject = true → Covered chain.documents source.key source.key node →
      node.levels ≤ depthOf chain.documents + 3 → chain.Shares source.key node build build') :
    chain.Agrees (rootType build source value) (rootType build' source value) fun _ => True := by
  unfold rootType
  refine Agrees.bind (agrees_rootOf hstored) fun found hfound => ?_
  obtain ⟨node, key⟩ := found
  obtain ⟨hmild, hobject, hcovered, hlevels⟩ := hfound
  have hshares := hb node hmild hobject hcovered hlevels
  refine agrees_reserve.andThen fun type => agrees_graph_bind fun graph => ?_
  simp only
  cases key with
  | none =>
    exact Agrees.andThen (agrees_fill hshares) fun _ => agrees_finish.andThen fun _ => agrees_pure trivial
  | some key =>
    refine agrees_setDefinition.andThen fun _ => Agrees.andThen (agrees_fill hshares) fun _ => ?_
    refine agrees_finish.andThen fun _ => agrees_instanceProperty.andThen fun _ => ?_
    exact agrees_addProperty.andThen fun _ => agrees_complete.andThen fun _ => agrees_pure trivial

/-- From when the document is stored, its root is built along chains. -/
theorem agrees_rootType_along (config : Config) {stored : Session} {source : Source} {value : Json}
    (hstored : ∃ document ∈ stored.documents, document.key = source.key ∧ document.value = value) :
    Build.Agrees config (· = stored) (rootType (property (recursionBound stored.documents)) source value)
      (rootType (along source.key stored.documents) source value) fun _ _ => True := by
  have hholds : Holds ⟨config, stored.documents, []⟩ stored := ⟨rfl, fun _ hkey => absurd hkey List.not_mem_nil⟩
  have hfollows : Follows source.key (recursionBound stored.documents) ⟨config, stored.documents, []⟩ :=
    follows _ _ ⟨List.nodup_nil, fun _ hkey => absurd hkey List.not_mem_nil⟩
  have hagrees : Agrees ⟨config, stored.documents, []⟩
      (rootType (property (recursionBound stored.documents)) source value)
      (rootType (along source.key stored.documents) source value) fun _ => True := by
    refine agrees_rootType hstored fun node hmild hobject hcovered hlevels => ?_
    refine hfollows.shares hmild hobject hcovered (Nat.le_succ_of_le ?_)
    obtain ⟨document, hdocument, hkey, _⟩ := hstored
    refine Nat.le_trans ?_ (targets_le_recursionBound ⟨document, hdocument, hkey⟩)
    rw [Nat.succ_mul]
    exact Nat.add_le_add_left hlevels _
  rintro _ rfl
  exact Build.Agrees.imp hagrees (fun _ _ _ => trivial) _ hholds

/-- A document is built along chains. -/
theorem agrees_document (config : Config) (s : Session) (source : Source) (value : Json) :
    Build.Agrees config (· = s) (document source value) (documentBy (along source.key) source value)
      fun _ _ => True := by
  rw [document_eq]
  unfold documentBy
  refine Build.Agrees.bind (Q := fun _ => (· = s.register source value)) ?_ fun _ => agrees_get fun t ht => ?_
  · exact agrees_of_runs (v := ⟨⟩) (fun _ => runs_modify.2 rfl) fun t ht => by rw [ht]; rfl
  · subst ht
    exact agrees_rootType_along config ⟨_, List.mem_append_right _ (List.mem_singleton.2 rfl), rfl, rfl⟩

end Chain
end Building

namespace Session

open Building

/-- Processing along chains that are permitted. -/
def processAlong (session : Session) (config : Config) (source : Source) (value : Json) :
    Except Halt TypeId × Session :=
  (((documentBy (along source.key) source value).run config).run).run session

/-- **Processing ends, with a type or with a fault, whatever the session and the documents in it.**  It is the same
along chains that are permitted: no definition begins inside others unless all their keys are distinct, and targets of
references written in the stored documents. -/
theorem process_ends (config : Config) (session : Session) (source : Source) (value : Json) :
    ((∃ type, (session.process config source value).1 = .ok type) ∨
        ∃ fault, (session.process config source value).1 = .error (.refused fault)) ∧
      session.processAlong config source value = session.process config source value ∧
      ∀ chain, permits (session.register source value).documents source.key chain = true →
        chain.Nodup ∧ (∀ key ∈ chain, key ∈ targets (session.register source value).documents source.key) ∧
          chain.length ≤ (targets (session.register source value).documents source.key).length := by
  obtain ⟨hsame, _, hlasts⟩ := Chain.agrees_document config session source value session rfl
  refine ⟨?_, hsame, fun chain hpermitted => ?_⟩
  · cases hresult : session.process config source value with
    | mk outcome s' =>
      cases outcome with
      | ok type => exact Or.inl ⟨type, rfl⟩
      | error halt =>
        cases halt with
        | refused fault => exact Or.inr ⟨fault, rfl⟩
        | exhausted => exact absurd hresult (hlasts s')
  · have hchained : Chained _ _ chain := of_decide_eq_true hpermitted
    exact ⟨hchained.1, hchained.2, hchained.length_le⟩

end Session
end SchemaTypes

import SchemaTypes.Building.Process
import SchemaTypes.Proofs.Building.Refining
import SchemaTypes.Proofs.Reference.Levels
/-!
# Builders that agree

Builders that agree on all nodes that a node entrusts to them agree on the node: building it with either ends the same
way, and if neither is stopped by its recursion bound on those nodes, neither is on this one (`agrees_nodeProperty`).
What a node refers to is no part of it, so for a reference it is definitions that have to agree.

All along, the documents stay the same, and the definitions of a chain stay begun (`Chain.Holds`).  Nothing else of the
session matters.
-/
namespace SchemaTypes

namespace Build

/-- Both computations end the same way, with a result as said or with a fault. -/
def Agrees (config : Config) (P : Session → Prop) {α : Type} (x x' : Build α) (Q : α → Session → Prop) : Prop :=
  ∀ s, P s → ((x'.run config).run).run s = ((x.run config).run).run s ∧
    (∀ a s', x.Runs config s a s' → Q a s') ∧ ∀ s', ¬ x.Halts config s .exhausted s'

variable {α β : Type} {config : Config} {P P' : Session → Prop} {Q : α → Session → Prop} {R : β → Session → Prop}
  {x x' : Build α} {f f' : α → Build β}

theorem Agrees.imp {Q' : α → Session → Prop} (h : Agrees config P x x' Q) (hQQ' : ∀ a s, Q a s → Q' a s) :
    Agrees config P x x' Q' := fun s hs =>
  ⟨(h s hs).1, fun a s' hrun => hQQ' a s' ((h s hs).2.1 a s' hrun), (h s hs).2.2⟩

theorem Agrees.bind (hx : Agrees config P x x' Q) (hf : ∀ a, Agrees config (Q a) (f a) (f' a) R) :
    Agrees config P (x >>= f) (x' >>= f') R := by
  refine fun s hs => ⟨?_, fun b s' hrun => ?_, fun s' hhalts => ?_⟩
  · obtain ⟨hsame, hresult, _⟩ := hx s hs
    rw [run_bind, run_bind, hsame]
    cases hrun : ((x.run config).run).run s with
    | mk outcome m =>
      cases outcome with
      | ok a => exact (hf a m (hresult a m hrun)).1
      | error halt => rfl
  · obtain ⟨a, m, hxrun, hfrun⟩ := runs_bind.1 hrun
    exact (hf a m ((hx s hs).2.1 a m hxrun)).2.1 b s' hfrun
  · rcases halts_bind.1 hhalts with hxhalts | ⟨a, m, hxrun, hfhalts⟩
    · exact (hx s hs).2.2 s' hxhalts
    · exact (hf a m ((hx s hs).2.1 a m hxrun)).2.2 s' hfhalts

theorem agrees_of_runs {v : α} {t : Session → Session} (hx : ∀ s, x.Runs config s v (t s))
    (hQ : ∀ s, P s → Q v (t s)) : Agrees config P x x Q := by
  refine fun s hs => ⟨rfl, fun a s' hrun => ?_, fun s' => (hx s).not_halts⟩
  obtain ⟨rfl, rfl⟩ := hrun.unique (hx s)
  exact hQ s hs

/-- What comes after looking at the session is about that session. -/
theorem agrees_get {f f' : Session → Build α} (hf : ∀ t, P t → Agrees config (· = t) (f t) (f' t) Q) :
    Agrees config P (get >>= f) (get >>= f') Q := by
  refine fun s hs => ⟨?_, fun a s' hrun => ?_, fun s' hhalts => ?_⟩
  · rw [run_bind, run_bind]
    exact (hf s hs s rfl).1
  · exact (hf s hs s rfl).2.1 a s' (runs_get_bind.1 hrun)
  · exact (hf s hs s rfl).2.2 s' (halts_get_bind.1 hhalts)

end Build

namespace Building

open Build

/-- What is fixed while a chain of definitions is being built. -/
structure Chain where
  config : Config
  documents : Reference.Documents
  keys : List DefinitionKey

namespace Chain

structure Holds (chain : Chain) (s : Session) : Prop where
  documents : s.documents = chain.documents
  begun : ∀ key ∈ chain.keys, (s.definition? key).isSome = true

def extend (chain : Chain) (key : DefinitionKey) : Chain := { chain with keys := key :: chain.keys }

abbrev Agrees {α : Type} (chain : Chain) (x x' : Build α) (q : α → Prop) : Prop :=
  Build.Agrees chain.config chain.Holds x x' fun a s => chain.Holds s ∧ q a

variable {chain : Chain} {α β : Type} {s : Session} {x x' : Build α} {f f' : α → Build β} {q : α → Prop} {r : β → Prop}

theorem Holds.of_extend {key : DefinitionKey} (h : (chain.extend key).Holds s) : chain.Holds s :=
  ⟨h.documents, fun other hother => h.begun other (List.mem_cons_of_mem _ hother)⟩

theorem Holds.define (h : chain.Holds s) (key : DefinitionKey) (definition : Definition) :
    (chain.extend key).Holds (s.setDefinition key definition) := by
  refine ⟨h.documents, fun other hother => ?_⟩
  rw [Session.definition?_setDefinition]
  split
  · rfl
  · rename_i hne
    exact h.begun other ((List.mem_cons.1 hother).resolve_left hne)

/-! ## Sequences and loops -/

theorem agrees_of_tells (hx : Detached x) (h : Tells chain.config x q) : chain.Agrees x x q := by
  refine fun s hs => ⟨rfl, fun a s' hrun => ?_, fun s' => hx.not_exhausted⟩
  obtain ⟨rfl, ha⟩ := h hrun
  exact ⟨hs, ha⟩

theorem agrees_of_detached (hx : Detached x) : chain.Agrees x x fun _ => True := agrees_of_tells hx hx.tells

theorem agrees_pure {a : α} (h : q a) : chain.Agrees (pure a) (pure a) q :=
  agrees_of_tells detached_pure (tells_pure h)

theorem agrees_refuse {fault : SchemaFault} : chain.Agrees (refuse fault) (refuse fault) q :=
  agrees_of_tells detached_refuse tells_refuse

theorem agrees_malformed {name reason : String} : chain.Agrees (malformed name reason) (malformed name reason) q :=
  agrees_refuse

theorem Agrees.imp {q' : α → Prop} (h : chain.Agrees x x' q) (hqq' : ∀ a, q a → q' a) : chain.Agrees x x' q' :=
  Build.Agrees.imp h fun a _ ha => ⟨ha.1, hqq' a ha.2⟩

theorem Agrees.bind (hx : chain.Agrees x x' q) (hf : ∀ a, q a → chain.Agrees (f a) (f' a) r) :
    chain.Agrees (x >>= f) (x' >>= f') r := Build.Agrees.bind hx fun a s hs => hf a hs.2 s hs.1

/-- In one session of the chain. -/
theorem Agrees.at (h : chain.Agrees x x' q) (hs : chain.Holds s) :
    Build.Agrees chain.config (· = s) x x' fun a t => chain.Holds t ∧ q a := fun t ht => h t (ht ▸ hs)

/-- First parts whose result does not matter. -/
theorem Agrees.andThen (hx : chain.Agrees x x' q) (hf : ∀ a, chain.Agrees (f a) (f' a) r) :
    chain.Agrees (x >>= f) (x' >>= f') r := hx.bind fun a _ => hf a

/-- First something that only reads. -/
theorem agrees_behind (hx : Detached x) (hf : ∀ a, chain.Agrees (f a) (f' a) r) :
    chain.Agrees (x >>= f) (x >>= f') r := (agrees_of_detached hx).andThen hf

theorem agrees_graph_bind {f f' : Graph → Build α} (hf : ∀ graph, chain.Agrees (f graph) (f' graph) q) :
    chain.Agrees (Build.graph >>= f) (Build.graph >>= f') q :=
  Build.Agrees.bind (Q := fun _ => chain.Holds) (fun s hs => ⟨rfl, fun graph s' hrun => by
    obtain ⟨_, rfl⟩ := runs_graph.1 hrun
    exact hs, fun _ => Runs.not_halts (runs_graph.2 ⟨rfl, rfl⟩)⟩) hf

theorem agrees_mapM {f f' : β → Build α} : ∀ {l : List β}, (∀ b ∈ l, chain.Agrees (f b) (f' b) fun _ => True) →
    chain.Agrees (l.mapM f) (l.mapM f') fun _ => True
  | [], _ => by
    rw [List.mapM_nil, List.mapM_nil]
    exact agrees_pure trivial
  | b :: l, h => by
    rw [List.mapM_cons, List.mapM_cons]
    refine (h b List.mem_cons_self).andThen fun _ => ?_
    exact (agrees_mapM fun x hx => h x (List.mem_cons_of_mem _ hx)).andThen fun _ => agrees_pure trivial

theorem agrees_foldlM {f f' : α → β → Build α} : ∀ {l : List β} {a : α},
    (∀ b ∈ l, ∀ a, chain.Agrees (f a b) (f' a b) fun _ => True) →
      chain.Agrees (l.foldlM f a) (l.foldlM f' a) fun _ => True
  | [], _, _ => by
    rw [List.foldlM_nil, List.foldlM_nil]
    exact agrees_pure trivial
  | b :: l, a, h => by
    rw [List.foldlM_cons, List.foldlM_cons]
    exact (h b List.mem_cons_self a).andThen fun _ => agrees_foldlM fun x hx => h x (List.mem_cons_of_mem _ hx)

theorem agrees_forM {f f' : α → Build Unit} : ∀ {l : List α}, (∀ a ∈ l, chain.Agrees (f a) (f' a) fun _ => True) →
    chain.Agrees (l.forM f) (l.forM f') fun _ => True
  | [], _ => agrees_pure trivial
  | a :: l, h => by
    change chain.Agrees (f a >>= fun _ => l.forM f) (f' a >>= fun _ => l.forM f') _
    exact (h a List.mem_cons_self).andThen fun _ => agrees_forM fun x hx => h x (List.mem_cons_of_mem _ hx)

theorem agrees_forIn {f f' : β → α → Build (ForInStep α)} : ∀ {l : List β} {a : α},
    (∀ b ∈ l, ∀ a, chain.Agrees (f b a) (f' b a) fun _ => True) →
      chain.Agrees (forIn l a f) (forIn l a f') fun _ => True
  | [], a, _ => by
    rw [List.forIn_nil, List.forIn_nil]
    exact agrees_pure trivial
  | b :: l, a, h => by
    rw [List.forIn_cons, List.forIn_cons]
    refine (h b List.mem_cons_self a).andThen fun next => ?_
    cases next with
    | done a => exact agrees_pure trivial
    | yield a => exact agrees_forIn fun x hx => h x (List.mem_cons_of_mem _ hx)

theorem agrees_option_mapM {f f' : α → Build β} {o : Option α}
    (h : ∀ a ∈ o, chain.Agrees (f a) (f' a) fun _ => True) : chain.Agrees (o.mapM f) (o.mapM f') fun _ => True := by
  cases o with
  | none => exact agrees_pure trivial
  | some a => exact (h a rfl).andThen fun _ => agrees_pure trivial

/-! ## Writes -/

/-- A write of something else than documents and definitions. -/
theorem agrees_modify {g : Session → Session} (hdocuments : ∀ s, (g s).documents = s.documents)
    (hdefinitions : ∀ s, (g s).definitions = s.definitions) :
    chain.Agrees (modify g : Build PUnit) (modify g) fun _ => True := by
  refine agrees_of_runs (v := ⟨⟩) (fun _ => runs_modify.2 rfl) fun s hs =>
    ⟨⟨(hdocuments s).trans hs.documents, fun key hkey => ?_⟩, trivial⟩
  unfold Session.definition?
  rw [hdefinitions]
  exact hs.begun key hkey

theorem agrees_modifyGraph {g : Graph → Graph} : chain.Agrees (modifyGraph g) (modifyGraph g) fun _ => True :=
  agrees_modify (fun _ => rfl) fun _ => rfl

theorem agrees_modifyProperty {id : PropertyId} {g : Property → Property} :
    chain.Agrees (Build.modifyProperty id g) (Build.modifyProperty id g) fun _ => True := agrees_modifyGraph

theorem agrees_modifyType {id : TypeId} {g : ObjectType → ObjectType} :
    chain.Agrees (Build.modifyType id g) (Build.modifyType id g) fun _ => True := agrees_modifyGraph

theorem agrees_addTypeCheck {id : TypeId} {check : Check} :
    chain.Agrees (Build.addTypeCheck id check) (Build.addTypeCheck id check) fun _ => True := agrees_modifyType

theorem agrees_addTypeProperty {id : TypeId} {property : PropertyId} :
    chain.Agrees (Build.addTypeProperty id property) (Build.addTypeProperty id property) fun _ => True :=
  agrees_modifyType

theorem agrees_notify {notice : Notice} : chain.Agrees (notify notice) (notify notice) fun _ => True :=
  agrees_modify (fun _ => rfl) fun _ => rfl

theorem agrees_setGraph {graph : Graph} : chain.Agrees (setGraph graph) (setGraph graph) fun _ => True :=
  agrees_modify (fun _ => rfl) fun _ => rfl

theorem agrees_addProperty {property : Property} :
    chain.Agrees (Build.addProperty property) (Build.addProperty property) fun _ => True := by
  unfold Build.addProperty
  exact agrees_graph_bind fun _ => agrees_setGraph.andThen fun _ => agrees_pure trivial

theorem agrees_reserve {namespaceName className : String} {isRoot : Bool} :
    chain.Agrees (Build.reserve namespaceName className isRoot) (Build.reserve namespaceName className isRoot)
      fun _ => True := by
  unfold Build.reserve
  exact agrees_graph_bind fun _ => agrees_setGraph.andThen fun _ => agrees_pure trivial

theorem agrees_finish {type : TypeId} : chain.Agrees (finish type) (finish type) fun _ => True := by
  refine fun s hs => ⟨rfl, fun target s' hrun => ⟨?_, trivial⟩, fun s' => Scene.not_halts_finish⟩
  obtain ⟨_, _, hdocuments, hdefinitions, _⟩ := Session.runs_finish hrun
  refine ⟨hdocuments.trans hs.documents, fun key hkey => ?_⟩
  unfold Session.definition?
  rw [hdefinitions]
  exact hs.begun key hkey

/-! ## Arrays -/

/-- The builders agree on what the node entrusts to them. -/
def Shares (chain : Chain) (document : String) (node : Json) (build build' : Builder) : Prop :=
  ∀ (site : Site) (inner : Json), site.scope.document = document → Entrusts node inner →
    chain.Agrees (build site inner) (build' site inner) fun _ => True

variable {build build' : Builder} {scope : Scope} {site : Site} {node inner : Json} {property : Property}
  {type : TypeId} {name keyword document : String}

theorem agrees_nested (hb : chain.Shares scope.document node build build') (hinner : Entrusts node inner) :
    chain.Agrees (Build.nested build scope name inner) (Build.nested build' scope name inner) fun _ => True := by
  unfold Build.nested
  exact (hb _ inner rfl hinner).andThen fun _ => agrees_modifyProperty.andThen fun _ => agrees_pure trivial

theorem agrees_addTuple (hb : chain.Shares scope.document node build build') {items : List Json}
    (hitems : node.get? "items" = some (.array items)) :
    chain.Agrees (addTuple build scope property items node) (addTuple build' scope property items node)
      fun _ => True := by
  unfold addTuple
  refine (agrees_mapM fun item hitem => ?_).andThen fun positions => ?_
  · exact agrees_nested hb (.hands (.item hitems (List.fst_mem_of_mem_zipIdx hitem)))
  · simp only
    split
    · exact agrees_pure trivial
    · exact agrees_pure trivial
    · exact agrees_pure trivial
    · rename_i members hget
      exact (agrees_nested hb (.hands (.value (by decide) hget))).andThen fun _ => agrees_pure trivial
    · exact agrees_malformed

theorem agrees_addItems (hb : chain.Shares scope.document node build build') :
    chain.Agrees (addItems build scope property node) (addItems build' scope property node) fun _ => True := by
  unfold addItems
  split
  · exact agrees_pure trivial
  · rename_i items hget
    exact agrees_addTuple hb hget
  · rename_i item _ hget
    exact (agrees_nested hb (.hands (.value (by decide) hget))).andThen fun _ => agrees_pure trivial

theorem agrees_addContains (hb : chain.Shares scope.document node build build') :
    chain.Agrees (addContains build scope property node) (addContains build' scope property node) fun _ => True := by
  unfold addContains
  split
  · exact agrees_pure trivial
  · rename_i item hget
    exact (agrees_nested hb (.hands (.value (by decide) hget))).andThen fun _ => agrees_pure trivial

theorem agrees_addArrayChecks (hb : chain.Shares scope.document node build build') :
    chain.Agrees (addArrayChecks build scope property node) (addArrayChecks build' scope property node)
      fun _ => True := by
  unfold addArrayChecks
  refine agrees_behind detached_addCount fun _ => agrees_behind detached_addCount fun _ => ?_
  refine agrees_behind Keyword.detached_flag fun _ => (agrees_addItems hb).andThen fun _ => ?_
  exact agrees_addContains hb

theorem agrees_addKindChecks (hb : chain.Shares scope.document node build build') (kind : Kind) :
    chain.Agrees (addKindChecks build scope kind property node) (addKindChecks build' scope kind property node)
      fun _ => True := by
  unfold addKindChecks
  split
  · exact agrees_of_detached detached_addStringChecks
  · exact agrees_of_detached detached_addNumberChecks
  · exact agrees_of_detached detached_addNumberChecks
  · exact agrees_addArrayChecks hb
  · exact agrees_pure trivial
  · exact agrees_pure trivial
  · exact agrees_pure trivial

theorem agrees_ofKind (hb : chain.Shares site.scope.document node build build') (kind : Kind) :
    chain.Agrees (ofKind build site node kind) (ofKind build' site node kind) fun _ => True := by
  unfold ofKind
  exact agrees_behind detached_presentProperty fun _ => agrees_behind detached_allowsNull fun _ =>
    agrees_addKindChecks hb kind

/-! ## Compositions on a property -/

theorem agrees_noteIfEmpty {combinator : Combinator} {branches : List Json} :
    chain.Agrees (noteIfEmpty combinator name branches) (noteIfEmpty combinator name branches) fun _ => True := by
  unfold noteIfEmpty
  split
  · exact agrees_notify
  · exact agrees_pure trivial

theorem agrees_branch (hb : chain.Shares site.scope.document node build build') (hinner : Entrusts node inner) :
    chain.Agrees (branch build site inner) (branch build' site inner) fun _ => True := by
  unfold branch
  refine Agrees.andThen (hb _ inner rfl hinner) fun id => ?_
  simp only
  split
  · exact agrees_modifyProperty.andThen fun _ => agrees_pure trivial
  · exact agrees_pure trivial

/-- The branches of a combinator are parts of the node: a single one, or the items of a list. -/
theorem tells_branches? {config : Config} {combinator : Combinator} :
    Tells config (Keyword.branches? name node combinator) fun found => ∀ nodes ∈ found, ∀ inner ∈ nodes,
      (∃ keyword ∈ ["not", "if", "then", "else"], node.get? keyword = some inner) ∨
        ∃ keyword ∈ ["allOf", "anyOf", "oneOf"], ∃ items, node.get? keyword = some (.array items) ∧ inner ∈ items := by
  unfold Keyword.branches?
  split
  · exact tells_pure fun _ hnone => nomatch hnone
  · rename_i inner hget
    refine tells_pure fun nodes heq other hother => ?_
    cases heq
    exact Or.inl ⟨"not", by decide, List.mem_singleton.1 hother ▸ hget⟩
  · rename_i word _ _ nodes hnot hget
    refine tells_pure fun found heq inner hinner => Or.inr ⟨word.keyword, ?_, nodes, hget, ?_⟩
    · cases word with
      | not => exact absurd rfl hnot
      | _ => decide
    · cases heq
      exact hinner
  · exact tells_malformed

theorem agrees_addComposition (hb : chain.Shares site.scope.document node build build') (combinator : Combinator) :
    chain.Agrees (addComposition build site node property combinator)
      (addComposition build' site node property combinator) fun _ => True := by
  unfold addComposition
  refine (agrees_of_tells Keyword.detached_branches? tells_branches?).bind fun found hfound => ?_
  split
  · exact agrees_pure trivial
  · rename_i nodes
    refine agrees_noteIfEmpty.andThen fun _ => (agrees_mapM fun inner hinner => ?_).andThen fun _ =>
      agrees_graph_bind fun _ => agrees_pure trivial
    rcases hfound nodes rfl inner hinner with ⟨keyword, hkeyword, hget⟩ | ⟨keyword, hkeyword, items, hget, hmem⟩
    · exact agrees_branch hb (.hands (.branch hkeyword hget))
    · exact agrees_branch hb (.hands (.branches hkeyword hget hmem))

theorem agrees_conditional? {buildBranch buildBranch' : Json → Build PropertyId} {onObject : Bool}
    (hbranch : ∀ keyword ∈ ["not", "if", "then", "else"], ∀ inner, node.get? keyword = some inner →
      chain.Agrees (buildBranch inner) (buildBranch' inner) fun _ => True) :
    chain.Agrees (conditional? buildBranch name node onObject) (conditional? buildBranch' name node onObject)
      fun _ => True := by
  unfold conditional?
  split
  · exact agrees_pure trivial
  · rename_i condition hget
    split
    · refine (hbranch "if" (by decide) _ hget).andThen fun _ => ?_
      refine (agrees_option_mapM fun inner hinner => hbranch "then" (by decide) inner hinner).andThen fun _ => ?_
      refine (agrees_option_mapM fun inner hinner => hbranch "else" (by decide) inner hinner).andThen fun _ => ?_
      exact agrees_pure trivial
    · exact agrees_notify.andThen fun _ => agrees_pure trivial

theorem agrees_applyCompositions (hb : chain.Shares site.scope.document node build build') :
    chain.Agrees (applyCompositions build site node property) (applyCompositions build' site node property)
      fun _ => True := by
  unfold applyCompositions
  refine (agrees_foldlM fun combinator _ _ => agrees_addComposition hb combinator).andThen fun composed => ?_
  refine (agrees_conditional? fun keyword hkeyword inner hget =>
    agrees_branch hb (.hands (.branch hkeyword hget))).andThen fun conditional => ?_
  simp only
  split
  · exact agrees_behind detached_allowsNull fun _ => agrees_pure trivial
  · exact agrees_pure trivial

/-! ## Filling a type in -/

theorem agrees_instanceProperty {required : Bool} :
    chain.Agrees (instanceProperty name type required) (instanceProperty name type required) fun _ => True := by
  unfold instanceProperty
  exact agrees_graph_bind fun _ => agrees_behind detached_newProperty fun _ =>
    agrees_behind detached_allowsNull fun _ => agrees_pure trivial

/-- The members read are those of the node. -/
theorem tells_members? {config : Config} : Tells config (Keyword.members? name node keyword) fun found =>
    ∀ members ∈ found, node.get? keyword = some (.object members) := by
  unfold Keyword.members?
  split
  · exact tells_pure fun _ hnone => nomatch hnone
  · rename_i members hget
    exact tells_pure fun found heq => by cases heq; exact hget
  · exact tells_malformed

/-- Where names are required, there is a list of them. -/
theorem tells_requiredNames {config : Config} : Tells config (Keyword.requiredNames name node) fun names =>
    ∀ name ∈ names, ∃ values, node.get? "required" = some (.array values) := by
  unfold Keyword.requiredNames
  split
  · exact tells_pure fun _ hname => absurd hname List.not_mem_nil
  · rename_i values hget
    exact Keyword.detached_strings.tells.imp fun _ _ _ _ => ⟨values, hget⟩
  · exact tells_malformed

theorem agrees_addProperties (hb : chain.Shares scope.document node build build') :
    chain.Agrees (addProperties build scope type node) (addProperties build' scope type node) fun _ => True := by
  unfold addProperties
  refine (agrees_of_tells Keyword.detached_requiredNames tells_requiredNames).bind fun required hrequired => ?_
  refine (agrees_of_tells Keyword.detached_members? tells_members?).bind fun found hfound => ?_
  simp only
  refine (agrees_forIn fun member hmember _ => ?_).andThen fun _ => ?_
  · have hinner : Entrusts node member.2 := by
      cases found with
      | none => exact absurd hmember List.not_mem_nil
      | some members => exact .hands (.member (by decide) (hfound members rfl) hmember)
    exact (hb _ member.2 rfl hinner).andThen fun _ => agrees_addTypeProperty.andThen fun _ => agrees_pure trivial
  · refine (agrees_forIn fun name hname _ => ?_).andThen fun _ => agrees_pure trivial
    obtain ⟨values, hget⟩ := hrequired name (List.mem_filter.1 hname).1
    exact (hb _ _ rfl (.wanted hget)).andThen fun _ => agrees_addTypeProperty.andThen fun _ => agrees_pure trivial

theorem agrees_addPatternProperty (hb : chain.Shares scope.document node build build')
    {before : List (Pattern × String)} {member : String × Json} (hinner : Entrusts node member.2) :
    chain.Agrees (addPatternProperty build scope type before member)
      (addPatternProperty build' scope type before member) fun _ => True := by
  obtain ⟨source, inner⟩ := member
  unfold addPatternProperty
  simp only
  refine agrees_behind Keyword.detached_pattern fun pattern => ?_
  split
  · exact Agrees.bind (q := fun _ => False) agrees_refuse fun _ hfalse => hfalse.elim
  · exact (agrees_nested hb hinner).andThen fun _ => agrees_addTypeCheck.andThen fun _ => agrees_pure trivial

theorem agrees_addOpenProperties (hb : chain.Shares scope.document node build build') :
    chain.Agrees (addOpenProperties build scope type node) (addOpenProperties build' scope type node)
      fun _ => True := by
  unfold addOpenProperties
  refine agrees_graph_bind fun graph => ?_
  refine (agrees_of_tells Keyword.detached_members? tells_members?).bind fun found hfound => ?_
  simp only
  refine (agrees_foldlM fun member hmember _ => ?_).andThen fun patterns => ?_
  · cases found with
    | none => exact absurd hmember List.not_mem_nil
    | some members => exact agrees_addPatternProperty hb (.hands (.member (by decide) (hfound members rfl) hmember))
  · split
    · exact agrees_pure trivial
    · exact agrees_pure trivial
    · exact agrees_addTypeCheck
    · rename_i members hget
      exact (agrees_nested hb (.hands (.value (by decide) hget))).andThen fun _ => agrees_addTypeCheck
    · exact agrees_malformed

theorem agrees_addPropertyNames (hb : chain.Shares scope.document node build build') :
    chain.Agrees (addPropertyNames build scope type node) (addPropertyNames build' scope type node)
      fun _ => True := by
  unfold addPropertyNames
  split
  · exact agrees_pure trivial
  · rename_i names hget
    exact (agrees_nested hb (.hands (.value (by decide) hget))).andThen fun _ => agrees_addTypeCheck

theorem agrees_addPropertyCounts :
    chain.Agrees (addPropertyCounts scope type node) (addPropertyCounts scope type node) fun _ => True := by
  unfold addPropertyCounts
  refine agrees_behind Keyword.detached_count? fun least => ?_
  split
  · refine Agrees.andThen agrees_addTypeCheck fun _ => agrees_behind Keyword.detached_count? fun most => ?_
    split
    · exact agrees_addTypeCheck
    · exact agrees_pure trivial
  · refine agrees_behind Keyword.detached_count? fun most => ?_
    split
    · exact agrees_addTypeCheck
    · exact agrees_pure trivial

theorem agrees_addDependency (hb : chain.Shares scope.document node build build') {member : String × Json}
    (hinner : Entrusts node (Keyword.withObjectType member.2)) :
    chain.Agrees (addDependency build scope type member) (addDependency build' scope type member) fun _ => True := by
  obtain ⟨trigger, dependency⟩ := member
  have hschema : ∀ name : String, chain.Agrees (do
      let property ← Build.nested build scope name (Keyword.withObjectType dependency)
      Build.addTypeCheck type (.schemaDependency trigger property)) (do
      let property ← Build.nested build' scope name (Keyword.withObjectType dependency)
      Build.addTypeCheck type (.schemaDependency trigger property)) fun _ => True :=
    fun name => (agrees_nested hb hinner).andThen fun _ => agrees_addTypeCheck
  unfold addDependency
  simp only
  split
  · exact agrees_behind Keyword.detached_strings fun _ => agrees_addTypeCheck
  · exact agrees_pure trivial
  · exact hschema _
  · exact hschema _
  · exact agrees_malformed

theorem agrees_addDependencies (hb : chain.Shares scope.document node build build')
    (hkeyword : keyword ∈ dependencyWords) :
    chain.Agrees (addDependencies build scope type node keyword) (addDependencies build' scope type node keyword)
      fun _ => True := by
  unfold addDependencies
  refine (agrees_of_tells Keyword.detached_members? tells_members?).bind fun found hfound => ?_
  split
  · rename_i dependencies
    exact agrees_forM fun member hmember =>
      agrees_addDependency hb (.hands (.dependency hkeyword (hfound _ rfl) hmember))
  · exact agrees_pure trivial

/-! ## Compositions on a type -/

theorem agrees_lift {combinator : Combinator} {source : PropertyId} :
    chain.Agrees (lift type combinator source) (lift type combinator source) fun _ => True := by
  unfold lift
  refine agrees_graph_bind fun graph => ?_
  simp only
  split
  · exact agrees_pure trivial
  · exact agrees_addProperty.andThen fun _ => agrees_addTypeProperty.andThen fun _ => agrees_pure trivial

theorem agrees_liftBranch {combinator : Combinator} {branch : PropertyId} :
    chain.Agrees (liftBranch type branch combinator) (liftBranch type branch combinator) fun _ => True := by
  unfold liftBranch
  refine agrees_graph_bind fun graph => ?_
  split
  · exact agrees_pure trivial
  · exact (agrees_mapM fun _ _ => agrees_lift).andThen fun _ => agrees_pure trivial

theorem agrees_objectBranch (hb : chain.Shares scope.document node build build') {combinator : Combinator}
    (hinner : Entrusts node (Keyword.withObjectType inner)) :
    chain.Agrees (objectBranch build scope type combinator inner) (objectBranch build' scope type combinator inner)
      fun _ => True := by
  unfold objectBranch
  refine (hb _ _ rfl hinner).andThen fun property => ?_
  simp only
  split
  · exact agrees_pure trivial
  · exact agrees_liftBranch.andThen fun _ => agrees_pure trivial

theorem agrees_addObjectComposition (hb : chain.Shares scope.document node build build') {combinator : Combinator} :
    chain.Agrees (addObjectComposition build scope type node combinator)
      (addObjectComposition build' scope type node combinator) fun _ => True := by
  unfold addObjectComposition
  refine (agrees_of_tells Keyword.detached_branches? tells_branches?).bind fun found hfound => ?_
  split
  · exact agrees_pure trivial
  · rename_i nodes
    refine agrees_noteIfEmpty.andThen fun _ => (agrees_mapM fun inner hinner => ?_).andThen fun _ => agrees_addTypeCheck
    rcases hfound nodes rfl inner hinner with ⟨keyword, hkeyword, hget⟩ | ⟨keyword, hkeyword, items, hget, hmem⟩
    · exact agrees_objectBranch hb (.whole hkeyword hget)
    · exact agrees_objectBranch hb (.wholes hkeyword hget hmem)

theorem agrees_applyObjectCompositions (hb : chain.Shares scope.document node build build') :
    chain.Agrees (applyObjectCompositions build scope type node) (applyObjectCompositions build' scope type node)
      fun _ => True := by
  unfold applyObjectCompositions
  refine (agrees_forM fun combinator _ => agrees_addObjectComposition hb).andThen fun _ => ?_
  refine (agrees_conditional? fun keyword hkeyword inner hget => hb _ _ rfl (.whole hkeyword hget)).andThen
    fun conditional => ?_
  split
  · exact agrees_addTypeCheck
  · exact agrees_pure trivial

theorem agrees_fill (hb : chain.Shares scope.document node build build') :
    chain.Agrees (fill build scope type node) (fill build' scope type node) fun _ => True := by
  unfold fill
  have hrest : chain.Agrees (do
      addProperties build scope type node
      addOpenProperties build scope type node
      addPropertyNames build scope type node
      addPropertyCounts scope type node
      dependencyWords.forM (addDependencies build scope type node)
      applyObjectCompositions build scope type node) (do
      addProperties build' scope type node
      addOpenProperties build' scope type node
      addPropertyNames build' scope type node
      addPropertyCounts scope type node
      dependencyWords.forM (addDependencies build' scope type node)
      applyObjectCompositions build' scope type node) fun _ => True := by
    refine (agrees_addProperties hb).andThen fun _ => (agrees_addOpenProperties hb).andThen fun _ => ?_
    refine (agrees_addPropertyNames hb).andThen fun _ => agrees_addPropertyCounts.andThen fun _ => ?_
    refine (agrees_forM fun keyword hkeyword => agrees_addDependencies hb hkeyword).andThen fun _ => ?_
    exact agrees_applyObjectCompositions hb
  simp only
  split
  · exact Agrees.andThen agrees_modifyType fun _ => hrest
  · exact hrest

/-! ## Objects and unions -/

theorem agrees_reserveFor : chain.Agrees (reserveFor site node) (reserveFor site node) fun _ => True := by
  unfold reserveFor
  exact agrees_behind detached_read fun _ => agrees_reserve

theorem agrees_materialize (hb : chain.Shares site.scope.document node build build') :
    chain.Agrees (materialize build site node type) (materialize build' site node type) fun _ => True := by
  unfold materialize
  refine agrees_graph_bind fun graph => Agrees.andThen (agrees_fill hb) fun _ => ?_
  exact agrees_finish.andThen fun _ => agrees_instanceProperty

theorem agrees_objectInto (hb : chain.Shares site.scope.document node build build') :
    chain.Agrees (objectInto build site node type) (objectInto build' site node type) fun _ => True := by
  unfold objectInto
  exact (agrees_materialize hb).andThen fun _ => agrees_behind detached_applyValueKeywords fun _ => agrees_addProperty

theorem agrees_object (hb : chain.Shares site.scope.document node build build') :
    chain.Agrees (object build site node) (object build' site node) fun _ => True := by
  unfold object
  exact agrees_reserveFor.andThen fun _ => agrees_objectInto hb

theorem agrees_member (hb : chain.Shares site.scope.document node build build') (kind : Kind) :
    chain.Agrees (member build site node kind) (member build' site node kind) fun _ => True := by
  unfold member
  split
  · refine agrees_reserveFor.andThen fun _ => agrees_materialize fun site inner hsite hinner => ?_
    exact hb site inner hsite (entrusts_of_withoutCompositions hinner)
  · exact agrees_ofKind hb kind

theorem agrees_complement (hb : chain.Shares site.scope.document node build build') :
    chain.Agrees (complement build site node property) (complement build' site node property) fun _ => True := by
  unfold complement
  exact agrees_behind detached_applyValueKeywords fun _ => (agrees_applyCompositions hb).andThen fun _ =>
    agrees_addProperty

theorem agrees_union (hb : chain.Shares site.scope.document node build build') {types : List Json} :
    chain.Agrees (union build site node types) (union build' site node types) fun _ => True := by
  unfold union
  refine agrees_behind detached_unionKinds fun kinds => agrees_behind detached_newProperty fun fresh => ?_
  refine (agrees_foldlM fun kind _ _ => (agrees_member hb kind).andThen fun _ => agrees_pure trivial).andThen
    fun joined => ?_
  exact agrees_behind detached_allowsNull fun _ => agrees_complement hb

/-! ## Definitions -/

theorem agrees_getProperty_bind {id : PropertyId} {f : Property → Build α}
    (hf : ∀ property, chain.Agrees (f property) (f property) q) :
    chain.Agrees (Build.getProperty id >>= f) (Build.getProperty id >>= f) q := by
  unfold Build.getProperty
  rw [bind_assoc]
  exact agrees_graph_bind fun _ => by rw [pure_bind]; exact hf _

theorem agrees_bind {definition placeholder : PropertyId} :
    chain.Agrees (bind definition placeholder) (bind definition placeholder) fun _ => True := by
  unfold bind Build.getProperty
  rw [bind_assoc]
  refine agrees_graph_bind fun _ => ?_
  rw [pure_bind]
  exact agrees_behind detached_read fun _ => agrees_modifyProperty

theorem agrees_setDefinition {key : DefinitionKey} {definition : Definition} :
    chain.Agrees (modify fun s : Session => s.setDefinition key definition)
      (modify fun s : Session => s.setDefinition key definition) fun _ => True :=
  agrees_of_runs (v := ⟨⟩) (fun _ => runs_modify.2 rfl) fun _ hs => ⟨(hs.define key definition).of_extend, trivial⟩

theorem agrees_complete {key : DefinitionKey} {definition : PropertyId} :
    chain.Agrees (complete key definition) (complete key definition) fun _ => True := by
  unfold complete
  refine agrees_get fun t ht => Agrees.at (agrees_setDefinition.andThen fun _ => ?_) ht
  split
  · exact agrees_forM fun _ _ => agrees_bind
  · exact agrees_pure trivial

theorem agrees_copy {definition : PropertyId} :
    chain.Agrees (copy definition site) (copy definition site) fun _ => True := by
  unfold copy
  refine agrees_getProperty_bind fun source => ?_
  split
  · exact agrees_refuse
  · exact agrees_behind detached_read fun _ => agrees_addProperty

theorem agrees_placeholder {key : DefinitionKey} {reference : String} {known : Option TypeId}
    {waiting : List PropertyId} :
    chain.Agrees (placeholder key site reference known waiting) (placeholder key site reference known waiting)
      fun _ => True := by
  unfold placeholder
  split
  · exact agrees_instanceProperty.andThen fun _ => agrees_addProperty
  · exact agrees_behind detached_presentProperty fun _ => agrees_addProperty.andThen fun _ =>
      agrees_setDefinition.andThen fun _ => agrees_pure trivial

/-- While a definition is being built, its key is on the chain. -/
theorem agrees_begun {β : Type} {key : DefinitionKey} {definition : Definition} {f f' : PUnit → Build β}
    (hf : ∀ u, (chain.extend key).Agrees (f u) (f' u) fun _ => True) :
    chain.Agrees (modify (fun s : Session => s.setDefinition key definition) >>= f)
      (modify (fun s : Session => s.setDefinition key definition) >>= f') fun _ => True := by
  refine Build.Agrees.bind (Q := fun _ => (chain.extend key).Holds) ?_ fun u s hs =>
    Build.Agrees.imp (hf u) (fun _ _ h => ⟨h.1.of_extend, trivial⟩) s hs
  exact agrees_of_runs (v := ⟨⟩) (fun _ => runs_modify.2 rfl) fun _ hs => hs.define key definition

/-- **A definition is built the same way** by builders that agree on its node, or on what that entrusts to them if
it is an object. -/
theorem agrees_define {target : Target}
    (hobject : Keyword.isObject target.node = true →
      (chain.extend target.key).Shares target.key.document target.node build build')
    (hplain : ∀ site : Site, site.scope.document = target.key.document →
      (chain.extend target.key).Agrees (build site target.node) (build' site target.node) fun _ => True) :
    chain.Agrees (define build target) (define build' target) fun _ => True := by
  unfold define
  simp only
  split
  · rename_i hnode
    rw [bind_map_left, bind_map_left]
    refine agrees_reserveFor.andThen fun type => agrees_begun fun _ => ?_
    exact (agrees_objectInto (hobject hnode)).andThen fun _ => agrees_complete.andThen fun _ => agrees_pure trivial
  · rw [pure_bind, pure_bind]
    refine agrees_begun fun _ => (hplain _ rfl).andThen fun _ => ?_
    exact agrees_complete.andThen fun _ => agrees_pure trivial

/-- Looking a reference up leaves the session alone. -/
theorem agrees_locate_at {reference : String} (hs : chain.Holds s) :
    Build.Agrees chain.config (· = s) (locate scope reference) (locate scope reference)
      fun target t => t = s ∧ targetIn? chain.documents scope.document reference = some target := by
  unfold locate
  refine agrees_get fun t ht => ?_
  subst ht
  rw [hs.documents, target?_eq]
  rintro _ rfl
  split
  · rename_i target htarget
    refine ⟨rfl, fun a s' hrun => ?_, fun _ => not_halts_pure⟩
    obtain ⟨rfl, rfl⟩ := runs_pure.1 hrun
    exact ⟨rfl, htarget⟩
  · exact ⟨rfl, fun a s' hrun => absurd hrun not_runs_refuse, fun _ => detached_refuse.not_exhausted⟩

theorem agrees_locate {reference : String} : chain.Agrees (locate scope reference) (locate scope reference)
    fun target => targetIn? chain.documents scope.document reference = some target := fun s hs =>
  (agrees_locate_at hs).imp (fun _ _ h => ⟨h.1 ▸ hs, h.2⟩) s rfl

/-- A reference leads to a definition that nobody has begun, or builders have no part in it. -/
theorem agrees_refer {reference : String} (hs : chain.Holds s)
    (hdefine : ∀ target, targetIn? chain.documents site.scope.document reference = some target →
      s.definition? target.key = none → chain.Agrees (define build target) (define build' target) fun _ => True) :
    Build.Agrees chain.config (· = s) (refer build site reference) (refer build' site reference)
      fun _ s' => chain.Holds s' ∧ True := by
  unfold refer
  refine Build.Agrees.bind (agrees_locate_at hs) fun target => agrees_get fun t ht => ?_
  obtain ⟨rfl, htarget⟩ := ht
  split
  · exact fun u hu => agrees_copy u (hu ▸ hs)
  · exact fun u hu => agrees_placeholder u (hu ▸ hs)
  · rename_i hnone
    exact fun u hu => ((hdefine target htarget hnone).andThen fun _ => agrees_copy) u (hu ▸ hs)

/-! ## Nodes -/

theorem agrees_typed (hb : chain.Shares site.scope.document node build build') {word : String} :
    chain.Agrees (typed build site node word) (typed build' site node word) fun _ => True := by
  unfold typed
  split
  · exact agrees_refuse
  · exact agrees_object hb
  · exact (agrees_ofKind hb _).andThen fun _ => agrees_complement hb

theorem tells_normalize {config : Config} : Tells config (Keyword.normalize name node) fun normal =>
    normal = writtenOut node ∧ normal.isObject = true := by
  unfold Keyword.normalize
  split
  · exact tells_pure ⟨rfl, rfl⟩
  · rename_i value
    exact tells_pure ⟨rfl, isObject_ofBool value⟩
  · exact tells_malformed

/-- A node that is no reference is built the same way by builders that agree on what it entrusts to them. -/
theorem agrees_nodeProperty_of_none (hnone : (writtenOut node).get? "$ref" = none)
    (hb : (writtenOut node).isObject = true → Mild (writtenOut node) →
      chain.Shares site.scope.document (writtenOut node) build build') :
    chain.Agrees (nodeProperty build site node) (nodeProperty build' site node) fun _ => True := by
  unfold nodeProperty
  refine (agrees_of_tells Keyword.detached_normalize tells_normalize).bind fun normal hnormal => ?_
  obtain ⟨rfl, hobject⟩ := hnormal
  rw [hnone]
  simp only
  split
  · rename_i word hget
    refine agrees_typed (hb hobject fun type htype => Or.inl ⟨word, ?_⟩)
    exact Option.some.inj (htype.symm.trans hget)
  · rename_i types hget
    refine agrees_union (hb hobject fun type htype => Or.inr ⟨types, ?_⟩)
    exact Option.some.inj (htype.symm.trans hget)
  · exact agrees_malformed
  · rename_i hget
    have hshares := hb hobject fun type htype => nomatch hget.symm.trans htype
    split
    · exact agrees_object hshares
    · split
      · exact agrees_behind detached_presentProperty fun _ => agrees_complement hshares
      · split
        · exact agrees_behind detached_presentProperty fun _ =>
            agrees_behind Keyword.detached_enumeration? fun _ => agrees_complement hshares
        · exact agrees_behind detached_presentProperty fun _ => agrees_complement hshares

/-- A node that is a reference is built the same way if its definition is. -/
theorem agrees_nodeProperty_of_some {reference : Json} (hsome : (writtenOut node).get? "$ref" = some reference)
    (hs : chain.Holds s)
    (hdefine : ∀ text target, reference = .string text →
      targetIn? chain.documents site.scope.document text = some target → s.definition? target.key = none →
        chain.Agrees (define build target) (define build' target) fun _ => True) :
    Build.Agrees chain.config (· = s) (nodeProperty build site node) (nodeProperty build' site node)
      fun _ s' => chain.Holds s' ∧ True := by
  have hreferred : Build.Agrees chain.config (· = s) (referred build site (writtenOut node) reference)
      (referred build' site (writtenOut node) reference) fun _ s' => chain.Holds s' ∧ True := by
    unfold referred
    split
    · rename_i text
      refine Build.Agrees.bind (agrees_refer hs fun target => hdefine text target rfl) fun id t ht => ?_
      refine (Agrees.at ?_ ht.1) t rfl
      simp only
      split
      · exact agrees_modifyProperty.andThen fun _ => agrees_pure trivial
      · exact agrees_pure trivial
    · exact fun t ht => agrees_malformed t (ht ▸ hs)
  unfold nodeProperty
  refine Build.Agrees.bind (Q := fun normal t => t = s ∧ normal = writtenOut node) ?_ fun normal => ?_
  · rintro _ rfl
    refine ⟨rfl, fun normal t hrun => ?_, fun _ => Keyword.detached_normalize.not_exhausted⟩
    obtain ⟨rfl, rfl, _⟩ := tells_normalize hrun
    exact ⟨rfl, rfl⟩
  · rintro t ⟨ht, rfl⟩
    rw [hsome]
    exact hreferred t ht

end Chain
end Building
end SchemaTypes
